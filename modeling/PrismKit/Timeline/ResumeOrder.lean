import PrismKit.Timeline.Pass
import PrismKit.Timeline.Session
import PrismKit.Timeline.Wakeup

/-!
# The order of resumption

The executing array is scanned from its front, and an instruction joins it at
the back when its group dispatches it.  So the timed instructions of a pass are
resumed in program order as long as the array keeps them in program order.  The
compaction after a completed instruction moves the last entry of the array to
the front of everything behind the hole, and so past other entries of its own
group if there are any.
-/

namespace PrismKit

open Library Relation

namespace Controller

/-- The executing array holds the entries of every group in program order. -/
def InOrder (controller : Controller) : Prop :=
  controller.outstanding.Pairwise fun earlier later =>
    earlier.1 = later.1 →
      ProgramOrder controller.instructions earlier.2 later.2

/-- Compacting the array at a position moves its last entry past another entry
of the same group. -/
def overtakesAt (controller : Controller) (position : Nat) : Bool :=
  (passed controller.outstanding position).any fun other =>
    controller.outstanding.getLast?.any fun last => last.1 == other.1

end Controller

/-- A timed instruction completes, and the compaction reorders a group. -/
def Event.overtakes (controller : Controller) : Event → Bool
  | .resumed group slot delay =>
      delay == 0 &&
        controller.overtakesAt (controller.outstanding.idxOf (group, slot))
  | _ => false

namespace Controller

variable {rank : Nat → Nat} {controller next : Controller}
  {strips : StripId → Strip} {timestamp : UInt32} {event : Event}

theorem InOrder.ordered (ordered : controller.InOrder)
    {left right group slot other : Nat} (before : left < right)
    (leftFound : controller.outstanding[left]? = some (group, slot))
    (rightFound : controller.outstanding[right]? = some (group, other)) :
    ProgramOrder controller.instructions slot other := by
  obtain ⟨leftBelow, leftEq⟩ := List.getElem?_eq_some_iff.mp leftFound
  obtain ⟨rightBelow, rightEq⟩ := List.getElem?_eq_some_iff.mp rightFound
  have related :=
    List.pairwise_iff_getElem.mp ordered left right leftBelow rightBelow before
  rw [leftEq, rightEq] at related
  exact related rfl

/-- The resumed entry is the first one whose deadline has arrived; the
completed one is removed by compaction. -/
theorem Step.resumed_position {group slot : Nat} {delay : UInt32}
    (step :
      Step strips timestamp controller (.resumed group slot delay) next) :
    ∃ position entry,
      controller.Resumable timestamp position entry ∧
        entry.runtimeIndex = group ∧ entry.instructionIndex = slot ∧
        (delay = 0 →
          next.outstanding = swapRemove controller.outstanding position) := by
  cases step with
  | resumedAgain position entry slot delay shown resumable executes positive =>
      exact
        ⟨position, entry, resumable, rfl, rfl,
          fun zero => absurd zero positive⟩
  | resumedLast position entry slot shown resumable executes =>
      refine ⟨position, entry, resumable, rfl, rfl, fun _ => ?_⟩
      exact (map_swapRemove ..).symm

theorem outstanding_getElem? {position : Nat} {entry : ExecutingInstruction}
    (found : controller.executing[position]? = some entry) :
    controller.outstanding[position]? =
      some (entry.runtimeIndex, entry.instructionIndex) := by
  simp [Controller.outstanding, found]

theorem Resumable.outstanding {position : Nat} {entry : ExecutingInstruction}
    (resumable : controller.Resumable timestamp position entry) :
    controller.outstanding[position]? =
      some (entry.runtimeIndex, entry.instructionIndex) :=
  outstanding_getElem? resumable.found

theorem Work.nodup_outstanding (work : controller.Work) :
    controller.outstanding.Nodup :=
  work.distinct.of_map _

/-- Dispatched instructions join the array behind those of the same pass. -/
private theorem Sound.ordered_nextSlot (sound : controller.Sound rank)
    {group slot : Nat} (due : controller.Due timestamp group)
    (waits : (group, slot) ∈ controller.outstanding) :
    ProgramOrder controller.instructions slot (controller.nextSlot group) := by
  obtain ⟨-, position, before, slotEq⟩ :=
    sound.work.dispatched group slot waits
  rw [← slotEq]
  exact sound.committed.slotAt_ordered due.below before due.remaining

/-- An array in program order stays so exactly when the step does not
overtake. -/
theorem Step.inOrder_iff
    (step : Step strips timestamp controller event next)
    (sound : controller.Sound rank) (ordered : controller.InOrder) :
    next.InOrder ↔ event.overtakes controller = false := by
  have order :
      ProgramOrder next.instructions = ProgramOrder controller.instructions := by
    funext left right
    exact
      propext (ProgramOrder.congr step.sameProgram.configuration left right)
  have outstanding := step.outstanding
  have kept :
      next.outstanding = controller.outstanding → next.InOrder := by
    intro same
    unfold InOrder
    rw [order, same]
    exact ordered
  cases event with
  | resumed group slot delay =>
      rw [OutstandingAfter] at outstanding
      by_cases done : delay = 0
      · obtain ⟨position, entry, resumable, rfl, rfl, removed⟩ :=
          step.resumed_position
        have found := resumable.outstanding
        have index :
            controller.outstanding.idxOf
                (entry.runtimeIndex, entry.instructionIndex) =
              position := by
          obtain ⟨below, at'⟩ := List.getElem?_eq_some_iff.mp found
          rw [← at']
          exact sound.work.nodup_outstanding.idxOf_getElem position below
        unfold InOrder
        rw [order, removed done, pairwise_swapRemove_iff found ordered]
        simp only [Event.overtakes, done, beq_self_eq_true, Bool.true_and,
          index, overtakesAt, List.any_eq_false, Option.any_eq_true,
          beq_iff_eq, not_exists, not_and]
        constructor
        · intro mayLead other ahead last ends same
          -- The last entry stood behind the one it passes.
          have behind := rel_of_passed ordered ahead ends same.symm
          have leads := mayLead last ends other ahead same
          exact leads.asymm behind
        · intro apart last ends other ahead same
          exact absurd same (apart other ahead last ends)
      · rw [if_neg done] at outstanding
        simp [kept outstanding, Event.overtakes, done]
  | executed group slot delay =>
      rw [OutstandingAfter] at outstanding
      simp only [Event.overtakes, iff_true]
      split at outstanding
      · exact kept outstanding
      · obtain ⟨due, -, slotEq, -⟩ := step.enabled
        unfold InOrder
        rw [order, outstanding, List.pairwise_append]
        refine ⟨ordered, List.pairwise_singleton .., ?_⟩
        rintro ⟨other, earlier⟩ waits later last same
        rw [List.mem_singleton.mp last] at same ⊢
        have sameGroup : other = group := same
        rw [sameGroup] at waits
        rw [slotEq]
        exact sound.ordered_nextSlot due waits
  | started | launched | rejected | discarded | restarted | ended =>
      simp only [Event.overtakes, iff_true]
      exact kept outstanding

/-- After a resumption the entries whose deadline has arrived are among those
that stood behind the resumed one. -/
theorem Step.reached_behind {group slot : Nat} {delay : UInt32}
    (step :
      Step strips timestamp controller (.resumed group slot delay) next) :
    ∃ position : Nat,
      controller.outstanding[position]? = some (group, slot) ∧
        ∀ entry ∈ next.executing,
          deadlineReached timestamp entry.deadline = true →
            ∃ later, position < later ∧
              controller.executing[later]? = some entry := by
  cases step with
  | resumedAgain position resumed slot delay shown resumable executes
      positive =>
      refine ⟨position, resumable.outstanding, ?_⟩
      intro entry member reached
      obtain ⟨later, found⟩ := List.mem_iff_getElem?.mp member
      rcases Nat.lt_trichotomy later position with before | rfl | behind
      · rw [List.getElem?_set_ne (by omega)] at found
        have waits := resumable.first later before entry found
        rw [waits] at reached
        cases reached
      · have below := (List.getElem?_eq_some_iff.mp resumable.found).1
        rw [List.getElem?_set_self below] at found
        rw [← Option.some.inj found] at reached
        have waits := not_reached_of_ahead (ahead_of_delay executes positive)
        rw [waits] at reached
        cases reached
      · rw [List.getElem?_set_ne (by omega)] at found
        exact ⟨later, behind, found⟩
  | resumedLast position resumed slot shown resumable executes =>
      refine ⟨position, resumable.outstanding, ?_⟩
      intro entry member reached
      obtain ⟨later, apart, found⟩ :=
        position_of_mem_swapRemove resumable.found member
      rcases Nat.lt_or_gt_of_ne apart with before | behind
      · have waits := resumable.first later before entry found
        rw [waits] at reached
        cases reached
      · exact ⟨later, behind, found⟩

end Controller

namespace Machine

/-! ### Along a run -/

/-- Timed instructions that one pass of a group resumes in the same `Run` are
resumed in program order. -/
def ResumesInOrder (machine : Machine) : Prop :=
  ∀ earlier second later, machine.history = earlier ++ second :: later →
    ∀ group opening during, Pass group earlier opening during →
      ∀ first ∈ during, first.run = second.run →
        ∀ slot other delay delay',
          first.event = .resumed group slot delay →
            second.event = .resumed group other delay' →
              ProgramOrder machine.instructions slot other

/-- The recorded resumptions come in program order, and those of the current
`Run` precede the entries that are still due. -/
structure Orderly (machine : Machine) : Prop where
  inOrder : machine.InOrder
  runs : ∀ moment ∈ machine.history, moment.run < machine.clocks.length
  due :
    ∀ moment ∈ machine.history, moment.run + 1 = machine.clocks.length →
      ∀ group slot delay, moment.event = .resumed group slot delay →
        ∀ entry ∈ machine.executing, entry.runtimeIndex = group →
          deadlineReached machine.timestamp entry.deadline = true →
            ProgramOrder machine.instructions slot entry.instructionIndex
  resumed :
    machine.history.Pairwise fun first second =>
      first.run = second.run →
        ∀ group slot other delay delay',
          first.event = .resumed group slot delay →
            second.event = .resumed group other delay' →
              ProgramOrder machine.instructions slot other

theorem Origin.orderly {repeats : LoopCount} {machine : Machine}
    (origin : Origin repeats machine) : machine.Orderly := by
  have one := origin.clocks
  have idle := origin.executing
  have recorded :
      machine.history = [] ∨
        ∃ before,
          machine.history =
            [⟨0, .started repeats, before, machine.toController⟩] := by
    obtain ⟨before, history⟩ := origin.history
    split at history
    · exact Or.inl history
    · exact Or.inr ⟨before, history⟩
  constructor
  · simp [Controller.InOrder, Controller.outstanding, idle]
  · intro moment member
    rcases recorded with history | ⟨before, history⟩
    · simp [history] at member
    · rw [history, List.mem_singleton] at member
      rw [member, one]
      exact Nat.one_pos
  · intro moment _ _ group slot delay _ entry member
    rw [idle] at member
    exact absurd member List.not_mem_nil
  · rcases recorded with history | ⟨before, history⟩
    · rw [history]
      exact List.Pairwise.nil
    · rw [history]
      exact List.pairwise_singleton ..

/-- Reading the clock makes nothing that was resumed count any more. -/
theorem Orderly.resting {before after : Machine} (orderly : before.Orderly)
    (rests : Resting before after) : after.Orderly := by
  constructor
  · unfold Controller.InOrder
    rw [rests.outstanding_eq, rests.instructions]
    exact orderly.inOrder
  · intro moment member
    rw [rests.history] at member
    exact
      Nat.lt_of_lt_of_le (orderly.runs moment member) rests.clocks.length_le
  · intro moment member current
    rw [rests.history] at member
    have known := orderly.runs moment member
    have longer := rests.clocks.length_le
    have sameClocks : before.clocks = after.clocks :=
      rests.clocks.eq_of_length (by omega)
    have sameTimestamp : after.timestamp = before.timestamp := by
      rw [timestamp, timestamp, sameClocks]
    rw [rests.executing, rests.instructions, sameTimestamp]
    exact orderly.due moment member (by omega)
  · rw [rests.history, rests.instructions]
    exact orderly.resumed

theorem Orderly.step {rank : Nat → Nat} {before after : Machine}
    {event : Event} (orderly : before.Orderly) (sound : before.Sound rank)
    (read : 0 < before.clocks.length)
    (step :
      before.toController.Step before.strips before.timestamp event
        after.toController)
    (logged : Logged before after event)
    (keeps : event.overtakes before.toController = false) :
    after.Orderly := by
  have order :
      ProgramOrder after.instructions = ProgramOrder before.instructions := by
    funext left right
    exact
      propext (ProgramOrder.congr step.sameProgram.configuration left right)
  have clocks := logged.around.clocks
  constructor
  · exact (step.inOrder_iff sound orderly.inOrder).mpr keeps
  · intro moment member
    rw [logged.history, List.mem_append, List.mem_singleton] at member
    rw [clocks]
    rcases member with old | rfl
    · exact orderly.runs moment old
    · exact Nat.sub_lt read Nat.one_pos
  · intro moment member current group slot delay resumes entry waits same
      reached
    rw [logged.history, List.mem_append, List.mem_singleton] at member
    rw [clocks] at current
    rw [logged.timestamp_eq] at reached
    rw [order]
    rcases member with old | rfl
    · have waited : entry ∈ before.executing := by
        rcases step.armed entry waits with old | ahead
        · exact old
        · rw [Controller.not_reached_of_ahead ahead] at reached
          cases reached
      exact
        orderly.due moment old current group slot delay resumes entry waited
          same reached
    · -- The scan has passed every entry before the one just resumed.
      have resumes' : event = .resumed group slot delay := resumes
      rw [resumes'] at step
      obtain ⟨position, found, behind⟩ := step.reached_behind
      obtain ⟨later, beyond, laterFound⟩ := behind entry waits reached
      have laterFound' := Controller.outstanding_getElem? laterFound
      rw [same] at laterFound'
      exact orderly.inOrder.ordered beyond found laterFound'
  · rw [logged.history, List.pairwise_append, order]
    refine ⟨orderly.resumed, List.pairwise_singleton .., ?_⟩
    intro first old second new sameRun group slot other delay delay' resumes
      resumes'
    rw [List.mem_singleton.mp new] at sameRun resumes'
    have resumes'' : event = .resumed group other delay' := resumes'
    rw [resumes''] at step
    obtain ⟨position, entry, resumable, same, rfl, -⟩ := step.resumed_position
    have current : first.run = before.clocks.length - 1 := sameRun
    exact
      orderly.due first old (by omega) group slot delay resumes entry
        (List.mem_of_getElem? resumable.found) same resumable.reached

/-- As long as no completion overtakes, resumptions come in program order. -/
theorem Chronicle.orderly {inside : Bool} {machine : Machine}
    (chronicle : Chronicle inside machine) :
    (∀ moment ∈ machine.history,
        moment.event.overtakes moment.before = false) →
      machine.Orderly := by
  refine
    chronicle.invariant
      (fun machine =>
        (∀ moment ∈ machine.history,
            moment.event.overtakes moment.before = false) →
          machine.Orderly)
      ?_ ?_ ?_
  · intro repeats machine origin _
    exact origin.orderly
  · intro before after rests inductionHypothesis keeps
    rw [rests.history] at keeps
    exact (inductionHypothesis keeps).resting rests
  · intro rank before after event earlier sound step logged
      inductionHypothesis keeps
    rw [logged.history] at keeps
    have orderly :=
      inductionHypothesis fun moment old =>
        keeps moment (List.mem_append_left _ old)
    have last :=
      keeps _ (List.mem_append_right before.history (List.mem_singleton_self _))
    exact orderly.step sound earlier.clocks_length.1 step logged last

/-- In a run whose completions do not overtake, the timed instructions of a
pass are resumed in program order. -/
theorem resumed_in_order {machine : Machine} (reachable : Reachable machine)
    (keeps :
      ∀ moment ∈ machine.history,
        moment.event.overtakes moment.before = false) :
    machine.ResumesInOrder := by
  intro earlier second later split group opening during pass first member
    sameRun slot other delay delay' resumes resumes'
  have lived : machine.history ≠ [] := by
    rw [split]
    simp
  have chronicle := (legal_of_reachable reachable).chronicle_of_history lived
  have resumed := (chronicle.orderly keeps).resumed
  rw [split, List.pairwise_append] at resumed
  obtain ⟨front, shape, -, -⟩ := pass
  have recorded : first ∈ earlier := by
    rw [shape]
    simp [member]
  exact
    resumed.2.2 first recorded second List.mem_cons_self sameRun group slot
      other delay delay' resumes resumes'

/-- Two Fades on one pixel; the first one ends while the second goes on. -/
def twoFades : Machine :=
  hosted
    [{ kind := .fade { percent := 80, durationMs := 20 } },
      { kind := .fade { percent := 50, durationMs := 100 } }]
    [.start 0 0, .run 0, .run 20]

/-- The compaction moves the second Fade into the hole and past nothing. -/
theorem resumed_in_order_of_twoFades :
    ProgramOrder twoFades.instructions 0 1 := by
  have pass :
      Pass 0 (twoFades.history.take 4)
        ((twoFades.history.take 4).get ⟨0, by decide +kernel⟩)
        ((twoFades.history.take 4).drop 1) :=
    ⟨(twoFades.history.take 4).take 0, split_at _ 0 (by decide +kernel),
      by decide +kernel, by decide +kernel⟩
  have ordered : twoFades.ResumesInOrder :=
    resumed_in_order (reachable_hosted _ _) (by decide +kernel)
  exact
    ordered (twoFades.history.take 4)
      (twoFades.history.get ⟨4, by decide +kernel⟩) (twoFades.history.drop 5)
      (split_at twoFades.history 4 (by decide +kernel)) 0
      ((twoFades.history.take 4).get ⟨0, by decide +kernel⟩)
      ((twoFades.history.take 4).drop 1) pass
      (((twoFades.history.take 4).drop 1).get ⟨2, by decide +kernel⟩)
      (List.get_mem ..) (by decide +kernel) 0 1 0 20 (by decide +kernel)
      (by decide +kernel)

/-- Three Fades on one pixel; the first one ends while the others go on. -/
def threeFades : Machine :=
  hosted
    [{ kind := .fade { percent := 80, durationMs := 20 } },
      { kind := .fade { percent := 50, durationMs := 100 } },
      { kind := .fade { percent := 20, durationMs := 100 } }]
    [.start 0 0, .run 0, .run 20]

/-- The compaction moves the third Fade past the second, which is then the
last to write the pixel. -/
theorem not_resumed_in_order_of_threeFades :
    Reachable threeFades ∧ ¬ threeFades.ResumesInOrder := by
  refine ⟨reachable_hosted _ _, ?_⟩
  intro ordered
  have pass :
      Pass 0 (threeFades.history.take 6)
        ((threeFades.history.take 6).get ⟨0, by decide +kernel⟩)
        ((threeFades.history.take 6).drop 1) :=
    ⟨(threeFades.history.take 6).take 0, split_at _ 0 (by decide +kernel),
      by decide +kernel, by decide +kernel⟩
  have swapped : ProgramOrder threeFades.instructions 2 1 :=
    ordered (threeFades.history.take 6)
      (threeFades.history.get ⟨6, by decide +kernel⟩)
      (threeFades.history.drop 7)
      (split_at threeFades.history 6 (by decide +kernel)) 0
      ((threeFades.history.take 6).get ⟨0, by decide +kernel⟩)
      ((threeFades.history.take 6).drop 1) pass
      (((threeFades.history.take 6).drop 1).get ⟨4, by decide +kernel⟩)
      (List.get_mem ..) (by decide +kernel) 2 1 20 20 (by decide +kernel)
      (by decide +kernel)
  exact absurd swapped (by decide +kernel)

end Machine

end PrismKit
