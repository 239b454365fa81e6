import PrismKit.Timeline.Nesting
import PrismKit.Timeline.Stranding

/-!
# Refused calls

The completion scan leaves no target without work in the way of the scan that
picks, as long as no step of the `Run` strands one.  So a call is refused only
while its target has work, except after a step that strands a target.
-/

namespace PrismKit

open Library

namespace Machine

variable {rank : Nat → Nat} {machine after : Machine} {timestamp : UInt32}
  {event : Event}

theorem Chronicle.size_pos {inside : Bool} {machine : Machine}
    (chronicle : Chronicle inside machine) :
    ∀ group, (machine.runtimes group).active = true →
      0 < machine.size group := by
  have root :
      (machine.runtimes 0).active = true → 0 < machine.size 0 := by
    refine
      chronicle.invariant
        (fun machine =>
          (machine.runtimes 0).active = true → 0 < machine.size 0)
        ?_ ?_ ?_
    · intro repeats machine origin active
      have found : machine.activation 0 = some _ :=
        GroupRuntime.activation_of_active active
      rw [origin.activation] at found
      split at found
      · rename_i condition
        exact Nat.pos_of_ne_zero condition.2
      · cases found
    · intro before after rests inductionHypothesis active
      rw [rests.runtimes] at active
      rw [rests.size_eq]
      exact inductionHypothesis active
    · intro rank before after event _ _ step _ inductionHypothesis active
      rw [step.sameProgram.size_eq]
      exact inductionHypothesis (step.root_active active)
  intro group active
  by_cases isRoot : group = 0
  · rw [isRoot] at active ⊢
    exact root active
  · obtain ⟨rank, sound⟩ := chronicle.sound
    exact
      sound.committed.populated group (sound.tree.inRange group active) isRoot

theorem FirstDue.meetsCall {group target : Nat}
    (first : machine.FirstDue timestamp group) (sound : machine.Sound rank)
    (due : machine.Due timestamp group)
    (calls :
      machine.callee group (machine.runtimes group).cursor = some target) :
    machine.MeetsCall (machine.DueAt timestamp) target := by
  refine
    ⟨group, due.below, (machine.runtimes group).cursor, due.remaining,
      ⟨due.active, Nat.le_refl _, due.reached⟩, calls, ?_⟩
  intro other below earlier inRange otherDue scansFirst
  exfalso
  obtain ⟨active, ahead, reached⟩ := otherDue
  have depth := sound.tree.depth other active
  have undue :
      (machine.runtimes group).depth.toNat <
            (machine.runtimes other).depth.toNat ∨
          (machine.runtimes other).depth.toNat =
              (machine.runtimes group).depth.toNat ∧
            other < group →
        False := by
    intro visited
    have later :=
      undue_rest sound active
        (first other below active ⟨by omega, visited⟩) ahead inRange
    exact absurd reached (UInt32.not_le.mpr later)
  rcases scansFirst with deeper | ⟨level, lower | ⟨rfl, before⟩⟩
  · exact undue (Or.inl deeper)
  · exact undue (Or.inr ⟨level, lower⟩)
  · exact Nat.not_le.mpr before ahead

/-- No earlier step of the same `Run` strands a target. -/
def SmoothUntil (machine : Machine) (earlier : List Moment) (run : Nat) :
    Prop :=
  ∀ step ∈ earlier, step.run = run →
    ¬ step.before.Strands (UInt32.ofNat (machine.clocks.getD run 0))
      step.event

def Conflict (moment : Moment) : Prop :=
  ∀ group slot status, moment.event = .rejected group slot status →
    moment.before.Outstanding
      (findGroup moment.before.groups moment.before.groupCount
        (moment.before.instructions slot).getTargetGroupId)

/-- A call is refused without a conflict only after a step of the same `Run`
that strands a target. -/
def Justified (machine : Machine) : Prop :=
  ∀ earlier moment, earlier ++ [moment] <+: machine.history →
    moment.run < machine.clocks.length ∧
      (machine.SmoothUntil earlier moment.run → Conflict moment)

/-- No step of the current `Run` strands a target. -/
def Smooth (machine : Machine) : Prop :=
  machine.SmoothUntil machine.history (machine.clocks.length - 1)

/-- What is known of refused calls inside a `Run`. -/
structure Justifying (timestamp : UInt32) (machine : Machine) : Prop where
  chronicle : Chronicle true machine
  instant : machine.timestamp = timestamp
  justified : machine.Justified

/-- The steps before a smooth step were smooth, and so is the step. -/
private theorem smooth_of_logged (logged : Logged machine after event)
    (smooth : after.Smooth) :
    machine.Smooth ∧
      ¬ machine.toController.Strands machine.timestamp event := by
  unfold Smooth SmoothUntil at smooth ⊢
  rw [logged.history, logged.around.clocks] at smooth
  refine ⟨fun step member => smooth step (List.mem_append_left _ member), ?_⟩
  have member :
      (⟨machine.clocks.length - 1, event, machine.toController,
        after.toController⟩ : Moment) ∈
        machine.history ++
          [⟨machine.clocks.length - 1, event, machine.toController,
            after.toController⟩] :=
    List.mem_append_right _ (List.mem_singleton.mpr rfl)
  rw [timestamp_eq]
  exact smooth _ member rfl

/-- One move, as long as a call that it refuses meets a conflict. -/
private theorem Justifying.move (justifying : Justifying timestamp machine)
    (move : Move timestamp machine after)
    (logged : Logged machine after event)
    (conflict :
      machine.Smooth →
        ∀ group slot status, event = .rejected group slot status →
          machine.Outstanding
            (findGroup machine.groups machine.groupCount
              (machine.instructions slot).getTargetGroupId)) :
    Justifying timestamp after := by
  obtain ⟨chronicle, instant, justified⟩ := justifying
  refine ⟨.moved _ _ chronicle (instant ▸ move), ?_, ?_⟩
  · rw [logged.timestamp_eq, instant]
  · intro earlier moment front
    rw [logged.history, List.prefix_concat_iff] at front
    simp only [SmoothUntil, logged.around.clocks]
    rcases front with last | old
    · obtain ⟨rfl, same⟩ := List.append_inj' last rfl
      cases same
      have positive := chronicle.clocks_length.1
      exact ⟨Nat.sub_lt positive Nat.one_pos, conflict⟩
    · exact justified earlier moment old

/-- Draining refuses no call. -/
private theorem Justifying.drained (justifying : Justifying timestamp machine) :
    Justifying timestamp (machine.drainExecuting timestamp).1 := by
  refine
    (drainExecuting_invariant (fun current _ => Justifying timestamp current)
      ?_ ?_ justifying).1
  · intro current flag position entry found invalid kept
    obtain ⟨rank, sound⟩ := kept.chronicle.sound
    rw [entry_valid sound found] at invalid
    exact Bool.noConfusion invalid
  · intro current flag position entry resumable kept
    obtain ⟨rank, sound⟩ := kept.chronicle.sound
    obtain ⟨_, ⟨delay, rfl⟩, step, logged⟩ := resume_refines sound resumable
    apply kept.move (.resume current position entry resumable) logged
    intro _ group slot status impossible
    cases impossible

/-- As long as no step strands a target, the way is clear of the groups below
`count` that have no work left. -/
structure Cleared (timestamp : UInt32) (count : Nat) (machine : Machine) :
    Prop where
  justifying : Justifying timestamp machine
  clear : machine.Smooth → machine.Clear timestamp count

/-- One visit of the completion scan to a ready group. -/
private theorem Cleared.complete {group : Nat}
    (cleared : Cleared timestamp group machine)
    (settled : machine.Settled timestamp) (below : group < machine.groupCount)
    (ready : machine.groupReady group) :
    Cleared timestamp (group + 1) (machine.completeGroup timestamp group) := by
  obtain ⟨justifying, clear⟩ := cleared
  obtain ⟨rank, sound⟩ := justifying.chronicle.sound
  obtain ⟨event, completes, step, logged⟩ :=
    @complete_refines rank machine timestamp sound group below ready
  constructor
  · apply justifying.move (.complete machine group settled below ready) logged
    rintro _ other slot status rfl
    rcases completes with impossible | impossible <;> cases impossible
  · intro smooth
    obtain ⟨before, strandsNot⟩ := smooth_of_logged logged smooth
    rw [justifying.instant] at strandsNot
    exact
      (clear before).completed sound justifying.chronicle.size_pos step
        completes strandsNot

/-- One visit to a group that is not ready. -/
private theorem Cleared.skip {group : Nat}
    (cleared : Cleared timestamp group machine)
    (unready : machine.groupReady group = false) :
    Cleared timestamp (group + 1) machine := by
  obtain ⟨justifying, clear⟩ := cleared
  obtain ⟨rank, sound⟩ := justifying.chronicle.sound
  refine ⟨justifying, ?_⟩
  intro smooth
  apply (clear smooth).skipped sound
  intro ready
  rw [groupReady_of_ready sound ready] at unready
  exact Bool.noConfusion unready

/-- After the completion scan the way is clear for the scan that picks. -/
private theorem Justifying.completed
    (justifying : Justifying timestamp machine)
    (settled : machine.Settled timestamp) :
    let completed := (machine.completeReadyGroups timestamp).1
    Cleared timestamp completed.groupCount completed := by
  have start : Cleared timestamp 0 machine :=
    ⟨justifying, fun _ target below => absurd below (Nat.not_lt_zero target)⟩
  obtain ⟨cleared, -, sameCount⟩ :=
    completeReadyGroups_invariant
      (fun count current _ => Cleared timestamp count current)
      (fun _ _ _ settled below ready cleared =>
        cleared.complete settled below ready)
      (fun _ _ _ unready cleared => cleared.skip unready) settled start
  rw [← sameCount] at cleared
  exact cleared

/-- One pick: the call that it refuses is one that the scan meets, so its
target has work left. -/
private theorem Cleared.pick {group : Nat}
    (cleared : Cleared timestamp machine.groupCount machine)
    (settled : machine.Settled timestamp) (below : group < machine.groupCount)
    (active : (machine.runtimes group).active)
    (cursorDue :
      machine.cursorDue group
        (timestamp - (machine.runtimes group).startTime))
    (first : machine.FirstDue timestamp group) :
    let result := machine.pickInstruction group timestamp
    Justifying timestamp result.1 ∧
      (result.2 = false →
        Cleared timestamp result.1.groupCount result.1) := by
  obtain ⟨justifying, clear⟩ := cleared
  obtain ⟨rank, sound⟩ := justifying.chronicle.sound
  obtain ⟨event, picks, step, logged⟩ :=
    pick_refines sound settled below active cursorDue
  have moved :
      Justifying timestamp (machine.pickInstruction group timestamp).1 := by
    apply
      justifying.move
        (.pick machine group settled below active cursorDue first.deepest)
        logged
    rintro smooth other slot status rfl
    have enabled := step.enabled
    cases picks
    obtain ⟨due, -, -, isRun, -, target, found, -, -, busy⟩ := enabled
    have calls :
        machine.callee group (machine.runtimes group).cursor =
          some target := by
      rw [found]
      exact if_pos isRun
    by_contra spent
    rw [← found] at spent
    exact
      clear smooth target (sound.tree.inRange target busy) busy spent
        (first.meetsCall sound due calls)
  refine ⟨moved, ?_⟩
  intro still
  refine ⟨moved, ?_⟩
  intro smooth
  obtain ⟨before, strandsNot⟩ := smooth_of_logged logged smooth
  rw [justifying.instant] at strandsNot
  rw [step.sameProgram.groupCount]
  apply (clear before).picked step picks _ strandsNot
  rintro parent slot child repeats rfl
  have inactive := step.enabled.2.2.2.2.2.2.2.2
  have started := active_pickInstruction still child
  rw [step.launched_active, inactive] at started
  exact Bool.noConfusion started

/-- The scan that picks refuses a call without a conflict only after a step
that strands its target. -/
private theorem Cleared.picked
    (cleared : Cleared timestamp machine.groupCount machine)
    (settled : machine.Settled timestamp) :
    Justifying timestamp (machine.pickDueInstructions timestamp).1 := by
  obtain ⟨childStarted, kept, -⟩ :=
    pickDueInstructions_invariant
      (fun childStarted current =>
        Justifying timestamp current ∧
          (childStarted = false →
            Cleared timestamp current.groupCount current))
      (fun _ _ settled below active cursorDue first kept =>
        (kept.2 rfl).pick settled below active cursorDue first)
      settled ⟨cleared.justifying, fun _ => cleared⟩
  exact kept

private theorem Justifying.runLoop {fuel : Nat} {settled : Machine}
    (justifying : Justifying timestamp machine)
    (finished : machine.runLoop timestamp fuel = some settled) :
    Justifying timestamp settled := by
  induction fuel generalizing machine with
  | zero =>
      cases finished
  | succ fuel inductionHypothesis =>
      have drained := justifying.drained
      obtain ⟨-, settled', -⟩ := drainExecuting_spec timestamp machine
      have completed := drained.completed settled'
      obtain ⟨-, settled'', -⟩ := completeReadyGroups_spec settled'
      have picked := completed.picked settled''
      rw [Machine.runLoop] at finished
      simp only at finished
      split at finished
      · exact inductionHypothesis picked finished
      · cases finished
        exact picked

/-! ### Through the calls of an application -/

/-- What the other calls do to the trace does not matter. -/
private theorem Justified.of_same {before after : Machine}
    (justified : before.Justified) (history : after.history = before.history)
    (clocks : before.clocks <+: after.clocks) : after.Justified := by
  intro earlier moment front
  rw [history] at front
  obtain ⟨read, conflict⟩ := justified earlier moment front
  refine ⟨Nat.lt_of_lt_of_le read clocks.length_le, ?_⟩
  unfold SmoothUntil
  rw [getD_of_isPrefix clocks read]
  exact conflict

private theorem justified_of_blank (blank : Blank machine) :
    machine.Justified := by
  intro earlier moment front
  rw [blank.history, List.prefix_nil] at front
  simp at front

/-- The start refuses nothing. -/
private theorem justified_of_origin {repeats : LoopCount}
    (origin : Origin repeats machine) : machine.Justified := by
  obtain ⟨controller, history⟩ := origin.history
  intro earlier moment front
  rw [history] at front
  split at front
  · rw [List.prefix_nil] at front
    simp at front
  · have member := front.subset (List.mem_append_right _ List.mem_cons_self)
    rw [List.mem_singleton.mp member, origin.clocks]
    refine ⟨Nat.one_pos, fun _ => ?_⟩
    intro group slot status impossible
    cases impossible

private theorem Justified.run {before after : Machine} {fuel now : Nat}
    {status : ControllerStatus} (justified : before.Justified)
    (legal : Legal before)
    (runs : before.run fuel now = some (after, status)) :
    after.Justified := by
  by_cases active : before.state = .active
  · have loaded : before.state ≠ .editable := by
      rw [active]
      decide
    have begun :
        Justifying (before.getTimestamp now) (before.beginRun now) :=
      ⟨.began before now (legal.chronicle loaded) active,
        timestamp_beginRun before now,
        justified.of_same rfl (List.prefix_append ..)⟩
    unfold Machine.run at runs
    simp only [active, ne_eq, not_true_eq_false, if_false] at runs
    split at runs
    · cases runs
    · rename_i settled finished
      cases runs
      have adjusts := adjusted_conclusion (before.getTimestamp now) settled
      apply (begun.runLoop finished).justified.of_same adjusts.history
      rw [adjusts.clocks]
  · unfold Machine.run at runs
    rw [if_pos active] at runs
    cases runs
    exact justified

theorem justified_of_reachable (reachable : Reachable machine) :
    machine.Justified := by
  induction reachable with
  | fresh strips =>
      exact justified_of_blank ⟨rfl, rfl, fun _ => rfl, rfl⟩
  | @perform before after status operation reachable performs
      inductionHypothesis =>
      have legal := legal_of_reachable reachable
      cases operation with
      | setStrip strip =>
          obtain ⟨rfl, -⟩ := performs
          exact inductionHypothesis.of_same rfl List.prefix_rfl
      | addInstruction instr =>
          have performs' : before.addInstruction instr = (after, status) :=
            performs
          unfold Machine.addInstruction at performs'
          split at performs'
          · cases performs'
            exact inductionHypothesis
          · split at performs'
            · cases performs'
              exact inductionHypothesis
            · split at performs' <;> cases performs'
              · exact inductionHypothesis
              · exact inductionHypothesis.of_same rfl List.prefix_rfl
      | start repeats now =>
          have performs' : before.start repeats now = (after, status) :=
            performs
          rcases start_cases legal.loadable repeats now with
            ⟨-, refused⟩ | ⟨-, -, failure, -, refused⟩ | ⟨-, -, -, -, success, -⟩
          · rw [refused] at performs'
            cases performs'
            exact inductionHypothesis
          · rw [refused] at performs'
            cases performs'
            exact inductionHypothesis
          · rw [performs'] at success
            cases success
            exact justified_of_origin (origin_of_start legal.loadable performs')
      | run now =>
          obtain ⟨fuel, runs⟩ := performs
          exact inductionHypothesis.run legal runs
      | resetInstructions =>
          obtain ⟨rfl, -⟩ := performs
          exact justified_of_blank ⟨rfl, rfl, fun _ => rfl, rfl⟩
      | setRefreshPeriodMs periodMs =>
          have performs' :
              before.setRefreshPeriodMs periodMs = (after, status) :=
            performs
          unfold setRefreshPeriodMs at performs'
          split at performs'
          · cases performs'
            exact inductionHypothesis
          · split at performs' <;> cases performs'
            · exact inductionHypothesis
            · exact inductionHypothesis.of_same rfl List.prefix_rfl
      | setTimestampCallback registered =>
          obtain ⟨rfl, -⟩ := performs
          exact inductionHypothesis.of_same rfl List.prefix_rfl
      | setScheduleCallback registered =>
          obtain ⟨rfl, -⟩ := performs
          exact inductionHypothesis.of_same rfl List.prefix_rfl

/-- A child that is called again while it fades, and once more when it is
done. -/
def calledWhileFading : Machine :=
  hosted
    [{ kind := .runGroup 5 0 }, { mark := 10, kind := .runGroup 5 0 },
      { mark := 40, kind := .runGroup 5 0 },
      { groupId := 5, kind := .fade { percent := 50, durationMs := 20 } }]
    [.start 0 0, .run 0, .run 10, .run 40]

/-- Two calls of a child that is done at once. -/
def calledTwice : Machine :=
  hosted
    [{ kind := .runGroup 5 0 }, { kind := .runGroup 5 0 },
      { groupId := 5, kind := .setSingleColor ⟨1, 2, 3⟩ 0 }]
    [.start 0 0, .run 0]

end Machine

end PrismKit
