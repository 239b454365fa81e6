import PrismKit.Timeline.Effects
import PrismKit.Library.Clock
import Mathlib.Logic.Relation

/-!
# The loop bodies of `Run`

The three phases of the loop of `Run` are scans that sometimes do something.
`Move` has one constructor for each thing they can do, and the phases are
described by it: a phase that reports progress is a nonempty sequence of moves,
a phase that reports none changes nothing, and the loop ends in a quiescent
machine, where nothing is left to do at this timestamp.
-/

namespace PrismKit

open Library Relation

/-- A deadline that was just set has not arrived. -/
theorem deadlineReached_add {timestamp delay : UInt32} (positive : delay ≠ 0)
    (bounded : delay.toNat ≤ 65535) :
    deadlineReached timestamp (timestamp + delay) = false := by
  unfold deadlineReached
  rw [decide_eq_false_iff_not, UInt32.lt_iff_toNat_lt,
    toNat_sub_add_self timestamp delay positive]
  show ¬ 2 ^ 32 - delay.toNat < 2 ^ 31
  omega

namespace Machine

/-- No active group that `visited` selects by depth and index has a due
instruction. -/
def Undue (timestamp : UInt32) (visited : Nat → Nat → Prop)
    (machine : Machine) : Prop :=
  ∀ group, group < machine.groupCount → (machine.runtimes group).active →
    visited (machine.runtimes group).depth.toNat group →
      machine.cursorDue group
        (timestamp - (machine.runtimes group).startTime) = false

/-- No active group deeper than this one has a due instruction. -/
def Deepest (timestamp : UInt32) (machine : Machine) (group : Nat) : Prop :=
  machine.Undue timestamp fun depth _ =>
    (machine.runtimes group).depth.toNat < depth ∧ depth < machine.groupCount

/-- No active group that the scan for due instructions visits before this one
has a due instruction. -/
def FirstDue (timestamp : UInt32) (machine : Machine) (group : Nat) : Prop :=
  machine.Undue timestamp fun depth other =>
    depth < machine.groupCount ∧
      ((machine.runtimes group).depth.toNat < depth ∨
        depth = (machine.runtimes group).depth.toNat ∧ other < group)

theorem FirstDue.deepest {timestamp : UInt32} {machine : Machine}
    {group : Nat} (first : machine.FirstDue timestamp group) :
    machine.Deepest timestamp group := by
  intro other below active deeper
  exact first other below active ⟨deeper.2, Or.inl deeper.1⟩

/-- One iteration of a scan of `Run` that does something. -/
inductive Move (timestamp : UInt32) : Machine → Machine → Prop
  | discard (machine : Machine) (position : Nat)
      (entry : ExecutingInstruction)
      (found : machine.executing[position]? = some entry)
      (invalid : machine.entryInvalid entry) :
      Move timestamp machine (machine.discardEntry position entry)
  | resume (machine : Machine) (position : Nat)
      (entry : ExecutingInstruction)
      (resumable : machine.Resumable timestamp position entry) :
      Move timestamp machine (machine.resumeEntry timestamp position entry).1
  | complete (machine : Machine) (group : Nat)
      (settled : machine.Settled timestamp)
      (below : group < machine.groupCount)
      (ready : machine.groupReady group) :
      Move timestamp machine (machine.completeGroup timestamp group)
  | pick (machine : Machine) (group : Nat)
      (settled : machine.Settled timestamp)
      (below : group < machine.groupCount)
      (active : (machine.runtimes group).active)
      (due :
        machine.cursorDue group
          (timestamp - (machine.runtimes group).startTime))
      (deepest : machine.Deepest timestamp group) :
      Move timestamp machine (machine.pickInstruction group timestamp).1

/-- A scan state whose flag tells whether the machine has moved. -/
def Progress (timestamp : UInt32) (start : Machine)
    (state : Machine × Bool) : Prop :=
  if state.2 then TransGen (Move timestamp) start state.1
  else state.1 = start

section Progress

variable {timestamp : UInt32} {start machine next : Machine} {flag : Bool}

theorem Progress.refl (timestamp : UInt32) (start : Machine) :
    Progress timestamp start (start, false) :=
  rfl

theorem Progress.move
    (progress : Progress timestamp start (machine, flag))
    (moves : Move timestamp machine next) :
    Progress timestamp start (next, true) := by
  cases flag with
  | false =>
      have same : machine = start := progress
      rw [same] at moves
      exact TransGen.single moves
  | true =>
      exact TransGen.tail progress moves

theorem Progress.moved {state : Machine × Bool}
    (progress : Progress timestamp start state) (moves : state.2 = true) :
    TransGen (Move timestamp) start state.1 := by
  unfold Progress at progress
  rw [if_pos moves] at progress
  exact progress

theorem Progress.still {state : Machine × Bool}
    (progress : Progress timestamp start state) (idle : state.2 = false) :
    state.1 = start := by
  unfold Progress at progress
  rw [if_neg (by simp [idle])] at progress
  exact progress

theorem Progress.reflTransGen
    (progress : Progress timestamp start (machine, flag)) :
    ReflTransGen (Move timestamp) start machine := by
  cases flag with
  | false =>
      have same : machine = start := progress
      rw [same]
  | true =>
      exact TransGen.to_reflTransGen progress

end Progress

/-! ### Draining -/

private theorem observed_executing (group : Nat) (machine : Machine) :
    (machine.observePositiveBoundary group).executing = machine.executing := by
  rw [observePositiveBoundary_eq]
  rfl

private theorem discardEntry_frame (position : Nat)
    (entry : ExecutingInstruction) (machine : Machine) :
    (machine.discardEntry position entry).executing =
        swapRemove machine.executing position ∧
      (machine.discardEntry position entry).groupCount =
        machine.groupCount :=
  ⟨rfl, rfl⟩

private theorem resumeEntry_frame (timestamp : UInt32) (position : Nat)
    (entry : ExecutingInstruction) (machine : Machine) :
    (machine.resumeEntry timestamp position entry).1.groupCount =
        machine.groupCount ∧
      ((∃ deadline,
          (machine.resumeEntry timestamp position entry).2 = true ∧
            (machine.resumeEntry timestamp position entry).1.executing =
              machine.executing.set position
                { entry with deadline := deadline } ∧
            deadlineReached timestamp deadline = false) ∨
        (machine.resumeEntry timestamp position entry).2 = false ∧
          (machine.resumeEntry timestamp position entry).1.executing =
            swapRemove machine.executing position) := by
  obtain ⟨slot, shown, executes, controller, -⟩ :=
    executeSlot_spec entry.instructionIndex timestamp
      (machine.observePositiveBoundary entry.runtimeIndex)
  rw [observePositiveBoundary_eq] at controller executes
  unfold resumeEntry
  rw [observePositiveBoundary_eq]
  generalize
    executed :
      Machine.executeSlot entry.instructionIndex timestamp
        { machine with
          toController :=
            machine.toController.observed entry.runtimeIndex } =
      result at controller executes
  rcases result with ⟨after, delay⟩
  simp only at controller executes
  have executing : after.executing = machine.executing := by
    rw [controller]
    rfl
  have groupCount : after.groupCount = machine.groupCount := by
    rw [controller]
    rfl
  by_cases positive : delay ≠ 0
  · simp only [if_pos positive]
    refine ⟨groupCount, Or.inl ⟨timestamp + delay, trivial, ?_, ?_⟩⟩
    · show after.executing.set position _ = _
      rw [executing]
    · apply deadlineReached_add positive
      obtain ⟨writes, equal⟩ := executes
      have bounded :=
        InstructionMemorySlot.execute_delay machine.strips
          machine.refreshPeriodMs timestamp
          (machine.instructions entry.instructionIndex)
      have delayEq := congrArg (fun value => value.2.1) equal
      simp only at delayEq
      rw [← delayEq]
      exact bounded
  · simp only [if_neg positive]
    constructor
    · show (ite _ _ _ : Machine).groupCount = _
      split <;> exact groupCount
    · refine Or.inr ⟨trivial, ?_⟩
      show swapRemove (ite _ _ _ : Machine).executing position = _
      split <;>
        · rw [← executing]
          rfl

/-- No entry before a position has a deadline that has arrived. -/
private def SettledBelow (machine : Machine) (timestamp : UInt32)
    (position : Nat) : Prop :=
  ∀ other, other < position → ∀ earlier,
    machine.executing[other]? = some earlier →
      deadlineReached timestamp earlier.deadline = false

private theorem SettledBelow.settled {machine : Machine} {timestamp : UInt32}
    {position : Nat} (settled : SettledBelow machine timestamp position)
    (short : machine.executing.length ≤ position) :
    machine.Settled timestamp := by
  intro entry member
  obtain ⟨other, below, found⟩ := List.mem_iff_getElem.mp member
  exact
    settled other (by omega) entry
      (List.getElem?_eq_some_iff.mpr ⟨below, found⟩)

private theorem SettledBelow.succ {machine next : Machine} {timestamp : UInt32}
    {position : Nat} (settled : SettledBelow machine timestamp position)
    (same :
      ∀ other, other < position →
        next.executing[other]? = machine.executing[other]?)
    (scanned :
      ∀ entry, next.executing[position]? = some entry →
        deadlineReached timestamp entry.deadline = false) :
    SettledBelow next timestamp (position + 1) := by
  intro other below earlier found
  rcases Nat.lt_succ_iff_lt_or_eq.mp below with before | rfl
  · exact settled other before earlier ((same other before).symm.trans found)
  · exact scanned earlier found

/-- What discarding and resuming keep holds after `DrainExecuting`, which
leaves no entry whose deadline has arrived. -/
private theorem drainLoop_spec {timestamp : UInt32}
    (property : Machine → Bool → Prop)
    (discard :
      ∀ machine flag position entry,
        machine.executing[position]? = some entry →
          machine.entryInvalid entry → property machine flag →
            property (machine.discardEntry position entry) true)
    (resume :
      ∀ machine flag position entry,
        machine.Resumable timestamp position entry →
          property machine flag →
            property (machine.resumeEntry timestamp position entry).1 true)
    (fuel position : Nat) (flag : Bool) (machine : Machine)
    (enough : machine.executing.length - position ≤ fuel)
    (holds : property machine flag)
    (settled : SettledBelow machine timestamp position) :
    let result := drainLoop timestamp fuel position flag machine
    property result.1 result.2 ∧ result.1.Settled timestamp ∧
      result.1.groupCount = machine.groupCount := by
  induction fuel generalizing position flag machine with
  | zero =>
      exact ⟨holds, settled.settled (by omega), rfl⟩
  | succ fuel inductionHypothesis =>
      rw [drainLoop]
      cases found : machine.executing[position]? with
      | none =>
          have short : machine.executing.length ≤ position :=
            List.getElem?_eq_none_iff.mp found
          exact ⟨holds, settled.settled short, rfl⟩
      | some entry =>
          have below : position < machine.executing.length :=
            (List.getElem?_eq_some_iff.mp found).1
          have shorter := length_swapRemove found
          simp only
          cases invalid : machine.entryInvalid entry with
          | true =>
              obtain ⟨executing, groupCount⟩ :=
                discardEntry_frame position entry machine
              rw [if_pos rfl, ← groupCount]
              apply inductionHypothesis
              · rw [executing]
                omega
              · exact discard machine flag position entry found invalid holds
              · intro other before earlier
                rw [executing, swapRemove_getElem?_of_lt found before]
                exact settled other before earlier
          | false =>
              rw [if_neg Bool.false_ne_true]
              cases reached : deadlineReached timestamp entry.deadline with
              | false =>
                  simp only [Bool.false_eq_true, not_false_eq_true, if_true]
                  apply inductionHypothesis
                  · omega
                  · exact holds
                  · apply settled.succ
                    · intro other _
                      rfl
                    · intro other otherFound
                      rw [found] at otherFound
                      rw [← Option.some.inj otherFound]
                      exact reached
              | true =>
                  simp only [not_true_eq_false, if_false]
                  have resumed :=
                    resume machine flag position entry
                      ⟨found, reached, settled⟩ holds
                  obtain ⟨groupCount, stays | leaves⟩ :=
                    resumeEntry_frame timestamp position entry machine
                  · obtain ⟨deadline, stays, executing, pending⟩ := stays
                    rw [stays, if_pos rfl, ← groupCount]
                    apply inductionHypothesis
                    · rw [executing, List.length_set]
                      omega
                    · exact resumed
                    · apply settled.succ
                      · intro other before
                        rw [executing]
                        exact List.getElem?_set_ne (Nat.ne_of_gt before)
                      · intro other otherFound
                        rw [executing, List.getElem?_set_self below]
                          at otherFound
                        rw [← Option.some.inj otherFound]
                        exact pending
                  · obtain ⟨leaves, executing⟩ := leaves
                    rw [leaves, if_neg Bool.false_ne_true, ← groupCount]
                    apply inductionHypothesis
                    · rw [executing]
                      omega
                    · exact resumed
                    · intro other before earlier
                      rw [executing, swapRemove_getElem?_of_lt found before]
                      exact settled other before earlier

theorem drainExecuting_invariant {timestamp : UInt32}
    (property : Machine → Bool → Prop)
    (discard :
      ∀ machine flag position entry,
        machine.executing[position]? = some entry →
          machine.entryInvalid entry → property machine flag →
            property (machine.discardEntry position entry) true)
    (resume :
      ∀ machine flag position entry,
        machine.Resumable timestamp position entry →
          property machine flag →
            property (machine.resumeEntry timestamp position entry).1 true)
    {machine : Machine} (holds : property machine false) :
    let result := machine.drainExecuting timestamp
    property result.1 result.2 ∧ result.1.Settled timestamp ∧
      result.1.groupCount = machine.groupCount := by
  apply drainLoop_spec property discard resume
  · exact Nat.sub_le _ _
  · exact holds
  · intro other below
    exact absurd below (Nat.not_lt_zero other)

theorem drainExecuting_spec (timestamp : UInt32) (machine : Machine) :
    let result := machine.drainExecuting timestamp
    Progress timestamp machine result ∧ result.1.Settled timestamp ∧
      result.1.groupCount = machine.groupCount := by
  apply
    drainExecuting_invariant fun current flag =>
      Progress timestamp machine (current, flag)
  · intro current flag position entry found invalid progress
    exact progress.move (.discard current position entry found invalid)
  · intro current flag position entry resumable progress
    exact progress.move (.resume current position entry resumable)
  · exact Progress.refl timestamp machine

/-! ### Completing groups -/

/-- Completing a group touches neither the executing array nor the group
count. -/
private theorem startGroupRuntime_frame {group parent : Nat}
    {timestamp : UInt32} {repeats : LoopCount} {machine started : Machine}
    (starts :
      machine.startGroupRuntime group timestamp repeats parent =
        some started) :
    started.executing = machine.executing ∧
      started.groupCount = machine.groupCount ∧
      started.groupIndices = machine.groupIndices := by
  unfold startGroupRuntime at starts
  split at starts
  · cases starts
  · cases starts
    rw [resetGroupInstructionReplayState_instructions]
    exact ⟨rfl, rfl, rfl⟩

private theorem completeGroup_frame (timestamp : UInt32) (group : Nat)
    (machine : Machine) :
    (machine.completeGroup timestamp group).executing = machine.executing ∧
      (machine.completeGroup timestamp group).groupCount =
        machine.groupCount := by
  unfold completeGroup
  simp only
  split
  · split
    · rename_i started starts
      obtain ⟨executing, groupCount, -⟩ := startGroupRuntime_frame starts
      exact ⟨executing, groupCount⟩
    · exact ⟨rfl, rfl⟩
  · unfold endGroup
    simp only [record]
    constructor <;>
      · split
        · split <;> rfl
        · split
          · split <;> rfl
          · split <;> rfl

/-- What every visit keeps holds after `CompleteReadyGroups`; the index counts
the visited groups. -/
theorem completeReadyGroups_invariant {timestamp : UInt32}
    (property : Nat → Machine → Bool → Prop)
    (complete :
      ∀ group machine flag, machine.Settled timestamp →
        group < machine.groupCount → machine.groupReady group →
          property group machine flag →
            property (group + 1) (machine.completeGroup timestamp group) true)
    (skip :
      ∀ group machine flag, machine.groupReady group = false →
        property group machine flag → property (group + 1) machine flag)
    {machine : Machine} (settled : machine.Settled timestamp)
    (holds : property 0 machine false) :
    let result := machine.completeReadyGroups timestamp
    property machine.groupCount result.1 result.2 ∧
      result.1.Settled timestamp ∧
      result.1.groupCount = machine.groupCount := by
  unfold completeReadyGroups
  apply forUpTo_invariant
    (fun count (state : Machine × Bool) =>
      property count state.1 state.2 ∧ state.1.Settled timestamp ∧
        state.1.groupCount = machine.groupCount)
  · exact ⟨holds, settled, rfl⟩
  · rintro group below ⟨current, flag⟩ ⟨holds, settled, sameCount⟩
    cases ready : current.groupReady group with
    | true =>
        obtain ⟨executing, groupCount⟩ :=
          completeGroup_frame timestamp group current
        simp only [if_true]
        refine ⟨?_, ?_, groupCount.trans sameCount⟩
        · apply complete group current flag settled _ ready holds
          rw [sameCount]
          exact below
        · intro entry member
          rw [executing] at member
          exact settled entry member
    | false =>
        simp only [Bool.false_eq_true, if_false]
        exact ⟨skip group current flag ready holds, settled, sameCount⟩

theorem completeReadyGroups_spec {timestamp : UInt32} {machine : Machine}
    (settled : machine.Settled timestamp) :
    let result := machine.completeReadyGroups timestamp
    Progress timestamp machine result ∧ result.1.Settled timestamp ∧
      result.1.groupCount = machine.groupCount ∧
      (result.2 = false →
        ∀ group, group < machine.groupCount →
          machine.groupReady group = false) := by
  obtain ⟨⟨progress, idle⟩, settled', sameCount⟩ :=
    completeReadyGroups_invariant
      (fun count current flag =>
        Progress timestamp machine (current, flag) ∧
          (flag = false →
            ∀ group, group < count → machine.groupReady group = false))
      (by
        rintro group current flag settled below ready ⟨progress, -⟩
        refine ⟨progress.move (.complete current group settled below ready), ?_⟩
        intro impossible
        exact Bool.noConfusion impossible)
      (by
        rintro group current flag ready ⟨progress, idle⟩
        refine ⟨progress, ?_⟩
        intro still other otherBelow
        rcases Nat.lt_succ_iff_lt_or_eq.mp otherBelow with earlier | rfl
        · exact idle still other earlier
        · have same : current = machine := progress.still still
          rw [← same]
          exact ready)
      settled
      ⟨Progress.refl timestamp machine, fun _ group below =>
        absurd below (Nat.not_lt_zero group)⟩
  exact ⟨progress, settled', sameCount, idle⟩

/-! ### Picking instructions -/

/-- What the scan reads of a runtime. -/
private structure SameClock (before after : GroupRuntime) : Prop where
  record : after.record = before.record
  active : after.active = before.active
  depth : after.depth = before.depth
  startTime : after.startTime = before.startTime
  cursor : after.cursor = before.cursor

private theorem SameClock.refl (runtime : GroupRuntime) :
    SameClock runtime runtime :=
  ⟨rfl, rfl, rfl, rfl, rfl⟩

/-- What dispatching changes: the executing array may get an entry whose
deadline lies ahead, and unless a child starts, no group starts or ends. -/
private structure DispatchFrame (timestamp : UInt32) (before : Machine)
    (result : Machine × Bool) : Prop where
  groupCount : result.1.groupCount = before.groupCount
  settled : before.Settled timestamp → result.1.Settled timestamp
  indices : result.1.groupIndices = before.groupIndices
  mark :
    result.2 = false →
      ∀ index,
        (result.1.instructions index).getMark =
          (before.instructions index).getMark
  runtime :
    result.2 = false →
      ∀ group, SameClock (before.runtimes group) (result.1.runtimes group)

private theorem DispatchFrame.of_eq {timestamp : UInt32} {before : Machine}
    {result : Machine × Bool}
    (groupCount : result.1.groupCount = before.groupCount)
    (executing : result.1.executing = before.executing)
    (indices : result.1.groupIndices = before.groupIndices)
    (mark :
      result.2 = false →
        ∀ index,
          (result.1.instructions index).getMark =
            (before.instructions index).getMark)
    (runtimes : result.2 = false → result.1.runtimes = before.runtimes) :
    DispatchFrame timestamp before result := by
  refine ⟨groupCount, ?_, indices, mark, ?_⟩
  · intro settled entry member
    rw [executing] at member
    exact settled entry member
  · intro still group
    rw [runtimes still]
    exact SameClock.refl _

private theorem dispatchRunGroup_frame (before : Controller)
    (group slotIndex : Nat) (timestamp : UInt32) (machine : Machine)
    (isRun : (machine.instructions slotIndex).isRunGroup) :
    DispatchFrame timestamp machine
      (machine.dispatchDueInstruction before group slotIndex timestamp) := by
  unfold dispatchDueInstruction
  simp only [isRun, if_true]
  split
  · exact .of_eq rfl rfl rfl (fun _ _ => rfl) fun _ => rfl
  · split
    · exact .of_eq rfl rfl rfl (fun _ _ => rfl) fun _ => rfl
    · split
      · exact .of_eq rfl rfl rfl (fun _ _ => rfl) fun _ => rfl
      · rename_i started starts
        obtain ⟨executing, groupCount, indices⟩ := startGroupRuntime_frame starts
        refine .of_eq groupCount executing indices ?_ ?_
        · intro impossible
          exact Bool.noConfusion impossible
        · intro impossible
          exact Bool.noConfusion impossible

private theorem dispatchOther_frame (before : Controller)
    (group slotIndex : Nat) (timestamp : UInt32) (machine : Machine)
    (notRun : (machine.instructions slotIndex).isRunGroup = false) :
    DispatchFrame timestamp machine
      (machine.dispatchDueInstruction before group slotIndex timestamp) := by
  obtain ⟨slot, shown, executes, controller, -⟩ :=
    executeSlot_spec slotIndex timestamp machine
  have configuration : slot.SameConfiguration (machine.instructions slotIndex) := by
    obtain ⟨writes, equal⟩ := executes
    have same :=
      InstructionMemorySlot.execute_sameConfiguration machine.strips
        machine.refreshPeriodMs timestamp (machine.instructions slotIndex)
    rw [equal] at same
    exact same
  unfold dispatchDueInstruction
  simp only [notRun, Bool.false_eq_true, if_false]
  generalize machine.executeSlot slotIndex timestamp = result
    at controller executes
  rcases result with ⟨after, delay⟩
  simp only at controller executes ⊢
  have executing : after.executing = machine.executing := by
    rw [controller]
    rfl
  have groupCount : after.groupCount = machine.groupCount := by
    rw [controller]
    rfl
  have indices : after.groupIndices = machine.groupIndices := by
    rw [controller]
    rfl
  have runtimes : after.runtimes = machine.runtimes := by
    rw [controller]
    rfl
  have mark :
      ∀ index,
        (after.instructions index).getMark =
          (machine.instructions index).getMark := by
    intro index
    rw [controller]
    by_cases executed : index = slotIndex
    · subst executed
      simp only [Controller.afterExecution, Function.update_self]
      exact configuration.getMark_eq
    · simp only [Controller.afterExecution, Function.update_of_ne executed]
  split
  · exact .of_eq groupCount executing indices (fun _ => mark) fun _ => runtimes
  · rename_i positive
    split
    · exact
        .of_eq groupCount executing indices (fun _ => mark) fun _ => runtimes
    · have bounded : delay.toNat ≤ 65535 := by
        obtain ⟨writes, equal⟩ := executes
        have delayEq := congrArg (fun value => value.2.1) equal
        simp only at delayEq
        rw [← delayEq]
        exact InstructionMemorySlot.execute_delay ..
      refine ⟨groupCount, ?_, indices, fun _ => mark, ?_⟩
      · intro settled entry member
        have member' :
            entry ∈
              after.executing ++ [⟨slotIndex, group, timestamp + delay⟩] :=
          member
        rw [executing, List.mem_append, List.mem_singleton] at member'
        rcases member' with old | rfl
        · exact settled entry old
        · exact deadlineReached_add positive bounded
      · intro _ other
        by_cases equal : other = group
        · subst equal
          constructor <;> simp [record, updateRuntime, runtimes]
        · constructor <;> simp [record, updateRuntime, runtimes, equal]

/-- What one iteration of the `while` loop changes: unless a child starts, only
the picked group's cursor moves. -/
private structure PickFrame (timestamp : UInt32) (before : Machine)
    (group : Nat) (result : Machine × Bool) : Prop where
  groupCount : result.1.groupCount = before.groupCount
  settled : before.Settled timestamp → result.1.Settled timestamp
  due :
    result.2 = false →
      ∀ other, other ≠ group → ∀ elapsed,
        result.1.cursorDue other elapsed = before.cursorDue other elapsed
  runtime :
    result.2 = false →
      ∀ other,
        SameClock
          { before.runtimes other with
            cursor :=
              (before.runtimes other).cursor +
                if other = group then 1 else 0 }
          (result.1.runtimes other)

private theorem pickInstruction_frame (group : Nat) (timestamp : UInt32)
    (machine : Machine) :
    PickFrame timestamp machine group
      (machine.pickInstruction group timestamp) := by
  unfold pickInstruction
  simp only
  generalize moved :
    updateRuntime group
        (fun runtime => { runtime with cursor := runtime.cursor + 1 })
        (if (machine.instructions (machine.cursorSlot group)).getMark > 0 then
          machine.observePositiveBoundary group
        else
          machine) =
      advanced
  have groupCount : advanced.groupCount = machine.groupCount := by
    rw [← moved, observePositiveBoundary_eq]
    split <;> rfl
  have executing : advanced.executing = machine.executing := by
    rw [← moved, observePositiveBoundary_eq]
    split <;> rfl
  have indices : advanced.groupIndices = machine.groupIndices := by
    rw [← moved, observePositiveBoundary_eq]
    split <;> rfl
  have instructions : advanced.instructions = machine.instructions := by
    rw [← moved, observePositiveBoundary_eq]
    split <;> rfl
  have runtime :
      ∀ other,
        SameClock
          { machine.runtimes other with
            cursor :=
              (machine.runtimes other).cursor +
                if other = group then 1 else 0 }
          (advanced.runtimes other) := by
    intro other
    have observed :
        SameClock (machine.runtimes other)
          ((if (machine.instructions
                (machine.cursorSlot group)).getMark > 0 then
              machine.observePositiveBoundary group
            else
              machine).runtimes other) := by
      rw [observePositiveBoundary_eq]
      split
      · exact ⟨rfl, rfl, rfl, rfl, rfl⟩
      · exact SameClock.refl _
    obtain ⟨record, active, depth, startTime, cursor⟩ := observed
    rw [← moved]
    by_cases equal : other = group
    · subst equal
      rw [if_pos rfl]
      constructor <;> simp only [updateRuntime, Function.update_self]
      · exact record
      · exact active
      · exact depth
      · exact startTime
      · rw [cursor]
    · rw [if_neg equal]
      constructor <;> simp only [updateRuntime, Function.update_of_ne equal]
      · exact record
      · exact active
      · exact depth
      · exact startTime
      · exact cursor
  have dispatch :
      DispatchFrame timestamp advanced
        (advanced.dispatchDueInstruction machine.toController group
          (machine.cursorSlot group) timestamp) := by
    cases isRun :
        (advanced.instructions (machine.cursorSlot group)).isRunGroup with
    | true =>
        exact dispatchRunGroup_frame _ _ _ _ _ isRun
    | false =>
        exact dispatchOther_frame _ _ _ _ _ isRun
  have clock :
      (advanced.dispatchDueInstruction machine.toController group
          (machine.cursorSlot group) timestamp).2 = false →
        ∀ other,
          SameClock
            { machine.runtimes other with
              cursor :=
                (machine.runtimes other).cursor +
                  if other = group then 1 else 0 }
            ((advanced.dispatchDueInstruction machine.toController group
              (machine.cursorSlot group) timestamp).1.runtimes other) := by
    intro still other
    have first := runtime other
    have second := dispatch.runtime still other
    exact
      ⟨second.record.trans first.record, second.active.trans first.active,
        second.depth.trans first.depth, second.startTime.trans first.startTime,
        second.cursor.trans first.cursor⟩
  generalize
    advanced.dispatchDueInstruction machine.toController group
        (machine.cursorSlot group) timestamp =
      result at dispatch clock ⊢
  refine ⟨dispatch.groupCount.trans groupCount, ?_, ?_, clock⟩
  · intro settled
    apply dispatch.settled
    intro entry member
    rw [executing] at member
    exact settled entry member
  · intro still other different elapsed
    have same := clock still other
    have cursor := same.cursor
    rw [if_neg different] at cursor
    rw [cursorDue, cursorDue, decide_eq_decide]
    simp only [cursorSlot, dispatch.indices, indices, same.record, cursor,
      dispatch.mark still, instructions, Nat.add_zero]

/-- Unless a child starts, picking an instruction starts and ends no group. -/
theorem active_pickInstruction {group : Nat} {timestamp : UInt32}
    {machine : Machine}
    (still : (machine.pickInstruction group timestamp).2 = false)
    (other : Nat) :
    ((machine.pickInstruction group timestamp).1.runtimes other).active =
      (machine.runtimes other).active :=
  ((pickInstruction_frame group timestamp machine).runtime still other).active

/-- The scan of `PickDueInstructions` over `count` groups: a property of its
state holds, and as long as no child has started, no visited group has a due
instruction. -/
private structure Scanned (timestamp : UInt32) (count : Nat)
    (property : PickState → Prop) (visited : Nat → Nat → Prop)
    (state : PickState) : Prop where
  holds : property state
  settled : state.machine.Settled timestamp
  groupCount : state.machine.groupCount = count
  undue : state.returned = false → state.machine.Undue timestamp visited

section Scanned

variable {timestamp : UInt32} {count : Nat} {property : PickState → Prop}
  {visited : Nat → Nat → Prop}

/-- A scan may forget what it has visited. -/
private theorem Scanned.weaken {fewer : Nat → Nat → Prop} {state : PickState}
    (scanned : Scanned timestamp count property visited state)
    (weaker :
      ∀ depth group, group < count → fewer depth group →
        visited depth group) :
    Scanned timestamp count property fewer state := by
  refine ⟨scanned.holds, scanned.settled, scanned.groupCount, ?_⟩
  intro running group below active selected
  apply scanned.undue running group below active
  apply weaker _ _ _ selected
  rw [← scanned.groupCount]
  exact below

/-- What a pick does to the property of a scan that has not returned. -/
private def PickKeeps (timestamp : UInt32) (property : PickState → Prop) :
    Prop :=
  ∀ machine group flag, machine.Settled timestamp →
    group < machine.groupCount → (machine.runtimes group).active →
      machine.cursorDue group
          (timestamp - (machine.runtimes group).startTime) →
        machine.FirstDue timestamp group → property ⟨machine, flag, false⟩ →
          property
            ⟨(machine.pickInstruction group timestamp).1, true,
              (machine.pickInstruction group timestamp).2⟩

/-- The `while` loop over an active group when the groups before it were
visited. -/
private theorem pickGroup_spec {elapsed : UInt32} {group : Nat}
    (pick : PickKeeps timestamp property) (fuel : Nat) (state : PickState)
    (scanned : Scanned timestamp count property visited state)
    (running : state.returned = false) (below : group < count)
    (active : (state.machine.runtimes group).active)
    (elapses :
      elapsed = timestamp - (state.machine.runtimes group).startTime)
    (before :
      ∀ depth other, depth < count →
        (state.machine.runtimes group).depth.toNat < depth ∨
            depth = (state.machine.runtimes group).depth.toNat ∧
              other < group →
          visited depth other)
    (enough :
      (state.machine.runtimes group).record.instructionCount -
          (state.machine.runtimes group).cursor ≤
        fuel) :
    Scanned timestamp count property
      (fun depth other => visited depth other ∨ other = group)
      (pickGroup group timestamp elapsed fuel state) := by
  -- Once the group itself is not due, the loop has visited it.
  have stops :
      state.machine.cursorDue group elapsed = false →
        Scanned timestamp count property
          (fun depth other => visited depth other ∨ other = group) state := by
    intro notDue
    refine ⟨scanned.holds, scanned.settled, scanned.groupCount, ?_⟩
    intro _ other otherBelow otherActive selected
    rcases selected with seen | rfl
    · exact scanned.undue running other otherBelow otherActive seen
    · rw [← elapses]
      exact notDue
  induction fuel generalizing state with
  | zero =>
      apply stops
      have exhausted :
          ¬ (state.machine.runtimes group).cursor <
            (state.machine.runtimes group).record.instructionCount := by
        omega
      simp [cursorDue, exhausted]
  | succ fuel inductionHypothesis =>
      rw [pickGroup]
      cases due : state.machine.cursorDue group elapsed with
      | false =>
          simp only [Bool.false_eq_true, if_false]
          exact stops due
      | true =>
          have frame := pickInstruction_frame group timestamp state.machine
          have due' :
              state.machine.cursorDue group
                  (timestamp - (state.machine.runtimes group).startTime) =
                true := by
            rw [← elapses]
            exact due
          have holds :
              property
                ⟨(state.machine.pickInstruction group timestamp).1, true,
                  (state.machine.pickInstruction group timestamp).2⟩ := by
            apply
              pick state.machine group state.progressed scanned.settled _
                active due'
            · intro other otherBelow otherActive selected
              rw [scanned.groupCount] at selected
              exact
                scanned.undue running other otherBelow otherActive
                  (before _ _ selected.1 selected.2)
            · rw [← running]
              exact scanned.holds
            · rw [scanned.groupCount]
              exact below
          have settled := frame.settled scanned.settled
          have groupCount := frame.groupCount.trans scanned.groupCount
          simp only [if_true]
          cases childStarted :
              (state.machine.pickInstruction group timestamp).2 with
          | true =>
              rw [childStarted] at holds
              simp only [if_true]
              refine ⟨holds, settled, groupCount, ?_⟩
              intro impossible
              exact Bool.noConfusion impossible
          | false =>
              rw [childStarted] at holds
              simp only [Bool.false_eq_true, if_false]
              have same := frame.runtime childStarted
              have scanned' :
                  Scanned timestamp count property visited
                    ⟨(state.machine.pickInstruction group timestamp).1, true,
                      false⟩ := by
                refine ⟨holds, settled, groupCount, ?_⟩
                intro _ other otherBelow otherActive selected
                rw [(same other).active] at otherActive
                rw [(same other).depth] at selected
                rw [frame.groupCount] at otherBelow
                have notDue :=
                  scanned.undue running other otherBelow otherActive selected
                by_cases equal : other = group
                · rw [equal, due'] at notDue
                  exact Bool.noConfusion notDue
                · rw [(same other).startTime,
                    frame.due childStarted other equal]
                  exact notDue
              have self := same group
              rw [if_pos rfl] at self
              apply inductionHypothesis _ scanned' rfl
              · exact self.active.trans active
              · rw [self.startTime]
                exact elapses
              · rw [self.depth]
                exact before
              · rw [self.record, self.cursor]
                simp only
                omega
              · intro notDue
                refine ⟨holds, settled, groupCount, ?_⟩
                intro running' other otherBelow otherActive selected
                rcases selected with seen | rfl
                · exact scanned'.undue rfl other otherBelow otherActive seen
                · rw [self.startTime, ← elapses]
                  exact notDue

private theorem pickRuntime_spec (pick : PickKeeps timestamp property)
    (targetDepth : Nat) {group : Nat} (state : PickState)
    (scanned : Scanned timestamp count property visited state)
    (below : group < count)
    (before :
      ∀ depth other, depth < count →
        targetDepth < depth ∨ depth = targetDepth ∧ other < group →
          visited depth other) :
    Scanned timestamp count property
      (fun depth other =>
        visited depth other ∨ depth = targetDepth ∧ other = group)
      (pickRuntime targetDepth timestamp group state) := by
  unfold pickRuntime
  simp only
  split
  · rename_i skipped
    refine ⟨scanned.holds, scanned.settled, scanned.groupCount, ?_⟩
    intro running other otherBelow otherActive selected
    rcases selected with seen | ⟨depth, rfl⟩
    · exact scanned.undue running other otherBelow otherActive seen
    · simp [running, otherActive, depth] at skipped
  · rename_i visits
    simp only [not_or, not_not] at visits
    obtain ⟨running, active, depth⟩ := visits
    apply
      (pickGroup_spec pick
        ((state.machine.runtimes group).record.instructionCount -
          (state.machine.runtimes group).cursor)
        state scanned (by simpa using running) below active rfl
        (by rw [depth]; exact before) (Nat.le_refl _)).weaken
    intro _ other _ selected
    exact selected.imp_right And.right

/-- The groups visited by the scans at the depths from `depths` on. -/
private def DeeperThan (groupCount depths : Nat) (depth _ : Nat) : Prop :=
  depths ≤ depth ∧ depth < groupCount

private theorem pickDepths_spec (pick : PickKeeps timestamp property)
    (depths : Nat) (state : PickState)
    (scanned :
      Scanned timestamp count property (DeeperThan count depths) state) :
    Scanned timestamp count property (DeeperThan count 0)
      (pickDepths timestamp depths state) := by
  induction depths generalizing state with
  | zero =>
      exact scanned
  | succ targetDepth inductionHypothesis =>
      rw [pickDepths, scanned.groupCount]
      apply inductionHypothesis
      have sweep :
          Scanned timestamp count property
            (fun depth group =>
              DeeperThan count (targetDepth + 1) depth group ∨
                depth = targetDepth ∧ group < count)
            (forUpTo (pickRuntime targetDepth timestamp) state count) := by
        apply forUpTo_invariant
          (fun visits (result : PickState) =>
            Scanned timestamp count property
              (fun depth group =>
                DeeperThan count (targetDepth + 1) depth group ∨
                  depth = targetDepth ∧ group < visits)
              result)
        · apply scanned.weaken
          intro depth group _ selected
          rcases selected with deeper | ⟨-, none⟩
          · exact deeper
          · exact absurd none (Nat.not_lt_zero group)
        · intro group below current scanned'
          apply
            (pickRuntime_spec pick targetDepth current scanned' below
              fun depth other bounded earlier =>
                earlier.imp_left fun deeper => ⟨deeper, bounded⟩).weaken
          intro depth other _ selected
          rcases selected with deeper | ⟨same, earlier⟩
          · exact Or.inl (Or.inl deeper)
          · rcases Nat.lt_succ_iff_lt_or_eq.mp earlier with visited | last
            · exact Or.inl (Or.inr ⟨same, visited⟩)
            · exact Or.inr ⟨same, last⟩
      apply sweep.weaken
      intro depth group below selected
      rcases Nat.lt_or_eq_of_le selected.1 with deeper | same
      · exact Or.inl ⟨deeper, selected.2⟩
      · exact Or.inr ⟨same.symm, below⟩

end Scanned

/-- What a pick keeps of a scan that has not returned holds after the scan of
`PickDueInstructions`. -/
private theorem pickDueInstructions_scanned {timestamp : UInt32}
    (property : PickState → Prop) (pick : PickKeeps timestamp property)
    {machine : Machine} (settled : machine.Settled timestamp)
    (holds : property ⟨machine, false, false⟩) :
    Scanned timestamp machine.groupCount property
      (DeeperThan machine.groupCount 0)
      (pickDepths timestamp machine.groupCount ⟨machine, false, false⟩) := by
  apply pickDepths_spec pick
  refine ⟨holds, settled, rfl, ?_⟩
  intro _ group _ _ selected
  exact absurd selected.2 (Nat.not_lt.mpr selected.1)

/-- What a pick keeps as long as no child has started, and what it then leads
to when one starts. -/
theorem pickDueInstructions_invariant {timestamp : UInt32}
    (property : Bool → Machine → Prop)
    (pick :
      ∀ machine group, machine.Settled timestamp →
        group < machine.groupCount → (machine.runtimes group).active →
          machine.cursorDue group
              (timestamp - (machine.runtimes group).startTime) →
            machine.FirstDue timestamp group → property false machine →
              property (machine.pickInstruction group timestamp).2
                (machine.pickInstruction group timestamp).1)
    {machine : Machine} (settled : machine.Settled timestamp)
    (holds : property false machine) :
    ∃ childStarted,
      property childStarted (machine.pickDueInstructions timestamp).1 := by
  have scanned :=
    pickDueInstructions_scanned
      (fun state => property state.returned state.machine)
      (fun current group _ settled' below active due first kept =>
        pick current group settled' below active due first kept)
      settled holds
  exact ⟨_, scanned.holds⟩

/-- `PickDueInstructions` reports no progress only if no active group has a
due instruction. -/
theorem pickDueInstructions_spec {timestamp : UInt32} {machine : Machine}
    (settled : machine.Settled timestamp) :
    let result := machine.pickDueInstructions timestamp
    Progress timestamp machine result ∧ result.1.Settled timestamp ∧
      result.1.groupCount = machine.groupCount ∧
      (result.2 = false →
        ∀ group, group < machine.groupCount →
          (machine.runtimes group).active →
          (machine.runtimes group).depth.toNat < machine.groupCount →
            machine.cursorDue group
              (timestamp - (machine.runtimes group).startTime) = false) := by
  have keeps :
      PickKeeps timestamp fun state =>
        Progress timestamp machine (state.machine, state.progressed) ∧
          (state.progressed = false → state.returned = false) := by
    rintro current group flag settled below active due first ⟨progress, -⟩
    refine ⟨?_, fun impossible => Bool.noConfusion impossible⟩
    exact
      progress.move
        (.pick current group settled below active due first.deepest)
  have scanned :=
    pickDueInstructions_scanned _ keeps settled
      ⟨Progress.refl timestamp machine, fun _ => rfl⟩
  obtain ⟨progress, returned⟩ := scanned.holds
  refine ⟨progress, scanned.settled, scanned.groupCount, ?_⟩
  intro still group below active deep
  have same := progress.still still
  have undue := scanned.undue (returned still)
  simp only at same
  rw [same] at undue
  exact undue group below active ⟨Nat.zero_le _, deep⟩

/-- Nothing is left to do at a timestamp. -/
structure Quiescent (timestamp : UInt32) (machine : Machine) : Prop where
  settled : machine.Settled timestamp
  unready :
    ∀ group, group < machine.groupCount → machine.groupReady group = false
  undue :
    ∀ group, group < machine.groupCount → (machine.runtimes group).active →
      (machine.runtimes group).depth.toNat < machine.groupCount →
        machine.cursorDue group
          (timestamp - (machine.runtimes group).startTime) = false

theorem iteration_spec (timestamp : UInt32) (machine : Machine) :
    let drained := machine.drainExecuting timestamp
    let completed := drained.1.completeReadyGroups timestamp
    let picked := completed.1.pickDueInstructions timestamp
    if drained.2 || completed.2 || picked.2 then
      TransGen (Move timestamp) machine picked.1
    else
      picked.1 = machine ∧ Quiescent timestamp machine := by
  intro drained completed picked
  obtain ⟨drainProgress, settled, drainCount⟩ :=
    drainExecuting_spec timestamp machine
  obtain ⟨completeProgress, settled', completeCount, unready⟩ :=
    completeReadyGroups_spec settled
  obtain ⟨pickProgress, settled'', pickCount, undue⟩ :=
    pickDueInstructions_spec settled'
  have drainSteps := drainProgress.reflTransGen
  have completeSteps := completeProgress.reflTransGen
  have pickSteps := pickProgress.reflTransGen
  cases drainFlag : drained.2 with
  | true =>
      have moved := drainProgress.moved drainFlag
      simp only [Bool.true_or, if_true]
      exact (moved.trans_left completeSteps).trans_left pickSteps
  | false =>
      have drainedSame := drainProgress.still drainFlag
      cases completeFlag : completed.2 with
      | true =>
          have moved := completeProgress.moved completeFlag
          simp only [Bool.or_true, Bool.true_or, if_true]
          exact (TransGen.trans_right drainSteps moved).trans_left pickSteps
      | false =>
          have completedSame := completeProgress.still completeFlag
          cases pickFlag : picked.2 with
          | true =>
              have moved := pickProgress.moved pickFlag
              simp only [Bool.or_true, if_true]
              exact
                TransGen.trans_right drainSteps
                  (TransGen.trans_right completeSteps moved)
          | false =>
              have pickedSame := pickProgress.still pickFlag
              have unready' := unready completeFlag
              have undue' := undue pickFlag
              have completedMachine : completed.1 = machine :=
                completedSame.trans drainedSame
              simp only [Bool.or_false, Bool.false_eq_true, if_false]
              refine ⟨pickedSame.trans completedMachine, ?_, ?_, ?_⟩
              · rw [← drainedSame]
                exact settled
              · rw [← drainedSame]
                exact unready'
              · rw [← completedMachine]
                exact undue'

/-- A finished loop is a sequence of moves into a quiescent machine. -/
theorem runLoop_spec {timestamp : UInt32} {fuel : Nat}
    {machine settled : Machine}
    (finished : runLoop timestamp fuel machine = some settled) :
    ReflTransGen (Move timestamp) machine settled ∧
      Quiescent timestamp settled := by
  induction fuel generalizing machine with
  | zero =>
      cases finished
  | succ fuel inductionHypothesis =>
      have iteration := iteration_spec timestamp machine
      rw [runLoop] at finished
      simp only at finished iteration
      split at finished
      · rename_i progress
        rw [if_pos progress] at iteration
        obtain ⟨steps, quiescent⟩ := inductionHypothesis finished
        exact ⟨iteration.to_reflTransGen.trans steps, quiescent⟩
      · rename_i idle
        rw [if_neg idle] at iteration
        obtain ⟨same, quiescent⟩ := iteration
        cases finished
        rw [same]
        exact ⟨ReflTransGen.refl, quiescent⟩

end Machine

end PrismKit
