import PrismKit.Timeline.Twin
import PrismKit.Timeline.Move

/-!
# Twins run in lockstep

The phases of `Run` take the same branches on twin machines, so they make the
same calls with the same arguments and end with twins again.
-/

namespace PrismKit

open Library

namespace Machine

variable {offset : UInt32} {lead lead' : List Output} {inside : Bool}
  {machine other : Machine}

/-- Two calls return the same value and leave twins behind. -/
def Agree {α : Type} (offset : UInt32) (lead lead' : List Output)
    (inside : Bool) (result result' : Machine × α) : Prop :=
  result'.2 = result.2 ∧
    Twin offset lead lead' inside result.1 result'.1

private theorem executing_executeSlot (index : Nat) (timestamp : UInt32)
    (machine : Machine) :
    (machine.executeSlot index timestamp).1.executing = machine.executing := by
  obtain ⟨slot, shown, -, controller, -⟩ :=
    executeSlot_spec index timestamp machine
  rw [controller]
  rfl

/-- The timed work of a group after one of its instructions finished. -/
private def release (group : Nat) (machine : Machine) : Machine :=
  if (machine.runtimes group).activeCount = 0 then
    machine.latch .invalidProgram
  else
    machine.updateRuntime group fun runtime =>
      { runtime with activeCount := runtime.activeCount - 1 }

private theorem resumeEntry_eq {timestamp delay : UInt32} {position : Nat}
    {entry : ExecutingInstruction} {after : Machine}
    (executes :
      (machine.observePositiveBoundary entry.runtimeIndex).executeSlot
          entry.instructionIndex timestamp =
        (after, delay)) :
    machine.resumeEntry timestamp position entry =
      if delay ≠ 0 then
        (({ after with
              executing :=
                after.executing.set position
                  { entry with deadline := timestamp + delay } } :
            Machine).record
          (.resumed entry.runtimeIndex entry.instructionIndex delay)
          machine.toController, true)
      else
        (({ after.release entry.runtimeIndex with
              executing :=
                swapRemove (after.release entry.runtimeIndex).executing
                  position } : Machine).record
          (.resumed entry.runtimeIndex entry.instructionIndex delay)
          machine.toController, false) := by
  unfold resumeEntry
  simp only [executes]
  rfl

private theorem instructions_executeSlot (index : Nat) (timestamp : UInt32)
    (machine : Machine) :
    (machine.executeSlot index timestamp).1.instructions index =
      ((machine.instructions index).execute machine.strips
        machine.refreshPeriodMs timestamp).1 := by
  obtain ⟨slot, shown, ⟨writes, executes⟩, controller, -⟩ :=
    executeSlot_spec index timestamp machine
  rw [controller, executes]
  exact Function.update_self ..

namespace Twin

private theorem applyWrites (writes : List PixelWrite)
    (twin : Twin offset lead lead' inside machine other) :
    Twin offset lead lead' inside (writes.foldl applyWrite machine)
      (writes.foldl applyWrite other) := by
  induction writes generalizing machine other with
  | nil =>
      exact twin
  | cons write rest inductionHypothesis =>
      apply inductionHypothesis
      have written := twin.emit (.setColor write)
      refine { written with strips := ?_ }
      simp only [applyWrite, twin.strips]

private theorem execute_eq
    (twin : Twin offset lead lead' inside machine other) {index : Nat}
    (agree :
      other.instructions index = (machine.instructions index).shift offset)
    (timestamp : UInt32) :
    (other.instructions index).execute other.strips other.refreshPeriodMs
        (timestamp + offset) =
      (((machine.instructions index).execute machine.strips
          machine.refreshPeriodMs timestamp).1.shift offset,
        ((machine.instructions index).execute machine.strips
          machine.refreshPeriodMs timestamp).2) := by
  have steady : offset = 0 ∨ (machine.instructions index).isFade = false :=
    twin.steady.imp_right fun fadeless => fadeless index
  rw [agree, twin.strips, twin.refreshPeriodMs]
  exact InstructionMemorySlot.execute_shift _ _ _ _ _ steady

theorem executed_slot (twin : Twin offset lead lead' inside machine other)
    {index : Nat}
    (agree :
      other.instructions index = (machine.instructions index).shift offset)
    (timestamp : UInt32) :
    (other.executeSlot index (timestamp + offset)).1.instructions index =
      ((machine.executeSlot index timestamp).1.instructions index).shift
        offset := by
  rw [instructions_executeSlot, instructions_executeSlot,
    twin.execute_eq agree]

theorem executeSlot (twin : Twin offset lead lead' inside machine other)
    {index : Nat}
    (agree :
      other.instructions index = (machine.instructions index).shift offset)
    (timestamp : UInt32) :
    Agree offset lead lead' inside (machine.executeSlot index timestamp)
      (other.executeSlot index (timestamp + offset)) := by
  have configuration :=
    InstructionMemorySlot.execute_sameConfiguration machine.strips
      machine.refreshPeriodMs timestamp (machine.instructions index)
  unfold Machine.executeSlot
  rw [twin.execute_eq agree]
  generalize
    (machine.instructions index).execute machine.strips
      machine.refreshPeriodMs timestamp = executed at configuration ⊢
  obtain ⟨slot, delay, writes, shown⟩ := executed
  refine ⟨rfl, ?_⟩
  apply applyWrites
  have replaced :
      Twin offset lead lead' inside
        { machine with
          instructions := Function.update machine.instructions index slot }
        { other with
          instructions :=
            Function.update other.instructions index (slot.shift offset) } := by
    apply twin.withInstructions
    · intro changed
      by_cases equal : changed = index
      · subst equal
        rw [Function.update_self, Function.update_self]
        exact slot.shift_sameConfiguration offset
      · rw [Function.update_of_ne equal, Function.update_of_ne equal]
        exact twin.configuration changed
    · intro changed
      by_cases equal : changed = index
      · subst equal
        rw [Function.update_self]
        exact configuration
      · rw [Function.update_of_ne equal]
        rfl
    · intro changed before
      by_cases equal : changed = index
      · subst equal
        rw [Function.update_self, Function.update_self]
      · rw [Function.update_of_ne equal, Function.update_of_ne equal]
        exact before
  refine { replaced with showRequested := ?_ }
  simp only [twin.showRequested]

/-! ### `DrainExecuting` -/

/-- New entries, each of which was known or waits for an instruction on which
the machines agree. -/
theorem withExecuting (twin : Twin offset lead lead' inside machine other)
    {executing executing' : List ExecutingInstruction}
    (shifted : executing' = executing.map (ExecutingInstruction.shift offset))
    (known :
      ∀ entry ∈ executing,
        other.instructions entry.instructionIndex =
          (machine.instructions entry.instructionIndex).shift offset) :
    Twin offset lead lead' inside { machine with executing := executing }
      { other with executing := executing' } :=
  { twin with executing := shifted, entries := known }

private theorem swapRemoved
    (twin : Twin offset lead lead' inside machine other) (position : Nat) :
    Twin offset lead lead' inside
      { machine with executing := swapRemove machine.executing position }
      { other with executing := swapRemove other.executing position } := by
  apply twin.withExecuting
  · rw [twin.executing, map_swapRemove]
  · intro entry member
    exact twin.entries entry (mem_of_mem_swapRemove member)

theorem discardEntry (twin : Twin offset lead lead' inside machine other)
    (position : Nat) (entry : ExecutingInstruction) :
    Twin offset lead lead' inside (machine.discardEntry position entry)
      (other.discardEntry position (entry.shift offset)) :=
  ((twin.latch .invalidProgram).swapRemoved position).record _ _ _

private theorem release (twin : Twin offset lead lead' inside machine other)
    (group : Nat) :
    Twin offset lead lead' inside (machine.release group)
      (other.release group) := by
  unfold Machine.release
  rw [twin.runtimes, GroupRuntime.shift_activeCount]
  split
  · exact twin.latch .invalidProgram
  · exact twin.updateCounts group id (· - 1) id id

theorem resumeEntry (twin : Twin offset lead lead' inside machine other)
    (timestamp : UInt32) (position : Nat) {entry : ExecutingInstruction}
    (member : entry ∈ machine.executing) :
    Agree offset lead lead' inside
      (machine.resumeEntry timestamp position entry)
      (other.resumeEntry (timestamp + offset) position
        (entry.shift offset)) := by
  have observed := twin.observePositiveBoundary entry.runtimeIndex
  have listed :
      entry ∈
        (machine.observePositiveBoundary entry.runtimeIndex).executing := by
    rw [observePositiveBoundary_eq]
    exact member
  have kept :=
    executing_executeSlot entry.instructionIndex timestamp
      (machine.observePositiveBoundary entry.runtimeIndex)
  have agree :=
    observed.executeSlot (observed.entries entry listed) timestamp
  rcases executes :
    (machine.observePositiveBoundary entry.runtimeIndex).executeSlot
      entry.instructionIndex timestamp with ⟨after, delay⟩
  rcases executes' :
    (other.observePositiveBoundary entry.runtimeIndex).executeSlot
      entry.instructionIndex (timestamp + offset) with ⟨after', delay'⟩
  rw [executes] at kept agree
  rw [executes'] at agree
  obtain ⟨sameDelay, executed⟩ := agree
  simp only at sameDelay executed kept
  subst sameDelay
  have known :
      after'.instructions entry.instructionIndex =
        (after.instructions entry.instructionIndex).shift offset := by
    apply executed.entries
    rw [kept]
    exact listed
  have resumed :
      other.resumeEntry (timestamp + offset) position (entry.shift offset) =
        _ :=
    resumeEntry_eq executes'
  rw [resumeEntry_eq executes, resumed]
  by_cases positive : delay' ≠ 0
  · rw [if_pos positive, if_pos positive]
    refine ⟨rfl, ?_⟩
    apply record
    apply executed.withExecuting
    · rw [executed.executing, List.map_set]
      simp only [ExecutingInstruction.shift, UInt32.add_assoc,
        UInt32.add_comm offset]
    · intro changed member
      rcases List.mem_or_eq_of_mem_set member with old | new
      · exact executed.entries changed old
      · rw [new]
        exact known
  · rw [if_neg positive, if_neg positive]
    refine ⟨rfl, ?_⟩
    apply record
    exact (executed.release entry.runtimeIndex).swapRemoved position

private theorem drainLoop (timestamp : UInt32) (fuel i : Nat)
    (progressed : Bool)
    (twin : Twin offset lead lead' inside machine other) :
    Agree offset lead lead' inside
      (machine.drainLoop timestamp fuel i progressed)
      (other.drainLoop (timestamp + offset) fuel i progressed) := by
  induction fuel generalizing i progressed machine other with
  | zero =>
      exact ⟨rfl, twin⟩
  | succ fuel inductionHypothesis =>
      unfold Machine.drainLoop
      rw [twin.executing, List.getElem?_map]
      cases found : machine.executing[i]? with
      | none =>
          exact ⟨rfl, twin⟩
      | some entry =>
          simp only [Option.map_some]
          rw [twin.entryInvalid_eq]
          have member := List.mem_of_getElem? found
          have resumed := twin.resumeEntry timestamp i member
          have reached :
              deadlineReached (timestamp + offset)
                  (entry.shift offset).deadline =
                deadlineReached timestamp entry.deadline :=
            deadlineReached_shift timestamp entry.deadline offset
          rw [reached]
          split
          · exact inductionHypothesis i true (twin.discardEntry i entry)
          · split
            · exact inductionHypothesis (i + 1) progressed twin
            · rw [resumed.1]
              exact inductionHypothesis _ true resumed.2

theorem drainExecuting (timestamp : UInt32)
    (twin : Twin offset lead lead' inside machine other) :
    Agree offset lead lead' inside (machine.drainExecuting timestamp)
      (other.drainExecuting (timestamp + offset)) := by
  unfold Machine.drainExecuting
  rw [twin.executing, List.length_map]
  exact twin.drainLoop timestamp machine.executing.length 0 false

private theorem resetRuntime
    (twin : Twin offset lead lead' inside machine other) (group : Nat) :
    Twin offset lead lead' inside
      (machine.updateRuntime group GroupRuntime.reset)
      (other.updateRuntime group GroupRuntime.reset) := by
  apply twin.updateRuntime
  · intro runtime
    rw [GroupRuntime.reset_shift]
    exact GroupRuntime.shift_of_inactive offset _ rfl
  · intro runtime active
    exact Bool.noConfusion active

private theorem releaseParent
    (twin : Twin offset lead lead' inside machine other)
    (groupCount parent : Nat) :
    Twin offset lead lead' inside
      (if groupCount ≤ parent ∨ ¬ (machine.runtimes parent).active ∨
          (machine.runtimes parent).childCount = 0 then
        machine.latch .invalidProgram
      else
        machine.updateRuntime parent fun runtime =>
          { runtime with childCount := runtime.childCount - 1 })
      (if groupCount ≤ parent ∨ ¬ (other.runtimes parent).active ∨
          (other.runtimes parent).childCount = 0 then
        other.latch .invalidProgram
      else
        other.updateRuntime parent fun runtime =>
          { runtime with childCount := runtime.childCount - 1 }) := by
  rw [twin.runtimes, GroupRuntime.shift_active, GroupRuntime.shift_childCount]
  split
  · exact twin.latch .invalidProgram
  · exact twin.updateCounts parent id id (· - 1) id

theorem endGroup (twin : Twin offset lead lead' inside machine other)
    (group : Nat) :
    Twin offset lead lead' inside (machine.endGroup group)
      (other.endGroup group) := by
  have latched :
      Twin offset lead lead' inside
        (if (machine.runtimes group).repeatsRemaining ≠ 0 then
          machine.latch .invalidProgram
        else
          machine)
        (if (machine.runtimes group).repeatsRemaining ≠ 0 then
          other.latch .invalidProgram
        else
          other) := by
    split
    · exact twin.latch .invalidProgram
    · exact twin
  have reset := latched.resetRuntime group
  unfold Machine.endGroup
  simp only [twin.runtimes group, GroupRuntime.shift_repeatsRemaining,
    GroupRuntime.shift_parentGroupIndex, twin.groupCount]
  apply record
  by_cases root : group = 0
  · rw [if_pos root, if_pos root]
    exact { reset with state := rfl }
  · rw [if_neg root, if_neg root]
    exact
      reset.releaseParent machine.groupCount
        (machine.runtimes group).parentGroupIndex

theorem completeGroup (twin : Twin offset lead lead' inside machine other)
    (timestamp : UInt32) (group : Nat) :
    Twin offset lead lead' inside (machine.completeGroup timestamp group)
      (other.completeGroup (timestamp + offset) group) := by
  unfold Machine.completeGroup
  simp only [twin.runtimes group, GroupRuntime.shift_repeatsRemaining,
    GroupRuntime.shift_positiveBoundaryObserved,
    GroupRuntime.shift_parentGroupIndex]
  split
  · rcases
      twin.startGroupRuntime group timestamp
        (if (machine.runtimes group).repeatsRemaining = foreverLoopCount then
          foreverLoopCount
        else
          (machine.runtimes group).repeatsRemaining - 1)
        (machine.runtimes group).parentGroupIndex with
      ⟨fails, fails'⟩ | ⟨next, next', starts, starts', restarted⟩
    · rw [fails, fails']
      exact ((twin.latch .invalidProgram).resetRuntime group).record _ _ _
    · rw [starts, starts']
      exact restarted.record _ _ _
  · exact twin.endGroup group

theorem completeReadyGroups (timestamp : UInt32)
    (twin : Twin offset lead lead' inside machine other) :
    Agree offset lead lead' inside (machine.completeReadyGroups timestamp)
      (other.completeReadyGroups (timestamp + offset)) := by
  unfold Machine.completeReadyGroups
  rw [twin.groupCount]
  apply forUpTo_related fun _ => Agree offset lead lead' inside
  · exact ⟨rfl, twin⟩
  · rintro group - ⟨state, progressed⟩ ⟨state', progressed'⟩ ⟨same, agree⟩
    simp only at same agree
    subst same
    simp only [agree.groupReady_eq]
    split
    · exact ⟨rfl, agree.completeGroup timestamp group⟩
    · exact ⟨rfl, agree⟩

/-! ### `PickDueInstructions` -/

theorem dispatchDueInstruction
    (twin : Twin offset lead lead' inside machine other)
    (before before' : Controller) (group slotIndex : Nat)
    (agree :
      other.instructions slotIndex =
        (machine.instructions slotIndex).shift offset)
    (timestamp : UInt32) :
    Agree offset lead lead' inside
      (machine.dispatchDueInstruction before group slotIndex timestamp)
      (other.dispatchDueInstruction before' group slotIndex
        (timestamp + offset)) := by
  have configuration := twin.configuration slotIndex
  have reject (status : ControllerStatus) (event : Event) :
      Twin offset lead lead' inside
        ((machine.latch status).record event before)
        ((other.latch status).record event before') :=
    (twin.latch status).record event before before'
  have executed := twin.executeSlot agree timestamp
  have known := twin.executed_slot agree timestamp
  unfold Machine.dispatchDueInstruction
  rcases executes : machine.executeSlot slotIndex timestamp with
    ⟨after, delay⟩
  rcases executes' : other.executeSlot slotIndex (timestamp + offset) with
    ⟨after', delay'⟩
  rw [executes, executes'] at executed known
  obtain ⟨sameDelay, executed⟩ := executed
  simp only at sameDelay executed
  subst sameDelay
  simp only [configuration.isRunGroup_eq, configuration.getTargetGroupId_eq,
    configuration.getAdditionalRepeats_eq, twin.groups, twin.groupCount,
    twin.active_eq]
  split
  · generalize
      findGroup machine.groups machine.groupCount
        (machine.instructions slotIndex).getTargetGroupId = target
    split
    · exact ⟨rfl, reject _ _⟩
    · split
      · exact ⟨rfl, reject _ _⟩
      · rcases
          twin.startGroupRuntime target timestamp
            (machine.instructions slotIndex).getAdditionalRepeats group with
          ⟨fails, fails'⟩ | ⟨next, next', starts, starts', started⟩
        · rw [fails, fails']
          exact ⟨rfl, reject _ _⟩
        · rw [starts, starts']
          refine ⟨rfl, ?_⟩
          apply record
          exact started.updateCounts group id id (· + 1) id
  · by_cases instant : delay' = 0
    · rw [if_pos instant, if_pos instant]
      exact ⟨rfl, executed.record _ _ _⟩
    · rw [if_neg instant, if_neg instant, executed.executing,
        List.length_map]
      split
      · exact ⟨rfl, (executed.latch .capacityExhausted).record _ _ _⟩
      · refine ⟨rfl, ?_⟩
        apply record
        have listed :
            Twin offset lead lead' inside
              { after with
                executing :=
                  after.executing ++
                    [⟨slotIndex, group, timestamp + delay'⟩] }
              { after' with
                executing :=
                  after.executing.map (ExecutingInstruction.shift offset) ++
                    [⟨slotIndex, group, timestamp + offset + delay'⟩] } := by
          apply executed.withExecuting
          · simp only [List.map_append, List.map_cons, List.map_nil,
              ExecutingInstruction.shift, UInt32.add_assoc,
              UInt32.add_comm offset]
          · intro entry member
            rcases List.mem_append.mp member with old | new
            · exact executed.entries entry old
            · rw [List.mem_singleton.mp new]
              exact known
        exact listed.updateCounts group id (· + 1) id id

theorem pickInstruction
    (twin : Twin offset lead lead' inside machine other) (group : Nat)
    (timestamp elapsed : UInt32) (active : (machine.runtimes group).active)
    (due : machine.cursorDue group elapsed) :
    Agree offset lead lead' inside (machine.pickInstruction group timestamp)
      (other.pickInstruction group (timestamp + offset)) := by
  have remaining :
      (machine.runtimes group).cursor <
        (machine.runtimes group).record.instructionCount := by
    simp only [cursorDue, Bool.decide_and, Bool.and_eq_true,
      decide_eq_true_eq] at due
    exact due.1
  have agree := twin.timelines group active _ remaining
  have observed :
      Twin offset lead lead' inside
        (if (machine.instructions (machine.cursorSlot group)).getMark > 0 then
          machine.observePositiveBoundary group
        else
          machine)
        (if (machine.instructions (machine.cursorSlot group)).getMark > 0 then
          other.observePositiveBoundary group
        else
          other) := by
    split
    · exact twin.observePositiveBoundary group
    · exact twin
  unfold Machine.pickInstruction
  simp only [twin.cursorSlot_eq, twin.getMark_eq]
  apply dispatchDueInstruction
  · exact observed.updateCounts group (· + 1) id id id
  · split
    · rw [observePositiveBoundary_eq, observePositiveBoundary_eq]
      exact agree
    · exact agree

/-- The scans of two machines that found the same so far. -/
private structure Scanning (offset : UInt32) (lead lead' : List Output)
    (inside : Bool) (state state' : PickState) : Prop where
  twin : Twin offset lead lead' inside state.machine state'.machine
  progressed : state'.progressed = state.progressed
  returned : state'.returned = state.returned

private theorem pickGroup (group : Nat) (timestamp elapsed : UInt32)
    (fuel : Nat) {state state' : PickState}
    (scanning : Scanning offset lead lead' inside state state')
    (active : (state.machine.runtimes group).active) :
    Scanning offset lead lead' inside
      (Machine.pickGroup group timestamp elapsed fuel state)
      (Machine.pickGroup group (timestamp + offset) elapsed fuel state') := by
  induction fuel generalizing state state' with
  | zero =>
      exact scanning
  | succ fuel inductionHypothesis =>
      unfold Machine.pickGroup
      rw [scanning.twin.cursorDue_eq]
      split
      · rename_i due
        obtain ⟨started, picked⟩ :=
          scanning.twin.pickInstruction group timestamp elapsed active due
        simp only [started]
        cases stays :
            (state.machine.pickInstruction group timestamp).2 with
        | true =>
            simp only [if_true]
            exact ⟨picked, rfl, rfl⟩
        | false =>
            simp only [Bool.false_eq_true, if_false]
            have next :
                Scanning offset lead lead' inside
                  ⟨(state.machine.pickInstruction group timestamp).1, true,
                    false⟩
                  ⟨(state'.machine.pickInstruction group
                    (timestamp + offset)).1, true, false⟩ :=
              ⟨picked, rfl, rfl⟩
            apply inductionHypothesis next
            rw [active_pickInstruction stays]
            exact active
      · exact scanning

private theorem pickRuntime (targetDepth : Nat) (timestamp : UInt32)
    (group : Nat) {state state' : PickState}
    (scanning : Scanning offset lead lead' inside state state') :
    Scanning offset lead lead' inside
      (Machine.pickRuntime targetDepth timestamp group state)
      (Machine.pickRuntime targetDepth (timestamp + offset) group state') := by
  have twin := scanning.twin
  unfold Machine.pickRuntime
  simp only [scanning.returned, twin.active_eq, twin.depth_eq, twin.cursor_eq,
    twin.record_eq]
  split
  · exact scanning
  · rename_i visited
    have active : (state.machine.runtimes group).active := by
      simp only [not_or, not_not] at visited
      exact visited.2.1
    rw [twin.elapsed_eq active]
    exact pickGroup group timestamp _ _ scanning active

private theorem pickDepths (timestamp : UInt32) (depths : Nat)
    {state state' : PickState}
    (scanning : Scanning offset lead lead' inside state state') :
    Scanning offset lead lead' inside
      (Machine.pickDepths timestamp depths state)
      (Machine.pickDepths (timestamp + offset) depths state') := by
  induction depths generalizing state state' with
  | zero =>
      exact scanning
  | succ targetDepth inductionHypothesis =>
      unfold Machine.pickDepths
      rw [scanning.twin.groupCount]
      apply inductionHypothesis
      apply forUpTo_related fun _ => Scanning offset lead lead' inside
      · exact scanning
      · intro group _ current current' agree
        exact pickRuntime targetDepth timestamp group agree

theorem pickDueInstructions (timestamp : UInt32)
    (twin : Twin offset lead lead' inside machine other) :
    Agree offset lead lead' inside (machine.pickDueInstructions timestamp)
      (other.pickDueInstructions (timestamp + offset)) := by
  have started :
      Scanning offset lead lead' inside ⟨machine, false, false⟩
        ⟨other, false, false⟩ :=
    ⟨twin, rfl, rfl⟩
  have scanned := pickDepths timestamp machine.groupCount started
  unfold Machine.pickDueInstructions
  rw [twin.groupCount]
  exact ⟨scanned.progressed, scanned.twin⟩

theorem scheduleTimeout (ms : UInt32)
    (twin : Twin offset lead lead' inside machine other) :
    Twin offset lead lead' inside (machine.scheduleTimeout ms)
      (other.scheduleTimeout ms) := by
  unfold Machine.scheduleTimeout
  rw [twin.minScheduledTimeout]
  split
  · exact { twin with minScheduledTimeout := rfl }
  · exact twin

theorem scheduleEntry (timestamp : UInt32) (entry : ExecutingInstruction)
    (twin : Twin offset lead lead' inside machine other) :
    Twin offset lead lead' inside (machine.scheduleEntry timestamp entry)
      (other.scheduleEntry (timestamp + offset) (entry.shift offset)) := by
  have reached :
      deadlineReached (timestamp + offset) (entry.shift offset).deadline =
        deadlineReached timestamp entry.deadline :=
    deadlineReached_shift timestamp entry.deadline offset
  have remaining :
      (entry.shift offset).deadline - (timestamp + offset) =
        entry.deadline - timestamp :=
    add_sub_add_right entry.deadline timestamp offset
  unfold Machine.scheduleEntry
  rw [reached, remaining]
  split
  · exact twin.scheduleTimeout _
  · exact twin

private theorem scheduleEntries (timestamp : UInt32)
    (entries : List ExecutingInstruction)
    (twin : Twin offset lead lead' inside machine other) :
    Twin offset lead lead' inside
      (entries.foldl (Machine.scheduleEntry timestamp) machine)
      ((entries.map (ExecutingInstruction.shift offset)).foldl
        (Machine.scheduleEntry (timestamp + offset)) other) := by
  induction entries generalizing machine other with
  | nil =>
      exact twin
  | cons entry rest inductionHypothesis =>
      apply inductionHypothesis
      exact twin.scheduleEntry timestamp entry

theorem scheduleGroup (timestamp : UInt32) (group : Nat)
    (twin : Twin offset lead lead' inside machine other) :
    Twin offset lead lead' inside (machine.scheduleGroup timestamp group)
      (other.scheduleGroup (timestamp + offset) group) := by
  unfold Machine.scheduleGroup
  simp only [twin.active_eq, twin.cursorSlot_eq, twin.getMark_eq,
    twin.cursor_eq, twin.record_eq]
  split
  · exact twin
  · rename_i pending
    have active : (machine.runtimes group).active := by
      simp only [not_or, not_not] at pending
      exact pending.1
    rw [twin.elapsed_eq active]
    split
    · exact twin.scheduleTimeout _
    · exact twin

theorem scheduleNextRun (timestamp : UInt32)
    (twin : Twin offset lead lead' inside machine other) :
    Twin offset lead lead' inside (machine.scheduleNextRun timestamp)
      (other.scheduleNextRun (timestamp + offset)) := by
  have entries := twin.scheduleEntries timestamp machine.executing
  rw [← twin.executing] at entries
  have groups :
      Twin offset lead lead' inside
        (forUpTo (Machine.scheduleGroup timestamp)
          (machine.executing.foldl (Machine.scheduleEntry timestamp) machine)
          (machine.executing.foldl (Machine.scheduleEntry timestamp)
            machine).groupCount)
        (forUpTo (Machine.scheduleGroup (timestamp + offset))
          (other.executing.foldl
            (Machine.scheduleEntry (timestamp + offset)) other)
          (other.executing.foldl
            (Machine.scheduleEntry (timestamp + offset)) other).groupCount) := by
    rw [entries.groupCount]
    apply forUpTo_related fun _ => Twin offset lead lead' inside
    · exact entries
    · intro group _ current current' agree
      exact agree.scheduleGroup timestamp group
  unfold Machine.scheduleNextRun
  simp only [groups.minScheduledTimeout, groups.scheduleCallback]
  split
  · exact groups.emit _
  · exact groups

theorem commitShow (twin : Twin offset lead lead' inside machine other) :
    Twin offset lead lead' inside machine.commitShow other.commitShow := by
  unfold Machine.commitShow
  rw [twin.showRequested, twin.strip]
  split
  · exact twin.emit _
  · exact twin

/-- The loop of `Run` makes the same number of iterations. -/
theorem runLoop (timestamp : UInt32) (fuel : Nat)
    (twin : Twin offset lead lead' inside machine other) :
    (machine.runLoop timestamp fuel = none ∧
        other.runLoop (timestamp + offset) fuel = none) ∨
      ∃ settled settled',
        machine.runLoop timestamp fuel = some settled ∧
          other.runLoop (timestamp + offset) fuel = some settled' ∧
            Twin offset lead lead' inside settled settled' := by
  induction fuel generalizing machine other with
  | zero =>
      exact Or.inl ⟨rfl, rfl⟩
  | succ fuel inductionHypothesis =>
      have drained := twin.drainExecuting timestamp
      have completed := drained.2.completeReadyGroups timestamp
      have picked := completed.2.pickDueInstructions timestamp
      unfold Machine.runLoop
      simp only [drained.1, completed.1, picked.1]
      split
      · exact inductionHypothesis picked.2
      · exact Or.inr ⟨_, _, rfl, rfl, picked.2⟩

end Twin

end Machine

end PrismKit
