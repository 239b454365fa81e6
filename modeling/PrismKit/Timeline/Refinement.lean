import PrismKit.Timeline.Move
import PrismKit.Timeline.Tree

/-!
# Moves are steps

Every iteration of the loops of `Run` that does something on a sound controller
is a `Step`, so none of the defensive branches of the source is taken.  The
machine around the controller only collects `SetColor` calls, one history
entry, and the status of the event.
-/

namespace PrismKit

open Library

def Event.failure (before : Controller) : Event → ControllerStatus
  | .rejected _ _ status => status
  | .ended group =>
      if (before.runtimes group).repeatsRemaining ≠ 0 then .invalidProgram
      else .success
  | _ => .success

/-- A committed program with consistent bookkeeping. -/
structure Controller.Sound (rank : Nat → Nat) (controller : Controller) :
    Prop where
  committed : controller.Committed rank
  tree : controller.Tree rank
  work : controller.Work

theorem Controller.Sound.step {rank : Nat → Nat}
    {controller next : Controller} {strips : StripId → Strip}
    {timestamp : UInt32} {event : Event}
    (sound : controller.Sound rank)
    (step : controller.Step strips timestamp event next) :
    next.Sound rank :=
  ⟨sound.committed.of_same step.sameProgram,
    sound.tree.step sound.committed step,
    sound.work.step sound.committed sound.tree step⟩

theorem Controller.Sound.parent_counts {rank : Nat → Nat}
    {controller : Controller} (sound : controller.Sound rank) {group : Nat}
    (active : (controller.runtimes group).active) (notRoot : group ≠ 0) :
    (controller.runtimes
      (controller.runtimes group).parentGroupIndex).childCount ≠ 0 := by
  obtain ⟨calls, -, -⟩ := sound.tree.parent group active notRoot
  have bounded := sound.committed.bounded
  intro none
  exact
    sound.tree.no_child bounded (Nat.lt_of_lt_of_le calls.1 bounded) none
      active rfl

namespace Machine

structure Logged (before after : Machine) (event : Event) : Prop where
  history :
    after.history =
      before.history ++
        [⟨before.clocks.length - 1, event, before.toController,
          after.toController⟩]
  around : Around before after
  runStatus :
    after.runStatus =
      latchRunStatus before.runStatus (event.failure before.toController)

private theorem latchRunStatus_success (status : ControllerStatus) :
    latchRunStatus status .success = status := by
  simp [latchRunStatus]

variable {rank : Nat → Nat} {machine : Machine} {timestamp : UInt32}

def Refines (timestamp : UInt32) (scope : Event → Prop)
    (before after : Machine) : Prop :=
  ∃ event, scope event ∧
    before.toController.Step before.strips timestamp event
        after.toController ∧
      Logged before after event

/-- A machine that reaches the result of a step and records it. -/
private theorem refines_of_record {prepared : Machine} {event : Event}
    {next : Controller} {scope : Event → Prop} (inScope : scope event)
    (step : machine.toController.Step machine.strips timestamp event next)
    (controller : prepared.toController = next)
    (history : prepared.history = machine.history)
    (around : Around machine prepared)
    (runStatus :
      prepared.runStatus =
        latchRunStatus machine.runStatus
          (event.failure machine.toController)) :
    Refines timestamp scope machine
      (prepared.record event machine.toController) := by
  refine ⟨event, inScope, ?_, ?_, ?_, runStatus⟩
  · show machine.toController.Step machine.strips timestamp event
      prepared.toController
    rw [controller]
    exact step
  · simp only [record, history, around.clocks]
  · exact ⟨around.outputs, around.leds, around.ready, around.clocks⟩

theorem entry_valid (sound : machine.Sound rank)
    {position : Nat} {entry : ExecutingInstruction}
    (found : machine.executing[position]? = some entry) :
    machine.entryInvalid entry = false := by
  have member : entry ∈ machine.executing := List.mem_of_getElem? found
  have outstanding :
      (entry.runtimeIndex, entry.instructionIndex) ∈ machine.outstanding :=
    List.mem_map.mpr ⟨entry, member, rfl⟩
  obtain ⟨active, slotPosition, before, slotEq⟩ :=
    sound.work.dispatched _ _ outstanding
  have below := sound.tree.inRange _ active
  have inRange :=
    Nat.lt_of_lt_of_le before (sound.work.cursor _ active)
  have slotBelow := (sound.committed.slotAt_mem below inRange).1
  rw [slotEq] at slotBelow
  simp [entryInvalid, active, Nat.not_le.mpr below, Nat.not_le.mpr slotBelow]

theorem resume_refines (sound : machine.Sound rank)
    {position : Nat} {entry : ExecutingInstruction}
    (resumable : machine.Resumable timestamp position entry) :
    Refines timestamp
      (fun event => ∃ delay,
        event = .resumed entry.runtimeIndex entry.instructionIndex delay)
      machine (machine.resumeEntry timestamp position entry).1 := by
  have counted : (machine.runtimes entry.runtimeIndex).activeCount ≠ 0 := by
    apply Nat.ne_of_gt
    apply sound.work.activeCount_pos
    exact
      List.mem_map.mpr
        ⟨entry, List.mem_of_getElem? resumable.found, rfl⟩
  obtain ⟨slot, shown, executes, controller, status, history, around⟩ :=
    executeSlot_spec entry.instructionIndex timestamp
      (machine.observePositiveBoundary entry.runtimeIndex)
  rw [observePositiveBoundary_eq] at executes controller status history around
  unfold resumeEntry
  rw [observePositiveBoundary_eq]
  generalize
    executeSlot entry.instructionIndex timestamp
        { machine with
          toController :=
            machine.toController.observed entry.runtimeIndex } =
      result at executes controller status history around
  rcases result with ⟨after, delay⟩
  simp only at executes controller status history around ⊢
  have executing : after.executing = machine.executing := by
    rw [controller]
    rfl
  by_cases positive : delay ≠ 0
  · simp only [if_pos positive]
    have step :=
      Controller.Step.resumedAgain position entry slot delay shown resumable
        executes positive
    refine refines_of_record ⟨delay, rfl⟩ step ?_ history ?_ ?_
    · rw [executing, controller]
    · exact ⟨around.outputs, around.leds, around.ready, around.clocks⟩
    · exact status.trans (latchRunStatus_success _).symm
  · have done : delay = 0 := not_not.mp positive
    subst done
    have counted' : (after.runtimes entry.runtimeIndex).activeCount ≠ 0 := by
      rw [controller]
      exact counted
    simp only [ne_eq, not_true_eq_false, if_false, if_neg counted']
    have step :=
      Controller.Step.resumedLast position entry slot shown resumable executes
    refine refines_of_record ⟨0, rfl⟩ step ?_ history ?_ ?_
    · simp only [updateRuntime, controller]
      rfl
    · exact ⟨around.outputs, around.leds, around.ready, around.clocks⟩
    · exact status.trans (latchRunStatus_success _).symm

theorem ready_of_groupReady (sound : machine.Sound rank) {group : Nat}
    (below : group < machine.groupCount)
    (ready : machine.groupReady group) : machine.Ready group := by
  have record := sound.committed.record group
  simp only [groupReady, record, decide_eq_true_eq] at ready
  exact ⟨below, ready.1, ready.2.1, ready.2.2.1, ready.2.2.2⟩

theorem groupReady_of_ready (sound : machine.Sound rank) {group : Nat}
    (ready : machine.Ready group) : machine.groupReady group = true := by
  have record := sound.committed.record group
  have dispatched :
      (machine.groups group).instructionCount ≤
        (machine.runtimes group).cursor :=
    ready.dispatched
  simp [groupReady, record, ready.active, dispatched, ready.resumed,
    ready.ended]

private theorem parent_ne_of_ready (sound : machine.Sound rank) {group : Nat}
    (ready : machine.Ready group) :
    (machine.runtimes group).parentGroupIndex ≠ group := by
  have bounded := sound.committed.bounded
  exact
    sound.tree.no_child bounded (Nat.lt_of_lt_of_le ready.below bounded)
      ready.ended ready.active

theorem parent_releasable (sound : machine.Sound rank) {group : Nat}
    (ready : machine.Ready group) (notRoot : group ≠ 0)
    (status : ControllerStatus) :
    ¬ (machine.groupCount ≤ (machine.runtimes group).parentGroupIndex ∨
      ¬ ((Machine.updateRuntime group GroupRuntime.reset
          { machine with runStatus := status }).runtimes
            (machine.runtimes group).parentGroupIndex).active ∨
      ((Machine.updateRuntime group GroupRuntime.reset
          { machine with runStatus := status }).runtimes
            (machine.runtimes group).parentGroupIndex).childCount = 0) := by
  obtain ⟨calls, parentActive, -⟩ :=
    sound.tree.parent group ready.active notRoot
  have counted := sound.parent_counts ready.active notRoot
  have parentRuntime :
      (Machine.updateRuntime group GroupRuntime.reset
          { machine with runStatus := status }).runtimes
            (machine.runtimes group).parentGroupIndex =
        machine.runtimes (machine.runtimes group).parentGroupIndex := by
    simp [updateRuntime, parent_ne_of_ready sound ready]
  have below := calls.1
  simp only [parentRuntime, parentActive, counted, not_true_eq_false,
    or_false]
  omega

theorem restart_eq (sound : machine.Sound rank) {group : Nat}
    (ready : machine.Ready group) (timestamp : UInt32)
    (repeats : LoopCount) :
    machine.startGroupRuntime group timestamp repeats
        (machine.runtimes group).parentGroupIndex =
      some
        { machine with
          toController :=
            machine.toController.activate group timestamp repeats
              (machine.runtimes group).parentGroupIndex } := by
  apply
    startGroupRuntime_eq timestamp repeats (sound.committed.record group)
      ready.below (parent_ne_of_ready sound ready)
  by_cases root : group = 0
  · subst root
    exact Or.inl (sound.tree.root ready.active).1
  · obtain ⟨calls, parentActive, -⟩ :=
      sound.tree.parent group ready.active root
    exact Or.inr ⟨calls.1, parentActive⟩

private theorem endGroup_refines (sound : machine.Sound rank) {group : Nat}
    (ready : machine.Ready group)
    (final :
      (machine.runtimes group).repeatsRemaining = 0 ∨
        (machine.runtimes group).positiveBoundaryObserved = false) :
    Refines timestamp (fun event => event = .ended group) machine
      (machine.endGroup group) := by
  -- The latch comes first and touches no part of the controller.
  have latched :
      ∃ status,
        (if (machine.runtimes group).repeatsRemaining ≠ 0 then
            machine.latch .invalidProgram
          else
            machine) =
          { machine with runStatus := status } ∧
        status =
          latchRunStatus machine.runStatus
            ((Event.ended group).failure machine.toController) := by
    by_cases again : (machine.runtimes group).repeatsRemaining ≠ 0
    · refine ⟨_, if_pos again, ?_⟩
      simp only [Event.failure, if_pos again]
    · refine ⟨machine.runStatus, if_neg again, ?_⟩
      simp only [Event.failure, if_neg again]
      exact (latchRunStatus_success _).symm
  obtain ⟨status, latchEq, statusEq⟩ := latched
  unfold endGroup
  simp only [latchEq]
  by_cases root : group = 0
  · subst root
    simp only [if_true]
    exact
      refines_of_record rfl (Controller.Step.endedRoot ready final) rfl rfl
        ⟨⟨[], by simp [updateRuntime]⟩, fun _ => rfl, fun _ => rfl, rfl⟩
        statusEq
  · simp only [if_neg root,
      if_neg (parent_releasable sound ready root status)]
    exact
      refines_of_record rfl
        (Controller.Step.endedChild group root ready final) rfl rfl
        ⟨⟨[], by simp [updateRuntime]⟩, fun _ => rfl, fun _ => rfl, rfl⟩
        statusEq

/-- Completing a ready group is a step that starts it over or ends it. -/
theorem complete_refines (sound : machine.Sound rank) {group : Nat}
    (below : group < machine.groupCount)
    (groupReady : machine.groupReady group) :
    Refines timestamp
      (fun event => event = .restarted group ∨ event = .ended group) machine
      (machine.completeGroup timestamp group) := by
  have ready := ready_of_groupReady sound below groupReady
  unfold completeGroup
  simp only
  by_cases again :
      (machine.runtimes group).repeatsRemaining ≠ 0 ∧
        (machine.runtimes group).positiveBoundaryObserved
  · rw [if_pos again, restart_eq sound ready]
    exact
      refines_of_record (Or.inl rfl)
        (Controller.Step.restarted group ready again.1 again.2) rfl rfl
        ⟨⟨[], by simp⟩, fun _ => rfl, fun _ => rfl, rfl⟩
        (latchRunStatus_success _).symm
  · rw [if_neg again]
    obtain ⟨event, ended, refined⟩ :
        Refines timestamp (fun event => event = .ended group) machine
          (machine.endGroup group) := by
      apply endGroup_refines sound ready
      by_cases none : (machine.runtimes group).repeatsRemaining = 0
      · exact Or.inl none
      · right
        by_contra observed
        exact again ⟨none, by simpa using observed⟩
    exact ⟨event, Or.inr ended, refined⟩

theorem Quiescent.not_ready (quiescent : Quiescent timestamp machine)
    (sound : machine.Sound rank) (group : Nat) : ¬ machine.Ready group := by
  intro ready
  have unready := quiescent.unready group ready.below
  rw [groupReady_of_ready sound ready] at unready
  exact Bool.noConfusion unready

/-! ### Picking instructions -/

/-- The runtime's copy of the group record locates the next instruction. -/
theorem cursorSlot_eq (sound : machine.Sound rank) (group : Nat) :
    machine.cursorSlot group = machine.nextSlot group := by
  simp only [cursorSlot, sound.committed.record group]
  rfl

theorem due_of_cursorDue (sound : machine.Sound rank) {group : Nat}
    (below : group < machine.groupCount)
    (active : (machine.runtimes group).active)
    (due :
      machine.cursorDue group
        (timestamp - (machine.runtimes group).startTime)) :
    machine.cursorSlot group = machine.nextSlot group ∧
      machine.Due timestamp group := by
  have record := sound.committed.record group
  have slotEq := cursorSlot_eq sound group
  simp only [cursorDue, slotEq, record, decide_eq_true_eq] at due
  exact ⟨slotEq, below, active, due.1, due.2⟩

theorem Quiescent.not_due (quiescent : Quiescent timestamp machine)
    (sound : machine.Sound rank) (group : Nat) :
    ¬ machine.Due timestamp group := by
  intro due
  have depth := sound.tree.depth group due.active
  have undue := quiescent.undue group due.below due.active (by omega)
  have record := sound.committed.record group
  have slotEq := cursorSlot_eq sound group
  have remaining :
      (machine.runtimes group).cursor <
        (machine.groups group).instructionCount :=
    due.remaining
  have reached := due.reached
  simp only [cursorDue, slotEq, record, decide_eq_false_iff_not] at undue
  exact undue ⟨remaining, reached⟩

theorem moveCursor_eq (machine : Machine) (group : Nat) :
    updateRuntime group
        (fun runtime => { runtime with cursor := runtime.cursor + 1 })
        (if (machine.instructions (machine.nextSlot group)).getMark > 0 then
          machine.observePositiveBoundary group
        else
          machine) =
      { machine with toController := machine.toController.consume group } := by
  rw [observePositiveBoundary_eq]
  unfold Controller.consume
  split <;> rfl

theorem launch_eq (sound : machine.Sound rank) {group child : Nat}
    (active : (machine.runtimes group).active)
    (inactive : (machine.runtimes child).active = false)
    (childBelow : child < machine.groupCount) (timestamp : UInt32)
    (repeats : LoopCount) :
    ({ machine with toController := machine.toController.consume group } :
        Machine).startGroupRuntime child timestamp repeats group =
      some
        { machine with
          toController :=
            (machine.toController.consume group).activate child timestamp
              repeats group } := by
  have apart : group ≠ child := by
    intro equal
    rw [equal, inactive] at active
    exact Bool.noConfusion active
  have same : machine.SameProgram (machine.toController.consume group) :=
    Controller.SameProgram.consume group
  have record :
      ((machine.toController.consume group).runtimes child).record =
        (machine.toController.consume group).groups child := by
    rw [same.record, same.groups]
    exact sound.committed.record child
  have below :
      child < (machine.toController.consume group).groupCount := by
    rw [Controller.consume_groupCount]
    exact childBelow
  apply startGroupRuntime_eq timestamp repeats record below apart
  right
  rw [Controller.consume_groupCount, Controller.consume_runtime]
  exact ⟨sound.tree.inRange group active, active⟩

/-- Picking the next instruction of a group is a step that dispatches it. -/
theorem pick_refines (sound : machine.Sound rank) {group : Nat}
    (settled : machine.Settled timestamp)
    (below : group < machine.groupCount)
    (active : (machine.runtimes group).active)
    (cursorDue :
      machine.cursorDue group
        (timestamp - (machine.runtimes group).startTime)) :
    Refines timestamp
      (fun event => event.dispatches = some (group, machine.nextSlot group))
      machine (machine.pickInstruction group timestamp).1 := by
  have bounded := sound.committed.bounded
  obtain ⟨slotEq, due⟩ := due_of_cursorDue sound below active cursorDue
  unfold pickInstruction
  simp only [slotEq, moveCursor_eq]
  unfold dispatchDueInstruction
  simp only [Controller.consume_instructions, Controller.consume_groups,
    Controller.consume_groupCount]
  cases isRun :
      (machine.instructions (machine.nextSlot group)).isRunGroup with
  | true =>
      simp only [if_true]
      obtain ⟨child, childBelow, notRoot, target, calls⟩ :=
        sound.committed.callee below due.remaining isRun
      have known : ¬ (child = maxGroups ∨ child = 0) := by
        rintro (sentinel | root)
        · omega
        · exact notRoot root
      have target' :
          findGroup machine.groups machine.groupCount
              (machine.instructions
                (machine.nextSlot group)).getTargetGroupId =
            child :=
        target
      simp only [target', if_neg known]
      have childActive :
          ((machine.toController.consume group).runtimes child).active =
            (machine.runtimes child).active := by
        rw [Controller.consume_runtime]
      simp only [childActive]
      cases busy : (machine.runtimes child).active with
      | true =>
          simp only [if_true]
          exact
            refines_of_record rfl
              (Controller.Step.rejected group child due settled isRun target'
                calls notRoot busy)
              rfl rfl
              ⟨⟨[], by simp [latch]⟩, fun _ => rfl, fun _ => rfl, rfl⟩ rfl
      | false =>
          simp only [Bool.false_eq_true, if_false]
          rw [launch_eq sound active busy childBelow]
          exact
            refines_of_record rfl
              (Controller.Step.launched group child due settled isRun target'
                calls notRoot busy)
              rfl rfl
              ⟨⟨[], by simp [updateRuntime]⟩, fun _ => rfl, fun _ => rfl, rfl⟩
              (latchRunStatus_success _).symm
  | false =>
      obtain ⟨slot, shown, executes, controller, status, history, around⟩ :=
        executeSlot_spec (machine.nextSlot group) timestamp
          { machine with
            toController := machine.toController.consume group }
      have room := sound.work.room sound.committed sound.tree below
        due.remaining
      simp only [Bool.false_eq_true, if_false]
      generalize
        executeSlot (machine.nextSlot group) timestamp
            { machine with
              toController := machine.toController.consume group } =
          result at executes controller status history around
      rcases result with ⟨after, delay⟩
      simp only at executes controller status history around ⊢
      have executes' :
          machine.Executes machine.strips timestamp (machine.nextSlot group)
            slot delay shown := by
        obtain ⟨writes, result⟩ := executes
        rw [Controller.consume_instructions,
          Controller.consume_refreshPeriodMs] at result
        exact ⟨writes, result⟩
      have executing : after.executing = machine.executing := by
        rw [controller]
        exact Controller.consume_executing group
      have around' : Around machine after :=
        ⟨around.outputs, around.leds, around.ready, around.clocks⟩
      by_cases done : delay = 0
      · subst done
        simp only [if_true]
        exact
          refines_of_record rfl
            (Controller.Step.executedNow group slot shown due settled isRun
              executes')
            controller history around'
            (status.trans (latchRunStatus_success _).symm)
      · have fits : ¬ after.executing.length ≥ maxExecuting := by
          rw [executing]
          exact Nat.not_le.mpr room
        simp only [if_neg done, if_neg fits]
        refine
          refines_of_record rfl
            (Controller.Step.executedTimed group slot delay shown due settled
              isRun executes' done)
            ?_ history
            ⟨around'.outputs, around'.leds, around'.ready, around'.clocks⟩
            (status.trans (latchRunStatus_success _).symm)
        have sameExecuting :
            ((machine.toController.consume group).afterExecution
                (machine.nextSlot group) slot shown).executing =
              machine.executing :=
          Controller.consume_executing group
        simp only [updateRuntime, controller, sameExecuting]
        rfl

/-- Every move of a sound machine is a recorded step, and a dispatch waits for
the deeper groups. -/
theorem Move.step_deepest {after : Machine} (sound : machine.Sound rank)
    (move : Move timestamp machine after) :
    ∃ event,
      machine.toController.Step machine.strips timestamp event
          after.toController ∧
        Logged machine after event ∧
        ∀ group slot, event.dispatches = some (group, slot) →
          machine.Deepest timestamp group := by
  cases move with
  | discard position entry found invalid =>
      rw [entry_valid sound found] at invalid
      exact Bool.noConfusion invalid
  | resume position entry resumable =>
      obtain ⟨_, ⟨delay, rfl⟩, step, logged⟩ := resume_refines sound resumable
      refine ⟨_, step, logged, ?_⟩
      intro group slot dispatches
      cases dispatches
  | complete group settled below ready =>
      obtain ⟨event, completes, step, logged⟩ :=
        complete_refines sound below ready
      refine ⟨event, step, logged, ?_⟩
      intro other slot dispatches
      rcases completes with rfl | rfl <;> cases dispatches
  | pick group settled below active due deepest =>
      obtain ⟨event, picks, step, logged⟩ :=
        pick_refines sound settled below active due
      refine ⟨event, step, logged, ?_⟩
      intro other slot dispatches
      rw [picks] at dispatches
      cases dispatches
      exact deepest

theorem Move.step {after : Machine} (sound : machine.Sound rank)
    (move : Move timestamp machine after) :
    ∃ event,
      machine.toController.Step machine.strips timestamp event
          after.toController ∧
        Logged machine after event := by
  obtain ⟨event, step, logged, -⟩ := move.step_deepest sound
  exact ⟨event, step, logged⟩

end Machine

end PrismKit
