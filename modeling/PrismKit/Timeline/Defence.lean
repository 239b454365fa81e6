import PrismKit.Timeline.History
import PrismKit.Timeline.Session

/-!
# Defensive branches

The loop of `Run` guards itself against entries without a runtime, counters
that are off, groups that cannot start, and a full executing array.  No machine
that a `Run` passes through meets one of these conditions, so the only failures
left to report are a refused call and a repeated pass without a boundary.
-/

namespace PrismKit

open Library Relation

/-- The moment is the reason for a failure that `Run` returns. -/
inductive Moment.Explains (moment : Moment) : ControllerStatus → Prop
  | refused (group slot : Nat)
      (event : moment.event = .rejected group slot .alreadyActiveGroup) :
      Moment.Explains moment .alreadyActiveGroup
  | unobserved (group : Nat) (event : moment.event = .ended group)
      (again : (moment.before.runtimes group).repeatsRemaining ≠ 0)
      (unobserved :
        (moment.before.runtimes group).positiveBoundaryObserved = false) :
      Moment.Explains moment .invalidProgram

/-- A failing step is a refused call or the guard of a repeated pass. -/
theorem Controller.Step.explains {strips : StripId → Strip}
    {timestamp : UInt32} {controller next : Controller} {event : Event}
    (step : controller.Step strips timestamp event next) (run : Nat)
    (failed : event.failure controller ≠ .success) :
    Moment.Explains ⟨run, event, controller, next⟩
      (event.failure controller) := by
  cases step with
  | rejected group child due settled isRun target calls notRoot busy =>
      exact .refused group _ rfl
  | endedRoot ready final =>
      by_cases again : (controller.runtimes 0).repeatsRemaining = 0
      · exact absurd (if_neg (not_not.mpr again)) failed
      · simp only [Event.failure, if_pos again]
        exact .unobserved 0 rfl again (final.resolve_left again)
  | endedChild group notRoot ready final =>
      by_cases again : (controller.runtimes group).repeatsRemaining = 0
      · exact absurd (if_neg (not_not.mpr again)) failed
      · simp only [Event.failure, if_pos again]
        exact .unobserved group rfl again (final.resolve_left again)
  | _ =>
      exact absurd rfl failed

namespace Machine

/-- The machine with which `PickDueInstructions` calls
`DispatchDueInstruction` for a group. -/
def dispatching (group : Nat) (machine : Machine) : Machine :=
  updateRuntime group
    (fun runtime => { runtime with cursor := runtime.cursor + 1 })
    (if (machine.instructions (machine.cursorSlot group)).getMark > 0 then
      machine.observePositiveBoundary group
    else
      machine)

/-- The group index that `DispatchDueInstruction` looks up. -/
def dispatchedTarget (group : Nat) (machine : Machine) : Nat :=
  findGroup (machine.dispatching group).groups
    (machine.dispatching group).groupCount
    ((machine.dispatching group).instructions
      (machine.cursorSlot group)).getTargetGroupId

/-- `PickDueInstructions` dispatches the instruction at the cursor. -/
structure Dispatches (timestamp : UInt32) (machine : Machine) (group : Nat) :
    Prop where
  below : group < machine.groupCount
  active : (machine.runtimes group).active = true
  due :
    machine.cursorDue group
        (timestamp - (machine.runtimes group).startTime) =
      true

/-- The loop of `Run` would take a defensive branch; one constructor for each
message. -/
inductive Defends (timestamp : UInt32) (machine : Machine) : Prop
  /-- Discarding timed instruction with invalid runtime. -/
  | invalidRuntime (entry : ExecutingInstruction)
      (executing : entry ∈ machine.executing)
      (invalid : machine.entryInvalid entry = true)
  /-- Timed instruction completion count underflow. -/
  | countUnderflow (entry : ExecutingInstruction)
      (executing : entry ∈ machine.executing)
      (underflow :
        (((machine.observePositiveBoundary entry.runtimeIndex).executeSlot
              entry.instructionIndex timestamp).1.runtimes
            entry.runtimeIndex).activeCount =
          0)
  /-- Unable to restart group runtime. -/
  | unableToRestart (group : Nat) (repeats : LoopCount)
      (below : group < machine.groupCount)
      (ready : machine.groupReady group = true)
      (fails :
        machine.startGroupRuntime group timestamp repeats
            (machine.runtimes group).parentGroupIndex =
          none)
  /-- Group completion has no active parent. -/
  | noActiveParent (group : Nat) (status : ControllerStatus)
      (below : group < machine.groupCount)
      (ready : machine.groupReady group = true) (notRoot : group ≠ 0)
      (orphan :
        machine.groupCount ≤ (machine.runtimes group).parentGroupIndex ∨
          ¬ ((updateRuntime group GroupRuntime.reset
              { machine with runStatus := status }).runtimes
                (machine.runtimes group).parentGroupIndex).active ∨
          ((updateRuntime group GroupRuntime.reset
              { machine with runStatus := status }).runtimes
                (machine.runtimes group).parentGroupIndex).childCount = 0)
  /-- RunGroup target is invalid. -/
  | invalidTarget (group : Nat) (dispatches : machine.Dispatches timestamp group)
      (isRun :
        ((machine.dispatching group).instructions
            (machine.cursorSlot group)).isRunGroup =
          true)
      (invalid :
        machine.dispatchedTarget group = maxGroups ∨
          machine.dispatchedTarget group = 0)
  /-- Unable to start group runtime. -/
  | unableToStart (group : Nat) (repeats : LoopCount)
      (dispatches : machine.Dispatches timestamp group)
      (isRun :
        ((machine.dispatching group).instructions
            (machine.cursorSlot group)).isRunGroup =
          true)
      (free :
        ((machine.dispatching group).runtimes
            (machine.dispatchedTarget group)).active =
          false)
      (fails :
        (machine.dispatching group).startGroupRuntime
            (machine.dispatchedTarget group) timestamp repeats group =
          none)
  /-- Timed instruction capacity exhausted. -/
  | capacityExhausted (group : Nat)
      (dispatches : machine.Dispatches timestamp group)
      (full :
        maxExecuting ≤
          ((machine.dispatching group).executeSlot (machine.cursorSlot group)
            timestamp).1.executing.length)

variable {rank : Nat → Nat} {machine : Machine} {timestamp : UInt32}

private theorem dispatching_eq (sound : machine.Sound rank) (group : Nat) :
    machine.dispatching group =
      { machine with toController := machine.toController.consume group } := by
  unfold dispatching
  rw [cursorSlot_eq sound]
  exact moveCursor_eq machine group

/-- The target of a dispatched `RunGroup` is a group other than the root. -/
private theorem dispatchedTarget_valid (sound : machine.Sound rank)
    {group : Nat} (due : machine.Due timestamp group)
    (isRun :
      ((machine.dispatching group).instructions
          (machine.cursorSlot group)).isRunGroup =
        true) :
    machine.dispatchedTarget group < machine.groupCount ∧
      machine.dispatchedTarget group ≠ 0 := by
  unfold dispatchedTarget
  rw [dispatching_eq sound, cursorSlot_eq sound] at isRun ⊢
  simp only [Controller.consume_instructions, Controller.consume_groups,
    Controller.consume_groupCount] at isRun ⊢
  obtain ⟨child, childBelow, notRoot, target, -⟩ :=
    sound.committed.callee due.below due.remaining isRun
  have target' :
      findGroup machine.groups machine.groupCount
          (machine.instructions (machine.nextSlot group)).getTargetGroupId =
        child :=
    target
  rw [target']
  exact ⟨childBelow, notRoot⟩

theorem Dispatches.isDue {group : Nat}
    (dispatches : machine.Dispatches timestamp group)
    (sound : machine.Sound rank) : machine.Due timestamp group :=
  (due_of_cursorDue sound dispatches.below dispatches.active
    dispatches.due).2

theorem not_defends (sound : machine.Sound rank) :
    ¬ machine.Defends timestamp := by
  intro defends
  have bounded := sound.committed.bounded
  cases defends with
  | invalidRuntime entry executing invalid =>
      obtain ⟨position, below, found⟩ := List.mem_iff_getElem.mp executing
      rw [entry_valid sound (List.getElem?_eq_some_iff.mpr ⟨below, found⟩)]
        at invalid
      exact Bool.noConfusion invalid
  | countUnderflow entry executing underflow =>
      have counted := sound.work.activeCount_pos (List.mem_map_of_mem executing)
      obtain ⟨slot, shown, -, controller, -⟩ :=
        executeSlot_spec entry.instructionIndex timestamp
          (machine.observePositiveBoundary entry.runtimeIndex)
      rw [controller, observePositiveBoundary_eq] at underflow
      exact absurd underflow (Nat.ne_of_gt counted)
  | unableToRestart group repeats below ready fails =>
      have ready' := ready_of_groupReady sound below ready
      rw [restart_eq sound ready'] at fails
      cases fails
  | noActiveParent group status below ready notRoot orphan =>
      have ready' := ready_of_groupReady sound below ready
      exact parent_releasable sound ready' notRoot status orphan
  | invalidTarget group dispatches isRun invalid =>
      obtain ⟨below, notRoot⟩ :=
        dispatchedTarget_valid sound (dispatches.isDue sound) isRun
      rcases invalid with sentinel | root
      · omega
      · exact notRoot root
  | unableToStart group repeats dispatches isRun free fails =>
      obtain ⟨below, -⟩ :=
        dispatchedTarget_valid sound (dispatches.isDue sound) isRun
      have inactive :
          (machine.runtimes (machine.dispatchedTarget group)).active =
            false := by
        rw [dispatching_eq sound] at free
        simpa only [Controller.consume_runtime] using free
      rw [dispatching_eq sound,
        launch_eq sound dispatches.active inactive below] at fails
      cases fails
  | capacityExhausted group dispatches full =>
      have due := dispatches.isDue sound
      have room :=
        sound.work.room sound.committed sound.tree due.below due.remaining
      obtain ⟨slot, shown, -, controller, -⟩ :=
        executeSlot_spec (machine.cursorSlot group) timestamp
          (machine.dispatching group)
      rw [controller, dispatching_eq sound] at full
      have same :
          ((machine.toController.consume group).afterExecution
              (machine.cursorSlot group) slot shown).executing =
            machine.executing :=
        Controller.consume_executing group
      rw [same] at full
      exact absurd room (Nat.not_lt.mpr full)

/-! ### Whole runs -/

/-- A failure latched by this `Run` has its reason in the history. -/
theorem Chronicle.explained {before after : Machine}
    (chronicle : Chronicle true before)
    (moves : ReflTransGen (Move before.timestamp) before after)
    (clean : before.runStatus = .success) :
    after.runStatus = .success ∨
      ∃ moment ∈ after.history,
        moment.run + 1 = after.clocks.length ∧
          moment.Explains after.runStatus := by
  refine
    chronicle.moves_invariant
      (fun machine =>
        machine.runStatus = .success ∨
          ∃ moment ∈ machine.history,
            moment.run + 1 = machine.clocks.length ∧
              moment.Explains machine.runStatus)
      moves (Or.inl clean) ?_
  intro rank current next event running _ _ step logged explained
  rw [logged.history, logged.around.clocks, logged.runStatus, latchRunStatus]
  have read := running.clocks_length.1
  split
  · rename_i latches
    right
    refine
      ⟨_, List.mem_append_right _ List.mem_cons_self, ?_,
        step.explains _ latches.2⟩
    show current.clocks.length - 1 + 1 = current.clocks.length
    omega
  · rcases explained with success | ⟨moment, member, sameRun, explains⟩
    · exact Or.inl success
    · exact
        Or.inr ⟨moment, List.mem_append_left _ member, sameRun, explains⟩

/-- In every machine that a `Run` of a reachable machine passes through, no
more instructions are under execution than are stored and no defensive branch
is taken; the status of the `Run` is `kSuccess`, or has its reason in a refused
call or in the guard of a repeated pass of this very `Run`. -/
theorem defences_unreached {machine : Machine} (reachable : Reachable machine)
    (now : Nat) :
    machine.executing.length ≤ machine.instructionCount ∧
      (machine.state = .active →
        ∀ current,
          ReflTransGen (Move (machine.getTimestamp now))
              (machine.beginRun now) current →
            current.executing.length ≤ current.instructionCount ∧
              ¬ current.Defends (machine.getTimestamp now)) ∧
      ∀ after status, Performs (.run now) machine after status →
        (machine.state = .active →
            ∃ settled,
              ReflTransGen (Move (machine.getTimestamp now))
                  (machine.beginRun now) settled ∧
                after =
                  (settled.scheduleNextRun
                    (machine.getTimestamp now)).commitShow) ∧
          (status = .success ∨
            ∃ moment ∈ after.history,
              moment.run + 1 = after.clocks.length ∧
                moment.Explains status) := by
  have legal := legal_of_reachable reachable
  refine ⟨?_, ?_, ?_⟩
  · by_cases editable : machine.state = .editable
    · rw [(legal.blank editable).executing]
      exact Nat.zero_le _
    · obtain ⟨rank, sound⟩ := (legal.chronicle editable).sound
      exact sound.work.length_le sound.committed sound.tree
  · intro active current moves
    have chronicle := legal.chronicle (by rw [active]; simp)
    have begun := Chronicle.began machine now chronicle active
    rw [← timestamp_beginRun] at moves
    obtain ⟨running, -⟩ := begun.moves moves
    obtain ⟨rank, sound⟩ := running.sound
    exact
      ⟨sound.work.length_le sound.committed sound.tree, not_defends sound⟩
  · intro after status performs
    obtain ⟨fuel, runs⟩ := performs
    by_cases active : machine.state = .active
    · have chronicle := legal.chronicle (by rw [active]; simp)
      have begun := Chronicle.began machine now chronicle active
      obtain ⟨settled, -, moves, -, -, rfl, rfl⟩ :=
        chronicle.run active runs
      refine ⟨fun _ => ⟨settled, moves, rfl⟩, ?_⟩
      have adjusts := adjusted_conclusion (machine.getTimestamp now) settled
      rw [adjusts.history, adjusts.clocks]
      rw [← timestamp_beginRun] at moves
      exact begun.explained moves rfl
    · simp only [run, ne_eq, active, not_false_eq_true, if_true,
        Option.some.injEq, Prod.mk.injEq] at runs
      exact ⟨fun running => absurd running active, Or.inl runs.2.symm⟩

/-- One of two Fades is half done when the other is due. -/
def halfFaded : Machine :=
  hosted
    [{ kind := .fade { percent := 50, durationMs := 40 } },
      { mark := 20, kind := .fade { percent := 50, durationMs := 40 } }]
    [.start 0 0, .run 0]

theorem defences_unreached_of_halfFaded :
    halfFaded.executing.length = 1 ∧
      ¬ (halfFaded.beginRun 20).Defends (halfFaded.getTimestamp 20) ∧
      ∀ after status, Performs (.run 20) halfFaded after status →
        status = .success ∨
          ∃ moment ∈ after.history,
            moment.run + 1 = after.clocks.length ∧ moment.Explains status := by
  have reachable : Reachable halfFaded :=
    reachable_hosted _ _
  have active : halfFaded.state = .active := by
    decide +kernel
  obtain ⟨-, unreached, explained⟩ := defences_unreached reachable 20
  exact
    ⟨by decide +kernel, (unreached active _ ReflTransGen.refl).2,
      fun after status performs => (explained after status performs).2⟩

end Machine

end PrismKit
