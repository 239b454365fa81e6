import PrismKit.Controller.GroupBuild
import PrismKit.Library.SwapRemove

/-!
# Running the group timelines

The runtime half of `controller.cpp`: activation of a group, the three phases
of a progress tick, and the scheduling of the next one.  `run_status` is the
`runStatus` field of the machine.
-/

namespace PrismKit

open Library

namespace Machine

def resetGroupInstructionReplayState (group : Nat) (machine : Machine) :
    Machine :=
  let record := (machine.runtimes group).record
  forUpTo
    (fun offset current =>
      let slot := current.groupIndices (record.indexBegin + offset)
      { current with
        instructions :=
          Function.update current.instructions slot
            (current.instructions slot).resetForReplay })
    machine record.instructionCount

/-- The loop writes the instructions alone. -/
theorem resetGroupInstructionReplayState_instructions (group : Nat)
    (machine : Machine) :
    machine.resetGroupInstructionReplayState group =
      { machine with
        instructions :=
          forUpTo
            (fun offset instructions =>
              Function.update instructions
                (machine.groupIndices
                  ((machine.runtimes group).record.indexBegin + offset))
                (instructions
                  (machine.groupIndices
                    ((machine.runtimes group).record.indexBegin +
                      offset))).resetForReplay)
            machine.instructions
            (machine.runtimes group).record.instructionCount } := by
  simp only [resetGroupInstructionReplayState]
  generalize (machine.runtimes group).record.instructionCount = count
  induction count with
  | zero =>
      rfl
  | succ count inductionHypothesis =>
      rw [forUpTo_succ, inductionHypothesis]
      rfl

/-- The ancestor walk of `ObservePositiveBoundary`; the first argument is the
number of iterations its `depth` counter still allows. -/
def observeAncestors : Nat → Nat → Machine → Machine
  | 0, _, machine => machine
  | fuel + 1, group, machine =>
      if group < machine.groupCount then
        if (machine.runtimes group).active then
          observeAncestors fuel (machine.runtimes group).parentGroupIndex
            (machine.updateRuntime group fun runtime =>
              { runtime with positiveBoundaryObserved := true })
        else
          machine
      else
        machine

def observePositiveBoundary (group : Nat) (machine : Machine) : Machine :=
  observeAncestors machine.groupCount group machine

/-- `StartGroupRuntime`; `none` stands for the result `false`, which changes
nothing. -/
def startGroupRuntime (group : Nat) (timestamp : UInt32)
    (additionalRepeats : LoopCount) (parentGroupIndex : Nat)
    (machine : Machine) : Option Machine :=
  if machine.groupCount ≤ group ∨
      (parentGroupIndex ≠ maxGroups ∧
        (machine.groupCount ≤ parentGroupIndex ∨
          ¬ (machine.runtimes parentGroupIndex).active)) then
    none
  else
    let reset := machine.updateRuntime group GroupRuntime.reset
    let depth :=
      if parentGroupIndex = maxGroups then
        0
      else
        (reset.runtimes parentGroupIndex).depth + 1
    let started :=
      reset.updateRuntime group fun runtime =>
        { runtime with
          startTime := timestamp
          repeatsRemaining := additionalRepeats
          parentGroupIndex := parentGroupIndex
          depth := depth
          active := true }
    some (started.resetGroupInstructionReplayState group)

/-- Drop an entry without a valid runtime. -/
def discardEntry (position : Nat) (entry : ExecutingInstruction)
    (machine : Machine) : Machine :=
  ({ machine.latch .invalidProgram with
      executing := swapRemove machine.executing position }).record
    (.discarded entry.runtimeIndex entry.instructionIndex)
    machine.toController

/-- Resume a due entry; the second component says whether it stays. -/
def resumeEntry (timestamp : UInt32) (position : Nat)
    (entry : ExecutingInstruction) (machine : Machine) : Machine × Bool :=
  let (executed, delay) :=
    (machine.observePositiveBoundary entry.runtimeIndex).executeSlot
      entry.instructionIndex timestamp
  let event := Event.resumed entry.runtimeIndex entry.instructionIndex delay
  if delay ≠ 0 then
    (({ executed with
        executing :=
          executed.executing.set position
            { entry with deadline := timestamp + delay } }).record
      event machine.toController, true)
  else
    let released :=
      if (executed.runtimes entry.runtimeIndex).activeCount = 0 then
        executed.latch .invalidProgram
      else
        executed.updateRuntime entry.runtimeIndex fun runtime =>
          { runtime with activeCount := runtime.activeCount - 1 }
    (({ released with
        executing := swapRemove released.executing position }).record
      event machine.toController, false)

/-- Whether `DrainExecuting` finds an entry invalid. -/
def entryInvalid (machine : Machine) (entry : ExecutingInstruction) : Bool :=
  machine.instructionCount ≤ entry.instructionIndex ∨
    machine.groupCount ≤ entry.runtimeIndex ∨
      ¬ (machine.runtimes entry.runtimeIndex).active

/-- The loop of `DrainExecuting` from position `i`.  Every iteration advances
`i` or shortens the array, so the distance between them is enough fuel. -/
def drainLoop (timestamp : UInt32) :
    Nat → Nat → Bool → Machine → Machine × Bool
  | 0, _, progressed, machine => (machine, progressed)
  | fuel + 1, i, progressed, machine =>
      match machine.executing[i]? with
      | none => (machine, progressed)
      | some entry =>
          if machine.entryInvalid entry then
            drainLoop timestamp fuel i true (machine.discardEntry i entry)
          else if ¬ deadlineReached timestamp entry.deadline then
            drainLoop timestamp fuel (i + 1) progressed machine
          else
            let (resumed, stays) := machine.resumeEntry timestamp i entry
            drainLoop timestamp fuel (if stays then i + 1 else i) true resumed

def drainExecuting (timestamp : UInt32) (machine : Machine) :
    Machine × Bool :=
  drainLoop timestamp machine.executing.length 0 false machine

/-- Whether a group is active and has no outstanding work. -/
def groupReady (machine : Machine) (group : Nat) : Bool :=
  let runtime := machine.runtimes group
  runtime.active ∧ runtime.record.instructionCount ≤ runtime.cursor ∧
    runtime.activeCount = 0 ∧ runtime.childCount = 0

def endGroup (group : Nat) (machine : Machine) : Machine :=
  let runtime := machine.runtimes group
  let parent := runtime.parentGroupIndex
  let latched :=
    if runtime.repeatsRemaining ≠ 0 then
      machine.latch .invalidProgram
    else
      machine
  let reset := latched.updateRuntime group GroupRuntime.reset
  let released : Machine :=
    if group = 0 then
      { reset with state := .completed }
    else if machine.groupCount ≤ parent ∨ ¬ (reset.runtimes parent).active ∨
        (reset.runtimes parent).childCount = 0 then
      reset.latch .invalidProgram
    else
      reset.updateRuntime parent fun runtime =>
        { runtime with childCount := runtime.childCount - 1 }
  released.record (.ended group) machine.toController

def completeGroup (timestamp : UInt32) (group : Nat) (machine : Machine) :
    Machine :=
  let runtime := machine.runtimes group
  if runtime.repeatsRemaining ≠ 0 ∧ runtime.positiveBoundaryObserved then
    let nextRepeats :=
      if runtime.repeatsRemaining = foreverLoopCount then
        foreverLoopCount
      else
        runtime.repeatsRemaining - 1
    match machine.startGroupRuntime group timestamp nextRepeats
        runtime.parentGroupIndex with
    | some restarted =>
        restarted.record (.restarted group) machine.toController
    | none =>
        ((machine.latch .invalidProgram).updateRuntime group
          GroupRuntime.reset).record (.ended group) machine.toController
  else
    machine.endGroup group

def completeReadyGroups (timestamp : UInt32) (machine : Machine) :
    Machine × Bool :=
  forUpTo
    (fun group (state : Machine × Bool) =>
      if state.1.groupReady group then
        (state.1.completeGroup timestamp group, true)
      else
        state)
    (machine, false) machine.groupCount

/-! ### `PickDueInstructions` -/

/-- `DispatchDueInstruction`; the second component is its result.  The ghost
argument `before` is the controller when the loop body of the caller began. -/
def dispatchDueInstruction (before : Controller) (group slotIndex : Nat)
    (timestamp : UInt32) (machine : Machine) : Machine × Bool :=
  let slot := machine.instructions slotIndex
  let reject (status : ControllerStatus) : Machine × Bool :=
    ((machine.latch status).record (.rejected group slotIndex status) before,
      false)
  if slot.isRunGroup then
    let target :=
      findGroup machine.groups machine.groupCount slot.getTargetGroupId
    if target = maxGroups ∨ target = 0 then
      reject .invalidProgram
    else if (machine.runtimes target).active then
      reject .alreadyActiveGroup
    else
      match machine.startGroupRuntime target timestamp
          slot.getAdditionalRepeats group with
      | none => reject .invalidProgram
      | some started =>
          ((started.updateRuntime group fun runtime =>
              { runtime with childCount := runtime.childCount + 1 }).record
            (.launched group slotIndex target slot.getAdditionalRepeats)
            before, true)
  else
    let (executed, delay) := machine.executeSlot slotIndex timestamp
    let event := Event.executed group slotIndex delay
    if delay = 0 then
      (executed.record event before, false)
    else if executed.executing.length ≥ maxExecuting then
      ((executed.latch .capacityExhausted).record event before, false)
    else
      ((({ executed with
            executing :=
              executed.executing ++
                [⟨slotIndex, group, timestamp + delay⟩] } :
            Machine).updateRuntime group fun runtime =>
          { runtime with activeCount := runtime.activeCount + 1 }).record
        event before, false)

def cursorSlot (machine : Machine) (group : Nat) : Nat :=
  machine.groupIndices
    ((machine.runtimes group).record.indexBegin +
      (machine.runtimes group).cursor)

def pickInstruction (group : Nat) (timestamp : UInt32) (machine : Machine) :
    Machine × Bool :=
  let slotIndex := machine.cursorSlot group
  let observed :=
    if (machine.instructions slotIndex).getMark > 0 then
      machine.observePositiveBoundary group
    else
      machine
  (observed.updateRuntime group fun runtime =>
    { runtime with cursor := runtime.cursor + 1 }).dispatchDueInstruction
      machine.toController group slotIndex timestamp

/-- Whether the instruction at the cursor of a group exists and is due after
`elapsed` milliseconds of group-local time. -/
def cursorDue (machine : Machine) (group : Nat) (elapsed : UInt32) : Bool :=
  let runtime := machine.runtimes group
  runtime.cursor < runtime.record.instructionCount ∧
    (machine.instructions (machine.cursorSlot group)).getMark.toUInt32 ≤
      elapsed

/-- The scan state of `PickDueInstructions`: `returned` is set once a child
started and the function returned from inside its loops. -/
structure PickState where
  machine : Machine
  progressed : Bool := false
  returned : Bool := false

/-- The `while` loop over one group.  The cursor moves in every iteration, so
the number of instructions left is enough fuel. -/
def pickGroup (group : Nat) (timestamp elapsed : UInt32) :
    Nat → PickState → PickState
  | 0, state => state
  | fuel + 1, state =>
      if state.machine.cursorDue group elapsed then
        let (picked, childStarted) :=
          state.machine.pickInstruction group timestamp
        if childStarted then
          ⟨picked, true, true⟩
        else
          pickGroup group timestamp elapsed fuel ⟨picked, true, false⟩
      else
        state

/-- Visit one runtime during the scan at one depth. -/
def pickRuntime (targetDepth : Nat) (timestamp : UInt32) (group : Nat)
    (state : PickState) : PickState :=
  let runtime := state.machine.runtimes group
  if state.returned ∨ ¬ runtime.active ∨ runtime.depth.toNat ≠ targetDepth then
    state
  else
    pickGroup group timestamp (timestamp - runtime.startTime)
      (runtime.record.instructionCount - runtime.cursor) state

/-- The descending scan over the depths below the first argument. -/
def pickDepths (timestamp : UInt32) : Nat → PickState → PickState
  | 0, state => state
  | targetDepth + 1, state =>
      pickDepths timestamp targetDepth
        (forUpTo (pickRuntime targetDepth timestamp) state
          state.machine.groupCount)

def pickDueInstructions (timestamp : UInt32) (machine : Machine) :
    Machine × Bool :=
  let final := pickDepths timestamp machine.groupCount ⟨machine, false, false⟩
  (final.machine, final.progressed)

/-- `ScheduleTimeout`: zero means that no timeout was recorded. -/
def scheduleTimeout (ms : UInt32) (machine : Machine) : Machine :=
  if machine.minScheduledTimeout = 0 ∨ ms < machine.minScheduledTimeout then
    { machine with minScheduledTimeout := ms }
  else
    machine

def scheduleEntry (timestamp : UInt32) (machine : Machine)
    (entry : ExecutingInstruction) : Machine :=
  if ¬ deadlineReached timestamp entry.deadline then
    machine.scheduleTimeout (entry.deadline - timestamp)
  else
    machine

def scheduleGroup (timestamp : UInt32) (group : Nat) (machine : Machine) :
    Machine :=
  let runtime := machine.runtimes group
  if ¬ runtime.active ∨ runtime.record.instructionCount ≤ runtime.cursor then
    machine
  else
    let elapsed := timestamp - runtime.startTime
    let nextMark :=
      (machine.instructions (machine.cursorSlot group)).getMark.toUInt32
    if nextMark > elapsed then
      machine.scheduleTimeout (nextMark - elapsed)
    else
      machine

def scheduleNextRun (timestamp : UInt32) (machine : Machine) : Machine :=
  let entries := machine.executing.foldl (scheduleEntry timestamp) machine
  let groups := forUpTo (scheduleGroup timestamp) entries entries.groupCount
  if groups.minScheduledTimeout > 0 ∧ groups.scheduleCallback then
    { groups with
      outputs := groups.outputs ++ [.schedule groups.minScheduledTimeout] }
  else
    groups

/-- The `do`-`while` loop of `Run`; `none` when the fuel does not reach the
first iteration without progress. -/
def runLoop (timestamp : UInt32) : Nat → Machine → Option Machine
  | 0, _ => none
  | fuel + 1, machine =>
      let (drained, drainProgress) := machine.drainExecuting timestamp
      let (completed, completeProgress) :=
        drained.completeReadyGroups timestamp
      let (picked, pickProgress) := completed.pickDueInstructions timestamp
      if drainProgress || completeProgress || pickProgress then
        runLoop timestamp fuel picked
      else
        some picked

/-- The part of `Run` before its loop. -/
def beginRun (now : Nat) (machine : Machine) : Machine :=
  { machine with
    showRequested := false
    minScheduledTimeout := 0
    runStatus := .success
    clocks := machine.clocks ++ [machine.clockReading now] }

/-- `Show` once if it was requested and a strip is bound. -/
def commitShow (machine : Machine) : Machine :=
  match machine.showRequested, machine.strip with
  | true, some strip =>
      { machine with outputs := machine.outputs ++ [.show strip] }
  | _, _ => machine

/-- `Run` when the clock shows `now`, with a bound on the loop iterations. -/
def run (fuel now : Nat) (machine : Machine) :
    Option (Machine × ControllerStatus) :=
  if machine.state ≠ .active then
    some (machine, .success)
  else
    let timestamp := machine.getTimestamp now
    match runLoop timestamp fuel (machine.beginRun now) with
    | none => none
    | some settled =>
        let final := (settled.scheduleNextRun timestamp).commitShow
        some (final, final.runStatus)

/-- `AddInstruction`; `none` is the null pointer. -/
def addInstruction (instr : Option ControllerInstruction) (machine : Machine) :
    Machine × ControllerStatus :=
  match instr with
  | none => (machine, .invalidArgument)
  | some instr =>
      if machine.state ≠ .editable then
        (machine, .busy)
      else if machine.instructionCount ≥ maxInstructions then
        (machine, .capacityExhausted)
      else
        ({ machine with
            instructions :=
              Function.update machine.instructions machine.instructionCount
                (.store instr machine.strip)
            instructionCount := machine.instructionCount + 1 }, .success)

/-- `Start` when the clock shows `now`. -/
def start (rootAdditionalRepeats : LoopCount) (now : Nat)
    (machine : Machine) : Machine × ControllerStatus :=
  if machine.state = .active then
    (machine, .busy)
  else
    match buildAndValidateGroups rootAdditionalRepeats machine.toController with
    | .error status => (machine, status)
    | .ok built =>
        let committed : Machine :=
          { machine with
            toController :=
              { built with
                executing := []
                showRequested := false
                minScheduledTimeout := 0 }
            clocks := [machine.clockReading now]
            history := [] }
        let root := findGroup committed.groups committed.groupCount 0
        if root = maxGroups then
          (committed, .invalidProgram)
        else if (committed.groups root).instructionCount = 0 then
          ({ committed.updateRuntime root GroupRuntime.reset with
              state := .completed }, .success)
        else
          match committed.startGroupRuntime root (machine.getTimestamp now)
              rootAdditionalRepeats maxGroups with
          | none => (committed, .invalidProgram)
          | some started =>
              (({ started with state := .active }).record
                (.started rootAdditionalRepeats) committed.toController,
                .success)

def resetInstructions (machine : Machine) : Machine :=
  { machine with
    instructions := fun _ => {}
    instructionCount := 0
    executing := []
    state := .editable
    showRequested := false
    minScheduledTimeout := 0
    groupCount := 0
    groups := fun _ => {}
    runtimes := fun _ => {}
    groupIndices := fun _ => 0
    clocks := []
    history := [] }

def setRefreshPeriodMs (periodMs : UInt32) (machine : Machine) :
    Machine × ControllerStatus :=
  if periodMs = 0 ∨ periodMs ≥ 0x80000000 then
    (machine, .invalidArgument)
  else if machine.state = .active then
    (machine, .busy)
  else
    ({ machine with refreshPeriodMs := periodMs }, .success)

end Machine

/-- The public operations; `start` and `run` carry the value shown by the
millisecond clock when the call reads it. -/
inductive Operation where
  | setStrip (strip : Option StripId)
  | addInstruction (instr : Option ControllerInstruction)
  | start (rootAdditionalRepeats : LoopCount) (now : Nat)
  | run (now : Nat)
  | resetInstructions
  | setRefreshPeriodMs (periodMs : UInt32)
  | setTimestampCallback (registered : Bool)
  | setScheduleCallback (registered : Bool)

/-- `Performs operation before after status`: the call returns `status`.
`Run` returns when some number of loop iterations suffices. -/
def Performs :
    Operation → Machine → Machine → ControllerStatus → Prop
  | .setStrip strip, before, after, status =>
      after = { before with strip := strip } ∧ status = .success
  | .addInstruction instr, before, after, status =>
      before.addInstruction instr = (after, status)
  | .start repeats now, before, after, status =>
      before.start repeats now = (after, status)
  | .run now, before, after, status =>
      ∃ fuel, before.run fuel now = some (after, status)
  | .resetInstructions, before, after, status =>
      after = before.resetInstructions ∧ status = .success
  | .setRefreshPeriodMs periodMs, before, after, status =>
      before.setRefreshPeriodMs periodMs = (after, status)
  | .setTimestampCallback registered, before, after, status =>
      after = { before with timestampCallback := registered } ∧
        status = .success
  | .setScheduleCallback registered, before, after, status =>
      after = { before with scheduleCallback := registered } ∧
        status = .success

inductive Reachable : Machine → Prop
  | fresh (strips : StripId → Strip) : Reachable (Machine.fresh strips)
  | perform {before after : Machine} {status : ControllerStatus}
      (operation : Operation) (reachable : Reachable before)
      (performs : Performs operation before after status) :
      Reachable after

end PrismKit
