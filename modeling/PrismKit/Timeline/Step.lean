import PrismKit.Timeline.Program
import PrismKit.Library.SwapRemove

/-!
# Steps of the group timelines

An abstract description of what the scheduler can do to a consistent
controller.  `Step` has one constructor for each kind of progress and none for
the defensive branches of the source: capacity overflow, invalid entries, count
underflow and failed activations do not occur here.  That the loop bodies of
`Run` are steps is proved in `PrismKit.Timeline.Refinement`.
-/

namespace PrismKit

open Library

namespace Controller

def updateRuntime (controller : Controller) (group : Nat)
    (change : GroupRuntime → GroupRuntime) : Controller :=
  { controller with
    runtimes :=
      Function.update controller.runtimes group
        (change (controller.runtimes group)) }

/-- The active groups met by following parent links, at most `fuel` of
them. -/
def ancestors (controller : Controller) : Nat → Nat → List Nat
  | 0, _ => []
  | fuel + 1, group =>
      if group < controller.groupCount ∧ (controller.runtimes group).active then
        group ::
          ancestors controller fuel
            (controller.runtimes group).parentGroupIndex
      else
        []

/-- The group and its active ancestors have observed a positive boundary. -/
def observed (controller : Controller) (group : Nat) : Controller :=
  { controller with
    runtimes := fun other =>
      { controller.runtimes other with
        positiveBoundaryObserved :=
          (controller.runtimes other).positiveBoundaryObserved ||
            decide
              (other ∈ controller.ancestors controller.groupCount group) } }

def nextSlot (controller : Controller) (group : Nat) : Nat :=
  controller.slotAt group (controller.runtimes group).cursor

/-- Move the cursor of a group; a positive mark is a positive boundary. -/
def consume (controller : Controller) (group : Nat) : Controller :=
  (if (controller.instructions (controller.nextSlot group)).getMark > 0 then
      controller.observed group
    else
      controller).updateRuntime group fun runtime =>
        { runtime with cursor := runtime.cursor + 1 }

def activate (controller : Controller) (group : Nat) (timestamp : UInt32)
    (repeats : LoopCount) (parent : Nat) : Controller :=
  { controller.updateRuntime group fun runtime =>
      { record := runtime.record
        startTime := timestamp
        repeatsRemaining := repeats
        parentGroupIndex := parent
        depth :=
          if parent = maxGroups then
            0
          else
            (controller.runtimes parent).depth + 1
        active := true } with
    instructions := fun index =>
      if index ∈ controller.timeline group then
        (controller.instructions index).resetForReplay
      else
        controller.instructions index }

/-- Executing the slot `index` leaves `slot` behind, asks to be resumed after
`delay`, and requests a show if `shown`. -/
def Executes (strips : StripId → Strip) (timestamp : UInt32)
    (controller : Controller) (index : Nat) (slot : InstructionMemorySlot)
    (delay : UInt32) (shown : Bool) : Prop :=
  ∃ writes,
    (controller.instructions index).execute strips controller.refreshPeriodMs
        timestamp =
      (slot, delay, writes, shown)

/-- The controller after its slot `index` was executed. -/
def afterExecution (controller : Controller) (index : Nat)
    (slot : InstructionMemorySlot) (shown : Bool) : Controller :=
  { controller with
    instructions := Function.update controller.instructions index slot
    showRequested := controller.showRequested || shown }

/-- The instruction at the cursor of an active group is due. -/
structure Due (controller : Controller) (timestamp : UInt32) (group : Nat) :
    Prop where
  below : group < controller.groupCount
  active : (controller.runtimes group).active
  remaining : (controller.runtimes group).cursor < controller.size group
  reached :
    (controller.instructions (controller.nextSlot group)).getMark.toUInt32 ≤
      timestamp - (controller.runtimes group).startTime

structure Ready (controller : Controller) (group : Nat) : Prop where
  below : group < controller.groupCount
  active : (controller.runtimes group).active
  dispatched : controller.size group ≤ (controller.runtimes group).cursor
  resumed : (controller.runtimes group).activeCount = 0
  ended : (controller.runtimes group).childCount = 0

/-- The deadline of the entry at a position has arrived, and no entry before
it waits for a deadline that has arrived. -/
structure Resumable (controller : Controller) (timestamp : UInt32)
    (position : Nat) (entry : ExecutingInstruction) : Prop where
  found : controller.executing[position]? = some entry
  reached : deadlineReached timestamp entry.deadline
  first :
    ∀ other, other < position → ∀ earlier,
      controller.executing[other]? = some earlier →
        deadlineReached timestamp earlier.deadline = false

def Settled (controller : Controller) (timestamp : UInt32) : Prop :=
  ∀ entry ∈ controller.executing,
    deadlineReached timestamp entry.deadline = false

/-- The repeats left after one more pass was started. -/
def nextRepeats (repeats : LoopCount) : LoopCount :=
  if repeats = foreverLoopCount then foreverLoopCount else repeats - 1

inductive Step (strips : StripId → Strip) (timestamp : UInt32)
    (controller : Controller) : Event → Controller → Prop
  /-- A due timed instruction runs and stays. -/
  | resumedAgain (position : Nat) (entry : ExecutingInstruction)
      (slot : InstructionMemorySlot) (delay : UInt32) (shown : Bool)
      (resumable : controller.Resumable timestamp position entry)
      (executes :
        controller.Executes strips timestamp entry.instructionIndex slot delay
          shown)
      (positive : delay ≠ 0) :
      Step strips timestamp controller
        (.resumed entry.runtimeIndex entry.instructionIndex delay)
        { (controller.observed entry.runtimeIndex).afterExecution
            entry.instructionIndex slot shown with
          executing :=
            controller.executing.set position
              { entry with deadline := timestamp + delay } }
  /-- A due timed instruction runs for the last time. -/
  | resumedLast (position : Nat) (entry : ExecutingInstruction)
      (slot : InstructionMemorySlot) (shown : Bool)
      (resumable : controller.Resumable timestamp position entry)
      (executes :
        controller.Executes strips timestamp entry.instructionIndex slot 0
          shown) :
      Step strips timestamp controller
        (.resumed entry.runtimeIndex entry.instructionIndex 0)
        (({ (controller.observed entry.runtimeIndex).afterExecution
              entry.instructionIndex slot shown with
            executing :=
              swapRemove controller.executing position }).updateRuntime
          entry.runtimeIndex fun runtime =>
            { runtime with activeCount := runtime.activeCount - 1 })
  /-- A ready group with repeats left that observed a boundary starts over. -/
  | restarted (group : Nat) (ready : controller.Ready group)
      (again : (controller.runtimes group).repeatsRemaining ≠ 0)
      (observed : (controller.runtimes group).positiveBoundaryObserved) :
      Step strips timestamp controller (.restarted group)
        (controller.activate group timestamp
          (nextRepeats (controller.runtimes group).repeatsRemaining)
          (controller.runtimes group).parentGroupIndex)
  /-- The root is ready and does not start over. -/
  | endedRoot (ready : controller.Ready 0)
      (final :
        (controller.runtimes 0).repeatsRemaining = 0 ∨
          (controller.runtimes 0).positiveBoundaryObserved = false) :
      Step strips timestamp controller (.ended 0)
        { controller.updateRuntime 0 GroupRuntime.reset with
          state := .completed }
  /-- A ready child does not start over and leaves its parent. -/
  | endedChild (group : Nat) (notRoot : group ≠ 0)
      (ready : controller.Ready group)
      (final :
        (controller.runtimes group).repeatsRemaining = 0 ∨
          (controller.runtimes group).positiveBoundaryObserved = false) :
      Step strips timestamp controller (.ended group)
        ((controller.updateRuntime group GroupRuntime.reset).updateRuntime
          (controller.runtimes group).parentGroupIndex fun runtime =>
            { runtime with childCount := runtime.childCount - 1 })
  /-- A due `RunGroup` activates an inactive child. -/
  | launched (group child : Nat) (due : controller.Due timestamp group)
      (settled : controller.Settled timestamp)
      (isRun :
        (controller.instructions (controller.nextSlot group)).isRunGroup)
      (target :
        findGroup controller.groups controller.groupCount
            (controller.instructions
              (controller.nextSlot group)).getTargetGroupId =
          child)
      (calls : controller.CallsGroup group child)
      (notRoot : child ≠ 0)
      (inactive : (controller.runtimes child).active = false) :
      Step strips timestamp controller
        (.launched group (controller.nextSlot group) child
          (controller.instructions
            (controller.nextSlot group)).getAdditionalRepeats)
        (((controller.consume group).activate child timestamp
            (controller.instructions
              (controller.nextSlot group)).getAdditionalRepeats
            group).updateRuntime group fun runtime =>
          { runtime with childCount := runtime.childCount + 1 })
  /-- A due `RunGroup` finds its child still active. -/
  | rejected (group child : Nat) (due : controller.Due timestamp group)
      (settled : controller.Settled timestamp)
      (isRun :
        (controller.instructions (controller.nextSlot group)).isRunGroup)
      (target :
        findGroup controller.groups controller.groupCount
            (controller.instructions
              (controller.nextSlot group)).getTargetGroupId =
          child)
      (calls : controller.CallsGroup group child)
      (notRoot : child ≠ 0)
      (busy : (controller.runtimes child).active) :
      Step strips timestamp controller
        (.rejected group (controller.nextSlot group) .alreadyActiveGroup)
        (controller.consume group)
  /-- A due instruction finishes at once. -/
  | executedNow (group : Nat) (slot : InstructionMemorySlot) (shown : Bool)
      (due : controller.Due timestamp group)
      (settled : controller.Settled timestamp)
      (notRun :
        (controller.instructions
          (controller.nextSlot group)).isRunGroup = false)
      (executes :
        controller.Executes strips timestamp (controller.nextSlot group) slot 0
          shown) :
      Step strips timestamp controller
        (.executed group (controller.nextSlot group) 0)
        ((controller.consume group).afterExecution (controller.nextSlot group)
          slot shown)
  /-- A due instruction asks to be resumed later. -/
  | executedTimed (group : Nat) (slot : InstructionMemorySlot) (delay : UInt32)
      (shown : Bool) (due : controller.Due timestamp group)
      (settled : controller.Settled timestamp)
      (notRun :
        (controller.instructions
          (controller.nextSlot group)).isRunGroup = false)
      (executes :
        controller.Executes strips timestamp (controller.nextSlot group) slot
          delay shown)
      (positive : delay ≠ 0) :
      Step strips timestamp controller
        (.executed group (controller.nextSlot group) delay)
        (({ (controller.consume group).afterExecution
              (controller.nextSlot group) slot shown with
            executing :=
              controller.executing ++
                [(⟨controller.nextSlot group, group, timestamp + delay⟩ :
                  ExecutingInstruction)] }).updateRuntime group fun runtime =>
          { runtime with activeCount := runtime.activeCount + 1 })

end Controller

end PrismKit
