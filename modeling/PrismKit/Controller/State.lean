import PrismKit.Controller.Instruction
import PrismKit.Library.Loops

/-!
# Controller state

The data members of `Controller`, and the machine around it: the strips it
writes, the calls it makes to the outside, and the local `run_status` that
`Run` threads through its helpers.

`clocks` and `history` are ghost fields: they record the clock readings and the
transitions of the program since its last successful `Start`, and no function
of the controller reads them.
-/

namespace PrismKit

/-- The data members of `prism::Controller`.  `instructions` is the fixed slot
array (slots from `instructionCount` on are empty), `executing` the first
`executing_count_` entries of its array, and the remaining arrays are indexed
from zero.  `timestampCallback` and `scheduleCallback` say whether the two
callbacks are registered. -/
structure Controller where
  strip : Option StripId := none
  instructions : Nat → InstructionMemorySlot := fun _ => {}
  instructionCount : Nat := 0
  executing : List ExecutingInstruction := []
  showRequested : Bool := false
  timestampCallback : Bool := false
  scheduleCallback : Bool := false
  minScheduledTimeout : UInt32 := 0
  state : ProgramState := .editable
  refreshPeriodMs : UInt32 := 20
  groupIndices : Nat → Nat := fun _ => 0
  groups : Nat → GroupRecord := fun _ => {}
  runtimes : Nat → GroupRuntime := fun _ => {}
  groupCount : Nat := 0

/-- A call the controller makes to its environment. -/
inductive Output where
  | setColor (write : PixelWrite)
  | show (strip : StripId)
  | schedule (delayMs : UInt32)
  deriving DecidableEq, Repr

/-- What a transition of the scheduler did. -/
inductive Event where
  /-- `Start` activated the root. -/
  | started (repeats : LoopCount)
  /-- A due `RunGroup` of `parent` activated `child`. -/
  | launched (parent slot child : Nat) (repeats : LoopCount)
  /-- A due `RunGroup` of `parent` was consumed without an activation. -/
  | rejected (parent slot : Nat) (status : ControllerStatus)
  /-- A due instruction other than `RunGroup` was executed. -/
  | executed (group slot : Nat) (delay : UInt32)
  /-- A timed instruction whose deadline had arrived was executed again. -/
  | resumed (group slot : Nat) (delay : UInt32)
  /-- A timed entry without a valid runtime was dropped. -/
  | discarded (group slot : Nat)
  /-- A group pass completed and the next pass of its activation started. -/
  | restarted (group : Nat)
  /-- A group pass completed and its activation ended. -/
  | ended (group : Nat)
  deriving DecidableEq, Repr

/-- One recorded transition: the ordinal of the `Run` it belongs to (zero for
`Start`), what happened, and the controller around it. -/
structure Moment where
  run : Nat
  event : Event
  before : Controller
  after : Controller

/-- The controller with everything its calls touch. -/
structure Machine extends Controller where
  strips : StripId → Strip
  outputs : List Output := []
  runStatus : ControllerStatus := .success
  clocks : List Nat := []
  history : List Moment := []

namespace Machine

/-- `Controller::Controller`: a fresh controller beside the given strips. -/
def fresh (strips : StripId → Strip) : Machine :=
  { strips := strips }

def updateRuntime (group : Nat) (change : GroupRuntime → GroupRuntime)
    (machine : Machine) : Machine :=
  { machine with
    runtimes :=
      Function.update machine.runtimes group (change (machine.runtimes group)) }

/-- `LatchRunStatus` on the local status of `Run`. -/
def latch (status : ControllerStatus) (machine : Machine) : Machine :=
  { machine with runStatus := latchRunStatus machine.runStatus status }

/-- Append a transition to the ghost history. -/
def record (event : Event) (before : Controller) (machine : Machine) :
    Machine :=
  { machine with
    history :=
      machine.history ++
        [⟨machine.clocks.length - 1, event, before, machine.toController⟩] }

/-- The reading of the timestamp callback when the millisecond clock shows
`now`, before it is truncated to 32 bits. -/
def clockReading (now : Nat) (machine : Machine) : Nat :=
  if machine.timestampCallback then now else 0

def getTimestamp (now : Nat) (machine : Machine) : UInt32 :=
  UInt32.ofNat (machine.clockReading now)

/-- Carry out one `SetColor` call. -/
def applyWrite (machine : Machine) (write : PixelWrite) : Machine :=
  { machine with
    strips :=
      Function.update machine.strips write.strip
        ((machine.strips write.strip).setColor write.index write.color)
    outputs := machine.outputs ++ [.setColor write] }

/-- `instructions_[index].Execute(timestamp)` with its effects; the second
component is the returned delay. -/
def executeSlot (index : Nat) (timestamp : UInt32) (machine : Machine) :
    Machine × UInt32 :=
  let (slot, delay, writes, requestShow) :=
    (machine.instructions index).execute machine.strips
      machine.refreshPeriodMs timestamp
  let executed : Machine :=
    { machine with
      instructions := Function.update machine.instructions index slot
      showRequested := machine.showRequested || requestShow }
  (writes.foldl applyWrite executed, delay)

end Machine

/-- `FindGroup`: index of a label in a group table, `maxGroups` if absent. -/
def findGroup (groups : Nat → GroupRecord) (groupCount : Nat) (id : GroupId) :
    Nat :=
  ((List.range groupCount).find? fun index =>
    (groups index).id = id).getD maxGroups

end PrismKit
