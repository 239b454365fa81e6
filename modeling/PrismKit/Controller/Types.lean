import Mathlib.Data.Nat.Init

/-!
# Shared instruction and group types

Types and capacities of `instruction_types.hpp`, `group_record.hpp`,
`group_runtime.hpp` and the status enumeration of `controller.hpp`.
Fixed-width payload fields keep their width; array indexes and the counters
bounded by the instruction capacity are natural numbers.
-/

namespace PrismKit

/-- Millisecond offset from the owning group's activation time. -/
abbrev Mark := UInt16

/-- Sparse label of an instruction group; label zero is the implicit root. -/
abbrev GroupId := UInt32

/-- Additional passes requested for a group activation. -/
abbrev LoopCount := UInt16

/-- Sentinel requesting unbounded repetition. -/
def foreverLoopCount : LoopCount := 0xFFFF

/-- Shared fixed capacity for stored instructions and pending indexes. -/
def maxInstructions : Nat := 28

/-- Maximum number of group records, including the implicit root. -/
def maxGroups : Nat := maxInstructions + 1

/-- Maximum number of concurrently executing timed instructions. -/
def maxExecuting : Nat := maxInstructions

/-- Half-open pixel index range. -/
structure Range where
  start : UInt8
  «end» : UInt8
  deriving DecidableEq, Repr

/-- Common status returned by controller mutations and progress ticks. -/
inductive ControllerStatus where
  | success
  | invalidArgument
  | busy
  | capacityExhausted
  | invalidProgram
  | alreadyActiveGroup
  deriving DecidableEq, Repr

/-- Lifecycle state of the retained instruction program. -/
inductive ProgramState where
  | editable
  | active
  | completed
  deriving DecidableEq, Repr

/-- Immutable metadata describing one compact group view. -/
structure GroupRecord where
  id : GroupId := 0
  indexBegin : Nat := 0
  instructionCount : Nat := 0
  deriving DecidableEq, Repr

structure GroupRuntime where
  record : GroupRecord := {}
  cursor : Nat := 0
  startTime : UInt32 := 0
  repeatsRemaining : LoopCount := 0
  activeCount : Nat := 0
  childCount : Nat := 0
  positiveBoundaryObserved : Bool := false
  parentGroupIndex : Nat := maxGroups
  depth : UInt8 := 0
  active : Bool := false
  deriving DecidableEq, Repr

/-- `GroupRuntime::Reset`: clear activation state, retain group metadata. -/
def GroupRuntime.reset (runtime : GroupRuntime) : GroupRuntime :=
  { record := runtime.record }

@[simp]
theorem GroupRuntime.reset_record (runtime : GroupRuntime) :
    runtime.reset.record = runtime.record :=
  rfl

/-- Bookkeeping for one timed instruction under execution. -/
structure ExecutingInstruction where
  instructionIndex : Nat := 0
  runtimeIndex : Nat := 0
  deadline : UInt32 := 0
  deriving DecidableEq, Repr

/-- `DeadlineReached`: half-range comparison on the wrapping counter. -/
def deadlineReached (timestamp deadline : UInt32) : Bool :=
  timestamp - deadline < 0x80000000

/-- `LatchRunStatus`: keep the first failure of a progress tick. -/
def latchRunStatus (runStatus status : ControllerStatus) : ControllerStatus :=
  if runStatus = .success ∧ status ≠ .success then status else runStatus

end PrismKit
