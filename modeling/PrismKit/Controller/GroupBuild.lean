import PrismKit.Controller.State
import PrismKit.Library.InsertionSort

/-!
# Building and validating the group model

`BuildAndValidateGroups` and its five stages over the scratch state
`GroupBuildState`.  Nothing of the controller changes before
`commitGroupBuild`.
-/

namespace PrismKit

open Library

/-- `Controller::GroupBuildState`; the call graph has one 32-bit adjacency
mask per group. -/
structure GroupBuildState where
  groups : Nat → GroupRecord := fun _ => {}
  instructionIndices : Nat → Nat := fun _ => 0
  indexWritePositions : Nat → Nat := fun _ => 0
  callGraph : Nat → BitVec 32 := fun _ => 0
  hasPositiveBoundary : Nat → Bool := fun _ => false
  groupCount : Nat := 1

namespace GroupBuildState

/-- `FindGroup` in the table under construction. -/
def find (build : GroupBuildState) (id : GroupId) : Nat :=
  findGroup build.groups build.groupCount id

/-- Whether the adjacency mask of `source` contains `target`. -/
def calls (build : GroupBuildState) (source target : Nat) : Bool :=
  build.callGraph source &&& (1#32 <<< target) != 0

end GroupBuildState

section Stages

variable (instructions : Nat → InstructionMemorySlot) (instructionCount : Nat)

def tableInstruction (index : Nat) (build : GroupBuildState) :
    Except ControllerStatus GroupBuildState :=
  let groupId := (instructions index).getGroupId
  let found := build.find groupId
  if found = maxGroups then
    if build.groupCount ≥ maxGroups then
      .error .capacityExhausted
    else
      .ok
        { build with
          groups :=
            Function.update build.groups build.groupCount
              { build.groups build.groupCount with
                id := groupId
                instructionCount :=
                  (build.groups build.groupCount).instructionCount + 1 }
          groupCount := build.groupCount + 1 }
  else
    .ok
      { build with
        groups :=
          Function.update build.groups found
            { build.groups found with
              instructionCount := (build.groups found).instructionCount + 1 } }

def buildGroupTable (build : GroupBuildState) :
    Except ControllerStatus GroupBuildState :=
  forUpToExcept (tableInstruction instructions)
    { build with
      groups := Function.update build.groups 0 { build.groups 0 with id := 0 } }
    instructionCount

/-- Give one group its range; the second component is `index_cursor`. -/
def prefixGroup (index : Nat) (state : GroupBuildState × Nat) :
    Except ControllerStatus (GroupBuildState × Nat) :=
  let (build, indexCursor) := state
  let count := (build.groups index).instructionCount
  if indexCursor + count > maxInstructions then
    .error .capacityExhausted
  else
    .ok
      ({ build with
          groups :=
            Function.update build.groups index
              { build.groups index with indexBegin := indexCursor }
          indexWritePositions :=
            Function.update build.indexWritePositions index indexCursor },
        indexCursor + count)

/-- Append one instruction to its group's range. -/
def fillInstruction (index : Nat) (build : GroupBuildState) :
    GroupBuildState :=
  let group := build.find (instructions index).getGroupId
  let position := build.indexWritePositions group
  { build with
    instructionIndices :=
      Function.update build.instructionIndices position index
    indexWritePositions :=
      Function.update build.indexWritePositions group (position + 1) }

/-- Sort one group's range by mark: an insertion sort that shifts strictly
larger marks. -/
def sortGroup (index : Nat) (build : GroupBuildState) : GroupBuildState :=
  let group := build.groups index
  let sorted :=
    sortRange
      (fun left right =>
        (instructions left).getMark > (instructions right).getMark)
      group.indexBegin group.instructionCount ⟨build.instructionIndices⟩
  { build with instructionIndices := sorted.get }

def buildGroupIndexPool (build : GroupBuildState) :
    Except ControllerStatus GroupBuildState :=
  match forUpToExcept prefixGroup (build, 0) build.groupCount with
  | .error status => .error status
  | .ok (ranged, _) =>
      let filled :=
        forUpTo (fillInstruction instructions) ranged instructionCount
      .ok (forUpTo (sortGroup instructions) filled filled.groupCount)

/-- Resolve one instruction's target and add its edge. -/
def linkInstruction (index : Nat) (build : GroupBuildState) :
    Except ControllerStatus GroupBuildState :=
  let slot := instructions index
  if ¬ slot.isRunGroup then
    .ok build
  else if slot.getTargetGroupId = 0 then
    .error .invalidProgram
  else
    let source := build.find slot.getGroupId
    let target := build.find slot.getTargetGroupId
    if source = maxGroups ∨ target = maxGroups then
      .error .invalidProgram
    else
      .ok
        { build with
          callGraph :=
            Function.update build.callGraph source
              (build.callGraph source ||| (1#32 <<< target)) }

def buildGroupCallGraph (build : GroupBuildState) :
    Except ControllerStatus GroupBuildState :=
  forUpToExcept (linkInstruction instructions) build instructionCount

/-- Extend one row of the adjacency matrix through a fixed group. -/
def closeRow (through source : Nat) (build : GroupBuildState) :
    GroupBuildState :=
  if build.calls source through then
    { build with
      callGraph :=
        Function.update build.callGraph source
          (build.callGraph source ||| build.callGraph through) }
  else
    build

/-- In-place transitive closure of the call graph. -/
def closeCallGraph (build : GroupBuildState) : GroupBuildState :=
  forUpTo
    (fun through build => forUpTo (closeRow through) build build.groupCount)
    build build.groupCount

def validateGroupCallGraph (build : GroupBuildState) :
    Except ControllerStatus GroupBuildState :=
  let closed := closeCallGraph build
  if (List.range closed.groupCount).any fun index =>
      closed.calls index index then
    .error .invalidProgram
  else
    .ok closed

/-- Record the owning group of a positive mark or statically timed slot. -/
def markBoundary (index : Nat) (build : GroupBuildState) : GroupBuildState :=
  let slot := instructions index
  if slot.getMark > 0 ∨ slot.hasPositiveSchedulingBoundary then
    { build with
      hasPositiveBoundary :=
        Function.update build.hasPositiveBoundary
          (build.find slot.getGroupId) true }
  else
    build

/-- Propagate along one edge; the second component is `changed`. -/
def propagateEdge (source target : Nat) (state : GroupBuildState × Bool) :
    GroupBuildState × Bool :=
  let (build, changed) := state
  if build.calls source target ∧ build.hasPositiveBoundary target ∧
      ¬ build.hasPositiveBoundary source then
    ({ build with
        hasPositiveBoundary :=
          Function.update build.hasPositiveBoundary source true }, true)
  else
    (build, changed)

def propagatePass (build : GroupBuildState) : GroupBuildState × Bool :=
  forUpTo
    (fun source state =>
      forUpTo (propagateEdge source) state build.groupCount)
    (build, false) build.groupCount

/-- At most `group_count` passes, stopping after one that changed nothing. -/
def propagateBoundaries : Nat → GroupBuildState → GroupBuildState
  | 0, build => build
  | passes + 1, build =>
      let (propagated, changed) := propagatePass build
      if changed then propagateBoundaries passes propagated else propagated

/-- Whether a stored instruction repeats a child without a boundary. -/
def repeatsWithoutBoundary (build : GroupBuildState) (index : Nat) : Bool :=
  let slot := instructions index
  if ¬ slot.isRunGroup ∨ slot.getAdditionalRepeats = 0 then
    false
  else
    let target := build.find slot.getTargetGroupId
    target = maxGroups ∨ ¬ build.hasPositiveBoundary target

def validateRepeatBoundaries (rootAdditionalRepeats : LoopCount)
    (build : GroupBuildState) : Except ControllerStatus GroupBuildState :=
  let marked := forUpTo (markBoundary instructions) build instructionCount
  let propagated := propagateBoundaries marked.groupCount marked
  if (List.range instructionCount).any
      (repeatsWithoutBoundary instructions propagated) then
    .error .invalidProgram
  else if rootAdditionalRepeats ≠ 0 ∧
      ¬ propagated.hasPositiveBoundary 0 then
    .error .invalidProgram
  else
    .ok propagated

end Stages

/-- `CommitGroupBuild`: publish a validated model. -/
def commitGroupBuild (build : GroupBuildState) (controller : Controller) :
    Controller :=
  let groups := fun index =>
    if index < build.groupCount then build.groups index else {}
  { controller with
    groupCount := build.groupCount
    groups := groups
    groupIndices := build.instructionIndices
    runtimes := fun index =>
      if index < build.groupCount then { record := groups index } else {} }

/-- The five stages before the commit. -/
def validateGroups (instructions : Nat → InstructionMemorySlot)
    (instructionCount : Nat) (rootAdditionalRepeats : LoopCount) :
    Except ControllerStatus GroupBuildState :=
  match buildGroupTable instructions instructionCount {} with
  | .error status => .error status
  | .ok build =>
  match buildGroupIndexPool instructions instructionCount build with
  | .error status => .error status
  | .ok build =>
  match buildGroupCallGraph instructions instructionCount build with
  | .error status => .error status
  | .ok build =>
  match validateGroupCallGraph build with
  | .error status => .error status
  | .ok build =>
      validateRepeatBoundaries instructions instructionCount
        rootAdditionalRepeats build

def buildAndValidateGroups (rootAdditionalRepeats : LoopCount)
    (controller : Controller) : Except ControllerStatus Controller :=
  match validateGroups controller.instructions controller.instructionCount
      rootAdditionalRepeats with
  | .error status => .error status
  | .ok build => .ok (commitGroupBuild build controller)

end PrismKit
