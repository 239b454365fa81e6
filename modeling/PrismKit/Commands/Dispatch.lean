import PrismKit.Commands.Sink
import PrismKit.Controller.Runtime

/-!
# Command dispatch

`controller_command_dispatch.cpp`: the decoded message becomes an instruction
that is added to the controller, a reset, or a start with its first tick.
Reading a member of the union that was not written is not modelled; there the
result is `none`.
-/

namespace PrismKit

/-- `SetMultipleColor::SetMultipleColor`. -/
def SetMultipleColorPayload.instruction (payload : SetMultipleColorPayload) :
    ControllerInstruction :=
  { mark := payload.mark
    kind :=
      .setMultipleColor ⟨payload.r, payload.g, payload.b⟩ payload.range }

/-- `SetSingleColor::SetSingleColor`. -/
def SetSingleColorPayload.instruction (payload : SetSingleColorPayload) :
    ControllerInstruction :=
  { mark := payload.mark
    kind := .setSingleColor ⟨payload.r, payload.g, payload.b⟩ payload.index }

/-- `SetMultipleColorHsv::SetMultipleColorHsv`. -/
def SetMultipleColorHsvPayload.instruction
    (payload : SetMultipleColorHsvPayload) : ControllerInstruction :=
  { mark := payload.mark
    kind :=
      .setMultipleColorHsv ⟨payload.h, payload.s, payload.v⟩ payload.range }

/-- `SetSingleColorHsv::SetSingleColorHsv`. -/
def SetSingleColorHsvPayload.instruction
    (payload : SetSingleColorHsvPayload) : ControllerInstruction :=
  { mark := payload.mark
    kind :=
      .setSingleColorHsv ⟨payload.h, payload.s, payload.v⟩ payload.index }

/-- `Fade::Fade`. -/
def FadePayload.instruction (payload : FadePayload) : ControllerInstruction :=
  { mark := payload.mark
    groupId := payload.groupId
    kind :=
      .fade
        { percent := payload.percent
          durationMs := payload.durationMs
          index := payload.index } }

/-- `Gradient::Gradient`. -/
def GradientPayload.instruction (payload : GradientPayload) :
    ControllerInstruction :=
  { mark := payload.mark
    groupId := payload.groupId
    kind :=
      .gradient
        { target := ⟨payload.r, payload.g, payload.b⟩
          durationMs := payload.durationMs
          index := payload.index } }

structure RunGroupPayload where
  groupId : GroupId := 0
  mark : Mark := 0
  targetId : GroupId := 0
  additionalRepeats : LoopCount := 0
  deriving DecidableEq, Repr

/-- `RunGroupInstruction::RunGroupInstruction`. -/
def RunGroupPayload.instruction (payload : RunGroupPayload) :
    ControllerInstruction :=
  { mark := payload.mark
    groupId := payload.groupId
    kind := .runGroup payload.targetId payload.additionalRepeats }

structure ControllerCommandResult where
  mutationAttempted : Bool := false
  mutationStatus : ControllerStatus := .success
  startAttempted : Bool := false
  startStatus : ControllerStatus := .success
  initialRunAttempted : Bool := false
  initialRunStatus : ControllerStatus := .success
  deriving DecidableEq, Repr

/-- `AddInstruction` with its part of the result. -/
def addCommand (controller : Machine) (instruction : ControllerInstruction) :
    Option (Machine × ControllerCommandResult) :=
  let (added, status) := controller.addInstruction (some instruction)
  some (added, { mutationAttempted := true, mutationStatus := status })

/-- `StartAndTick`, when the clock shows `startTime` in `Start` and `runTime` in
`Run`. -/
def startAndTick (fuel startTime runTime : Nat) (controller : Machine)
    (repeats : LoopCount) : Option (Machine × ControllerCommandResult) :=
  let (started, startStatus) := controller.start repeats startTime
  if startStatus ≠ .success then
    some (started, { startAttempted := true, startStatus := startStatus })
  else
    (started.run fuel runTime).map fun (ran, runStatus) =>
      (ran,
        { startAttempted := true
          startStatus := startStatus
          initialRunAttempted := true
          initialRunStatus := runStatus })

def dispatchControllerCommand (fuel startTime runTime : Nat)
    (controller : Machine) (message : ControllerCommandMessage) :
    Option (Machine × ControllerCommandResult) :=
  match message.cmd, message.payload with
  | .setMultipleColor, .setMultiple payload =>
      addCommand controller payload.instruction
  | .setSingleColor, .setSingle payload =>
      addCommand controller payload.instruction
  | .setMultipleColorHsv, .setMultipleHsv payload =>
      addCommand controller payload.instruction
  | .setSingleColorHsv, .setSingleHsv payload =>
      addCommand controller payload.instruction
  | .setMultipleColorGrouped, .groupedSetMultiple grouped =>
      let payload : SetMultipleColorPayload :=
        ⟨grouped.mark, grouped.r, grouped.g, grouped.b, grouped.range⟩
      addCommand controller
        { payload.instruction with groupId := grouped.groupId }
  | .setSingleColorGrouped, .groupedSetSingle grouped =>
      let payload : SetSingleColorPayload :=
        ⟨grouped.mark, grouped.r, grouped.g, grouped.b, grouped.index⟩
      addCommand controller
        { payload.instruction with groupId := grouped.groupId }
  | .setMultipleColorHsvGrouped, .groupedSetMultipleHsv grouped =>
      let payload : SetMultipleColorHsvPayload :=
        ⟨grouped.mark, grouped.h, grouped.s, grouped.v, grouped.range⟩
      addCommand controller
        { payload.instruction with groupId := grouped.groupId }
  | .setSingleColorHsvGrouped, .groupedSetSingleHsv grouped =>
      let payload : SetSingleColorHsvPayload :=
        ⟨grouped.mark, grouped.h, grouped.s, grouped.v, grouped.index⟩
      addCommand controller
        { payload.instruction with groupId := grouped.groupId }
  | .runGroup, .runGroup runGroup =>
      let payload : RunGroupPayload :=
        ⟨runGroup.parentGroupId, runGroup.mark, runGroup.targetGroupId,
          runGroup.additionalRepeats⟩
      addCommand controller payload.instruction
  | .resetInstructions, _ => some (controller.resetInstructions, {})
  | .run, _ => startAndTick fuel startTime runTime controller 0
  | .start, .start payload =>
      startAndTick fuel startTime runTime controller
        payload.rootAdditionalRepeats
  | .fade, .fade payload => addCommand controller payload.instruction
  | .gradient, .gradient payload => addCommand controller payload.instruction
  | _, _ => none

end PrismKit
