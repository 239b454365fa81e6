import PrismKit.Controller.Types
import PrismKit.Controller.Oklab
import PrismKit.Controller.Strip

/-!
# Instructions

The instruction classes of the controller and their variant storage
`InstructionMemorySlot`.  The host-test-only timed instruction is compiled out
of the firmware and is not part of the model.

`Execute` reads the staged color of at most one pixel and then calls
`SetColor`, so an execution is returned as a value: the delay, the updated
instruction, the `SetColor` calls in order, and whether `RequestShow` ran.
-/

namespace PrismKit

/-- `Fade`: scale one staged pixel's HSV value over an elapsed duration. -/
structure Fade where
  percent : UInt16 := 0
  durationMs : UInt16 := 0
  index : UInt8 := 0
  started : Bool := false
  startTime : UInt32 := 0
  startColor : RgbColor := ⟨0, 0, 0⟩
  startValue : UInt8 := 0
  targetValue : UInt8 := 0
  deriving DecidableEq, Repr

/-- `Gradient`: interpolate one staged pixel to a target through OKLab. -/
structure Gradient where
  target : RgbColor := ⟨0, 0, 0⟩
  durationMs : UInt16 := 0
  index : UInt8 := 0
  started : Bool := false
  startTime : UInt32 := 0
  source : Oklab.OklabColor := ⟨0, 0, 0⟩
  targetLab : Oklab.OklabColor := ⟨0, 0, 0⟩
  deriving DecidableEq, Repr

/-- The concrete instruction types and their configuration. -/
inductive InstructionKind where
  | setMultipleColor (color : RgbColor) (range : Range)
  | setSingleColor (color : RgbColor) (index : UInt8)
  | setMultipleColorHsv (color : HsvColor) (range : Range)
  | setSingleColorHsv (color : HsvColor) (index : UInt8)
  | runGroup (targetId : GroupId) (additionalRepeats : LoopCount)
  | fade (fade : Fade)
  | gradient (gradient : Gradient)
  deriving DecidableEq, Repr

/-- `ControllerInstruction`: the base-class fields and the concrete type.
`controller` records whether the owning-controller pointer is set. -/
structure ControllerInstruction where
  mark : Mark := 0
  strip : Option StripId := none
  controller : Bool := false
  groupId : GroupId := 0
  kind : InstructionKind
  deriving DecidableEq, Repr

/-- What one `Execute` call did. -/
structure Execution where
  delay : UInt32 := 0
  kind : InstructionKind
  writes : List PixelWrite := []
  requestShow : Bool := false

/-! ## Fade -/

namespace Fade

def interpolateValue (start target : UInt8) (elapsed duration : UInt32) :
    UInt8 :=
  let difference :=
    if target ≥ start then
      target.toUInt32 - start.toUInt32
    else
      start.toUInt32 - target.toUInt32
  let change := (difference * elapsed + duration / 2) / duration
  let value :=
    if target ≥ start then
      start.toUInt32 + change
    else
      start.toUInt32 - change
  value.toUInt8

def scaleRgbColor (start : RgbColor) (value startValue : UInt8) : RgbColor :=
  if startValue = 0 then
    ⟨0, 0, 0⟩
  else
    let scaleChannel (channel : UInt8) : UInt8 :=
      let scaled :=
        channel.toUInt32 * value.toUInt32 + (startValue / 2).toUInt32
      (scaled / startValue.toUInt32).toUInt8
    ⟨scaleChannel start.red, scaleChannel start.green,
      scaleChannel start.blue⟩

/-- `DelayToFadeUpdate`: time to the next shared grid point or the endpoint. -/
def delayToFadeUpdate (timestamp remainingMs refreshPeriodMs : UInt32) :
    UInt32 :=
  let phase := timestamp % refreshPeriodMs
  let untilGrid :=
    if phase = 0 then refreshPeriodMs else refreshPeriodMs - phase
  if remainingMs < untilGrid then remainingMs else untilGrid

/-- The HSV value captured at activation: the maximum channel. -/
def captureValue (color : RgbColor) : UInt8 :=
  let value := color.red
  let value := if color.green > value then color.green else value
  if color.blue > value then color.blue else value

def scaleTarget (startValue : UInt8) (percent : UInt16) : UInt8 :=
  let scaledValue := (startValue.toUInt32 * percent.toUInt32 + 50) / 100
  (if scaledValue > 255 then 255 else scaledValue).toUInt8

/-- `Fade::Execute` on an existing pixel whose staged color is `staged`. -/
def execute (strip : StripId) (staged : RgbColor)
    (refreshPeriodMs timestamp : UInt32) (fade : Fade) : Execution :=
  if ¬ fade.started then
    let startValue := captureValue staged
    let started : Fade :=
      { fade with
        startColor := staged
        startValue := startValue
        targetValue := scaleTarget startValue fade.percent
        startTime := timestamp
        started := true }
    if fade.durationMs = 0 then
      { kind := .fade started
        writes :=
          [⟨strip, fade.index.toNat,
            scaleRgbColor staged started.targetValue startValue⟩]
        requestShow := true }
    else
      { delay :=
          delayToFadeUpdate timestamp fade.durationMs.toUInt32 refreshPeriodMs
        kind := .fade started }
  else
    let elapsed := timestamp - fade.startTime
    let complete := elapsed ≥ fade.durationMs.toUInt32
    let value :=
      if complete then
        fade.targetValue
      else
        interpolateValue fade.startValue fade.targetValue elapsed
          fade.durationMs.toUInt32
    { delay :=
        if complete then
          0
        else
          delayToFadeUpdate timestamp (fade.durationMs.toUInt32 - elapsed)
            refreshPeriodMs
      kind := .fade fade
      writes :=
        [⟨strip, fade.index.toNat,
          scaleRgbColor fade.startColor value fade.startValue⟩]
      requestShow := true }

def resetForReplay (fade : Fade) : Fade :=
  { percent := fade.percent
    durationMs := fade.durationMs
    index := fade.index }

end Fade

/-! ## Gradient -/

namespace Gradient

/-- `DelayToGradientUpdate`: like Fade, on a grid relative to activation. -/
def delayToGradientUpdate (elapsedMs remainingMs refreshPeriodMs : UInt32) :
    UInt32 :=
  let phase := elapsedMs % refreshPeriodMs
  let untilGrid :=
    if phase = 0 then refreshPeriodMs else refreshPeriodMs - phase
  if remainingMs < untilGrid then remainingMs else untilGrid

/-- `Gradient::Execute` on an existing pixel whose staged color is `staged`. -/
def execute (strip : StripId) (staged : RgbColor)
    (refreshPeriodMs timestamp : UInt32) (gradient : Gradient) : Execution :=
  if ¬ gradient.started then
    let started : Gradient :=
      { gradient with startTime := timestamp, started := true }
    if gradient.durationMs = 0 then
      { kind := .gradient started
        writes := [⟨strip, gradient.index.toNat, gradient.target⟩]
        requestShow := true }
    else
      { delay :=
          delayToGradientUpdate 0 gradient.durationMs.toUInt32 refreshPeriodMs
        kind :=
          .gradient
            { started with
              source := Oklab.toOklab staged
              targetLab := Oklab.toOklab gradient.target } }
  else
    let elapsedMs := timestamp - gradient.startTime
    let complete := elapsedMs ≥ gradient.durationMs.toUInt32
    let sample :=
      if complete then
        gradient.target
      else
        Oklab.fromOklab
          (Oklab.interpolate gradient.source gradient.targetLab
            elapsedMs.toUInt16 gradient.durationMs)
    { delay :=
        if complete then
          0
        else
          delayToGradientUpdate elapsedMs
            (gradient.durationMs.toUInt32 - elapsedMs) refreshPeriodMs
      kind := .gradient gradient
      writes := [⟨strip, gradient.index.toNat, sample⟩]
      requestShow := true }

def resetForReplay (gradient : Gradient) : Gradient :=
  { target := gradient.target
    durationMs := gradient.durationMs
    index := gradient.index }

end Gradient

/-! ## Dispatch over the concrete types -/

namespace ControllerInstruction

/-- The shared guard of every `Execute`: no controller or no strip means no
effect. -/
def boundStrip (strips : StripId → Strip) (instr : ControllerInstruction) :
    Option (StripId × Strip) :=
  if instr.controller then
    instr.strip.map fun id => (id, strips id)
  else
    none

/-- `SetColor` on one pixel if `Led` finds it. -/
def writeLed (id : StripId) (strip : Strip) (color : RgbColor) (index : Nat) :
    List PixelWrite :=
  match strip.led index with
  | none => []
  | some led => [⟨id, led, color⟩]

/-- `SetSingleColor::Execute`, shared with its HSV variant. -/
def executeSingle (kind : InstructionKind) (id : StripId) (strip : Strip)
    (color : RgbColor) (index : UInt8) : Execution :=
  { kind := kind
    writes := writeLed id strip color index.toNat
    requestShow := true }

/-- `SetMultipleColor::Execute`, shared with its HSV variant. -/
def executeMultiple (kind : InstructionKind) (id : StripId) (strip : Strip)
    (color : RgbColor) (range : Range) : Execution :=
  { kind := kind
    writes :=
      (List.range' range.start.toNat
        (range.end.toNat - range.start.toNat)).flatMap
          (writeLed id strip color)
    requestShow := true }

def execute (strips : StripId → Strip) (refreshPeriodMs timestamp : UInt32)
    (instr : ControllerInstruction) : Execution :=
  match instr.boundStrip strips with
  | none => { kind := instr.kind }
  | some (id, strip) =>
      match instr.kind with
      | .setMultipleColor color range =>
          executeMultiple instr.kind id strip color range
      | .setSingleColor color index =>
          executeSingle instr.kind id strip color index
      | .setMultipleColorHsv color range =>
          executeMultiple instr.kind id strip (hsvToRgb color) range
      | .setSingleColorHsv color index =>
          executeSingle instr.kind id strip (hsvToRgb color) index
      | .runGroup _ _ => { kind := instr.kind }
      | .fade fade =>
          match strip.led fade.index.toNat with
          | none => { kind := instr.kind }
          | some led =>
              fade.execute id (strip.color led) refreshPeriodMs timestamp
      | .gradient gradient =>
          match strip.led gradient.index.toNat with
          | none => { kind := instr.kind }
          | some led =>
              gradient.execute id (strip.color led) refreshPeriodMs timestamp

def resetForReplay (instr : ControllerInstruction) : ControllerInstruction :=
  match instr.kind with
  | .fade fade => { instr with kind := .fade fade.resetForReplay }
  | .gradient gradient =>
      { instr with kind := .gradient gradient.resetForReplay }
  | _ => instr

def hasPositiveSchedulingBoundary (instr : ControllerInstruction) : Bool :=
  match instr.kind with
  | .fade fade => fade.durationMs > 0
  | .gradient gradient => gradient.durationMs > 0
  | _ => false

def isRunGroup (instr : ControllerInstruction) : Bool :=
  match instr.kind with
  | .runGroup _ _ => true
  | _ => false

def targetGroupId (instr : ControllerInstruction) : GroupId :=
  match instr.kind with
  | .runGroup targetId _ => targetId
  | _ => 0

def additionalRepeats (instr : ControllerInstruction) : LoopCount :=
  match instr.kind with
  | .runGroup _ additionalRepeats => additionalRepeats
  | _ => 0

end ControllerInstruction

/-! ## Slots -/

/-- `InstructionMemorySlot`: variant storage, empty or holding one active
instruction. -/
structure InstructionMemorySlot where
  active : Option ControllerInstruction := none
  deriving DecidableEq, Repr

namespace InstructionMemorySlot

def getMark (slot : InstructionMemorySlot) : Mark :=
  match slot.active with
  | some instr => instr.mark
  | none => 0

def getGroupId (slot : InstructionMemorySlot) : GroupId :=
  match slot.active with
  | some instr => instr.groupId
  | none => 0

def isRunGroup (slot : InstructionMemorySlot) : Bool :=
  match slot.active with
  | some instr => instr.isRunGroup
  | none => false

def getTargetGroupId (slot : InstructionMemorySlot) : GroupId :=
  match slot.active with
  | some instr => instr.targetGroupId
  | none => 0

def getAdditionalRepeats (slot : InstructionMemorySlot) : LoopCount :=
  match slot.active with
  | some instr => instr.additionalRepeats
  | none => 0

def hasPositiveSchedulingBoundary (slot : InstructionMemorySlot) : Bool :=
  match slot.active with
  | some instr => instr.hasPositiveSchedulingBoundary
  | none => false

def resetForReplay (slot : InstructionMemorySlot) : InstructionMemorySlot :=
  ⟨slot.active.map ControllerInstruction.resetForReplay⟩

/-- `Set`, `SetStrip` and `SetController` as `AddInstruction` applies them. -/
def store (instr : ControllerInstruction) (strip : Option StripId) :
    InstructionMemorySlot :=
  ⟨some { instr with strip := strip, controller := true }⟩

/-- `InstructionMemorySlot::Execute`: the slot after the call, the delay, the
`SetColor` calls and whether a show was requested. -/
def execute (strips : StripId → Strip) (refreshPeriodMs timestamp : UInt32)
    (slot : InstructionMemorySlot) :
    InstructionMemorySlot × UInt32 × List PixelWrite × Bool :=
  match slot.active with
  | none => (slot, 0, [], false)
  | some instr =>
      let execution := instr.execute strips refreshPeriodMs timestamp
      (⟨some { instr with kind := execution.kind }⟩, execution.delay,
        execution.writes, execution.requestShow)

end InstructionMemorySlot

end PrismKit
