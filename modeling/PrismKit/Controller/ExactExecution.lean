import PrismKit.Controller.FadeCurve
import PrismKit.Controller.GradientPath
import PrismKit.Controller.OklabPath
import PrismKit.Library.Grid

/-!
# Executions in checked arithmetic

`Fade::Execute` and `Gradient::Execute` once more, with their sums, products,
differences, quotients and narrowing casts checked.  Only the differences of
timestamps may wrap.
-/

namespace PrismKit

open Library Library.Checked

/-- `DelayToFadeUpdate` and `DelayToGradientUpdate`, which differ in the instant
whose phase they take. -/
def Checked.gridDelay (instant remainingMs refreshPeriodMs : UInt32) :
    Option UInt32 := do
  let phase ← mod instant.toNat refreshPeriodMs.toNat
  let untilGrid ←
    (if phase = 0 then
      some refreshPeriodMs.toNat
    else
      sub refreshPeriodMs.toNat phase)
  some
    (UInt32.ofNat
      (if remainingMs.toNat < untilGrid then remainingMs.toNat else untilGrid))

section Delays

variable {instant remainingMs refreshPeriodMs : UInt32}

theorem toNat_period_pos (refresh : refreshPeriodMs ≠ 0) :
    0 < refreshPeriodMs.toNat :=
  Nat.pos_of_ne_zero fun zero => refresh (UInt32.toNat_inj.mp zero)

/-- The delay leads to the next point of the grid, or to the end. -/
theorem Fade.toNat_delayToFadeUpdate (refresh : refreshPeriodMs ≠ 0) :
    (delayToFadeUpdate instant remainingMs refreshPeriodMs).toNat =
      min remainingMs.toNat
        (untilGrid refreshPeriodMs.toNat instant.toNat) := by
  have phase := Nat.mod_lt instant.toNat (toNat_period_pos refresh)
  have distance :
      (if instant % refreshPeriodMs = 0 then
        refreshPeriodMs
      else
        refreshPeriodMs - instant % refreshPeriodMs).toNat =
        untilGrid refreshPeriodMs.toNat instant.toNat := by
    unfold untilGrid
    split
    · rename_i zero
      have none := congrArg UInt32.toNat zero
      rw [UInt32.toNat_mod, UInt32.toNat_zero] at none
      rw [none, Nat.sub_zero]
    · rw [UInt32.toNat_sub_of_le, UInt32.toNat_mod]
      rw [UInt32.le_iff_toNat_le, UInt32.toNat_mod]
      exact Nat.le_of_lt phase
  unfold delayToFadeUpdate
  simp only [UInt32.lt_iff_toNat_lt, distance]
  split
  · omega
  · rw [distance]
    omega

theorem Gradient.toNat_delayToGradientUpdate (refresh : refreshPeriodMs ≠ 0) :
    (delayToGradientUpdate instant remainingMs refreshPeriodMs).toNat =
      min remainingMs.toNat
        (untilGrid refreshPeriodMs.toNat instant.toNat) :=
  Fade.toNat_delayToFadeUpdate refresh

theorem Checked.delayToFadeUpdate_eq (refresh : refreshPeriodMs ≠ 0) :
    Checked.gridDelay instant remainingMs refreshPeriodMs =
      some (Fade.delayToFadeUpdate instant remainingMs refreshPeriodMs) := by
  have positive := toNat_period_pos refresh
  have phase := Nat.mod_lt instant.toNat positive
  have distance :
      (if instant.toNat % refreshPeriodMs.toNat = 0 then
        some refreshPeriodMs.toNat
      else
        sub refreshPeriodMs.toNat (instant.toNat % refreshPeriodMs.toNat)) =
        some (untilGrid refreshPeriodMs.toNat instant.toNat) := by
    unfold untilGrid
    split
    · rename_i zero
      rw [zero, Nat.sub_zero]
    · exact sub_of_le (Nat.le_of_lt phase)
  apply step (mod_of_ne_zero (Nat.ne_of_gt positive) _)
  apply step distance
  congr 1
  apply UInt32.toNat_inj.mp
  have bounded := refreshPeriodMs.toNat_lt
  have within := @untilGrid_le refreshPeriodMs.toNat instant.toNat
  have short := remainingMs.toNat_lt
  rw [Fade.toNat_delayToFadeUpdate refresh, UInt32.toNat_ofNat']
  split <;> omega

theorem Checked.delayToGradientUpdate_eq (refresh : refreshPeriodMs ≠ 0) :
    Checked.gridDelay instant remainingMs refreshPeriodMs =
      some
        (Gradient.delayToGradientUpdate instant remainingMs
          refreshPeriodMs) :=
  Checked.delayToFadeUpdate_eq refresh

end Delays

namespace Fade.Checked

def interpolateValue (start target : UInt8) (elapsed duration : UInt32) :
    Option UInt8 := do
  let difference ←
    (if target ≥ start then
      sub target.toNat start.toNat
    else
      sub start.toNat target.toNat)
  let product ← unsigned32 (difference * elapsed.toNat)
  let sum ← unsigned32 (product + duration.toNat / 2)
  let change ← div sum duration.toNat
  let value ←
    (if target ≥ start then
      unsigned32 (start.toNat + change)
    else
      sub start.toNat change)
  some (UInt8.ofNat (← unsigned8 value))

def scaleChannel (value startValue channel : UInt8) : Option UInt8 := do
  let product ← unsigned32 (channel.toNat * value.toNat)
  let scaled ← unsigned32 (product + startValue.toNat / 2)
  let quotient ← div scaled startValue.toNat
  some (UInt8.ofNat (← unsigned8 quotient))

def scaleRgbColor (start : RgbColor) (value startValue : UInt8) :
    Option RgbColor :=
  if startValue = 0 then
    some ⟨0, 0, 0⟩
  else do
    some
      ⟨← scaleChannel value startValue start.red,
        ← scaleChannel value startValue start.green,
        ← scaleChannel value startValue start.blue⟩

def scaleTarget (startValue : UInt8) (percent : UInt16) : Option UInt8 := do
  let product ← unsigned32 (startValue.toNat * percent.toNat)
  let sum ← unsigned32 (product + 50)
  let scaledValue ← div sum 100
  some
    (UInt8.ofNat
      (← unsigned8 (if scaledValue > 255 then 255 else scaledValue)))

def execute (strip : StripId) (staged : RgbColor)
    (refreshPeriodMs timestamp : UInt32) (fade : Fade) : Option Execution :=
  if ¬ fade.started then do
    let startValue := captureValue staged
    let targetValue ← scaleTarget startValue fade.percent
    let started : Fade :=
      { fade with
        startColor := staged
        startValue := startValue
        targetValue := targetValue
        startTime := timestamp
        started := true }
    if fade.durationMs = 0 then
      let color ← scaleRgbColor staged targetValue startValue
      some
        { kind := .fade started
          writes := [⟨strip, fade.index.toNat, color⟩]
          requestShow := true }
    else
      let delay ←
        PrismKit.Checked.gridDelay timestamp fade.durationMs.toUInt32
          refreshPeriodMs
      some { delay := delay, kind := .fade started }
  else do
    let elapsed := timestamp - fade.startTime
    let complete := elapsed ≥ fade.durationMs.toUInt32
    let value ←
      (if complete then
        some fade.targetValue
      else
        interpolateValue fade.startValue fade.targetValue elapsed
          fade.durationMs.toUInt32)
    let color ← scaleRgbColor fade.startColor value fade.startValue
    let delay ←
      (if complete then
        some 0
      else do
        let remaining ← sub fade.durationMs.toNat elapsed.toNat
        PrismKit.Checked.gridDelay timestamp (UInt32.ofNat remaining)
          refreshPeriodMs)
    some
      { delay := delay
        kind := .fade fade
        writes := [⟨strip, fade.index.toNat, color⟩]
        requestShow := true }

end Fade.Checked

/-- `Gradient::Execute`.  The conversions at its activation and at each sample
are the checked ones. -/
def Gradient.Checked.execute (strip : StripId) (staged : RgbColor)
    (refreshPeriodMs timestamp : UInt32) (gradient : Gradient) :
    Option Execution :=
  if ¬ gradient.started then
    let started : Gradient :=
      { gradient with startTime := timestamp, started := true }
    if gradient.durationMs = 0 then
      some
        { kind := .gradient started
          writes := [⟨strip, gradient.index.toNat, gradient.target⟩]
          requestShow := true }
    else do
      let source ← Oklab.Checked.toOklab staged
      let targetLab ← Oklab.Checked.toOklab gradient.target
      let delay ←
        PrismKit.Checked.gridDelay 0 gradient.durationMs.toUInt32
          refreshPeriodMs
      some
        { delay := delay
          kind :=
            .gradient
              { started with source := source, targetLab := targetLab } }
  else do
    let elapsedMs := timestamp - gradient.startTime
    let complete := elapsedMs ≥ gradient.durationMs.toUInt32
    let sample ←
      (if complete then
        some gradient.target
      else do
        let elapsed ← unsigned16 elapsedMs.toNat
        Oklab.Checked.fromOklab
          (← Oklab.Checked.interpolate gradient.source gradient.targetLab
            (UInt16.ofNat elapsed) gradient.durationMs))
    let delay ←
      (if complete then
        some 0
      else do
        let remaining ← sub gradient.durationMs.toNat elapsedMs.toNat
        PrismKit.Checked.gridDelay elapsedMs (UInt32.ofNat remaining)
          refreshPeriodMs)
    some
      { delay := delay
        kind := .gradient gradient
        writes := [⟨strip, gradient.index.toNat, sample⟩]
        requestShow := true }

/-! ### A Fade is exact -/

namespace Fade

def Consistent (fade : Fade) : Prop :=
  fade.started = true → fade.startValue = captureValue fade.startColor

section Arithmetic

variable {start target startValue : UInt8} {elapsed : UInt32}
  {durationMs : UInt16}

theorem Checked.scaleTarget_eq (startValue : UInt8) (percent : UInt16) :
    Checked.scaleTarget startValue percent =
      some (Fade.scaleTarget startValue percent) := by
  have product : startValue.toNat * percent.toNat ≤ 255 * 65535 :=
    Nat.mul_le_mul (Nat.le_of_lt_succ startValue.toNat_lt)
      (Nat.le_of_lt_succ percent.toNat_lt)
  apply step (unsigned32_of_lt (by omega))
  apply step (unsigned32_of_lt (by omega))
  apply step (div_of_ne_zero (by decide) _)
  apply step (unsigned8_of_lt (by split <;> omega))
  congr 1
  apply UInt8.toNat_inj.mp
  rw [toNat_scaleTarget, UInt8.toNat_ofNat']
  split <;> omega

/-- The distance covered is rounded from an exact product. -/
theorem Checked.interpolateValue_eq
    (running : elapsed.toNat < durationMs.toNat) :
    Checked.interpolateValue start target elapsed durationMs.toUInt32 =
      some
        (Fade.interpolateValue start target elapsed durationMs.toUInt32) := by
  have positive : 0 < durationMs.toNat := Nat.zero_lt_of_lt running
  have short := durationMs.toNat_lt
  have startLt := start.toNat_lt
  have targetLt := target.toNat_lt
  have reached :=
    @toNat_interpolateValue start target durationMs elapsed running
  have value :
      UInt8.ofNat
          (blend start.toNat target.toNat durationMs.toNat elapsed.toNat) =
        Fade.interpolateValue start target elapsed durationMs.toUInt32 := by
    rw [← reached, UInt8.ofNat_toNat]
  unfold Checked.interpolateValue
  simp only [ge_iff_le, UInt8.le_iff_toNat_le, UInt16.toNat_toUInt32]
  rw [← value]
  rcases Nat.lt_or_ge target.toNat start.toNat with falling | rising
  · have product :
        (start.toNat - target.toNat) * elapsed.toNat ≤ 255 * 65535 :=
      Nat.mul_le_mul (by omega) (by omega)
    have covered :=
      @covered_le durationMs.toNat (start.toNat - target.toNat) elapsed.toNat
        positive (Nat.le_of_lt running)
    rw [blend_of_lt falling]
    simp only [if_neg (Nat.not_le.mpr falling)]
    unfold roundDiv at covered ⊢
    apply step (sub_of_le (Nat.le_of_lt falling))
    apply step (unsigned32_of_lt (by omega))
    apply step (unsigned32_of_lt (by omega))
    apply step (div_of_ne_zero (Nat.ne_of_gt positive) _)
    apply step (sub_of_le (Nat.le_trans covered (Nat.sub_le _ _)))
    apply step (unsigned8_of_lt (Nat.lt_of_le_of_lt (Nat.sub_le _ _) startLt))
    rfl
  · have product :
        (target.toNat - start.toNat) * elapsed.toNat ≤ 255 * 65535 :=
      Nat.mul_le_mul (by omega) (by omega)
    have covered :=
      @covered_le durationMs.toNat (target.toNat - start.toNat) elapsed.toNat
        positive (Nat.le_of_lt running)
    have within :
        start.toNat +
            roundDiv ((target.toNat - start.toNat) * elapsed.toNat)
              durationMs.toNat < 256 := by
      omega
    rw [blend_of_le rising]
    simp only [if_pos rising]
    unfold roundDiv at within ⊢
    apply step (sub_of_le rising)
    apply step (unsigned32_of_lt (by omega))
    apply step (unsigned32_of_lt (by omega))
    apply step (div_of_ne_zero (Nat.ne_of_gt positive) _)
    apply step (unsigned32_of_lt (Nat.lt_trans within (by decide)))
    apply step (unsigned8_of_lt within)
    rfl

/-- The divisor is the largest channel, so that no quotient exceeds the
value. -/
theorem Checked.scaleRgbColor_eq {color : RgbColor}
    (captured : startValue.toNat = color.maxChannel) (value : UInt8) :
    Checked.scaleRgbColor color value startValue =
      some (Fade.scaleRgbColor color value startValue) := by
  have valueLt := value.toNat_lt
  have startLt := startValue.toNat_lt
  have scaled := Fade.scaleRgbColor_eq captured value
  have channel {byte : UInt8} (below : byte.toNat ≤ color.maxChannel)
      (nonzero : startValue.toNat ≠ 0) :
      Checked.scaleChannel value startValue byte =
        some
          (UInt8.ofNat
            (roundDiv (byte.toNat * value.toNat) color.maxChannel)) := by
    have product : byte.toNat * value.toNat ≤ 255 * 255 :=
      Nat.mul_le_mul (Nat.le_of_lt_succ byte.toNat_lt)
        (Nat.le_of_lt_succ valueLt)
    have quotient := @RgbColor.roundDiv_channel_le color value.toNat _ below
    rw [← captured] at quotient ⊢
    unfold roundDiv at quotient ⊢
    apply step (unsigned32_of_lt (by omega))
    apply step (unsigned32_of_lt (by omega))
    apply step (div_of_ne_zero nonzero _)
    apply step (unsigned8_of_lt (Nat.lt_of_le_of_lt quotient valueLt))
    rfl
  rw [scaled]
  unfold Checked.scaleRgbColor
  split
  · rename_i zero
    rw [← scaled]
    unfold Fade.scaleRgbColor
    rw [if_pos zero]
  · rename_i nonzero
    have divisor : startValue.toNat ≠ 0 :=
      fun zero => nonzero (UInt8.toNat_inj.mp zero)
    apply step (channel (RgbColor.channel_le (by simp)) divisor)
    apply step (channel (RgbColor.channel_le (by simp)) divisor)
    apply step (channel (RgbColor.channel_le (by simp)) divisor)
    rfl

end Arithmetic

/-- The rest of the duration is computed without a wrap. -/
theorem remaining_eq {elapsed : UInt32} {durationMs : UInt16}
    (unfinished : ¬ elapsed ≥ durationMs.toUInt32) :
    elapsed.toNat < durationMs.toNat ∧
      UInt32.ofNat (durationMs.toNat - elapsed.toNat) =
        durationMs.toUInt32 - elapsed := by
  have earlier : elapsed < durationMs.toUInt32 :=
    UInt32.not_le.mp unfinished
  have within := UInt32.le_of_lt earlier
  rw [UInt32.lt_iff_toNat_lt, UInt16.toNat_toUInt32] at earlier
  have short := durationMs.toNat_lt
  refine ⟨earlier, ?_⟩
  apply UInt32.toNat_inj.mp
  rw [UInt32.toNat_ofNat', UInt32.toNat_sub_of_le _ _ within,
    UInt16.toNat_toUInt32]
  omega

theorem Checked.execute_eq {fade : Fade} {period : UInt32}
    (consistent : fade.Consistent) (refresh : period ≠ 0) (id : StripId)
    (staged : RgbColor) (timestamp : UInt32) :
    Checked.execute id staged period timestamp fade =
      some (Fade.execute id staged period timestamp fade) := by
  unfold Checked.execute Fade.execute
  split
  · apply step (Checked.scaleTarget_eq _ _)
    simp only
    split
    · apply step
        (Checked.scaleRgbColor_eq (toNat_captureValue staged) _)
      rfl
    · apply step (PrismKit.Checked.delayToFadeUpdate_eq refresh)
      rfl
  · rename_i started
    have captured : fade.startValue.toNat = fade.startColor.maxChannel := by
      rw [consistent (not_not.mp started), toNat_captureValue]
    simp only
    by_cases complete :
        timestamp - fade.startTime ≥ fade.durationMs.toUInt32
    · simp only [if_pos complete]
      apply step rfl
      apply step (Checked.scaleRgbColor_eq captured _)
      apply step rfl
      rfl
    · obtain ⟨running, rest⟩ := remaining_eq complete
      simp only [if_neg complete]
      apply step (Checked.interpolateValue_eq running)
      apply step (Checked.scaleRgbColor_eq captured _)
      rw [← rest]
      apply step
        (step (sub_of_le (Nat.le_of_lt running))
          (PrismKit.Checked.delayToFadeUpdate_eq refresh))
      rfl

end Fade

namespace Gradient

/-- The cached coordinates fit their fields. -/
def Consistent (gradient : Gradient) : Prop :=
  gradient.source.Narrow ∧ gradient.targetLab.Narrow

/-- An unfinished sample loses nothing when its elapsed time is narrowed. -/
theorem Checked.sample_eq {gradient : Gradient} {elapsedMs : UInt32}
    (consistent : gradient.Consistent) (short : elapsedMs.toNat < 2 ^ 16) :
    (do
      let elapsed ← unsigned16 elapsedMs.toNat
      Oklab.Checked.fromOklab
        (← Oklab.Checked.interpolate gradient.source gradient.targetLab
          (UInt16.ofNat elapsed) gradient.durationMs)) =
      some
        (Oklab.fromOklab
          (Oklab.interpolate gradient.source gradient.targetLab
            elapsedMs.toUInt16 gradient.durationMs)) := by
  have narrow :=
    @Oklab.narrow_interpolate elapsedMs.toUInt16 gradient.durationMs _ _
      consistent.1 consistent.2
  have sampled :=
    @Oklab.Checked.interpolate_eq elapsedMs.toUInt16 gradient.durationMs _ _
      consistent.1 consistent.2
  apply step (unsigned16_of_lt short)
  apply step sampled
  exact Oklab.Checked.fromOklab_of_narrow narrow

theorem Checked.execute_eq {gradient : Gradient} {period : UInt32}
    (consistent : gradient.Consistent) (refresh : period ≠ 0) (id : StripId)
    (staged : RgbColor) (timestamp : UInt32) :
    Checked.execute id staged period timestamp gradient =
      some (Gradient.execute id staged period timestamp gradient) := by
  unfold Checked.execute Gradient.execute
  split
  · simp only
    split
    · rfl
    · apply step (Oklab.Checked.toOklab_eq staged)
      apply step (Oklab.Checked.toOklab_eq gradient.target)
      apply step (PrismKit.Checked.delayToGradientUpdate_eq refresh)
      rfl
  · simp only
    by_cases complete :
        timestamp - gradient.startTime ≥ gradient.durationMs.toUInt32
    · simp only [if_pos complete]
      apply step rfl
      apply step rfl
      rfl
    · obtain ⟨running, rest⟩ := Fade.remaining_eq complete
      have short := gradient.durationMs.toNat_lt
      simp only [if_neg complete]
      apply step (Checked.sample_eq consistent (Nat.lt_trans running short))
      rw [← rest]
      apply step
        (step (sub_of_le (Nat.le_of_lt running))
          (PrismKit.Checked.delayToGradientUpdate_eq refresh))
      rfl

end Gradient

/-- The time since the activation of a Fade, or zero before it. -/
def Fade.elapsed (fade : Fade) (now : UInt32) : Nat :=
  if fade.started then (now - fade.startTime).toNat else 0

/-- The time since the activation of a Gradient, or zero before it. -/
def Gradient.elapsed (gradient : Gradient) (now : UInt32) : Nat :=
  if gradient.started then (now - gradient.startTime).toNat else 0

namespace ControllerInstruction

/-- `ControllerInstruction::Execute` with the checked Fade and Gradient. -/
def Checked.execute (strips : StripId → Strip)
    (refreshPeriodMs timestamp : UInt32) (instr : ControllerInstruction) :
    Option Execution :=
  match instr.boundStrip strips, instr.kind with
  | some (id, strip), .fade fade =>
      match strip.led fade.index.toNat with
      | none => some { kind := instr.kind }
      | some led =>
          Fade.Checked.execute id (strip.color led) refreshPeriodMs timestamp
            fade
  | some (id, strip), .gradient gradient =>
      match strip.led gradient.index.toNat with
      | none => some { kind := instr.kind }
      | some led =>
          Gradient.Checked.execute id (strip.color led) refreshPeriodMs
            timestamp gradient
  | _, _ => some (instr.execute strips refreshPeriodMs timestamp)

def Consistent (instr : ControllerInstruction) : Prop :=
  match instr.kind with
  | .fade fade => fade.Consistent
  | .gradient gradient => gradient.Consistent
  | _ => True

/-- An execution at `timestamp` completes the instruction: it has no pixel, or
its duration has elapsed, which takes no time where there is none. -/
def Completes (strips : StripId → Strip) (timestamp : UInt32)
    (instr : ControllerInstruction) : Prop :=
  match instr.boundStrip strips, instr.kind with
  | some (_, strip), .fade fade =>
      strip.led fade.index.toNat = none ∨
        fade.durationMs.toNat ≤ fade.elapsed timestamp
  | some (_, strip), .gradient gradient =>
      strip.led gradient.index.toNat = none ∨
        gradient.durationMs.toNat ≤ gradient.elapsed timestamp
  | _, _ => True

end ControllerInstruction

namespace InstructionMemorySlot

def Checked.execute (strips : StripId → Strip)
    (refreshPeriodMs timestamp : UInt32) (slot : InstructionMemorySlot) :
    Option (InstructionMemorySlot × UInt32 × List PixelWrite × Bool) :=
  match slot.active with
  | none => some (slot, 0, [], false)
  | some instr => do
      let execution ←
        ControllerInstruction.Checked.execute strips refreshPeriodMs timestamp
          instr
      some
        (⟨some { instr with kind := execution.kind }⟩, execution.delay,
          execution.writes, execution.requestShow)

def Consistent (slot : InstructionMemorySlot) : Prop :=
  ∀ instr, slot.active = some instr → instr.Consistent

def Completes (strips : StripId → Strip) (timestamp : UInt32)
    (slot : InstructionMemorySlot) : Prop :=
  ∀ instr, slot.active = some instr → instr.Completes strips timestamp

/-- An execution of the slot is exact, and its delay is zero on completion and
otherwise a positive number of 16 bits. -/
structure Exact (strips : StripId → Strip)
    (refreshPeriodMs timestamp : UInt32) (slot : InstructionMemorySlot) :
    Prop where
  checked :
    Checked.execute strips refreshPeriodMs timestamp slot =
      some (slot.execute strips refreshPeriodMs timestamp)
  delay :
    (slot.execute strips refreshPeriodMs timestamp).2.1.toNat ≤ 65535
  completes :
    (slot.execute strips refreshPeriodMs timestamp).2.1 = 0 ↔
      slot.Completes strips timestamp

end InstructionMemorySlot

/-! ### Consistency -/

/-- The delay of a Fade or Gradient whose next grid point is `grid` away. -/
theorem toNat_delay {started : Bool} {durationMs : UInt16}
    {elapsed first later : UInt32} {grid : Nat}
    (begun : started = false → first.toNat = min durationMs.toNat grid)
    (resumed :
      started = true →
        later.toNat =
          min (durationMs.toUInt32 - elapsed).toNat grid) :
    (if ¬ started then
        if durationMs = 0 then 0 else first
      else if elapsed ≥ durationMs.toUInt32 then
        0
      else
        later).toNat =
      min (durationMs.toNat - if started then elapsed.toNat else 0) grid := by
  cases started with
  | false =>
      simp only [Bool.false_eq_true, not_false_eq_true, if_true, if_false,
        Nat.sub_zero]
      split
      · rename_i zero
        rw [zero, UInt16.toNat_zero, Nat.zero_min]
        rfl
      · exact begun rfl
  | true =>
      simp only [not_true_eq_false, if_false, if_true]
      split
      · rename_i complete
        rw [ge_iff_le, UInt32.le_iff_toNat_le, UInt16.toNat_toUInt32]
          at complete
        rw [Nat.sub_eq_zero_of_le complete, Nat.zero_min]
        rfl
      · rename_i unfinished
        obtain ⟨earlier, rest⟩ := Fade.remaining_eq unfinished
        have short := durationMs.toNat_lt
        rw [resumed rfl, ← rest, UInt32.toNat_ofNat',
          Nat.mod_eq_of_lt (by omega)]

namespace Fade

theorem consistent_resetForReplay (fade : Fade) :
    fade.resetForReplay.Consistent := by
  intro started
  exact Bool.noConfusion started

theorem Consistent.execute {fade next : Fade} (consistent : fade.Consistent)
    {strip : StripId} {staged : RgbColor} {period timestamp : UInt32}
    (leaves : (fade.execute strip staged period timestamp).kind = .fade next) :
    next.Consistent := by
  unfold Fade.execute at leaves
  split at leaves
  · simp only at leaves
    split at leaves
    · cases leaves
      exact fun _ => rfl
    · cases leaves
      exact fun _ => rfl
  · cases leaves
    exact consistent

/-- A Fade asks for the next point of the shared grid, or for its end. -/
theorem toNat_execute_delay {fade : Fade} {strip : StripId}
    {staged : RgbColor} {period timestamp : UInt32} (refresh : period ≠ 0) :
    (fade.execute strip staged period timestamp).delay.toNat =
      min (fade.durationMs.toNat - fade.elapsed timestamp)
        (untilGrid period.toNat timestamp.toNat) := by
  unfold elapsed
  rw [← @toNat_delay fade.started fade.durationMs
    (timestamp - fade.startTime)
    (delayToFadeUpdate timestamp fade.durationMs.toUInt32 period)
    (delayToFadeUpdate timestamp
      (fade.durationMs.toUInt32 - (timestamp - fade.startTime)) period) _
    (fun _ => toNat_delayToFadeUpdate refresh)
    (fun _ => toNat_delayToFadeUpdate refresh)]
  unfold Fade.execute
  split
  · simp only
    split <;> rfl
  · rfl

theorem execute_delay_eq_zero_iff {fade : Fade} {strip : StripId}
    {staged : RgbColor} {period timestamp : UInt32} (refresh : period ≠ 0) :
    (fade.execute strip staged period timestamp).delay = 0 ↔
      fade.durationMs.toNat ≤ fade.elapsed timestamp := by
  have ahead :=
    @untilGrid_pos period.toNat timestamp.toNat (toNat_period_pos refresh)
  rw [← UInt32.toNat_inj, toNat_execute_delay refresh, UInt32.toNat_zero]
  omega

end Fade

namespace Gradient

theorem consistent_resetForReplay (gradient : Gradient) :
    gradient.resetForReplay.Consistent :=
  ⟨Oklab.narrow_zero, Oklab.narrow_zero⟩

theorem Consistent.execute {gradient next : Gradient}
    (consistent : gradient.Consistent) {strip : StripId} {staged : RgbColor}
    {period timestamp : UInt32}
    (leaves :
      (gradient.execute strip staged period timestamp).kind =
        .gradient next) :
    next.Consistent := by
  unfold Gradient.execute at leaves
  split at leaves
  · simp only at leaves
    split at leaves
    · cases leaves
      exact consistent
    · cases leaves
      exact ⟨Oklab.narrow_toOklab _, Oklab.narrow_toOklab _⟩
  · cases leaves
    exact consistent

/-- A Gradient asks for the end of the current period since its activation, or
for its end. -/
theorem toNat_execute_delay {gradient : Gradient} {strip : StripId}
    {staged : RgbColor} {period timestamp : UInt32} (refresh : period ≠ 0) :
    (gradient.execute strip staged period timestamp).delay.toNat =
      min (gradient.durationMs.toNat - gradient.elapsed timestamp)
        (untilGrid period.toNat (gradient.elapsed timestamp)) := by
  unfold elapsed
  rw [← @toNat_delay gradient.started gradient.durationMs
    (timestamp - gradient.startTime)
    (delayToGradientUpdate 0 gradient.durationMs.toUInt32 period)
    (delayToGradientUpdate (timestamp - gradient.startTime)
      (gradient.durationMs.toUInt32 - (timestamp - gradient.startTime))
      period)]
  · unfold Gradient.execute
    split
    · simp only
      split <;> rfl
    · rfl
  · intro fresh
    rw [fresh]
    exact toNat_delayToGradientUpdate refresh
  · intro started
    rw [started]
    exact toNat_delayToGradientUpdate refresh

theorem execute_delay_eq_zero_iff {gradient : Gradient} {strip : StripId}
    {staged : RgbColor} {period timestamp : UInt32} (refresh : period ≠ 0) :
    (gradient.execute strip staged period timestamp).delay = 0 ↔
      gradient.durationMs.toNat ≤ gradient.elapsed timestamp := by
  have ahead :=
    @untilGrid_pos period.toNat (gradient.elapsed timestamp)
      (toNat_period_pos refresh)
  rw [← UInt32.toNat_inj, toNat_execute_delay refresh, UInt32.toNat_zero]
  omega

end Gradient

namespace ControllerInstruction

theorem consistent_resetForReplay (instr : ControllerInstruction) :
    instr.resetForReplay.Consistent := by
  rcases instr with ⟨mark, strip, controller, groupId, kind⟩
  cases kind with
  | fade fade =>
      exact fade.consistent_resetForReplay
  | gradient gradient =>
      exact gradient.consistent_resetForReplay
  | _ =>
      trivial

theorem Consistent.execute {instr : ControllerInstruction}
    (consistent : instr.Consistent) (strips : StripId → Strip)
    (period timestamp : UInt32) :
    ({ instr with kind := (instr.execute strips period timestamp).kind } :
      ControllerInstruction).Consistent := by
  rcases instr with ⟨mark, stripOf, controller, groupId, kind⟩
  unfold ControllerInstruction.execute
  cases boundStrip strips ⟨mark, stripOf, controller, groupId, kind⟩ with
  | none =>
      exact consistent
  | some bound =>
      rcases bound with ⟨id, strip⟩
      cases kind with
      | fade fade =>
          simp only
          cases strip.led fade.index.toNat with
          | none =>
              exact consistent
          | some led =>
              obtain ⟨next, leaves, -⟩ :=
                Fade.execute_kind id (strip.color led) period timestamp fade
              have kept : next.Consistent :=
                Fade.Consistent.execute consistent leaves
              simp only [leaves]
              exact kept
      | gradient gradient =>
          simp only
          cases strip.led gradient.index.toNat with
          | none =>
              exact consistent
          | some led =>
              obtain ⟨next, leaves, -⟩ :=
                Gradient.execute_kind id (strip.color led) period timestamp
                  gradient
              have kept : next.Consistent :=
                Gradient.Consistent.execute consistent leaves
              simp only [leaves]
              exact kept
      | _ =>
          trivial

theorem Checked.execute_eq {instr : ControllerInstruction} {period : UInt32}
    (consistent : instr.Consistent) (refresh : period ≠ 0)
    (strips : StripId → Strip) (timestamp : UInt32) :
    Checked.execute strips period timestamp instr =
      some (instr.execute strips period timestamp) := by
  rcases instr with ⟨mark, stripOf, controller, groupId, kind⟩
  unfold Checked.execute ControllerInstruction.execute
  cases boundStrip strips ⟨mark, stripOf, controller, groupId, kind⟩ with
  | none =>
      rfl
  | some bound =>
      rcases bound with ⟨id, strip⟩
      cases kind with
      | fade fade =>
          simp only
          cases strip.led fade.index.toNat with
          | none =>
              rfl
          | some led =>
              exact Fade.Checked.execute_eq consistent refresh ..
      | gradient gradient =>
          simp only
          cases strip.led gradient.index.toNat with
          | none =>
              rfl
          | some led =>
              exact Gradient.Checked.execute_eq consistent refresh ..
      | _ =>
          rfl

theorem execute_delay_eq_zero_iff {instr : ControllerInstruction}
    {strips : StripId → Strip} {period timestamp : UInt32}
    (refresh : period ≠ 0) :
    (instr.execute strips period timestamp).delay = 0 ↔
      instr.Completes strips timestamp := by
  rcases instr with ⟨mark, stripOf, controller, groupId, kind⟩
  unfold ControllerInstruction.execute Completes
  cases boundStrip strips ⟨mark, stripOf, controller, groupId, kind⟩ with
  | none =>
      exact iff_of_true rfl trivial
  | some bound =>
      rcases bound with ⟨id, strip⟩
      cases kind with
      | fade fade =>
          simp only
          cases strip.led fade.index.toNat with
          | none =>
              exact iff_of_true rfl (Or.inl rfl)
          | some led =>
              simp only [reduceCtorEq, false_or]
              exact Fade.execute_delay_eq_zero_iff refresh
      | gradient gradient =>
          simp only
          cases strip.led gradient.index.toNat with
          | none =>
              exact iff_of_true rfl (Or.inl rfl)
          | some led =>
              simp only [reduceCtorEq, false_or]
              exact Gradient.execute_delay_eq_zero_iff refresh
      | _ =>
          exact iff_of_true rfl trivial

end ControllerInstruction

namespace InstructionMemorySlot

/-- The activation of a pass leaves consistent slots behind. -/
theorem consistent_resetForReplay (slot : InstructionMemorySlot) :
    slot.resetForReplay.Consistent := by
  intro reset active
  obtain ⟨instr, -, rfl⟩ := Option.map_eq_some_iff.mp active
  exact instr.consistent_resetForReplay

theorem Consistent.execute {slot : InstructionMemorySlot}
    (consistent : slot.Consistent) (strips : StripId → Strip)
    (period timestamp : UInt32) :
    (slot.execute strips period timestamp).1.Consistent := by
  rcases slot with ⟨active⟩
  cases active with
  | none =>
      exact consistent
  | some instr =>
      intro stored same
      cases same
      exact (consistent instr rfl).execute strips period timestamp

theorem Consistent.exact {slot : InstructionMemorySlot} {period : UInt32}
    (consistent : slot.Consistent) (refresh : period ≠ 0)
    (strips : StripId → Strip) (timestamp : UInt32) :
    slot.Exact strips period timestamp := by
  refine ⟨?_, slot.execute_delay strips period timestamp, ?_⟩
  · rcases slot with ⟨active⟩
    cases active with
    | none =>
        rfl
    | some instr =>
        apply step
          (ControllerInstruction.Checked.execute_eq (consistent instr rfl)
            refresh strips timestamp)
        rfl
  · rcases slot with ⟨active⟩
    cases active with
    | none =>
        exact iff_of_true rfl fun instr stored => nomatch stored
    | some instr =>
        have completes :=
          @ControllerInstruction.execute_delay_eq_zero_iff instr strips period
            timestamp refresh
        refine completes.trans ⟨?_, fun all => all instr rfl⟩
        rintro complete stored same
        cases same
        exact complete

end InstructionMemorySlot

end PrismKit
