import PrismKit.Controller.Playback
import PrismKit.Library.Clock
import PrismKit.Library.Rounding

/-!
# The curve of a Fade

A Fade captures the color of its pixel when it is activated, and every later
execution writes that color scaled to a value that depends on the elapsed time
alone.  The machine arithmetic of `Fade::Execute` does not overflow, so the
value follows the rounded straight line to the scaled target.
-/

namespace PrismKit

open Library

namespace RgbColor

def maxChannel (color : RgbColor) : Nat :=
  max (max color.red.toNat color.green.toNat) color.blue.toNat

/-- The color with its channels in proportion and with the given HSV value.
A black color stays black. -/
def scaledTo (color : RgbColor) (value : Nat) : RgbColor :=
  let scaled (channel : UInt8) :=
    UInt8.ofNat (roundDiv (channel.toNat * value) color.maxChannel)
  ⟨scaled color.red, scaled color.green, scaled color.blue⟩

variable {color : RgbColor} {value : Nat}

theorem channel_le {channel : UInt8}
    (member : channel ∈ [color.red, color.green, color.blue]) :
    channel.toNat ≤ color.maxChannel := by
  unfold maxChannel
  simp only [List.mem_cons, List.not_mem_nil, or_false] at member
  rcases member with rfl | rfl | rfl <;> omega

theorem maxChannel_lt : color.maxChannel < 256 := by
  have red := color.red.toNat_lt
  have green := color.green.toNat_lt
  have blue := color.blue.toNat_lt
  unfold maxChannel
  omega

theorem roundDiv_channel_le {channel : Nat}
    (below : channel ≤ color.maxChannel) :
    roundDiv (channel * value) color.maxChannel ≤ value := by
  rcases Nat.eq_zero_or_pos color.maxChannel with black | positive
  · rw [black, roundDiv_zero]
    exact Nat.zero_le value
  · exact roundDiv_le positive (Nat.mul_le_mul_right value below)

theorem toNat_scaled {channel : Nat} (below : channel ≤ color.maxChannel)
    (byte : value < 256) :
    (UInt8.ofNat (roundDiv (channel * value) color.maxChannel)).toNat =
      roundDiv (channel * value) color.maxChannel := by
  have bounded := @roundDiv_channel_le color value channel below
  rw [UInt8.toNat_ofNat']
  exact Nat.mod_eq_of_lt (Nat.lt_of_le_of_lt bounded byte)

theorem maxChannel_scaledTo (byte : value < 256)
    (black : color.maxChannel = 0 → value = 0) :
    (color.scaledTo value).maxChannel = value := by
  have exact' : roundDiv (color.maxChannel * value) color.maxChannel = value := by
    rcases Nat.eq_zero_or_pos color.maxChannel with zero | positive
    · rw [black zero, zero, roundDiv_zero]
    · exact roundDiv_mul_left positive value
  have red : color.red.toNat ≤ color.maxChannel := channel_le (by simp)
  have green : color.green.toNat ≤ color.maxChannel := channel_le (by simp)
  have blue : color.blue.toNat ≤ color.maxChannel := channel_le (by simp)
  have largest :
      color.maxChannel = color.red.toNat ∨
        color.maxChannel = color.green.toNat ∨
          color.maxChannel = color.blue.toNat := by
    unfold maxChannel
    omega
  have redLe := @roundDiv_channel_le color value _ red
  have greenLe := @roundDiv_channel_le color value _ green
  have blueLe := @roundDiv_channel_le color value _ blue
  have channels :
      (color.scaledTo value).maxChannel =
        max
          (max (roundDiv (color.red.toNat * value) color.maxChannel)
            (roundDiv (color.green.toNat * value) color.maxChannel))
          (roundDiv (color.blue.toNat * value) color.maxChannel) := by
    rw [← toNat_scaled red byte, ← toNat_scaled green byte,
      ← toNat_scaled blue byte]
    rfl
  rw [channels]
  rcases largest with same | same | same
  · rw [← same, exact'] at redLe ⊢
    omega
  · rw [← same, exact'] at greenLe ⊢
    omega
  · rw [← same, exact'] at blueLe ⊢
    omega

end RgbColor

namespace Fade

theorem toNat_captureValue (color : RgbColor) :
    (captureValue color).toNat = color.maxChannel := by
  unfold captureValue RgbColor.maxChannel
  simp only [gt_iff_lt]
  split <;> split <;>
    simp only [UInt8.lt_iff_toNat_lt] at * <;>
    omega

theorem toNat_scaleTarget (value : UInt8) (percent : UInt16) :
    (scaleTarget value percent).toNat =
      min 255 ((value.toNat * percent.toNat + 50) / 100) := by
  have product : value.toNat * percent.toNat ≤ 255 * 65535 :=
    Nat.mul_le_mul (Nat.le_of_lt_succ value.toNat_lt)
      (Nat.le_of_lt_succ percent.toNat_lt)
  have scaled :
      ((value.toUInt32 * percent.toUInt32 + 50) / 100).toNat =
        (value.toNat * percent.toNat + 50) / 100 := by
    rw [UInt32.toNat_div, UInt32.toNat_add, UInt32.toNat_mul,
      UInt8.toNat_toUInt32, UInt16.toNat_toUInt32]
    simp only [UInt32.reduceToNat]
    rw [Nat.mod_eq_of_lt (by omega : value.toNat * percent.toNat < 2 ^ 32),
      Nat.mod_eq_of_lt (by omega)]
  unfold scaleTarget
  simp only [gt_iff_lt, UInt32.lt_iff_toNat_lt, scaled, UInt32.reduceToNat]
  split
  · rw [UInt32.toNat_toUInt8]
    simp only [UInt32.reduceToNat]
    omega
  · rw [UInt32.toNat_toUInt8, scaled]
    omega

/-- The covered distance does not overflow: the product of a byte and a 16-bit
duration leaves room for the rounding. -/
theorem toNat_change {larger smaller : UInt8} {durationMs : UInt16}
    {elapsed : UInt32} (ordered : smaller.toNat ≤ larger.toNat)
    (running : elapsed.toNat < durationMs.toNat) :
    (((larger.toUInt32 - smaller.toUInt32) * elapsed +
        durationMs.toUInt32 / 2) / durationMs.toUInt32).toNat =
      roundDiv ((larger.toNat - smaller.toNat) * elapsed.toNat)
        durationMs.toNat := by
  have short := durationMs.toNat_lt
  have largerLt := larger.toNat_lt
  have product :
      (larger.toNat - smaller.toNat) * elapsed.toNat ≤ 255 * 65535 :=
    Nat.mul_le_mul (by omega) (by omega)
  have difference :
      (larger.toUInt32 - smaller.toUInt32).toNat =
        larger.toNat - smaller.toNat := by
    rw [UInt32.toNat_sub_of_le, UInt8.toNat_toUInt32, UInt8.toNat_toUInt32]
    rw [UInt32.le_iff_toNat_le, UInt8.toNat_toUInt32, UInt8.toNat_toUInt32]
    exact ordered
  rw [UInt32.toNat_div, UInt32.toNat_add, UInt32.toNat_mul,
    UInt32.toNat_div, UInt16.toNat_toUInt32, difference]
  simp only [UInt32.reduceToNat]
  unfold roundDiv
  rw [Nat.mod_eq_of_lt (by omega :
      (larger.toNat - smaller.toNat) * elapsed.toNat < 2 ^ 32),
    Nat.mod_eq_of_lt (by omega)]

theorem toNat_interpolateValue {start target : UInt8} {durationMs : UInt16}
    {elapsed : UInt32} (running : elapsed.toNat < durationMs.toNat) :
    (interpolateValue start target elapsed durationMs.toUInt32).toNat =
      blend start.toNat target.toNat durationMs.toNat elapsed.toNat := by
  have positive : 0 < durationMs.toNat := Nat.zero_lt_of_lt running
  have within := Nat.le_of_lt running
  have startLt := start.toNat_lt
  have targetLt := target.toNat_lt
  unfold interpolateValue
  simp only [ge_iff_le, UInt8.le_iff_toNat_le]
  rcases Nat.lt_or_ge target.toNat start.toNat with falling | rising
  · have covered :=
      @covered_le durationMs.toNat (start.toNat - target.toNat) elapsed.toNat
        positive within
    have moved := toNat_change (Nat.le_of_lt falling) running
    have falls := Nat.not_le.mpr falling
    rw [if_neg falls, if_neg falls, blend_of_lt falling,
      UInt32.toNat_toUInt8, UInt32.toNat_sub_of_le, moved,
      UInt8.toNat_toUInt32]
    · omega
    · rw [UInt32.le_iff_toNat_le, moved, UInt8.toNat_toUInt32]
      omega
  · have covered :=
      @covered_le durationMs.toNat (target.toNat - start.toNat) elapsed.toNat
        positive within
    have moved := toNat_change rising running
    rw [if_pos rising, if_pos rising, blend_of_le rising,
      UInt32.toNat_toUInt8, UInt32.toNat_add, moved, UInt8.toNat_toUInt32]
    omega

theorem scaleRgbColor_eq {color : RgbColor} {startValue : UInt8}
    (captured : startValue.toNat = color.maxChannel) (value : UInt8) :
    scaleRgbColor color value startValue = color.scaledTo value.toNat := by
  have valueLt := value.toNat_lt
  have channel :
      ∀ byte : UInt8,
        ((byte.toUInt32 * value.toUInt32 + (startValue / 2).toUInt32) /
            startValue.toUInt32).toUInt8 =
          UInt8.ofNat (roundDiv (byte.toNat * value.toNat) color.maxChannel) := by
    intro byte
    have product : byte.toNat * value.toNat ≤ 255 * 255 :=
      Nat.mul_le_mul (Nat.le_of_lt_succ byte.toNat_lt)
        (Nat.le_of_lt_succ valueLt)
    have startLt := startValue.toNat_lt
    apply UInt8.toNat_inj.mp
    rw [UInt32.toNat_toUInt8, UInt8.toNat_ofNat', UInt32.toNat_div,
      UInt32.toNat_add, UInt32.toNat_mul, UInt8.toNat_toUInt32,
      UInt8.toNat_toUInt32, UInt8.toNat_toUInt32, UInt8.toNat_toUInt32,
      UInt8.toNat_div]
    simp only [UInt8.reduceToNat]
    unfold roundDiv
    rw [Nat.mod_eq_of_lt (by omega : byte.toNat * value.toNat < 2 ^ 32),
      Nat.mod_eq_of_lt
        (by omega :
          byte.toNat * value.toNat + startValue.toNat / 2 < 2 ^ 32),
      captured]
  unfold scaleRgbColor
  split
  · rename_i zero
    rw [zero, UInt8.toNat_zero] at captured
    unfold RgbColor.scaledTo
    simp only [← captured, roundDiv_zero]
    rfl
  · simp only [channel]
    rfl

/-! ### Activation and resumption -/

/-- A Fade that was activated at `timestamp` on a pixel of color `captured`. -/
def activated (fade : Fade) (captured : RgbColor) (timestamp : UInt32) :
    Fade :=
  { fade with
    started := true
    startTime := timestamp
    startColor := captured
    startValue := captureValue captured
    targetValue := scaleTarget (captureValue captured) fade.percent }

/-- The HSV value that a Fade ends at. -/
def endValue (start percent : Nat) : Nat :=
  min 255 ((start * percent + 50) / 100)

/-- The HSV value `elapsed` after the activation. -/
def curve (start target duration elapsed : Nat) : Nat :=
  if elapsed < duration then
    blend start target duration elapsed
  else
    target

section Curve

variable {start target duration elapsed : Nat}

theorem curve_between :
    min start target ≤ curve start target duration elapsed ∧
      curve start target duration elapsed ≤ max start target := by
  unfold curve
  split
  · rename_i running
    exact blend_between (Nat.zero_lt_of_lt running) (Nat.le_of_lt running)
  · exact ⟨Nat.min_le_right _ _, Nat.le_max_right _ _⟩

theorem curve_mono {later : Nat} (ordered : elapsed ≤ later) :
    if start ≤ target then
      curve start target duration elapsed ≤ curve start target duration later
    else
      curve start target duration later ≤
        curve start target duration elapsed := by
  have between := @curve_between start target duration elapsed
  by_cases unfinished : later < duration
  · have running := Nat.lt_of_le_of_lt ordered unfinished
    unfold curve
    rw [if_pos running, if_pos unfinished]
    split
    · rename_i rising
      exact blend_mono rising ordered
    · rename_i falling
      exact blend_antitone (Nat.not_le.mp falling) ordered
  · have ended : curve start target duration later = target := if_neg unfinished
    rw [ended]
    split <;> omega

/-- Captured values and end values are bytes, and so is what lies between. -/
theorem curve_lt {percent : Nat} (byte : start < 256) :
    curve start (endValue start percent) duration elapsed < 256 := by
  have between :=
    @curve_between start (endValue start percent) duration elapsed
  have bounded : endValue start percent ≤ 255 := Nat.min_le_left _ _
  omega

/-- From black no multiple leads to another value. -/
theorem curve_black {percent : Nat} (black : start = 0) :
    curve start (endValue start percent) duration elapsed = 0 := by
  have between :=
    @curve_between start (endValue start percent) duration elapsed
  have stays : endValue start percent = 0 := by
    unfold endValue
    rw [black, Nat.zero_mul]
    rfl
  omega

end Curve

theorem toNat_value {start target : UInt8} {durationMs : UInt16}
    {elapsed : UInt32} :
    (if elapsed ≥ durationMs.toUInt32 then
        target
      else
        interpolateValue start target elapsed durationMs.toUInt32).toNat =
      curve start.toNat target.toNat durationMs.toNat elapsed.toNat := by
  have complete :
      elapsed ≥ durationMs.toUInt32 ↔ ¬ elapsed.toNat < durationMs.toNat := by
    rw [ge_iff_le, UInt32.le_iff_toNat_le, UInt16.toNat_toUInt32, Nat.not_lt]
  unfold curve
  by_cases running : elapsed.toNat < durationMs.toNat
  · rw [if_pos running, if_neg fun late => complete.mp late running]
    exact toNat_interpolateValue running
  · rw [if_neg running, if_pos (complete.mpr running)]

section Execute

variable {fade : Fade} {id : StripId} {captured staged : RgbColor}
  {period timestamp : UInt32}

theorem execute_activates (fresh : fade.started = false) :
    (fade.execute id captured period timestamp).kind =
      .fade (fade.activated captured timestamp) := by
  unfold execute
  rw [if_pos (by simp [fresh])]
  split <;> rfl

theorem toNat_targetValue_activated :
    (fade.activated captured timestamp).targetValue.toNat =
      endValue captured.maxChannel fade.percent.toNat := by
  unfold activated endValue
  rw [toNat_scaleTarget, toNat_captureValue]

/-- Without a duration the activation writes the end of the curve at once. -/
theorem execute_at_once (fresh : fade.started = false)
    (zero : fade.durationMs = 0) :
    (fade.execute id captured period timestamp).writes =
        [⟨id, fade.index.toNat,
          captured.scaledTo
            (endValue captured.maxChannel fade.percent.toNat)⟩] ∧
      (fade.execute id captured period timestamp).delay = 0 := by
  have target :=
    @toNat_targetValue_activated fade captured timestamp
  have scaled :=
    scaleRgbColor_eq (toNat_captureValue captured)
      (fade.activated captured timestamp).targetValue
  rw [target] at scaled
  unfold execute
  rw [if_pos (by simp [fresh]), ← scaled]
  simp only [if_pos zero]
  exact ⟨rfl, trivial⟩

theorem execute_captures (fresh : fade.started = false)
    (timed : fade.durationMs ≠ 0) (refresh : period ≠ 0) :
    (fade.execute id captured period timestamp).writes = [] ∧
      (fade.execute id captured period timestamp).delay ≠ 0 := by
  unfold execute
  rw [if_pos (by simp [fresh])]
  simp only [if_neg timed]
  exact ⟨trivial, delayToFadeUpdate_ne_zero refresh (duration_ne_zero timed)⟩

/-- A resumed Fade writes what its curve says, whatever is staged now. -/
theorem execute_resumes {now : UInt32} :
    ((fade.activated captured timestamp).execute id staged period now).writes =
      [⟨id, fade.index.toNat,
        captured.scaledTo
          (curve captured.maxChannel
            (endValue captured.maxChannel fade.percent.toNat)
            fade.durationMs.toNat (now - timestamp).toNat)⟩] := by
  let value :=
    if now - timestamp ≥ fade.durationMs.toUInt32 then
      (fade.activated captured timestamp).targetValue
    else
      interpolateValue (captureValue captured)
        (fade.activated captured timestamp).targetValue (now - timestamp)
        fade.durationMs.toUInt32
  have reached :
      value.toNat =
        curve captured.maxChannel
          (endValue captured.maxChannel fade.percent.toNat)
          fade.durationMs.toNat (now - timestamp).toNat := by
    rw [toNat_value, toNat_captureValue, toNat_targetValue_activated]
  calc
    _ = [⟨id, fade.index.toNat,
          scaleRgbColor captured value (captureValue captured)⟩] := by
      unfold execute
      rw [if_neg (by simp [activated])]
      rfl
    _ = _ := by
      rw [scaleRgbColor_eq (toNat_captureValue captured), reached]

theorem execute_delay_activated {now : UInt32} :
    ((fade.activated captured timestamp).execute id staged period now).delay =
      if now - timestamp ≥ fade.durationMs.toUInt32 then
        0
      else
        delayToFadeUpdate now
          (fade.durationMs.toUInt32 - (now - timestamp)) period := by
  unfold execute
  rw [if_neg (by simp [activated])]
  rfl

theorem execute_completes {now : UInt32} (refresh : period ≠ 0) :
    ((fade.activated captured timestamp).execute id staged period now).delay =
        0 ↔
      fade.durationMs.toNat ≤ (now - timestamp).toNat := by
  have reached :
      fade.durationMs.toUInt32 ≤ now - timestamp ↔
        fade.durationMs.toNat ≤ (now - timestamp).toNat := by
    rw [UInt32.le_iff_toNat_le, UInt16.toNat_toUInt32]
  rw [← reached, execute_delay_activated]
  split
  · rename_i complete
    exact iff_of_true rfl complete
  · rename_i unfinished
    refine iff_of_false ?_ unfinished
    apply delayToFadeUpdate_ne_zero refresh
    intro none
    have same := sub_eq_zero_iff.mp none
    exact unfinished (Nat.le_of_eq (congrArg UInt32.toNat same))

/-- Until then it asks to be resumed within the rest of the duration. -/
theorem execute_remaining {now : UInt32}
    (unfinished :
      ((fade.activated captured timestamp).execute id staged period
          now).delay ≠ 0) :
    (now - timestamp).toNat +
        ((fade.activated captured timestamp).execute id staged period
          now).delay.toNat ≤
      fade.durationMs.toNat := by
  rw [execute_delay_activated] at unfinished ⊢
  split at unfinished
  · exact absurd rfl unfinished
  · rename_i running
    rw [if_neg running]
    exact elapsed_add_delay_le running (delayToFadeUpdate_le _ _ _)

end Execute

end Fade

/-- A Fade follows its curve.  Every execution after the activation writes the
captured color scaled to the value that the curve has at the elapsed time,
independently of the executions before it and of what they or other
instructions staged.  The curve leads monotonically from the captured value to
the end value, the largest channel is always exact, and the Fade completes in
the first execution that finds the duration elapsed. -/
theorem fade_follows_curve (instr : ControllerInstruction)
    (percent durationMs : UInt16) (index : UInt8) (id : StripId)
    {period : UInt32} (refresh : period ≠ 0)
    (earlier : List (List ExecuteCall)) (activation : ExecuteCall)
    (resumes : List ExecuteCall)
    (lit :
      ∀ call ∈ activation :: resumes,
        index.toNat < (call.strips id).ledCount) :
    let fade : Fade := { percent, durationMs, index }
    let stored :=
      InstructionMemorySlot.store { instr with kind := .fade fade } (some id)
    let slot := stored.afterPasses period earlier
    let captured := (activation.strips id).color index.toNat
    let start := captured.maxChannel
    let target := min 255 ((start * percent.toNat + 50) / 100)
    let curve := Fade.curve start target durationMs.toNat
    (∀ elapsed, min start target ≤ curve elapsed ∧
      curve elapsed ≤ max start target) ∧
    (∀ elapsed later, elapsed ≤ later →
      if start ≤ target then
        curve elapsed ≤ curve later
      else
        curve later ≤ curve elapsed) ∧
    (let (_, delay, writes, _) :=
      slot.execute activation.strips period activation.timestamp
    if durationMs = 0 then
      writes = [⟨id, index.toNat, captured.scaledTo target⟩] ∧ delay = 0
    else
      writes = [] ∧ delay ≠ 0) ∧
    ∀ front resume back, resumes = front ++ resume :: back →
      let elapsed := (resume.timestamp - activation.timestamp).toNat
      let written := captured.scaledTo (curve elapsed)
      let (_, delay, writes, _) :=
        (slot.afterCalls period (activation :: front)).execute resume.strips
          period resume.timestamp
      writes = [⟨id, index.toNat, written⟩] ∧
        written.maxChannel = curve elapsed ∧
        (∀ channel ∈ [written.red, written.green, written.blue],
          channel.toNat ≤ curve elapsed) ∧
        (delay = 0 ↔ durationMs.toNat ≤ elapsed) := by
  intro fade stored slot captured start target curve
  have fresh : stored.resetForReplay = stored := rfl
  have first :=
    @InstructionMemorySlot.store_execute_fade period instr id
      activation.strips activation.timestamp fade
      (lit activation List.mem_cons_self)
  refine
    ⟨fun _ => Fade.curve_between, fun _ _ ordered => Fade.curve_mono ordered,
      ?_, ?_⟩
  · have replayed : slot = stored :=
      InstructionMemorySlot.afterPasses_eq fresh earlier
    rw [replayed, first]
    by_cases zero : durationMs = 0
    · simp only [if_pos zero]
      exact Fade.execute_at_once rfl zero
    · simp only [if_neg zero]
      exact Fade.execute_captures rfl zero refresh
  · intro front resume back split elapsed written
    have activates :
        (stored.execute activation.strips period activation.timestamp).1 =
          InstructionMemorySlot.store
            { instr with
              kind := .fade (fade.activated captured activation.timestamp) }
            (some id) := by
      rw [first]
      simp only [Fade.execute_activates (rfl : fade.started = false)]
      rfl
    have resumed :
        slot.afterCalls period (activation :: front) = _ :=
      InstructionMemorySlot.afterPasses_afterCalls fresh activates
        (InstructionMemorySlot.execute_fade_kept rfl) earlier front
    have present : index.toNat < (resume.strips id).ledCount := by
      apply lit
      rw [split]
      simp
    rw [resumed, InstructionMemorySlot.store_execute_fade present]
    have byte : curve elapsed < 256 := Fade.curve_lt RgbColor.maxChannel_lt
    have largest : written.maxChannel = curve elapsed :=
      RgbColor.maxChannel_scaledTo byte Fade.curve_black
    refine
      ⟨Fade.execute_resumes, largest, ?_, Fade.execute_completes refresh⟩
    intro channel member
    rw [← largest]
    exact RgbColor.channel_le member

def orangePixel : Strip where
  ledCount := 1
  ready := true
  colors := fun _ => ⟨200, 100, 0⟩

/-- Half way to a quarter of the value, over a wrap of the clock. -/
theorem fade_follows_curve_of_orangePixel :
    (((InstructionMemorySlot.store
          { kind := .fade { percent := 25, durationMs := 100, index := 0 } }
          (some 0)).afterCalls 20 [⟨fun _ => orangePixel, 0xFFFFFFF6⟩]).execute
        (fun _ => orangePixel) 20 40).2.2.1 =
      [⟨0, 0, ⟨125, 63, 0⟩⟩] := by
  have refresh : (20 : UInt32) ≠ 0 := by decide
  have follows :=
    fade_follows_curve { kind := .fade {} } 25 100 0 0 refresh []
      ⟨fun _ => orangePixel, 0xFFFFFFF6⟩ [⟨fun _ => orangePixel, 40⟩]
      (by simp [orangePixel])
  have written := (follows.2.2.2 [] _ [] rfl).1
  exact written.trans (by decide +kernel)

end PrismKit
