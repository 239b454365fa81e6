import PrismKit.Controller.Playback
import PrismKit.Library.Clock

/-!
# The path of a Gradient

A Gradient converts both endpoints when it is activated and keeps the converted
coordinates in six 16-bit fields.  Every later execution samples the path from
these fields, and the sample is the color that `InterpolateRgb` computes from
the two colors in one step.
-/

namespace PrismKit

open Library

namespace Oklab

def Fits (lab : OklabColor) : Prop :=
  int16 lab.l = lab.l ∧ int16 lab.a = lab.a ∧ int16 lab.b = lab.b

theorem int16_int16 (value : Int) : int16 (int16 value) = int16 value :=
  Int.bmod_bmod

/-- Converted colors can be cached without loss. -/
theorem toOklab_fits (rgb : RgbColor) : Fits (toOklab rgb) :=
  ⟨int16_int16 _, int16_int16 _, int16_int16 _⟩

/-- Strictly between the endpoints, the one-shot helper samples the path of
the converted colors. -/
theorem interpolateRgb_of_between {source target : RgbColor}
    {elapsedMs durationMs : UInt16} (positive : elapsedMs ≠ 0)
    (running : elapsedMs < durationMs) :
    interpolateRgb source target elapsedMs durationMs =
      fromOklab
        (interpolate (toOklab source) (toOklab target) elapsedMs
          durationMs) := by
  have timed : durationMs ≠ 0 := by
    intro zero
    rw [zero] at running
    exact absurd running UInt16.not_lt_zero
  have unfinished : ¬ (durationMs = 0 ∨ elapsedMs ≥ durationMs) := by
    rintro (zero | late)
    · exact timed zero
    · exact UInt16.not_le.mpr running late
  unfold interpolateRgb
  rw [if_neg unfinished, if_neg positive]

end Oklab

namespace Gradient

/-- A Gradient with a duration that was activated at `timestamp` on a pixel of
color `source`. -/
def activated (gradient : Gradient) (source : RgbColor) (timestamp : UInt32) :
    Gradient :=
  { gradient with
    started := true
    startTime := timestamp
    source := Oklab.toOklab source
    targetLab := Oklab.toOklab gradient.target }

section Execute

variable {gradient : Gradient} {id : StripId} {source staged : RgbColor}
  {period timestamp now : UInt32}

/-- The activation only converts the endpoints. -/
theorem execute_activates (fresh : gradient.started = false)
    (timed : gradient.durationMs ≠ 0) (refresh : period ≠ 0) :
    (gradient.execute id source period timestamp).kind =
        .gradient (gradient.activated source timestamp) ∧
      (gradient.execute id source period timestamp).writes = [] ∧
      (gradient.execute id source period timestamp).delay ≠ 0 := by
  unfold execute
  rw [if_pos (by simp [fresh])]
  simp only [if_neg timed]
  exact
    ⟨rfl, trivial,
      delayToGradientUpdate_ne_zero refresh (duration_ne_zero timed)⟩

theorem execute_at_once (fresh : gradient.started = false)
    (zero : gradient.durationMs = 0) :
    (gradient.execute id source period timestamp).kind =
        .gradient { gradient with startTime := timestamp, started := true } ∧
      (gradient.execute id source period timestamp).writes =
        [⟨id, gradient.index.toNat, gradient.target⟩] ∧
      (gradient.execute id source period timestamp).delay = 0 := by
  unfold execute
  rw [if_pos (by simp [fresh])]
  simp only [if_pos zero]
  exact ⟨trivial, trivial, trivial⟩

theorem complete_iff {elapsedMs : UInt32} {durationMs : UInt16} :
    elapsedMs ≥ durationMs.toUInt32 ↔ durationMs.toNat ≤ elapsedMs.toNat := by
  rw [ge_iff_le, UInt32.le_iff_toNat_le, UInt16.toNat_toUInt32]

theorem execute_writes :
    ((gradient.activated source timestamp).execute id staged period
        now).writes =
      [⟨id, gradient.index.toNat,
        if now - timestamp ≥ gradient.durationMs.toUInt32 then
          gradient.target
        else
          Oklab.fromOklab
            (Oklab.interpolate (Oklab.toOklab source)
              (Oklab.toOklab gradient.target) (now - timestamp).toUInt16
              gradient.durationMs)⟩] := by
  unfold execute
  rw [if_neg (by simp [activated])]
  rfl

/-- A resumed Gradient writes a point of the path from the color that it found
at its activation, whatever is staged now. -/
theorem execute_samples
    (positive : 0 < (now - timestamp).toNat)
    (running : (now - timestamp).toNat < gradient.durationMs.toNat) :
    ((gradient.activated source timestamp).execute id staged period
        now).writes =
      [⟨id, gradient.index.toNat,
        Oklab.interpolateRgb source gradient.target
          (UInt16.ofNat (now - timestamp).toNat) gradient.durationMs⟩] := by
  have unfinished : ¬ now - timestamp ≥ gradient.durationMs.toUInt32 :=
    fun late => Nat.not_le.mpr running (complete_iff.mp late)
  have short := gradient.durationMs.toNat_lt
  -- The cast of the elapsed time to 16 bits loses nothing here.
  have lossless :
      (UInt16.ofNat (now - timestamp).toNat).toNat =
        (now - timestamp).toNat := by
    rw [UInt16.toNat_ofNat']
    omega
  have nonzero : UInt16.ofNat (now - timestamp).toNat ≠ 0 := by
    intro zero
    rw [zero, UInt16.toNat_zero] at lossless
    omega
  have below :
      UInt16.ofNat (now - timestamp).toNat < gradient.durationMs := by
    rw [UInt16.lt_iff_toNat_lt, lossless]
    exact running
  rw [execute_writes, if_neg unfinished,
    Oklab.interpolateRgb_of_between nonzero below]
  rfl

theorem execute_ends
    (late : gradient.durationMs.toNat ≤ (now - timestamp).toNat) :
    ((gradient.activated source timestamp).execute id staged period
        now).writes =
      [⟨id, gradient.index.toNat, gradient.target⟩] := by
  rw [execute_writes, if_pos (complete_iff.mpr late)]

theorem execute_delay_activated :
    ((gradient.activated source timestamp).execute id staged period now).delay =
      if now - timestamp ≥ gradient.durationMs.toUInt32 then
        0
      else
        delayToGradientUpdate (now - timestamp)
          (gradient.durationMs.toUInt32 - (now - timestamp)) period := by
  unfold execute
  rw [if_neg (by simp [activated])]
  rfl

theorem execute_completes (refresh : period ≠ 0) :
    ((gradient.activated source timestamp).execute id staged period
        now).delay = 0 ↔
      gradient.durationMs.toNat ≤ (now - timestamp).toNat := by
  rw [← complete_iff, execute_delay_activated]
  split
  · rename_i complete
    exact iff_of_true rfl complete
  · rename_i unfinished
    refine iff_of_false ?_ unfinished
    apply delayToGradientUpdate_ne_zero refresh
    intro none
    have same := sub_eq_zero_iff.mp none
    exact unfinished (Nat.le_of_eq (congrArg UInt32.toNat same))

/-- Until then it asks to be resumed within the rest of the duration. -/
theorem execute_remaining
    (unfinished :
      ((gradient.activated source timestamp).execute id staged period
          now).delay ≠ 0) :
    (now - timestamp).toNat +
        ((gradient.activated source timestamp).execute id staged period
          now).delay.toNat ≤
      gradient.durationMs.toNat := by
  rw [execute_delay_activated] at unfinished ⊢
  split at unfinished
  · exact absurd rfl unfinished
  · rename_i running
    rw [if_neg running]
    exact elapsed_add_delay_le running (delayToGradientUpdate_le _ _ _)

end Execute

end Gradient

/-- A Gradient follows its path.  Strictly between its endpoints, every
execution writes what `InterpolateRgb` computes at the elapsed time from the
color that was staged at the activation, independently of the executions before
it, of what was written in between and of the passes that a reset ended.  The
first execution that finds the duration elapsed writes the target bytes and
completes. -/
theorem gradient_follows_path (instr : ControllerInstruction)
    (target : RgbColor) (durationMs : UInt16) (index : UInt8) (id : StripId)
    {period : UInt32} (timed : durationMs ≠ 0) (refresh : period ≠ 0)
    (earlier : List (List ExecuteCall)) (activation : ExecuteCall)
    (resumes : List ExecuteCall)
    (lit :
      ∀ call ∈ activation :: resumes,
        index.toNat < (call.strips id).ledCount) :
    let gradient : Gradient := { target, durationMs, index }
    let stored :=
      InstructionMemorySlot.store { instr with kind := .gradient gradient }
        (some id)
    let slot := stored.afterPasses period earlier
    let source := (activation.strips id).color index.toNat
    (Oklab.Fits (Oklab.toOklab source) ∧ Oklab.Fits (Oklab.toOklab target)) ∧
    (let (_, delay, writes, _) :=
      slot.execute activation.strips period activation.timestamp
    writes = [] ∧ delay ≠ 0) ∧
    ∀ front resume back, resumes = front ++ resume :: back →
      let elapsed := (resume.timestamp - activation.timestamp).toNat
      let (_, delay, writes, _) :=
        (slot.afterCalls period (activation :: front)).execute resume.strips
          period resume.timestamp
      (0 < elapsed ∧ elapsed < durationMs.toNat →
        writes =
          [⟨id, index.toNat,
            Oklab.interpolateRgb source target (UInt16.ofNat elapsed)
              durationMs⟩]) ∧
      (durationMs.toNat ≤ elapsed →
        writes = [⟨id, index.toNat, target⟩]) ∧
      (delay = 0 ↔ durationMs.toNat ≤ elapsed) := by
  intro gradient stored slot source
  have fresh : stored.resetForReplay = stored := rfl
  have first :=
    @InstructionMemorySlot.store_execute_gradient period instr id
      activation.strips activation.timestamp gradient
      (lit activation List.mem_cons_self)
  have activated :=
    @Gradient.execute_activates gradient id source period activation.timestamp
      rfl timed refresh
  refine ⟨⟨Oklab.toOklab_fits source, Oklab.toOklab_fits target⟩, ?_, ?_⟩
  · have replayed : slot = stored :=
      InstructionMemorySlot.afterPasses_eq fresh earlier
    rw [replayed, first]
    exact activated.2
  · intro front resume back split elapsed
    have activates :
        (stored.execute activation.strips period activation.timestamp).1 =
          InstructionMemorySlot.store
            { instr with
              kind :=
                .gradient (gradient.activated source activation.timestamp) }
            (some id) := by
      rw [first]
      simp only
      rw [← activated.1]
    have resumed :
        slot.afterCalls period (activation :: front) = _ :=
      InstructionMemorySlot.afterPasses_afterCalls fresh activates
        (InstructionMemorySlot.execute_gradient_kept rfl) earlier front
    have present : index.toNat < (resume.strips id).ledCount := by
      apply lit
      rw [split]
      simp
    rw [resumed, InstructionMemorySlot.store_execute_gradient present]
    exact
      ⟨fun between => Gradient.execute_samples between.1 between.2,
        @Gradient.execute_ends gradient id source _ period
          activation.timestamp resume.timestamp,
        Gradient.execute_completes refresh⟩

def onePixel (color : RgbColor) : Strip where
  ledCount := 1
  ready := true
  colors := fun _ => color

/-- A late end, over a wrap of the clock and after an execution that found the
pixel in another color. -/
theorem gradient_follows_path_of_onePixel :
    (((InstructionMemorySlot.store
          { kind :=
              .gradient
                { target := ⟨1, 2, 3⟩, durationMs := 100, index := 0 } }
          (some 0)).afterCalls 20
        [⟨fun _ => onePixel ⟨255, 255, 255⟩, 0xFFFFFFF6⟩,
          ⟨fun _ => onePixel ⟨9, 9, 9⟩, 40⟩]).execute
        (fun _ => onePixel ⟨9, 9, 9⟩) 20 200).2.2.1 =
      [⟨0, 0, ⟨1, 2, 3⟩⟩] := by
  have timed : (100 : UInt16) ≠ 0 := by decide
  have refresh : (20 : UInt32) ≠ 0 := by decide
  have follows :=
    gradient_follows_path { kind := .gradient {} } ⟨1, 2, 3⟩ 100 0 0 timed
      refresh [] ⟨fun _ => onePixel ⟨255, 255, 255⟩, 0xFFFFFFF6⟩
      [⟨fun _ => onePixel ⟨9, 9, 9⟩, 40⟩, ⟨fun _ => onePixel ⟨9, 9, 9⟩, 200⟩]
      (by simp [onePixel])
  exact (follows.2.2 [_] _ [] rfl).2.1 (by decide)

end PrismKit
