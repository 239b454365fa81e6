import PrismKit.Controller.FadeCurve
import PrismKit.Controller.GradientPath
import PrismKit.Controller.Staging

/-!
# Transitions

A Fade and a Gradient seen alike: both run for a duration, capture the color of
their pixel when they are activated, and end with a color that depends on the
captured one alone.
-/

namespace PrismKit

/-- How long a Fade or Gradient runs, and the color that it ends with if it has
captured the given one. -/
structure Transition where
  durationMs : UInt16
  endColor : RgbColor → RgbColor

namespace InstructionMemorySlot

def Covers (slot : InstructionMemorySlot) (id : StripId) (pixel : Nat) :
    Prop :=
  ∃ instr, slot.active = some instr ∧ instr.strip = some id ∧
    instr.Covers pixel

instance (slot : InstructionMemorySlot) (id : StripId) (pixel : Nat) :
    Decidable (slot.Covers id pixel) :=
  inferInstanceAs
    (Decidable
      (∃ instr ∈ slot.active, instr.strip = some id ∧ instr.Covers pixel))

def transition (slot : InstructionMemorySlot) : Option Transition :=
  match slot.active with
  | none => none
  | some instr =>
      match instr.kind with
      | .fade fade =>
          some
            { durationMs := fade.durationMs
              endColor := fun captured =>
                captured.scaledTo
                  (Fade.endValue captured.maxChannel fade.percent.toNat) }
      | .gradient gradient =>
          some
            { durationMs := gradient.durationMs
              endColor := fun _ => gradient.target }
      | _ => none

/-- The stored transition runs, and the given color is the one that it has
captured; a Gradient keeps it as coordinates, and only if it has a duration. -/
def Captured (slot : InstructionMemorySlot) (captured : RgbColor) : Prop :=
  match slot.active with
  | none => False
  | some instr =>
      match instr.kind with
      | .fade fade => fade.started = true ∧ fade.startColor = captured
      | .gradient gradient =>
          gradient.started = true ∧
            (gradient.durationMs ≠ 0 →
              gradient.source = Oklab.toOklab captured)
      | _ => False

/-- The slot after a transition with a duration was activated at `timestamp` on
a pixel of color `captured`. -/
def Running (slot : InstructionMemorySlot) (captured : RgbColor)
    (timestamp : UInt32) : Prop :=
  ∃ instr, slot.active = some instr ∧
    ((∃ fade : Fade, instr.kind = .fade (fade.activated captured timestamp)) ∨
      ∃ gradient : Gradient,
        instr.kind = .gradient (gradient.activated captured timestamp))

theorem covers_resetForReplay (slot : InstructionMemorySlot) (id : StripId)
    (pixel : Nat) :
    slot.resetForReplay.Covers id pixel ↔ slot.Covers id pixel := by
  rcases resetForReplay_cases slot with
    same | ⟨instr, active, ⟨_, kind, reset⟩ | ⟨_, kind, reset⟩⟩
  · rw [same]
  · rw [reset]
    simp [Covers, ControllerInstruction.Covers, active, kind,
      Fade.resetForReplay]
  · rw [reset]
    simp [Covers, ControllerInstruction.Covers, active, kind,
      Gradient.resetForReplay]

theorem SameConfiguration.covers_iff {slot other : InstructionMemorySlot}
    (same : SameConfiguration slot other) (id : StripId) (pixel : Nat) :
    slot.Covers id pixel ↔ other.Covers id pixel := by
  rw [← covers_resetForReplay slot, same, covers_resetForReplay]

theorem transition_resetForReplay (slot : InstructionMemorySlot) :
    slot.resetForReplay.transition = slot.transition := by
  rcases resetForReplay_cases slot with
    same | ⟨instr, active, ⟨_, kind, reset⟩ | ⟨_, kind, reset⟩⟩
  · rw [same]
  · rw [reset]
    simp [transition, active, kind, Fade.resetForReplay]
  · rw [reset]
    simp [transition, active, kind, Gradient.resetForReplay]

theorem SameConfiguration.transition_eq {slot other : InstructionMemorySlot}
    (same : SameConfiguration slot other) :
    slot.transition = other.transition := by
  rw [← transition_resetForReplay slot, same, transition_resetForReplay]

theorem covers_of_write {strips : StripId → Strip} {period timestamp : UInt32}
    {slot : InstructionMemorySlot} {write : PixelWrite}
    (member : write ∈ (slot.execute strips period timestamp).2.2.1) :
    slot.Covers write.strip write.index := by
  rcases slot with ⟨active⟩
  cases active with
  | none =>
      cases member
  | some instr =>
      obtain ⟨-, strip, covers, -⟩ :=
        ControllerInstruction.execute_write member
      exact ⟨instr, rfl, strip, covers⟩

theorem Running.captured {slot : InstructionMemorySlot} {captured : RgbColor}
    {timestamp : UInt32} (running : slot.Running captured timestamp) :
    slot.Captured captured := by
  rcases slot with ⟨active⟩
  obtain ⟨⟨mark, strip, controller, groupId, kind⟩, rfl, transition⟩ := running
  rcases transition with ⟨fade, rfl⟩ | ⟨gradient, rfl⟩
  · exact ⟨rfl, rfl⟩
  · exact ⟨rfl, fun _ => rfl⟩

theorem Captured.endColor_eq {slot : InstructionMemorySlot}
    {transition : Transition} {captured other : RgbColor}
    (found : slot.transition = some transition)
    (first : slot.Captured captured) (second : slot.Captured other) :
    transition.endColor captured = transition.endColor other := by
  rcases slot with ⟨active⟩
  cases active with
  | none =>
      cases found
  | some instr =>
      rcases instr with ⟨mark, strip, controller, groupId, kind⟩
      cases kind with
      | fade fade =>
          have same : captured = other := first.2.symm.trans second.2
          rw [same]
      | gradient gradient =>
          cases found
          rfl
      | _ =>
          cases found

section Execute

variable {slot : InstructionMemorySlot} {instr : ControllerInstruction}
  {transition : Transition} {id : StripId} {pixel : Nat}
  {strips : StripId → Strip} {period timestamp : UInt32}

/-- A transition that covers an existing pixel is a Fade or a Gradient of that
pixel, stored as `AddInstruction` stores it. -/
theorem store_of_transition (active : slot.active = some instr)
    (bound : instr.controller = true) (covers : slot.Covers id pixel)
    (found : slot.transition = some transition) :
    (∃ fade : Fade, fade.index.toNat = pixel ∧
        slot = store { instr with kind := .fade fade } (some id) ∧
        transition.durationMs = fade.durationMs ∧
        transition.endColor = fun captured =>
          captured.scaledTo
            (Fade.endValue captured.maxChannel fade.percent.toNat)) ∨
      ∃ gradient : Gradient, gradient.index.toNat = pixel ∧
        slot = store { instr with kind := .gradient gradient } (some id) ∧
        transition.durationMs = gradient.durationMs ∧
        transition.endColor = fun _ => gradient.target := by
  rcases slot with ⟨stored⟩
  cases active
  rcases instr with ⟨mark, strip, controller, groupId, kind⟩
  cases bound
  obtain ⟨stored, active, onStrip, covered⟩ := covers
  cases active
  cases onStrip
  cases kind with
  | fade fade =>
      cases found
      exact Or.inl ⟨fade, covered.symm, rfl, rfl, rfl⟩
  | gradient gradient =>
      cases found
      exact Or.inr ⟨gradient, covered.symm, rfl, rfl, rfl⟩
  | _ =>
      cases found

private theorem started_of_reset {kind : InstructionKind}
    (fresh :
      (store { instr with kind := kind } (some id)).resetForReplay =
        store { instr with kind := kind } (some id)) :
    ControllerInstruction.resetForReplay
        { instr with strip := some id, controller := true, kind := kind } =
      { instr with strip := some id, controller := true, kind := kind } :=
  Option.some.inj (congrArg InstructionMemorySlot.active fresh)

/-- The activation of a transition captures the staged color.  Without a
duration it writes the end color at once; otherwise it writes nothing and asks
to be resumed within its duration. -/
theorem execute_activates (active : slot.active = some instr)
    (bound : instr.controller = true) (covers : slot.Covers id pixel)
    (found : slot.transition = some transition)
    (fresh : slot.resetForReplay = slot)
    (lit : pixel < (strips id).ledCount) (refresh : period ≠ 0) :
    let captured := (strips id).color pixel
    let result := slot.execute strips period timestamp
    result.1.Captured captured ∧
      result.2.1.toNat ≤ transition.durationMs.toNat ∧
      if transition.durationMs = 0 then
        result.2.2.1 = [⟨id, pixel, transition.endColor captured⟩] ∧
          result.2.1 = 0
      else
        result.2.2.1 = [] ∧ result.2.1 ≠ 0 ∧
          result.1.Running captured timestamp := by
  intro captured
  rcases store_of_transition active bound covers found with
    ⟨fade, rfl, stored, duration, endColor⟩ |
      ⟨gradient, rfl, stored, duration, endColor⟩
  · rw [stored] at fresh
    have same := congrArg ControllerInstruction.kind (started_of_reset fresh)
    have ready : fade.started = false := by
      rw [← InstructionKind.fade.inj same]
      rfl
    have delayed :=
      Fade.execute_delay id captured period timestamp fade
    rw [stored, store_execute_fade lit, duration, endColor]
    simp only [Fade.execute_activates ready]
    refine ⟨⟨rfl, rfl⟩, delayed, ?_⟩
    split
    · rename_i zero
      exact Fade.execute_at_once ready zero
    · rename_i timed
      obtain ⟨silent, positive⟩ :=
        @Fade.execute_captures fade id captured period timestamp ready timed
          refresh
      exact ⟨silent, positive, _, rfl, Or.inl ⟨fade, rfl⟩⟩
  · rw [stored] at fresh
    have same := congrArg ControllerInstruction.kind (started_of_reset fresh)
    have ready : gradient.started = false := by
      rw [← InstructionKind.gradient.inj same]
      rfl
    have delayed :=
      Gradient.execute_delay id captured period timestamp gradient
    rw [stored, store_execute_gradient lit, duration, endColor]
    by_cases zero : gradient.durationMs = 0
    · obtain ⟨kind, writes, delay⟩ :=
        @Gradient.execute_at_once gradient id
          ((strips id).color gradient.index.toNat) period timestamp ready zero
      simp only [kind, if_pos zero]
      exact ⟨⟨rfl, fun timed => absurd zero timed⟩, delayed, writes, delay⟩
    · obtain ⟨kind, writes, delay⟩ :=
        @Gradient.execute_activates gradient id
          ((strips id).color gradient.index.toNat) period timestamp ready zero
          refresh
      simp only [kind, if_neg zero]
      exact
        ⟨⟨rfl, fun _ => rfl⟩, delayed, writes, delay, _, rfl,
          Or.inr ⟨gradient, rfl⟩⟩

/-- A running transition stays as it is and writes its pixel whenever it is
resumed.  It asks to be resumed within the rest of its duration, and ends with
its end color once the duration has elapsed. -/
theorem Running.execute_resumes {captured : RgbColor} {now : UInt32}
    (running : slot.Running captured timestamp)
    (active : slot.active = some instr) (bound : instr.controller = true)
    (covers : slot.Covers id pixel)
    (found : slot.transition = some transition)
    (lit : pixel < (strips id).ledCount) (refresh : period ≠ 0) :
    let result := slot.execute strips period now
    result.1 = slot ∧
      (result.2.1 = 0 ↔
        transition.durationMs.toNat ≤ (now - timestamp).toNat) ∧
      (result.2.1 ≠ 0 →
        (now - timestamp).toNat + result.2.1.toNat ≤
          transition.durationMs.toNat) ∧
      ∃ color, result.2.2.1 = [⟨id, pixel, color⟩] ∧
        (result.2.1 = 0 → color = transition.endColor captured) := by
  obtain ⟨stored, storedActive, kinds⟩ := running
  rw [active] at storedActive
  cases storedActive
  rcases store_of_transition active bound covers found with
    ⟨fade, rfl, stored, duration, endColor⟩ |
      ⟨gradient, rfl, stored, duration, endColor⟩
  · have kind : instr.kind = .fade fade := by
      rw [stored] at active
      exact (congrArg ControllerInstruction.kind (Option.some.inj active)).symm
    rw [kind] at kinds
    rcases kinds with ⟨origin, same⟩ | ⟨_, impossible⟩
    · cases same
      have kept :=
        @execute_fade_kept period instr id
          (origin.activated captured timestamp) rfl ⟨strips, now⟩
      have resumed := @store_execute_fade period instr id strips now _ lit
      rw [← stored] at kept resumed
      refine ⟨kept, ?_⟩
      rw [resumed, duration, endColor]
      dsimp only
      refine
        ⟨Fade.execute_completes refresh, Fade.execute_remaining, _,
          Fade.execute_resumes, ?_⟩
      intro ended
      have complete := (Fade.execute_completes refresh).mp ended
      exact congrArg captured.scaledTo (if_neg (Nat.not_lt.mpr complete))
    · cases impossible
  · have kind : instr.kind = .gradient gradient := by
      rw [stored] at active
      exact (congrArg ControllerInstruction.kind (Option.some.inj active)).symm
    rw [kind] at kinds
    rcases kinds with ⟨_, impossible⟩ | ⟨origin, same⟩
    · cases impossible
    · cases same
      have kept :=
        @execute_gradient_kept period instr id
          (origin.activated captured timestamp) rfl ⟨strips, now⟩
      have resumed := @store_execute_gradient period instr id strips now _ lit
      rw [← stored] at kept resumed
      refine ⟨kept, ?_⟩
      rw [resumed, duration, endColor]
      dsimp only
      refine
        ⟨Gradient.execute_completes refresh, Gradient.execute_remaining, _,
          Gradient.execute_writes, ?_⟩
      intro ended
      have complete := (Gradient.execute_completes refresh).mp ended
      exact if_pos (Gradient.complete_iff.mpr complete)

end Execute

end InstructionMemorySlot

end PrismKit
