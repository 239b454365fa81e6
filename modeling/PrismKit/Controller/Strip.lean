import PrismKit.Controller.Color
import Mathlib.Logic.Function.Basic

/-!
# Strips

The part of `strip.hpp` and `StripManager` that instructions reach: a fixed
number of pixels with one staged color each.  `SetColor` on a strip that is not
ready reports an error and stages nothing.
-/

namespace PrismKit

/-- Identity of a strip object; instructions hold non-owning pointers. -/
abbrev StripId := Nat

/-- A strip backend: its pixel count, readiness and staged frame. -/
structure Strip where
  ledCount : Nat
  ready : Bool
  colors : Nat → RgbColor

namespace Strip

/-- `Strip::Led`: the pixel view, or `none` for the null pointer. -/
def led (strip : Strip) (index : Nat) : Option Nat :=
  if index ≥ strip.ledCount then none else some index

/-- `StripLed::Color` of an existing pixel. -/
def color (strip : Strip) (index : Nat) : RgbColor :=
  strip.colors index

/-- `StripLed::SetColor` of an existing pixel. -/
def setColor (strip : Strip) (index : Nat) (color : RgbColor) : Strip :=
  if strip.ready then
    { strip with colors := Function.update strip.colors index color }
  else
    strip

@[simp]
theorem setColor_ledCount (strip : Strip) (index : Nat) (color : RgbColor) :
    (strip.setColor index color).ledCount = strip.ledCount := by
  unfold setColor
  split <;> rfl

@[simp]
theorem setColor_ready (strip : Strip) (index : Nat) (color : RgbColor) :
    (strip.setColor index color).ready = strip.ready := by
  unfold setColor
  split <;> rfl

end Strip

/-- One `SetColor` call made by an instruction. -/
structure PixelWrite where
  strip : StripId
  index : Nat
  color : RgbColor
  deriving DecidableEq, Repr

/-- The strips after some `SetColor` calls. -/
def paint (strips : StripId → Strip) (writes : List PixelWrite) :
    StripId → Strip :=
  writes.foldl
    (fun strips write =>
      Function.update strips write.strip
        ((strips write.strip).setColor write.index write.color))
    strips

theorem paint_append (strips : StripId → Strip)
    (writes later : List PixelWrite) :
    paint strips (writes ++ later) = paint (paint strips writes) later :=
  List.foldl_append

theorem paint_color {id : StripId} {pixel : Nat} {writes : List PixelWrite}
    (elsewhere :
      ∀ write ∈ writes, ¬ (write.strip = id ∧ write.index = pixel))
    (strips : StripId → Strip) :
    (paint strips writes id).color pixel = (strips id).color pixel := by
  induction writes generalizing strips with
  | nil =>
      rfl
  | cons write rest inductionHypothesis =>
      have apart := elsewhere write List.mem_cons_self
      have kept :
          (Function.update strips write.strip
              ((strips write.strip).setColor write.index write.color)
              id).color pixel =
            (strips id).color pixel := by
        by_cases same : id = write.strip
        · subst same
          have other : pixel ≠ write.index := fun equal =>
            apart ⟨rfl, equal.symm⟩
          rw [Function.update_self]
          unfold Strip.setColor Strip.color
          split
          · exact Function.update_of_ne other ..
          · rfl
        · rw [Function.update_of_ne same]
      have later :=
        inductionHypothesis
          (fun other member =>
            elsewhere other (List.mem_cons_of_mem _ member))
          (Function.update strips write.strip
            ((strips write.strip).setColor write.index write.color))
      exact later.trans kept

/-- A pixel of a ready strip takes the color that is written. -/
theorem paint_singleton {strips : StripId → Strip} {id : StripId}
    (ready : (strips id).ready = true) (pixel : Nat) (color : RgbColor) :
    (paint strips [⟨id, pixel, color⟩] id).color pixel = color := by
  simp [paint, Strip.setColor, Strip.color, ready]

end PrismKit
