import PrismKit.Controller.Configuration
import PrismKit.Library.Overwrite

/-!
# Painting

The strips as a memory of pixels that `SetColor` calls overwrite, and the
instructions that do nothing but such calls: `SetSingleColor`,
`SetMultipleColor` and their HSV variants.
-/

namespace PrismKit

open Library

/-- The `SetColor` calls that the strips do not refuse, as writes to pixels. -/
def reaching (strips : StripId → Strip) (writes : List PixelWrite) :
    List ((StripId × Nat) × RgbColor) :=
  (writes.filter fun write => (strips write.strip).ready).map fun write =>
    ((write.strip, write.index), write.color)

theorem paint_shape (strips : StripId → Strip) (writes : List PixelWrite)
    (id : StripId) :
    (paint strips writes id).ledCount = (strips id).ledCount ∧
      (paint strips writes id).ready = (strips id).ready := by
  induction writes generalizing strips with
  | nil =>
      exact ⟨rfl, rfl⟩
  | cons write rest inductionHypothesis =>
      have later :=
        inductionHypothesis
          (Function.update strips write.strip
            ((strips write.strip).setColor write.index write.color))
      by_cases same : id = write.strip
      · subst same
        rw [Function.update_self, Strip.setColor_ledCount,
          Strip.setColor_ready] at later
        exact later
      · rw [Function.update_of_ne same] at later
        exact later

theorem paint_color_eq (strips : StripId → Strip) (writes : List PixelWrite)
    (id : StripId) (pixel : Nat) :
    (paint strips writes id).color pixel =
      overwrite (fun key => (strips key.1).color key.2)
        (reaching strips writes) (id, pixel) := by
  induction writes using List.reverseRecOn generalizing id pixel with
  | nil =>
      rfl
  | append_singleton writes write inductionHypothesis =>
      have ready := (paint_shape strips writes write.strip).2
      have last :
          paint strips (writes ++ [write]) =
            Function.update (paint strips writes) write.strip
              ((paint strips writes write.strip).setColor write.index
                write.color) :=
        paint_append strips writes [write]
      have reached :
          reaching strips (writes ++ [write]) =
            reaching strips writes ++ reaching strips [write] := by
        unfold reaching
        rw [List.filter_append, List.map_append]
      rw [last, reached, overwrite_append]
      by_cases accepts : (strips write.strip).ready = true
      · rw [Strip.setColor, if_pos (ready.trans accepts)]
        have written :
            reaching strips [write] =
              [((write.strip, write.index), write.color)] := by
          simp [reaching, accepts]
        rw [written, overwrite_singleton]
        by_cases strip : id = write.strip
        · rw [strip, Function.update_self]
          show Function.update (paint strips writes write.strip).colors
            write.index write.color pixel = _
          by_cases index : pixel = write.index
          · rw [index, Function.update_self, Function.update_self]
          · have apart : (write.strip, pixel) ≠ (write.strip, write.index) := by
              simp [index]
            rw [Function.update_of_ne index, Function.update_of_ne apart]
            exact inductionHypothesis write.strip pixel
        · have apart : (id, pixel) ≠ (write.strip, write.index) := by
            simp [strip]
          rw [Function.update_of_ne strip, Function.update_of_ne apart]
          exact inductionHypothesis id pixel
      · rw [Strip.setColor, if_neg (by rw [ready]; exact accepts),
          Function.update_eq_self]
        have refused : reaching strips [write] = [] := by
          simp [reaching, accepts]
        rw [refused]
        exact inductionHypothesis id pixel

private theorem Strip.eq_of_fields {strip other : Strip}
    (ledCount : strip.ledCount = other.ledCount)
    (ready : strip.ready = other.ready) (colors : strip.colors = other.colors) :
    strip = other := by
  cases strip
  cases other
  cases ledCount
  cases ready
  cases colors
  rfl

/-- Strips with the same writes to their pixels are painted the same. -/
theorem paint_congr {strips : StripId → Strip} {writes others : List PixelWrite}
    (same :
      overwrite (fun key => (strips key.1).color key.2)
          (reaching strips writes) =
        overwrite (fun key => (strips key.1).color key.2)
          (reaching strips others)) :
    paint strips writes = paint strips others := by
  funext id
  have shape := paint_shape strips writes id
  have shape' := paint_shape strips others id
  apply
    Strip.eq_of_fields (shape.1.trans shape'.1.symm)
      (shape.2.trans shape'.2.symm)
  funext pixel
  have first := paint_color_eq strips writes id pixel
  have second := paint_color_eq strips others id pixel
  rw [same, ← second] at first
  exact first

/-- Calls whose pixels are colored again leave no trace. -/
theorem paint_absorb {earlier later : List PixelWrite}
    (again :
      ∀ write ∈ earlier,
        ∃ other ∈ later,
          other.strip = write.strip ∧ other.index = write.index)
    (strips : StripId → Strip) :
    paint strips (earlier ++ later) = paint strips later := by
  apply paint_congr
  have split :
      reaching strips (earlier ++ later) =
        reaching strips earlier ++ reaching strips later := by
    unfold reaching
    rw [List.filter_append, List.map_append]
  rw [split]
  apply overwrite_absorb
  intro write member
  obtain ⟨call, reached, rfl⟩ := List.mem_map.mp member
  obtain ⟨called, accepted⟩ := List.mem_filter.mp reached
  obtain ⟨other, repeated, strip, index⟩ := again call called
  refine ⟨_, List.mem_map.mpr ⟨other, List.mem_filter.mpr ⟨repeated, ?_⟩, rfl⟩, ?_⟩
  · rw [strip]
    exact accepted
  · simp only [strip, index]

theorem paint_again (strips : StripId → Strip) (picture : List PixelWrite)
    (passes : Nat) :
    paint strips ((List.replicate passes picture).flatten ++ picture) =
      paint strips picture := by
  apply paint_absorb
  intro write member
  obtain ⟨pass, among, listed⟩ := List.mem_flatten.mp member
  rw [List.eq_of_mem_replicate among] at listed
  exact ⟨write, listed, rfl, rfl⟩

/-- The instruction sets colors at once: it is no `RunGroup`, `Fade` or
`Gradient`. -/
def ControllerInstruction.Colors (instr : ControllerInstruction) : Prop :=
  match instr.kind with
  | .setMultipleColor _ _ | .setSingleColor _ _ | .setMultipleColorHsv _ _
  | .setSingleColorHsv _ _ => True
  | .runGroup _ _ | .fade _ | .gradient _ => False

instance (instr : ControllerInstruction) : Decidable instr.Colors := by
  unfold ControllerInstruction.Colors
  split <;> infer_instance

namespace InstructionMemorySlot

def Colors (slot : InstructionMemorySlot) : Prop :=
  ∀ instr, slot.active = some instr → instr.Colors

instance (slot : InstructionMemorySlot) : Decidable slot.Colors :=
  match slot with
  | ⟨none⟩ => .isTrue fun _ active => by cases active
  | ⟨some instr⟩ =>
      decidable_of_iff instr.Colors
        ⟨fun sets _ active => Option.some.inj active ▸ sets,
          fun colors => colors instr rfl⟩

/-- The `SetColor` calls of an instruction that sets colors. -/
def coloring (strips : StripId → Strip) (slot : InstructionMemorySlot) :
    List PixelWrite :=
  (slot.execute strips 0 0).2.2.1

/-- The instruction asks for a show: it has a controller and a strip. -/
def requestsShow (slot : InstructionMemorySlot) : Bool :=
  slot.active.any fun instr => instr.controller && instr.strip.isSome

variable {slot : InstructionMemorySlot}

theorem Colors.isRunGroup (colors : slot.Colors) : slot.isRunGroup = false := by
  rcases slot with ⟨active⟩
  cases active with
  | none =>
      rfl
  | some instr =>
      have sets := colors instr rfl
      unfold ControllerInstruction.Colors at sets
      unfold InstructionMemorySlot.isRunGroup ControllerInstruction.isRunGroup
      split at sets <;> simp_all

theorem Colors.resetForReplay (colors : slot.Colors) :
    slot.resetForReplay = slot := by
  rcases resetForReplay_cases slot with
    same | ⟨instr, active, ⟨fade, kind, -⟩ | ⟨gradient, kind, -⟩⟩
  · exact same
  · have sets := colors instr active
    rw [ControllerInstruction.Colors, kind] at sets
    exact sets.elim
  · have sets := colors instr active
    rw [ControllerInstruction.Colors, kind] at sets
    exact sets.elim

/-- The calls depend on the lengths of the strips only, and neither on their
colors nor on the time. -/
theorem Colors.execute (colors : slot.Colors) {strips others : StripId → Strip}
    (lengths : ∀ id, (strips id).ledCount = (others id).ledCount)
    (period timestamp : UInt32) :
    slot.execute strips period timestamp =
      (slot, 0, slot.coloring others, slot.requestsShow) := by
  rcases slot with ⟨active⟩
  cases active with
  | none =>
      rfl
  | some instr =>
      have sets := colors instr rfl
      have leds :
          ∀ id,
            ControllerInstruction.writeLed id (strips id) =
              ControllerInstruction.writeLed id (others id) := by
        intro id
        funext color index
        unfold ControllerInstruction.writeLed Strip.led
        rw [lengths]
      rcases instr with ⟨mark, strip, controller, groupId, kind⟩
      unfold coloring InstructionMemorySlot.execute
        ControllerInstruction.execute ControllerInstruction.boundStrip
      cases controller with
      | false =>
          rfl
      | true =>
          cases strip with
          | none =>
              rfl
          | some id =>
              cases kind with
              | runGroup | fade | gradient => exact sets.elim
              | setMultipleColor | setSingleColor | setMultipleColorHsv
              | setSingleColorHsv =>
                  simp [ControllerInstruction.executeMultiple,
                    ControllerInstruction.executeSingle, requestsShow, leds]

end InstructionMemorySlot

end PrismKit
