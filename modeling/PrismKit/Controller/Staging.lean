import PrismKit.Controller.Configuration

/-!
# What an execution stages

Whether `Execute` stages a color, and on which strip, is decided by the
instruction and the length of its strip.  The staged colors themselves play no
part in it.
-/

namespace PrismKit

def ControllerInstruction.Addresses (ledCount : Nat)
    (instr : ControllerInstruction) : Prop :=
  match instr.kind with
  | .setMultipleColor _ range | .setMultipleColorHsv _ range =>
      range.start.toNat < range.end.toNat ∧ range.start.toNat < ledCount
  | .setSingleColor _ index | .setSingleColorHsv _ index =>
      index.toNat < ledCount
  | .runGroup _ _ => False
  | .fade fade =>
      fade.index.toNat < ledCount ∧
        (fade.started = true ∨ fade.durationMs = 0)
  | .gradient gradient =>
      gradient.index.toNat < ledCount ∧
        (gradient.started = true ∨ gradient.durationMs = 0)

def ControllerInstruction.Covers (instr : ControllerInstruction)
    (pixel : Nat) : Prop :=
  match instr.kind with
  | .setMultipleColor _ range | .setMultipleColorHsv _ range =>
      range.start.toNat ≤ pixel ∧ pixel < range.end.toNat
  | .setSingleColor _ index | .setSingleColorHsv _ index =>
      pixel = index.toNat
  | .runGroup _ _ => False
  | .fade fade => pixel = fade.index.toNat
  | .gradient gradient => pixel = gradient.index.toNat

instance (instr : ControllerInstruction) (pixel : Nat) :
    Decidable (instr.Covers pixel) :=
  match instr with
  | ⟨_, _, _, _, .setMultipleColor _ range⟩
  | ⟨_, _, _, _, .setMultipleColorHsv _ range⟩ =>
      inferInstanceAs
        (Decidable (range.start.toNat ≤ pixel ∧ pixel < range.end.toNat))
  | ⟨_, _, _, _, .setSingleColor _ index⟩
  | ⟨_, _, _, _, .setSingleColorHsv _ index⟩ =>
      inferInstanceAs (Decidable (pixel = index.toNat))
  | ⟨_, _, _, _, .runGroup _ _⟩ => inferInstanceAs (Decidable False)
  | ⟨_, _, _, _, .fade fade⟩ =>
      inferInstanceAs (Decidable (pixel = fade.index.toNat))
  | ⟨_, _, _, _, .gradient gradient⟩ =>
      inferInstanceAs (Decidable (pixel = gradient.index.toNat))

/-- Executing the instruction stages a color on the strip: the instruction is
bound to it, the strip is ready, and the instruction writes a pixel now.  A
Fade or Gradient that has a duration does not write when it is activated. -/
structure ControllerInstruction.Stages (strips : StripId → Strip)
    (instr : ControllerInstruction) (id : StripId) : Prop where
  controller : instr.controller = true
  strip : instr.strip = some id
  ready : (strips id).ready = true
  addresses : instr.Addresses (strips id).ledCount

namespace ControllerInstruction

variable {strips : StripId → Strip} {period timestamp : UInt32}
  {instr : ControllerInstruction} {id : StripId}

theorem mem_writeLed {strip : Strip} {color : RgbColor} {index : Nat}
    {write : PixelWrite} (member : write ∈ writeLed id strip color index) :
    write.strip = id ∧ write.index = index := by
  unfold writeLed Strip.led at member
  by_cases outside : index ≥ strip.ledCount
  · simp [outside] at member
  · simp only [if_neg outside, List.mem_singleton] at member
    rw [member]
    exact ⟨rfl, rfl⟩

theorem writeLed_ne_nil {strip : Strip} {color : RgbColor} {index : Nat} :
    writeLed id strip color index ≠ [] ↔ index < strip.ledCount := by
  unfold writeLed Strip.led
  by_cases outside : index ≥ strip.ledCount
  · simp [outside]
  · simp [outside, Nat.not_le.mp outside]

/-- A Fade writes its pixel when it is resumed, and at its activation if it has
no duration. -/
theorem fade_writes {fade : Fade} {staged : RgbColor} :
    (∀ write ∈ (fade.execute id staged period timestamp).writes,
        write.strip = id ∧ write.index = fade.index.toNat) ∧
      ((fade.execute id staged period timestamp).writes ≠ [] ↔
        fade.started = true ∨ fade.durationMs = 0) ∧
      ((fade.execute id staged period timestamp).writes ≠ [] →
        (fade.execute id staged period timestamp).requestShow = true) := by
  unfold Fade.execute
  by_cases started : fade.started = true
  · simp [started]
  · by_cases timed : fade.durationMs = 0
    · simp [started, timed]
    · simp [started, timed]

theorem gradient_writes {gradient : Gradient} {staged : RgbColor} :
    (∀ write ∈ (gradient.execute id staged period timestamp).writes,
        write.strip = id ∧ write.index = gradient.index.toNat) ∧
      ((gradient.execute id staged period timestamp).writes ≠ [] ↔
        gradient.started = true ∨ gradient.durationMs = 0) ∧
      ((gradient.execute id staged period timestamp).writes ≠ [] →
        (gradient.execute id staged period timestamp).requestShow = true) := by
  unfold Gradient.execute
  by_cases started : gradient.started = true
  · simp [started]
  · by_cases timed : gradient.durationMs = 0
    · simp [started, timed]
    · simp [started, timed]

/-- A range writes a pixel if it is not empty and begins on the strip. -/
theorem executeMultiple_writes {kind : InstructionKind} {strip : Strip}
    {color : RgbColor} {range : Range} :
    (∀ write ∈ (executeMultiple kind id strip color range).writes,
        write.strip = id ∧ range.start.toNat ≤ write.index ∧
          write.index < range.end.toNat) ∧
      ((executeMultiple kind id strip color range).writes ≠ [] ↔
        range.start.toNat < range.end.toNat ∧
          range.start.toNat < strip.ledCount) := by
  unfold executeMultiple
  constructor
  · intro write member
    obtain ⟨index, inRange, written⟩ := List.mem_flatMap.mp member
    obtain ⟨onStrip, same⟩ := mem_writeLed written
    have bounds := List.mem_range'_1.mp inRange
    exact ⟨onStrip, by omega, by omega⟩
  · simp only [ne_eq, List.flatMap_eq_nil_iff, List.mem_range'_1]
    constructor
    · intro writes
      by_contra outside
      apply writes
      intro index bounds
      by_contra written
      have inside := writeLed_ne_nil.mp written
      omega
    · rintro ⟨nonempty, onStrip⟩ none
      exact writeLed_ne_nil.mpr onStrip (none range.start.toNat (by omega))

theorem execute_writes_of_bound (controller : instr.controller = true)
    (strip : instr.strip = some id) :
    (∀ write ∈ (instr.execute strips period timestamp).writes,
        write.strip = id ∧ instr.Covers write.index) ∧
      ((instr.execute strips period timestamp).writes ≠ [] ↔
        instr.Addresses (strips id).ledCount) ∧
      ((instr.execute strips period timestamp).writes ≠ [] →
        (instr.execute strips period timestamp).requestShow = true) := by
  rcases instr with ⟨mark, stripOf, controllerOf, groupId, kind⟩
  cases controller
  cases strip
  unfold execute
  simp only [boundStrip, if_true, Option.map_some, Addresses, Covers]
  cases kind with
  | setMultipleColor color range =>
      have writes := @executeMultiple_writes id
        (.setMultipleColor color range) (strips id) color range
      exact ⟨writes.1, writes.2, fun _ => rfl⟩
  | setMultipleColorHsv color range =>
      have writes := @executeMultiple_writes id
        (.setMultipleColorHsv color range) (strips id) (hsvToRgb color) range
      exact ⟨writes.1, writes.2, fun _ => rfl⟩
  | setSingleColor color index =>
      exact ⟨fun _ => mem_writeLed, writeLed_ne_nil, fun _ => rfl⟩
  | setSingleColorHsv color index =>
      exact ⟨fun _ => mem_writeLed, writeLed_ne_nil, fun _ => rfl⟩
  | runGroup targetId additionalRepeats =>
      simp
  | fade fade =>
      unfold Strip.led
      by_cases outside : fade.index.toNat ≥ (strips id).ledCount
      · simp [outside, Nat.not_lt.mpr outside]
      · simp only [if_neg outside, Nat.not_le.mp outside, true_and]
        exact fade_writes
  | gradient gradient =>
      unfold Strip.led
      by_cases outside : gradient.index.toNat ≥ (strips id).ledCount
      · simp [outside, Nat.not_lt.mpr outside]
      · simp only [if_neg outside, Nat.not_le.mp outside, true_and]
        exact gradient_writes

theorem execute_writes_of_unbound (unbound : instr.boundStrip strips = none) :
    (instr.execute strips period timestamp).writes = [] := by
  unfold execute
  rw [unbound]

/-- `Execute` writes to covered pixels of the bound strip only, and requests a
show with it. -/
theorem execute_write {write : PixelWrite}
    (member : write ∈ (instr.execute strips period timestamp).writes) :
    instr.controller = true ∧ instr.strip = some write.strip ∧
      instr.Covers write.index ∧
      (instr.execute strips period timestamp).requestShow = true := by
  have bound : instr.boundStrip strips ≠ none := by
    intro unbound
    rw [execute_writes_of_unbound unbound] at member
    cases member
  have written := List.ne_nil_of_mem member
  unfold boundStrip at bound
  split at bound
  · rename_i controller
    have set : instr.strip ≠ none := by
      intro unset
      apply bound
      rw [unset]
      rfl
    obtain ⟨id, strip⟩ := Option.ne_none_iff_exists'.mp set
    obtain ⟨onStrip, -, shows⟩ :=
      @execute_writes_of_bound strips period timestamp instr id controller
        strip
    obtain ⟨same, covers⟩ := onStrip write member
    rw [same]
    exact ⟨controller, strip, covers, shows written⟩
  · exact absurd rfl bound

/-- A ready strip is written if and only if a color is staged on it. -/
theorem stages_iff :
    instr.Stages strips id ↔
      (strips id).ready = true ∧
        ∃ write ∈ (instr.execute strips period timestamp).writes,
          write.strip = id := by
  constructor
  · rintro ⟨controller, strip, ready, addresses⟩
    obtain ⟨onStrip, writes, -⟩ :=
      @execute_writes_of_bound strips period timestamp instr id controller
        strip
    obtain ⟨write, member⟩ :=
      List.exists_mem_of_ne_nil _ (writes.mpr addresses)
    exact ⟨ready, write, member, (onStrip write member).1⟩
  · rintro ⟨ready, write, member, rfl⟩
    obtain ⟨controller, strip, -⟩ := execute_write member
    obtain ⟨-, writes, -⟩ :=
      @execute_writes_of_bound strips period timestamp instr write.strip
        controller strip
    exact
      ⟨controller, strip, ready, writes.mp (List.ne_nil_of_mem member)⟩

/-- Staging depends on the length and the readiness of the strips alone. -/
theorem Stages.congr {other : StripId → Strip}
    (lengths : ∀ id, (other id).ledCount = (strips id).ledCount)
    (ready : ∀ id, (other id).ready = (strips id).ready)
    (stages : instr.Stages strips id) : instr.Stages other id := by
  constructor
  · exact stages.controller
  · exact stages.strip
  · rw [ready]
    exact stages.ready
  · rw [lengths]
    exact stages.addresses

end ControllerInstruction

/-- `Execute` of a slot stages what its instruction stages, and requests a show
if it writes. -/
theorem InstructionMemorySlot.execute_stages {strips : StripId → Strip}
    {period timestamp : UInt32} (slot : InstructionMemorySlot) :
    (∀ id,
      ((strips id).ready = true ∧
          ∃ write ∈ (slot.execute strips period timestamp).2.2.1,
            write.strip = id) ↔
        ∃ instr, slot.active = some instr ∧ instr.Stages strips id) ∧
      ((slot.execute strips period timestamp).2.2.1 ≠ [] →
        (slot.execute strips period timestamp).2.2.2 = true) := by
  rcases slot with ⟨active⟩
  cases active with
  | none =>
      simp [execute]
  | some instr =>
      constructor
      · intro id
        have stages :=
          @ControllerInstruction.stages_iff strips period timestamp instr id
        constructor
        · intro writes
          exact ⟨instr, rfl, stages.mpr writes⟩
        · rintro ⟨stored, active, staged⟩
          cases active
          exact stages.mp staged
      · intro wrote
        obtain ⟨write, member⟩ := List.exists_mem_of_ne_nil _ wrote
        exact (ControllerInstruction.execute_write member).2.2.2

end PrismKit
