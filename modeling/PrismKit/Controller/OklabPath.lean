import PrismKit.Controller.OklabRange
import PrismKit.Library.Rounding

/-!
# Interpolated coordinates

The split division of `InterpolateMagnitude` yields the rounded quotient of
the whole product, which is never formed.
-/

namespace PrismKit.Oklab

open Library Library.Checked

section Magnitude

variable {magnitude elapsed duration : Nat}

theorem interpolateMagnitude_eq (positive : 0 < duration) :
    interpolateMagnitude magnitude elapsed duration =
      roundDiv (magnitude * elapsed) duration := by
  have split :
      magnitude * elapsed =
        magnitude % duration * elapsed +
          duration * (magnitude / duration * elapsed) := by
    rw [← Nat.mul_assoc, ← Nat.add_mul, Nat.mod_add_div]
  rw [split, roundDiv_add_mul positive, roundDiv_eq positive]
  unfold interpolateMagnitude
  simp only
  split <;> omega

/-- No intermediate exceeds 32 bits: the only product of two factors without
a common bound has a remainder for one of them. -/
theorem Checked.interpolateMagnitude_eq (fits : magnitude < 65536)
    (running : elapsed < duration) (short : duration < 65536) :
    Checked.interpolateMagnitude magnitude elapsed duration =
      some (Oklab.interpolateMagnitude magnitude elapsed duration) := by
  have positive : 0 < duration := Nat.zero_lt_of_lt running
  have nonzero : duration ≠ 0 := Nat.ne_of_gt positive
  have rest := Nat.mod_lt magnitude positive
  have product : magnitude % duration * elapsed ≤ 65534 * 65534 :=
    Nat.mul_le_mul (by omega) (by omega)
  have covered : magnitude / duration * elapsed ≤ magnitude :=
    Nat.le_trans (Nat.mul_le_mul_left _ (Nat.le_of_lt running))
      (Nat.div_mul_le_self magnitude duration)
  have quotient :
      magnitude % duration * elapsed / duration ≤ magnitude % duration := by
    apply Nat.div_le_of_le_mul
    rw [Nat.mul_comm duration]
    exact Nat.mul_le_mul_left _ (Nat.le_of_lt running)
  have fraction := Nat.mod_lt (magnitude % duration * elapsed) positive
  unfold Oklab.interpolateMagnitude
  apply step (div_of_ne_zero nonzero _)
  apply step (mod_of_ne_zero nonzero _)
  apply step (unsigned32_of_lt (by omega))
  apply step (unsigned32_of_lt (by omega))
  apply step (div_of_ne_zero nonzero _)
  apply step (unsigned32_of_lt (by omega))
  apply step (mod_of_ne_zero nonzero _)
  apply step (unsigned32_of_lt (by omega))
  simp only
  split
  · exact unsigned32_of_lt (by omega)
  · rfl

end Magnitude

/-! ### One coordinate -/

section Component

variable {source target : Int} {elapsed duration : Nat}

/-- The way from one coordinate to another that is covered. -/
def covered (source target : Int) (elapsed duration : Nat) : Nat :=
  roundDiv ((target - source).natAbs * elapsed) duration

theorem covered_le_distance (running : elapsed < duration) :
    covered source target elapsed duration ≤ (target - source).natAbs :=
  covered_le (Nat.zero_lt_of_lt running) (Nat.le_of_lt running)

theorem covered_swap (source target : Int) (elapsed duration : Nat) :
    covered target source elapsed duration =
      covered source target elapsed duration := by
  unfold covered
  rw [← Int.natAbs_neg, Int.neg_sub]

/-- What is covered forward and backward adds up to the distance, up to the
rounding of a half. -/
theorem covered_complement (running : elapsed < duration) :
    covered source target elapsed duration +
          covered source target (duration - elapsed) duration =
        (target - source).natAbs ∨
      covered source target elapsed duration +
          covered source target (duration - elapsed) duration =
        (target - source).natAbs + 1 := by
  apply roundDiv_complement (Nat.zero_lt_of_lt running)
  rw [← Nat.mul_add, Nat.add_sub_cancel' (Nat.le_of_lt running),
    Nat.mul_comm]

theorem interpolateComponent_of_between (positive : 0 < elapsed)
    (running : elapsed < duration) :
    interpolateComponent source target elapsed duration =
      int16
        (if target < source then
          source - covered source target elapsed duration
        else
          source + covered source target elapsed duration) := by
  have unfinished : ¬ (duration = 0 ∨ elapsed ≥ duration) := by omega
  have started : elapsed ≠ 0 := Nat.ne_of_gt positive
  have falling : target - source < 0 ↔ target < source := by omega
  unfold interpolateComponent
  rw [if_neg unfinished, if_neg started]
  simp only [falling, Oklab.interpolateMagnitude_eq
    (Nat.zero_lt_of_lt running)]
  rfl

/-- The values that a 16-bit field holds. -/
def Narrow (value : Int) : Prop :=
  -32768 ≤ value ∧ value < 32768

theorem narrow_toInt (field : Int16) : Narrow field.toInt :=
  ⟨field.le_toInt, field.toInt_lt⟩

theorem int16_of_narrow {value : Int} (narrow : Narrow value) :
    int16 value = value := by
  unfold Narrow at narrow
  exact Int.bmod_eq_of_le (by omega) (by omega)

section Narrow

variable (hs : Narrow source) (ht : Narrow target)
include hs ht

/-- The covered way leads to a value between the endpoints, so that the
narrowing of the result changes nothing. -/
theorem interpolateComponent_eq (positive : 0 < elapsed)
    (running : elapsed < duration) :
    interpolateComponent source target elapsed duration =
      if target < source then
        source - covered source target elapsed duration
      else
        source + covered source target elapsed duration := by
  have within := @covered_le_distance source target elapsed duration running
  rw [interpolateComponent_of_between positive running]
  apply int16_of_narrow
  unfold Narrow at *
  split <;> omega

theorem interpolateComponent_between (positive : 0 < elapsed)
    (running : elapsed < duration) :
    min source target ≤ interpolateComponent source target elapsed duration ∧
      interpolateComponent source target elapsed duration ≤
        max source target := by
  have within := @covered_le_distance source target elapsed duration running
  rw [interpolateComponent_eq hs ht positive running]
  split <;> omega

/-- Later values are nearer to the target; after the duration they are the
target. -/
theorem interpolateComponent_mono {later : Nat} (positive : 0 < elapsed)
    (running : elapsed < duration) (ordered : elapsed ≤ later) :
    (source ≤ target →
        interpolateComponent source target elapsed duration ≤
          interpolateComponent source target later duration) ∧
      (target ≤ source →
        interpolateComponent source target later duration ≤
          interpolateComponent source target elapsed duration) := by
  rcases Nat.lt_or_ge later duration with unfinished | finished
  · have further :
        covered source target elapsed duration ≤
          covered source target later duration :=
      covered_mono ordered
    have reached := @covered_le_distance source target later duration unfinished
    rw [interpolateComponent_eq hs ht positive running,
      interpolateComponent_eq hs ht (Nat.lt_of_lt_of_le positive ordered)
        unfinished]
    constructor
    · intro rising
      rw [if_neg (by omega), if_neg (by omega)]
      omega
    · intro falling
      split <;> omega
  · have ended :
        interpolateComponent source target later duration = target :=
      if_pos (Or.inr finished)
    have between := interpolateComponent_between hs ht positive running
    rw [ended]
    omega

/-- On the way back, the same time before the end yields the same value or a
neighbor of it. -/
theorem interpolateComponent_swap (positive : 0 < elapsed)
    (running : elapsed < duration) :
    (interpolateComponent source target elapsed duration -
        interpolateComponent target source (duration - elapsed)
          duration).natAbs ≤ 1 := by
  have sum := @covered_complement source target elapsed duration running
  rw [interpolateComponent_eq hs ht positive running,
    interpolateComponent_eq ht hs (Nat.sub_pos_of_lt running)
      (Nat.sub_lt (Nat.zero_lt_of_lt running) positive),
    covered_swap source target (duration - elapsed)]
  split <;> split <;> omega

theorem Checked.interpolateComponent_eq (short : duration < 65536) :
    Checked.interpolateComponent source target elapsed duration =
      some (Oklab.interpolateComponent source target elapsed duration) := by
  have falling : target - source < 0 ↔ target < source := by omega
  unfold Checked.interpolateComponent
  by_cases finished : duration = 0 ∨ elapsed ≥ duration
  · unfold Oklab.interpolateComponent
    rw [if_pos finished, if_pos finished]
  · by_cases fresh : elapsed = 0
    · unfold Oklab.interpolateComponent
      rw [if_neg finished, if_neg finished, if_pos fresh, if_pos fresh]
    · have running : elapsed < duration := by omega
      have within :=
        @covered_le_distance source target elapsed duration running
      have magnitude :
          (if target - source < 0 then
            signed32 (-(target - source))
          else
            some (target - source)) =
          some ((target - source).natAbs : Int) := by
        unfold Narrow at hs ht
        split
        · rw [signed32_of_bounds (by omega) (by omega)]
          congr 1
          omega
        · congr 1
          omega
      rw [if_neg finished, if_neg fresh,
        Oklab.interpolateComponent_eq hs ht (Nat.pos_of_ne_zero fresh)
          running]
      unfold Narrow at hs ht
      apply step (signed32_of_bounds (by omega) (by omega))
      apply step magnitude
      apply step (natural_of_nonneg (Int.natCast_nonneg _))
      rw [Int.toNat_natCast]
      apply step
        (Checked.interpolateMagnitude_eq (by omega) running short)
      rw [Oklab.interpolateMagnitude_eq (Nat.zero_lt_of_lt running)]
      change (signed32 (covered source target elapsed duration) >>= _) = _
      apply step (signed32_of_bounds (by omega) (by omega))
      simp only [falling]
      split
      · apply step (signed32_of_bounds (by omega) (by omega))
        exact signed16_of_bounds (by omega) (by omega)
      · apply step (signed32_of_bounds (by omega) (by omega))
        exact signed16_of_bounds (by omega) (by omega)

end Narrow

end Component

section Colors

variable {elapsed duration : UInt16}

theorem interpolate_of_between (source target : OklabColor)
    (positive : 0 < elapsed) (running : elapsed < duration) :
    interpolate source target elapsed duration =
      ⟨interpolateComponent source.l target.l elapsed.toNat duration.toNat,
        interpolateComponent source.a target.a elapsed.toNat duration.toNat,
        interpolateComponent source.b target.b elapsed.toNat
          duration.toNat⟩ := by
  rw [UInt16.lt_iff_toNat_lt] at positive running
  have unfinished : ¬ (duration = 0 ∨ elapsed ≥ duration) := by
    rintro (zero | late)
    · rw [zero] at running
      exact Nat.not_lt_zero _ running
    · exact Nat.not_le.mpr running late
  have started : elapsed ≠ 0 := by
    intro zero
    rw [zero] at positive
    exact Nat.lt_irrefl _ positive
  unfold interpolate
  rw [if_neg unfinished, if_neg started]

theorem toNat_remaining (positive : 0 < elapsed)
    (running : elapsed < duration) :
    (duration - elapsed).toNat = duration.toNat - elapsed.toNat ∧
      0 < duration - elapsed ∧ duration - elapsed < duration := by
  have difference :=
    UInt16.toNat_sub_of_le duration elapsed (UInt16.le_of_lt running)
  rw [UInt16.lt_iff_toNat_lt] at positive running ⊢
  rw [UInt16.lt_iff_toNat_lt, difference]
  rw [UInt16.toNat_zero] at positive ⊢
  omega

/-- Interpolated coordinates.  Strictly between the endpoints the function
computes the rounded distance in exact arithmetic, its value lies between the
endpoints and is monotone in the elapsed time, and the interpolation with
exchanged endpoints differs by at most one. -/
theorem interpolateComponent_exact (positive : 0 < elapsed)
    (running : elapsed < duration) :
    (∀ source target : Int16,
      let path := fun elapsed : UInt16 =>
        interpolateComponent source.toInt target.toInt elapsed.toNat
          duration.toNat
      let distance := (target.toInt - source.toInt).natAbs
      let change : Int := roundDiv (distance * elapsed.toNat) duration.toNat
      Checked.interpolateComponent source.toInt target.toInt elapsed.toNat
          duration.toNat =
        some (path elapsed) ∧
      path elapsed =
        (if target < source then
          source.toInt - change
        else
          source.toInt + change) ∧
      min source.toInt target.toInt ≤ path elapsed ∧
      path elapsed ≤ max source.toInt target.toInt ∧
      ∀ later : UInt16, elapsed ≤ later →
        (source ≤ target → path elapsed ≤ path later) ∧
        (target ≤ source → path later ≤ path elapsed)) ∧
    ∀ l a b l' a' b' : Int16,
      let source := ofFields l a b
      let target := ofFields l' a' b'
      let forth := interpolate source target elapsed duration
      let back := interpolate target source (duration - elapsed) duration
      (forth.l - back.l).natAbs ≤ 1 ∧ (forth.a - back.a).natAbs ≤ 1 ∧
        (forth.b - back.b).natAbs ≤ 1 := by
  have fewer : elapsed.toNat < duration.toNat :=
    UInt16.lt_iff_toNat_lt.mp running
  have begun : 0 < elapsed.toNat := UInt16.lt_iff_toNat_lt.mp positive
  constructor
  · intro source target path distance change
    have hs := narrow_toInt source
    have ht := narrow_toInt target
    have between := interpolateComponent_between hs ht begun fewer
    refine
      ⟨Checked.interpolateComponent_eq hs ht duration.toNat_lt, ?_, between.1,
        between.2, ?_⟩
    · simp only [Int16.lt_iff_toInt_lt]
      exact interpolateComponent_eq hs ht begun fewer
    · intro later ordered
      simp only [Int16.le_iff_toInt_le]
      exact
        interpolateComponent_mono hs ht begun fewer
          (UInt16.le_iff_toNat_le.mp ordered)
  · intro l a b l' a' b' source target forth back
    obtain ⟨remaining, left, shorter⟩ := toNat_remaining positive running
    have onWay := interpolate_of_between source target positive running
    have onReturn := interpolate_of_between target source left shorter
    rw [remaining] at onReturn
    simp only [forth, back, onWay, onReturn]
    exact
      ⟨interpolateComponent_swap (narrow_toInt l) (narrow_toInt l') begun
          fewer,
        interpolateComponent_swap (narrow_toInt a) (narrow_toInt a') begun
          fewer,
        interpolateComponent_swap (narrow_toInt b) (narrow_toInt b') begun
          fewer⟩

/-- The longest duration and a full-range distance. -/
theorem interpolateComponent_exact_of_longest :
    interpolateComponent (-32768) 32767 65534 65535 = 32766 := by
  have exact :=
    @interpolateComponent_exact 65534 65535 (by decide) (by decide)
  exact (exact.1 (-32768) 32767).2.1

/-- Coordinates that 16-bit fields hold. -/
def OklabColor.Narrow (lab : OklabColor) : Prop :=
  Oklab.Narrow lab.l ∧ Oklab.Narrow lab.a ∧ Oklab.Narrow lab.b

theorem ofFields_ofInt {lab : OklabColor} (narrow : lab.Narrow) :
    ofFields (Int16.ofInt lab.l) (Int16.ofInt lab.a) (Int16.ofInt lab.b) =
      lab := by
  have held {value : Int} (fits : Oklab.Narrow value) :
      (Int16.ofInt value).toInt = value :=
    Int16.toInt_ofInt_of_le fits.1 fits.2
  unfold ofFields
  rw [held narrow.1, held narrow.2.1, held narrow.2.2]

/-- The inverse conversion is exact on all contents of its fields. -/
theorem Checked.fromOklab_of_narrow {lab : OklabColor}
    (narrow : lab.Narrow) :
    Checked.fromOklab lab = some (Oklab.fromOklab lab) := by
  rw [← ofFields_ofInt narrow]
  exact Checked.fromOklab_eq _ _ _

theorem narrow_zero : (⟨0, 0, 0⟩ : OklabColor).Narrow := by
  unfold OklabColor.Narrow Narrow
  decide

theorem narrow_toOklab (rgb : RgbColor) : (toOklab rgb).Narrow := by
  have bounds := toOklab_bounds rgb
  unfold OklabColor.Narrow Oklab.Narrow
  omega

theorem narrow_interpolateComponent {source target : Int}
    {elapsed duration : Nat} (hs : Narrow source) (ht : Narrow target) :
    Narrow (interpolateComponent source target elapsed duration) := by
  by_cases finished : duration = 0 ∨ elapsed ≥ duration
  · unfold interpolateComponent
    rw [if_pos finished]
    exact ht
  · by_cases fresh : elapsed = 0
    · unfold interpolateComponent
      rw [if_neg finished, if_pos fresh]
      exact hs
    · have between :=
        interpolateComponent_between hs ht (Nat.pos_of_ne_zero fresh)
          (Nat.lt_of_not_le fun late => finished (Or.inr late))
      unfold Narrow at *
      omega

section Interpolate

variable {source target : OklabColor} (hs : source.Narrow)
  (ht : target.Narrow)
include hs ht

theorem narrow_interpolate :
    (interpolate source target elapsed duration).Narrow := by
  unfold interpolate
  split
  · exact ht
  · split
    · exact hs
    · exact
        ⟨narrow_interpolateComponent hs.1 ht.1,
          narrow_interpolateComponent hs.2.1 ht.2.1,
          narrow_interpolateComponent hs.2.2 ht.2.2⟩

theorem Checked.interpolate_eq :
    Checked.interpolate source target elapsed duration =
      some (Oklab.interpolate source target elapsed duration) := by
  have short := duration.toNat_lt
  unfold Checked.interpolate Oklab.interpolate
  split
  · rfl
  · split
    · rfl
    · apply step (Checked.interpolateComponent_eq hs.1 ht.1 short)
      apply step (Checked.interpolateComponent_eq hs.2.1 ht.2.1 short)
      apply step (Checked.interpolateComponent_eq hs.2.2 ht.2.2 short)
      rfl

end Interpolate

/-- The fixed-point pipeline stays within its types: the conversion of every
color computes without overflow and within the bounds of its matrix, the
coordinates between two converted colors fit their 16-bit fields, and the way
back computes exactly from any contents of these fields. -/
theorem oklab_in_range :
    (∀ rgb : RgbColor,
      Checked.toOklab rgb = some (toOklab rgb) ∧
        (toOklab rgb).l.natAbs ≤ 8270 ∧ (toOklab rgb).a.natAbs ≤ 19910 ∧
        (toOklab rgb).b.natAbs ≤ 6635) ∧
    (∀ (source target : RgbColor) (elapsed duration : UInt16),
      let lab := interpolate (toOklab source) (toOklab target) elapsed duration
      Checked.interpolate (toOklab source) (toOklab target) elapsed duration =
          some lab ∧
        lab.Narrow) ∧
    ∀ l a b : Int16,
      Checked.fromOklab (ofFields l a b) =
        some (fromOklab (ofFields l a b)) := by
  refine ⟨?_, ?_, Checked.fromOklab_eq⟩
  · intro rgb
    exact ⟨Checked.toOklab_eq rgb, toOklab_bounds rgb⟩
  · intro source target elapsed duration lab
    exact
      ⟨Checked.interpolate_eq (narrow_toOklab source) (narrow_toOklab target),
        narrow_interpolate (narrow_toOklab source) (narrow_toOklab target)⟩

end Colors

end PrismKit.Oklab
