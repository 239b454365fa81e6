import Mathlib.Algebra.Group.Nat.Defs

/-!
# Little-endian bytes

Words that are taken apart with masks and shifts and put together again with
shifts and bitwise or, in terms of natural numbers.
-/

namespace PrismKit.Library

/-- Placing bits above a number that has none there is an addition. -/
theorem or_shiftLeft {low shift : Nat} (high : Nat) (below : low < 2 ^ shift) :
    low ||| high <<< shift = low + 2 ^ shift * high := by
  rw [Nat.or_comm, ← Nat.shiftLeft_add_eq_or_of_lt below, Nat.shiftLeft_eq,
    Nat.mul_comm, Nat.add_comm]

private theorem and_255 (value : Nat) : value &&& 255 = value % 256 :=
  Nat.and_two_pow_sub_one_eq_mod value 8

private theorem shifted_lt {byte shift width : Nat} (byteBound : byte < 256)
    (fits : shift + 8 ≤ width) : byte <<< shift < 2 ^ width := by
  rw [Nat.shiftLeft_eq]
  calc
    byte * 2 ^ shift < 2 ^ 8 * 2 ^ shift :=
      Nat.mul_lt_mul_of_pos_right byteBound (Nat.two_pow_pos shift)
    _ = 2 ^ (shift + 8) := by
      rw [← Nat.pow_add, Nat.add_comm]
    _ ≤ 2 ^ width :=
      Nat.pow_le_pow_right (by omega) fits

theorem toNat_low16 (value : UInt16) :
    (value &&& 0xFF).toUInt8.toNat = value.toNat % 256 := by
  rw [UInt16.toNat_toUInt8, UInt16.toNat_and]
  show (value.toNat &&& 255) % 256 = value.toNat % 256
  rw [and_255, Nat.mod_mod]

theorem toNat_high16 (value : UInt16) :
    ((value >>> 8) &&& 0xFF).toUInt8.toNat = value.toNat / 256 := by
  have bound := value.toNat_lt
  rw [UInt16.toNat_toUInt8, UInt16.toNat_and, UInt16.toNat_shiftRight]
  show (value.toNat >>> 8 &&& 255) % 256 = value.toNat / 256
  rw [and_255, Nat.mod_mod, Nat.shiftRight_eq_div_pow]
  omega

theorem toNat_join16 (low high : UInt8) :
    (low.toUInt16 ||| high.toUInt16 <<< 8).toNat =
      low.toNat + 256 * high.toNat := by
  have lowBound := low.toNat_lt
  have highBound := high.toNat_lt
  rw [UInt16.toNat_or, UInt16.toNat_shiftLeft, UInt8.toNat_toUInt16,
    UInt8.toNat_toUInt16]
  show low.toNat ||| high.toNat <<< 8 % 2 ^ 16 = _
  rw [Nat.mod_eq_of_lt (shifted_lt highBound (Nat.le_refl 16)),
    or_shiftLeft _ lowBound]
  omega

theorem toNat_join32 (first second third fourth : UInt8) :
    (first.toUInt32 ||| second.toUInt32 <<< 8 ||| third.toUInt32 <<< 16 |||
          fourth.toUInt32 <<< 24).toNat =
      first.toNat + 256 * second.toNat + 65536 * third.toNat +
        16777216 * fourth.toNat := by
  have firstBound := first.toNat_lt
  have secondBound := second.toNat_lt
  have thirdBound := third.toNat_lt
  have fourthBound := fourth.toNat_lt
  simp only [UInt32.toNat_or, UInt32.toNat_shiftLeft, UInt8.toNat_toUInt32]
  show
    first.toNat ||| second.toNat <<< 8 % 2 ^ 32 |||
        third.toNat <<< 16 % 2 ^ 32 ||| fourth.toNat <<< 24 % 2 ^ 32 =
      _
  rw [Nat.mod_eq_of_lt (shifted_lt secondBound (by omega)),
    Nat.mod_eq_of_lt (shifted_lt thirdBound (by omega)),
    Nat.mod_eq_of_lt (shifted_lt fourthBound (by omega)),
    or_shiftLeft second.toNat firstBound,
    or_shiftLeft third.toNat (by omega), or_shiftLeft fourth.toNat (by omega)]
  omega

/-- Taking a word apart and putting it together again. -/
theorem join16_split (value : UInt16) :
    (value &&& 0xFF).toUInt8.toUInt16 |||
        ((value >>> 8) &&& 0xFF).toUInt8.toUInt16 <<< 8 =
      value := by
  rw [← UInt16.toNat_inj, toNat_join16, toNat_low16, toNat_high16]
  omega

/-- Putting two bytes together and taking the word apart again. -/
theorem split16_join (low high : UInt8) :
    ((low.toUInt16 ||| high.toUInt16 <<< 8) &&& 0xFF).toUInt8 = low ∧
      (((low.toUInt16 ||| high.toUInt16 <<< 8) >>> 8) &&& 0xFF).toUInt8 =
        high := by
  have lowBound := low.toNat_lt
  refine ⟨?_, ?_⟩
  · rw [← UInt8.toNat_inj, toNat_low16, toNat_join16]
    omega
  · rw [← UInt8.toNat_inj, toNat_high16, toNat_join16]
    omega

end PrismKit.Library
