import PrismKit.Controller.Color
import PrismKit.Library.Checked

/-!
# Conversions between RGB and HSV

The way back from HSV finds the largest and the smallest channel of a color
again, although the saturation is a rounded quotient of both: the smallest
channel is recovered by a second division that rounds the same way.
-/

namespace PrismKit

open Library.Checked

namespace RgbColor

def largest (rgb : RgbColor) : Nat :=
  max rgb.red.toNat (max rgb.green.toNat rgb.blue.toNat)

def smallest (rgb : RgbColor) : Nat :=
  min rgb.red.toNat (min rgb.green.toNat rgb.blue.toNat)

end RgbColor

/-- The offset from the hue of the largest channel, in degrees. -/
def hueOffset (toward away delta : Nat) : Int :=
  (((toward : Int) - away) * 60).tdiv delta

/-- `h_deg` of `RgbToHsv`. -/
def hueDegrees (rgb : RgbColor) : Int :=
  let r := rgb.red.toNat
  let g := rgb.green.toNat
  let b := rgb.blue.toNat
  let mx := rgb.largest
  let delta := mx - rgb.smallest
  if mx = r then
    let degrees := (hueOffset g b delta).bmod 65536
    if degrees < 0 then (degrees + 360).bmod 65536 else degrees
  else if mx = g then
    (hueOffset b r delta + 120).bmod 65536
  else
    (hueOffset r g delta + 240).bmod 65536

def rgbToHsv (rgb : RgbColor) : HsvColor :=
  let mx := rgb.largest
  let delta := mx - rgb.smallest
  let s := if mx = 0 then 0 else UInt8.ofNat (delta * 255 / mx)
  let h :=
    if delta ≠ 0 then
      UInt8.ofNat (((hueDegrees rgb % 65536).toNat * 255 + 180) / 360)
    else
      0
  ⟨h, s, UInt8.ofNat mx⟩

namespace Checked

/-- One of the three shades `v * (255 - reduction) / 255` of a value. -/
def shade (v reduction : Nat) : Option Nat := do
  let product ← unsigned32 (v * (← sub 255 reduction))
  unsigned8 (← div product 255)

def hsvToRgb (hsv : HsvColor) : Option RgbColor :=
  if hsv.s = 0 then
    some ⟨hsv.v, hsv.v, hsv.v⟩
  else do
    let scaledH ← unsigned16 (← div (← unsigned32 (hsv.h.toNat * 360)) 255)
    let sector ← unsigned8 (if scaledH ≥ 360 then 0 else scaledH / 60)
    let f ← unsigned8 (if scaledH ≥ 360 then 0 else scaledH % 60)
    let v := hsv.v.toNat
    let s := hsv.s.toNat
    let p ← shade v s
    let q ← shade v (← div (← natural (← signed32 (s * f : Nat))) 60)
    let t ← shade v (← div (← unsigned32 (s * (← sub 60 f))) 60)
    let p := UInt8.ofNat p
    let q := UInt8.ofNat q
    let t := UInt8.ofNat t
    some
      (match sector with
      | 0 => ⟨hsv.v, t, p⟩
      | 1 => ⟨q, hsv.v, p⟩
      | 2 => ⟨p, hsv.v, t⟩
      | 3 => ⟨p, q, hsv.v⟩
      | 4 => ⟨t, p, hsv.v⟩
      | _ => ⟨hsv.v, p, q⟩)

def hueOffset (toward away delta : Nat) : Option Int := do
  let difference ← signed32 ((toward : Int) - away)
  tdiv (← signed32 (difference * 60)) delta

def hueDegrees (rgb : RgbColor) (delta : Nat) : Option Int :=
  let r := rgb.red.toNat
  let g := rgb.green.toNat
  let b := rgb.blue.toNat
  let mx := rgb.largest
  if mx = r then do
    let degrees ← signed16 (← hueOffset g b delta)
    if degrees < 0 then
      signed16 (← signed32 (degrees + 360))
    else
      some degrees
  else if mx = g then do
    signed16 (← signed32 ((← hueOffset b r delta) + 120))
  else do
    signed16 (← signed32 ((← hueOffset r g delta) + 240))

def rgbToHsv (rgb : RgbColor) : Option HsvColor := do
  let mx := rgb.largest
  let delta ← unsigned8 (← sub mx rgb.smallest)
  let s ←
    (if mx = 0 then
      some 0
    else do
      unsigned8 (← div (← unsigned32 (delta * 255)) mx))
  let h ←
    (if delta ≠ 0 then do
      let degrees ← unsigned16 (← natural (← hueDegrees rgb delta))
      let sum ← unsigned32 ((← unsigned32 (degrees * 255)) + 180)
      unsigned8 (← div sum 360)
    else
      some 0)
  some ⟨UInt8.ofNat h, UInt8.ofNat s, UInt8.ofNat mx⟩

end Checked

section Shades

variable {v reduction : Nat}

theorem shade_le (v reduction : Nat) : v * (255 - reduction) / 255 ≤ v := by
  apply Nat.div_le_of_le_mul
  rw [Nat.mul_comm]
  exact Nat.mul_le_mul_right v (Nat.sub_le 255 reduction)

theorem shade_antitone {larger : Nat} (ordered : reduction ≤ larger) :
    v * (255 - larger) / 255 ≤ v * (255 - reduction) / 255 :=
  Nat.div_le_div_right
    (Nat.mul_le_mul_left v (Nat.sub_le_sub_left ordered 255))

theorem Checked.shade_eq (small : v ≤ 255) (within : reduction ≤ 255) :
    Checked.shade v reduction = some (v * (255 - reduction) / 255) := by
  have product : v * (255 - reduction) ≤ 255 * 255 :=
    Nat.mul_le_mul small (Nat.sub_le 255 reduction)
  have shaded := shade_le v reduction
  apply step (sub_of_le within)
  apply step (unsigned32_of_lt (by omega))
  apply step (div_of_ne_zero (by decide) _)
  exact unsigned8_of_lt (by omega)

/-- A part of the saturation is at most the saturation. -/
theorem part_le {s part : Nat} (within : part ≤ 60) : s * part / 60 ≤ s := by
  apply Nat.div_le_of_le_mul
  rw [Nat.mul_comm 60]
  exact Nat.mul_le_mul_left s within

/-- The darkest shade takes the chroma off again. -/
theorem shade_saturation {delta : Nat} (positive : 0 < v) (small : v ≤ 255)
    (part : delta ≤ v) :
    v * (255 - delta * 255 / v) / 255 = v - delta := by
  have below := Nat.div_mul_le_self (delta * 255) v
  have above := Nat.lt_div_mul_add (a := delta * 255) positive
  generalize delta * 255 / v = s at below above
  have full : s ≤ 255 := by
    apply Nat.le_of_mul_le_mul_right _ positive
    rw [Nat.mul_comm] at below
    rw [Nat.mul_comm]
    exact Nat.le_trans below (by omega)
  rw [Nat.mul_sub, Nat.mul_comm v s]
  apply Nat.div_eq_of_lt_le <;> omega

theorem toNat_shade (v : UInt8) (reduction : Nat) :
    (UInt8.ofNat (v.toNat * (255 - reduction) / 255)).toNat =
      v.toNat * (255 - reduction) / 255 := by
  have shaded := shade_le v.toNat reduction
  have bounded := v.toNat_lt
  rw [UInt8.toNat_ofNat']
  exact Nat.mod_eq_of_lt (by omega)

end Shades

/-- The channels of a converted color are the value, the darkest shade and a
shade between them. -/
theorem hsvToRgb_channels (hsv : HsvColor) :
    (hsvToRgb hsv).largest = hsv.v.toNat ∧
      (hsvToRgb hsv).smallest =
        hsv.v.toNat * (255 - hsv.s.toNat) / 255 := by
  unfold hsvToRgb
  by_cases gray : hsv.s = 0
  · rw [if_pos gray, gray]
    simp [RgbColor.largest, RgbColor.smallest]
  · rw [if_neg gray]
    simp only
    generalize
      (if hsv.h.toNat * 360 / 255 ≥ 360 then 0
        else hsv.h.toNat * 360 / 255 / 60) = sector
    have fraction :
        (if hsv.h.toNat * 360 / 255 ≥ 360 then 0
          else hsv.h.toNat * 360 / 255 % 60) ≤ 60 := by
      split <;> omega
    generalize
      (if hsv.h.toNat * 360 / 255 ≥ 360 then 0
        else hsv.h.toNat * 360 / 255 % 60) = f at fraction
    have darkest := toNat_shade hsv.v hsv.s.toNat
    have falling := toNat_shade hsv.v (hsv.s.toNat * f / 60)
    have rising := toNat_shade hsv.v (hsv.s.toNat * (60 - f) / 60)
    have pv := shade_le hsv.v.toNat hsv.s.toNat
    have qv := shade_le hsv.v.toNat (hsv.s.toNat * f / 60)
    have tv := shade_le hsv.v.toNat (hsv.s.toNat * (60 - f) / 60)
    have pq :=
      @shade_antitone hsv.v.toNat _ _ (@part_le hsv.s.toNat f fraction)
    have pt :=
      @shade_antitone hsv.v.toNat _ _
        (@part_le hsv.s.toNat (60 - f) (Nat.sub_le 60 f))
    unfold RgbColor.largest RgbColor.smallest
    split <;> simp only [darkest, falling, rising] <;> omega

theorem Checked.hsvToRgb_eq (hsv : HsvColor) :
    Checked.hsvToRgb hsv = some (PrismKit.hsvToRgb hsv) := by
  have hue := hsv.h.toNat_lt
  have saturation := hsv.s.toNat_lt
  have value := hsv.v.toNat_lt
  unfold Checked.hsvToRgb PrismKit.hsvToRgb
  by_cases gray : hsv.s = 0
  · rw [if_pos gray, if_pos gray]
  · rw [if_neg gray, if_neg gray]
    apply step (unsigned32_of_lt (by omega))
    apply step (div_of_ne_zero (by decide) _)
    apply step (unsigned16_of_lt (by omega))
    apply step (unsigned8_of_lt (by split <;> omega))
    apply step (unsigned8_of_lt (by split <;> omega))
    simp only
    have fraction :
        (if hsv.h.toNat * 360 / 255 ≥ 360 then 0
          else hsv.h.toNat * 360 / 255 % 60) ≤ 60 := by
      split <;> omega
    generalize
      (if hsv.h.toNat * 360 / 255 ≥ 360 then 0
        else hsv.h.toNat * 360 / 255 % 60) = f at fraction
    have qPart := @part_le hsv.s.toNat f fraction
    have tPart := @part_le hsv.s.toNat (60 - f) (Nat.sub_le 60 f)
    have qProduct : hsv.s.toNat * f ≤ 255 * 60 :=
      Nat.mul_le_mul (by omega) fraction
    have tProduct : hsv.s.toNat * (60 - f) ≤ 255 * 60 :=
      Nat.mul_le_mul (by omega) (Nat.sub_le 60 f)
    apply step (Checked.shade_eq (by omega) (by omega))
    apply step (signed32_of_bounds (by omega) (by omega))
    apply step (natural_of_nonneg (Int.natCast_nonneg _))
    apply step (div_of_ne_zero (by decide) _)
    rw [Int.toNat_natCast]
    apply step (Checked.shade_eq (by omega) (by omega))
    apply step (sub_of_le fraction)
    apply step (unsigned32_of_lt (by omega))
    apply step (div_of_ne_zero (by decide) _)
    apply step (Checked.shade_eq (by omega) (by omega))
    rfl

theorem smallest_le_largest (rgb : RgbColor) :
    rgb.smallest ≤ rgb.largest := by
  unfold RgbColor.smallest RgbColor.largest
  omega

theorem largest_le (rgb : RgbColor) : rgb.largest ≤ 255 := by
  have r := rgb.red.toNat_lt
  have g := rgb.green.toNat_lt
  have b := rgb.blue.toNat_lt
  unfold RgbColor.largest
  omega

/-- The saturation is at most full. -/
theorem saturation_le {mx delta : Nat} (part : delta ≤ mx) :
    delta * 255 / mx ≤ 255 := by
  apply Nat.div_le_of_le_mul
  exact Nat.mul_le_mul_right 255 part

theorem rgbToHsv_v (rgb : RgbColor) :
    (rgbToHsv rgb).v.toNat = rgb.largest := by
  have bounded := largest_le rgb
  change (UInt8.ofNat rgb.largest).toNat = _
  rw [UInt8.toNat_ofNat']
  omega

theorem rgbToHsv_s (rgb : RgbColor) :
    (rgbToHsv rgb).s.toNat =
      (rgb.largest - rgb.smallest) * 255 / rgb.largest := by
  have bounded :=
    @saturation_le rgb.largest (rgb.largest - rgb.smallest) (Nat.sub_le _ _)
  unfold rgbToHsv
  simp only
  split
  · rename_i black
    rw [black, Nat.div_zero]
    rfl
  · rw [UInt8.toNat_ofNat']
    exact Nat.mod_eq_of_lt (by omega)

/-- The value and the smallest channel survive the way there and back. -/
theorem roundTrip_channels (rgb : RgbColor) :
    (hsvToRgb (rgbToHsv rgb)).largest = rgb.largest ∧
      (hsvToRgb (rgbToHsv rgb)).smallest = rgb.smallest := by
  have channels := hsvToRgb_channels (rgbToHsv rgb)
  have ordered := smallest_le_largest rgb
  rw [rgbToHsv_v, rgbToHsv_s] at channels
  refine ⟨channels.1, channels.2.trans ?_⟩
  rcases Nat.eq_zero_or_pos rgb.largest with black | positive
  · rw [black, Nat.zero_mul, Nat.zero_div]
    omega
  · rw [shade_saturation positive (largest_le rgb) (Nat.sub_le _ _)]
    omega

/-- A color between its extreme channels is gray if these are equal. -/
theorem eq_gray {rgb : RgbColor} {value : UInt8}
    (largest : rgb.largest = value.toNat)
    (smallest : rgb.smallest = value.toNat) :
    rgb = ⟨value, value, value⟩ := by
  unfold RgbColor.largest at largest
  unfold RgbColor.smallest at smallest
  obtain ⟨red, green, blue⟩ := rgb
  simp only at largest smallest
  congr 1 <;> apply UInt8.toNat_inj.mp <;> omega

/-! ### The hue -/

section Hue

variable {toward away delta : Nat}

/-- Within the chroma, the offset is at most a sector. -/
theorem hueOffset_bounds
    (near : ((toward : Int) - away).natAbs ≤ delta) :
    (hueOffset toward away delta).natAbs ≤ 60 := by
  unfold hueOffset
  rw [Int.natAbs_tdiv, Int.natAbs_mul, Int.natAbs_natCast]
  apply Nat.div_le_of_le_mul
  exact Nat.mul_le_mul_right 60 near

theorem Checked.hueOffset_eq (positive : 0 < delta) (small : delta ≤ 255)
    (near : ((toward : Int) - away).natAbs ≤ delta) :
    Checked.hueOffset toward away delta =
      some (PrismKit.hueOffset toward away delta) := by
  have nonzero : (delta : Int) ≠ 0 := by omega
  apply step (signed32_of_natAbs near (by omega))
  apply step (signed32_of_bounds (by omega) (by omega))
  exact tdiv_of_ne_zero nonzero _

/-- The offset between any two channels is within the chroma. -/
theorem channels_near (rgb : RgbColor) :
    ((rgb.green.toNat : Int) - rgb.blue.toNat).natAbs ≤
        rgb.largest - rgb.smallest ∧
      ((rgb.blue.toNat : Int) - rgb.red.toNat).natAbs ≤
        rgb.largest - rgb.smallest ∧
      ((rgb.red.toNat : Int) - rgb.green.toNat).natAbs ≤
        rgb.largest - rgb.smallest := by
  unfold RgbColor.largest RgbColor.smallest
  omega

theorem bmod_degrees {degrees : Int} (near : degrees.natAbs ≤ 360) :
    degrees.bmod 65536 = degrees :=
  Int.bmod_eq_of_le (by omega) (by omega)

/-- The hue of a color with chroma is an angle of the circle, and no step on
the way to it overflows. -/
theorem hueDegrees_spec {rgb : RgbColor}
    (colored : 0 < rgb.largest - rgb.smallest) :
    (0 ≤ hueDegrees rgb ∧ hueDegrees rgb < 360) ∧
      Checked.hueDegrees rgb (rgb.largest - rgb.smallest) =
        some (hueDegrees rgb) := by
  have bounded := largest_le rgb
  have small : rgb.largest - rgb.smallest ≤ 255 := by omega
  obtain ⟨nearRed, nearGreen, nearBlue⟩ := channels_near rgb
  unfold Checked.hueDegrees hueDegrees
  simp only
  split
  · have offset := hueOffset_bounds nearRed
    have offset_eq := Checked.hueOffset_eq colored small nearRed
    rw [bmod_degrees (by omega)]
    constructor
    · split
      · rw [bmod_degrees (by omega)]
        omega
      · omega
    · apply step offset_eq
      apply step (signed16_of_bounds (by omega) (by omega))
      split
      · rw [bmod_degrees (by omega)]
        apply step (signed32_of_bounds (by omega) (by omega))
        exact signed16_of_bounds (by omega) (by omega)
      · rfl
  · split
    · have offset := hueOffset_bounds nearGreen
      have offset_eq := Checked.hueOffset_eq colored small nearGreen
      rw [bmod_degrees (by omega)]
      constructor
      · omega
      · apply step offset_eq
        apply step (signed32_of_bounds (by omega) (by omega))
        exact signed16_of_bounds (by omega) (by omega)
    · have offset := hueOffset_bounds nearBlue
      have offset_eq := Checked.hueOffset_eq colored small nearBlue
      rw [bmod_degrees (by omega)]
      constructor
      · omega
      · apply step offset_eq
        apply step (signed32_of_bounds (by omega) (by omega))
        exact signed16_of_bounds (by omega) (by omega)

end Hue

theorem Checked.saturation_eq (rgb : RgbColor) :
    (if rgb.largest = 0 then
      some 0
    else do
      unsigned8
        (← div (← unsigned32 ((rgb.largest - rgb.smallest) * 255))
          rgb.largest)) =
      some (PrismKit.rgbToHsv rgb).s.toNat := by
  have bounded := largest_le rgb
  have full :=
    @saturation_le rgb.largest (rgb.largest - rgb.smallest) (Nat.sub_le _ _)
  rw [rgbToHsv_s]
  split
  · rename_i black
    rw [black, Nat.div_zero]
  · rename_i positive
    apply step (unsigned32_of_lt (by omega))
    apply step (div_of_ne_zero positive _)
    exact unsigned8_of_lt (Nat.lt_succ_of_le full)

theorem Checked.hue_eq (rgb : RgbColor) :
    (if rgb.largest - rgb.smallest ≠ 0 then do
      let degrees ←
        unsigned16
          (← natural
            (← Checked.hueDegrees rgb (rgb.largest - rgb.smallest)))
      let sum ← unsigned32 ((← unsigned32 (degrees * 255)) + 180)
      unsigned8 (← div sum 360)
    else
      some 0) =
      some (PrismKit.rgbToHsv rgb).h.toNat := by
  unfold PrismKit.rgbToHsv
  simp only
  split
  · rename_i colored
    obtain ⟨bounds, hue⟩ := hueDegrees_spec (Nat.pos_of_ne_zero colored)
    have positive :
        (PrismKit.hueDegrees rgb % 65536).toNat =
          (PrismKit.hueDegrees rgb).toNat := by omega
    apply step hue
    apply step (natural_of_nonneg bounds.1)
    apply step (unsigned16_of_lt (by omega))
    apply step (unsigned32_of_lt (by omega))
    apply step (unsigned32_of_lt (by omega))
    apply step (div_of_ne_zero (by decide) _)
    rw [positive, UInt8.toNat_ofNat', Nat.mod_eq_of_lt (by omega)]
    exact unsigned8_of_lt (by omega)
  · rfl

/-- No step of the conversion overflows, and no divisor is zero. -/
theorem Checked.rgbToHsv_eq (rgb : RgbColor) :
    Checked.rgbToHsv rgb = some (PrismKit.rgbToHsv rgb) := by
  have bounded := largest_le rgb
  have held : UInt8.ofNat rgb.largest = (PrismKit.rgbToHsv rgb).v := rfl
  apply step (sub_of_le (smallest_le_largest rgb))
  apply step (unsigned8_of_lt (by omega))
  apply step (Checked.saturation_eq rgb)
  apply step (Checked.hue_eq rgb)
  rw [UInt8.ofNat_toNat, UInt8.ofNat_toNat, held]

/-- The way from RGB to HSV and back keeps the value and the chroma: the
largest and the smallest channel are those of the color, a gray comes back
unchanged, and both conversions are exact in their types. -/
theorem hsv_roundTrip :
    (∀ rgb : RgbColor,
      (hsvToRgb (rgbToHsv rgb)).largest = rgb.largest ∧
      (hsvToRgb (rgbToHsv rgb)).smallest = rgb.smallest ∧
      Checked.rgbToHsv rgb = some (rgbToHsv rgb)) ∧
    (∀ v : UInt8, hsvToRgb (rgbToHsv ⟨v, v, v⟩) = ⟨v, v, v⟩) ∧
    ∀ hsv : HsvColor, Checked.hsvToRgb hsv = some (hsvToRgb hsv) := by
  refine ⟨?_, ?_, Checked.hsvToRgb_eq⟩
  · intro rgb
    obtain ⟨largest, smallest⟩ := roundTrip_channels rgb
    exact ⟨largest, smallest, Checked.rgbToHsv_eq rgb⟩
  · intro v
    obtain ⟨largest, smallest⟩ := roundTrip_channels ⟨v, v, v⟩
    apply eq_gray
    · rw [largest]
      simp [RgbColor.largest]
    · rw [smallest]
      simp [RgbColor.smallest]

end PrismKit
