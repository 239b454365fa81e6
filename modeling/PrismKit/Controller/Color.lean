import Mathlib.Data.Nat.Init

/-!
# Logical colors

`color.hpp`: the RGB and HSV triples and the integer HSV-to-RGB conversion the
HSV instructions use.
-/

namespace PrismKit

/-- Logical RGB color owned by the strip interfaces. -/
structure RgbColor where
  red : UInt8
  green : UInt8
  blue : UInt8
  deriving DecidableEq, Repr

/-- Hue-saturation-value color; hue 0-255 stands for 0-360 degrees. -/
structure HsvColor where
  h : UInt8
  s : UInt8
  v : UInt8
  deriving DecidableEq, Repr

/-- `HsvToRgb`. Every intermediate is a C++ unsigned value below `2 ^ 32`; the
narrowing casts are the `UInt8.ofNat` applications. -/
def hsvToRgb (hsv : HsvColor) : RgbColor :=
  if hsv.s = 0 then
    ⟨hsv.v, hsv.v, hsv.v⟩
  else
    let scaledH := hsv.h.toNat * 360 / 255
    let sector := if scaledH ≥ 360 then 0 else scaledH / 60
    let f := if scaledH ≥ 360 then 0 else scaledH % 60
    let v := hsv.v.toNat
    let s := hsv.s.toNat
    let p := UInt8.ofNat (v * (255 - s) / 255)
    let q := UInt8.ofNat (v * (255 - s * f / 60) / 255)
    let t := UInt8.ofNat (v * (255 - s * (60 - f) / 60) / 255)
    match sector with
    | 0 => ⟨hsv.v, t, p⟩
    | 1 => ⟨q, hsv.v, p⟩
    | 2 => ⟨p, hsv.v, t⟩
    | 3 => ⟨p, q, hsv.v⟩
    | 4 => ⟨t, p, hsv.v⟩
    | _ => ⟨hsv.v, p, q⟩

end PrismKit
