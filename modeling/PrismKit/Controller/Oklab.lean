import PrismKit.Controller.Color

/-!
# Fixed-point OKLab conversion

The integer pipeline of `oklab.cpp`. Unsigned C++ values are natural numbers
and signed ones integers; each narrowing cast is written out (`% 65536` for
`uint16_t`, `int16` for `int16_t`), and the C++ division of signed values is
`Int.tdiv`.
-/

namespace PrismKit.Oklab

/-- Rectangular OKLab coordinates in signed Q2.13. -/
structure OklabColor where
  l : Int
  a : Int
  b : Int
  deriving DecidableEq, Repr

def q13One : Int := 8192

def q12CoefficientScale : Int := 4096

/-- Conversion to a two's complement 16-bit value. -/
def int16 (value : Int) : Int :=
  value.bmod 65536

/-- sRGB decode values in unsigned Q0.16. -/
def srgbToLinearQ16 : List Nat := [
  0, 20, 40, 60, 80, 99, 119, 139, 159, 179,
  199, 219, 241, 264, 288, 313, 340, 367, 396, 427,
  458, 491, 526, 562, 599, 637, 677, 718, 761, 805,
  851, 898, 947, 997, 1048, 1101, 1156, 1212, 1270, 1330,
  1391, 1453, 1517, 1583, 1651, 1720, 1790, 1863, 1937, 2013,
  2090, 2170, 2250, 2333, 2418, 2504, 2592, 2681, 2773, 2866,
  2961, 3058, 3157, 3258, 3360, 3464, 3570, 3678, 3788, 3900,
  4014, 4129, 4247, 4366, 4488, 4611, 4736, 4864, 4993, 5124,
  5257, 5392, 5530, 5669, 5810, 5953, 6099, 6246, 6395, 6547,
  6700, 6856, 7014, 7174, 7335, 7500, 7666, 7834, 8004, 8177,
  8352, 8528, 8708, 8889, 9072, 9258, 9445, 9635, 9828, 10022,
  10219, 10417, 10619, 10822, 11028, 11235, 11446, 11658, 11873, 12090,
  12309, 12530, 12754, 12980, 13209, 13440, 13673, 13909, 14146, 14387,
  14629, 14874, 15122, 15371, 15623, 15878, 16135, 16394, 16656, 16920,
  17187, 17456, 17727, 18001, 18277, 18556, 18837, 19121, 19407, 19696,
  19987, 20281, 20577, 20876, 21177, 21481, 21787, 22096, 22407, 22721,
  23038, 23357, 23678, 24002, 24329, 24658, 24990, 25325, 25662, 26001,
  26344, 26688, 27036, 27386, 27739, 28094, 28452, 28813, 29176, 29542,
  29911, 30282, 30656, 31033, 31412, 31794, 32179, 32567, 32957, 33350,
  33745, 34143, 34544, 34948, 35355, 35764, 36176, 36591, 37008, 37429,
  37852, 38278, 38706, 39138, 39572, 40009, 40449, 40891, 41337, 41785,
  42236, 42690, 43147, 43606, 44069, 44534, 45002, 45473, 45947, 46423,
  46903, 47385, 47871, 48359, 48850, 49344, 49841, 50341, 50844, 51349,
  51858, 52369, 52884, 53401, 53921, 54445, 54971, 55500, 56032, 56567,
  57105, 57646, 58190, 58737, 59287, 59840, 60396, 60955, 61517, 62082,
  62650, 63221, 63795, 64372, 64952, 65535]

/-- Read the decode table. -/
def srgbToLinear (code : Nat) : Nat :=
  srgbToLinearQ16[code]?.getD 0

/-- `MultiplyQ16`: rounded product of two Q0.16 values. -/
def multiplyQ16 (lhs rhs : Nat) : Nat :=
  let product := lhs * rhs
  let result := product / 65536 + (if product % 65536 ≥ 32768 then 1 else 0)
  if result > 65535 then 65535 else result

/-- `SumQ16Products` for one matrix row. -/
def sumQ16Products (coefficients : Nat × Nat × Nat) (x y z : Nat) : Nat :=
  let sum :=
    multiplyQ16 coefficients.1 x + multiplyQ16 coefficients.2.1 y +
      multiplyQ16 coefficients.2.2 z
  if sum > 65535 then 65535 else sum

def cubeQ16 (value : Nat) : Nat :=
  multiplyQ16 (multiplyQ16 value value) value

/-- The bisection of `CubeRootQ16`; the interval shrinks in every iteration,
so its length is enough fuel. -/
def cubeRootSearch (value : Nat) : Nat → Nat → Nat → Nat
  | 0, low, _ => low
  | fuel + 1, low, high =>
      if low < high then
        let middle := low + (high - low) / 2
        if cubeQ16 (middle % 65536) < value then
          cubeRootSearch value fuel (middle + 1) high
        else
          cubeRootSearch value fuel low middle
      else
        low

/-- `CubeRootQ16`: nearest representable cube root. -/
def cubeRootQ16 (value : Nat) : Nat :=
  let low := cubeRootSearch value 65535 0 65535
  let upper := low % 65536
  let lower := (if low = 0 then 0 else low - 1) % 65536
  let upperCube := cubeQ16 upper
  let lowerCube := cubeQ16 lower
  if upperCube < value then
    upper
  else if value - lowerCube ≤ upperCube - value then
    lower
  else
    upper

/-- `RoundDivideSigned`: division rounding halves away from zero. -/
def roundDivideSigned (numerator denominator : Int) : Int :=
  if numerator ≥ 0 then
    (numerator + denominator.tdiv 2).tdiv denominator
  else
    -((-numerator + denominator.tdiv 2).tdiv denominator)

/-- The dot product behind `Dot3Q13` and `Dot3Q12CoefficientsToQ13`, which
differ in the coefficient scale they divide out. -/
def dot3 (scale : Int) (coefficients : Int × Int × Int) (x y z : Int) : Int :=
  roundDivideSigned
    (coefficients.1 * x + coefficients.2.1 * y + coefficients.2.2 * z) scale

def dot3Q13 : Int × Int × Int → Int → Int → Int → Int :=
  dot3 q13One

def dot3Q12CoefficientsToQ13 : Int × Int × Int → Int → Int → Int → Int :=
  dot3 q12CoefficientScale

def cubeQ13 (value : Int) : Int :=
  let square := (value * value + q13One.tdiv 2).tdiv q13One
  (square * value + q13One.tdiv 2).tdiv q13One

def clampQ13Root (value : Int) : Int :=
  if value < 0 then 0 else if value > q13One then q13One else value

/-- The lower-bound search of `EncodeSrgbQ13`. -/
def encodeSearch (targetQ16 : Nat) : Nat → Nat → Nat → Nat
  | 0, low, _ => low
  | fuel + 1, low, high =>
      if low < high then
        let middle := low + (high - low) / 2
        if srgbToLinear middle < targetQ16 then
          encodeSearch targetQ16 fuel (middle + 1) high
        else
          encodeSearch targetQ16 fuel low middle
      else
        low

/-- `EncodeSrgbQ13`: nearest decoded-linear table entry, ties to the lower. -/
def encodeSrgbQ13 (linear : Int) : UInt8 :=
  let targetQ16 := (linear % 4294967296).toNat * 8 % 4294967296
  let low := encodeSearch targetQ16 256 0 256
  if low = 0 then
    0
  else if low ≥ 256 then
    255
  else
    let lowerDistance := targetQ16 - srgbToLinear (low - 1)
    let upperDistance := srgbToLinear low - targetQ16
    UInt8.ofNat (if lowerDistance ≤ upperDistance then low - 1 else low)

def interpolateMagnitude (magnitude elapsedMs durationMs : Nat) : Nat :=
  let whole := magnitude / durationMs
  let remainder := magnitude % durationMs
  let partialProduct := remainder * elapsedMs
  let result := whole * elapsedMs + partialProduct / durationMs
  let fractionalRemainder := partialProduct % durationMs
  if fractionalRemainder * 2 ≥ durationMs then result + 1 else result

def interpolateComponent (source target : Int) (elapsedMs durationMs : Nat) :
    Int :=
  if durationMs = 0 ∨ elapsedMs ≥ durationMs then
    target
  else if elapsedMs = 0 then
    source
  else
    let difference := target - source
    let change : Int :=
      interpolateMagnitude difference.natAbs elapsedMs durationMs
    int16 (if difference < 0 then source - change else source + change)

def toOklab (rgb : RgbColor) : OklabColor :=
  let r := srgbToLinear rgb.red.toNat
  let g := srgbToLinear rgb.green.toNat
  let b := srgbToLinear rgb.blue.toNat
  let l := sumQ16Products (27015, 35149, 3372) r g b
  let m := sumQ16Products (13887, 44610, 7038) r g b
  let s := sumQ16Products (5787, 18463, 41286) r g b
  let lRoot : Int := ((cubeRootQ16 l + 4) / 8 : Nat)
  let mRoot : Int := ((cubeRootQ16 m + 4) / 8 : Nat)
  let sRoot : Int := ((cubeRootQ16 s + 4) / 8 : Nat)
  ⟨int16 (dot3Q13 (1724, 6501, -33) lRoot mRoot sRoot),
    int16 (dot3Q13 (16204, -19895, 3691) lRoot mRoot sRoot),
    int16 (dot3Q13 (212, 6412, -6625) lRoot mRoot sRoot)⟩

def fromOklab (lab : OklabColor) : RgbColor :=
  let lRoot := clampQ13Root (dot3Q13 (8192, 3247, 1768) lab.l lab.a lab.b)
  let mRoot := clampQ13Root (dot3Q13 (8192, -865, -523) lab.l lab.a lab.b)
  let sRoot := clampQ13Root (dot3Q13 (8192, -733, -10580) lab.l lab.a lab.b)
  let l := cubeQ13 lRoot
  let m := cubeQ13 mRoot
  let s := cubeQ13 sRoot
  let red :=
    clampQ13Root (dot3Q12CoefficientsToQ13 (16698, -13548, 946) l m s)
  let green :=
    clampQ13Root (dot3Q12CoefficientsToQ13 (-5196, 10690, -1398) l m s)
  let blue :=
    clampQ13Root (dot3Q12CoefficientsToQ13 (-17, -2881, 6994) l m s)
  ⟨encodeSrgbQ13 red, encodeSrgbQ13 green, encodeSrgbQ13 blue⟩

/-- `Interpolate` in OKLab, exact at both endpoints. -/
def interpolate (source target : OklabColor) (elapsedMs durationMs : UInt16) :
    OklabColor :=
  if durationMs = 0 ∨ elapsedMs ≥ durationMs then
    target
  else if elapsedMs = 0 then
    source
  else
    ⟨interpolateComponent source.l target.l elapsedMs.toNat durationMs.toNat,
      interpolateComponent source.a target.a elapsedMs.toNat durationMs.toNat,
      interpolateComponent source.b target.b elapsedMs.toNat durationMs.toNat⟩

/-- `InterpolateRgb`: the one-shot interpolation of two colors, exact at both
endpoints. -/
def interpolateRgb (source target : RgbColor) (elapsedMs durationMs : UInt16) :
    RgbColor :=
  if durationMs = 0 ∨ elapsedMs ≥ durationMs then
    target
  else if elapsedMs = 0 then
    source
  else
    fromOklab
      (interpolate (toOklab source) (toOklab target) elapsedMs durationMs)

end PrismKit.Oklab
