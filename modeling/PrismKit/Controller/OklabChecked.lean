import PrismKit.Controller.Oklab
import PrismKit.Library.Checked

/-!
# The OKLab conversion in checked arithmetic

The functions of `oklab.cpp` once more, with every sum, product, difference,
quotient, narrowing cast and table access of the source checked: a function
here has a value only where all the machine arithmetic behind it is exact.
-/

namespace PrismKit.Oklab.Checked

open Library.Checked

/-- An element of the decode table. -/
def srgbToLinear (code : Nat) : Option Nat :=
  srgbToLinearQ16[code]?

def multiplyQ16 (lhs rhs : Nat) : Option Nat := do
  let product ← unsigned32 (lhs * rhs)
  let result ←
    (if product % 65536 ≥ 32768 then
      unsigned32 (product / 65536 + 1)
    else
      some (product / 65536))
  unsigned16 (if result > 65535 then 65535 else result)

def sumQ16Products (coefficients : Nat × Nat × Nat) (x y z : Nat) :
    Option Nat := do
  let first ← multiplyQ16 coefficients.1 x
  let second ← multiplyQ16 coefficients.2.1 y
  let third ← multiplyQ16 coefficients.2.2 z
  let two ← unsigned32 (first + second)
  let sum ← unsigned32 (two + third)
  unsigned16 (if sum > 65535 then 65535 else sum)

def cubeQ16 (value : Nat) : Option Nat := do
  let square ← multiplyQ16 value value
  multiplyQ16 square value

/-- Running out of fuel before the interval is empty has no value either. -/
def cubeRootSearch (value : Nat) : Nat → Nat → Nat → Option Nat
  | 0, low, high => if low < high then none else some low
  | fuel + 1, low, high =>
      if low < high then do
        let distance ← sub high low
        let middle ← unsigned32 (low + distance / 2)
        let cube ← cubeQ16 (← unsigned16 middle)
        if cube < value then
          cubeRootSearch value fuel (← unsigned32 (middle + 1)) high
        else
          cubeRootSearch value fuel low middle
      else
        some low

def cubeRootQ16 (value : Nat) : Option Nat := do
  let low ← cubeRootSearch value 65535 0 65535
  let upper ← unsigned16 low
  let lower ← (if low = 0 then some 0 else sub low 1)
  let lower ← unsigned16 lower
  let upperCube ← cubeQ16 upper
  let lowerCube ← cubeQ16 lower
  if upperCube < value then
    some upper
  else
    let below ← sub value lowerCube
    let above ← sub upperCube value
    some (if below ≤ above then lower else upper)

def roundDivideSigned (numerator denominator : Int) : Option Int := do
  let half ← tdiv denominator 2
  if numerator ≥ 0 then
    tdiv (← signed32 (numerator + half)) denominator
  else
    let magnitude ← signed32 (-numerator)
    let quotient ← tdiv (← signed32 (magnitude + half)) denominator
    signed32 (-quotient)

def dot3 (scale : Int) (coefficients : Int × Int × Int) (x y z : Int) :
    Option Int := do
  let first ← signed32 (coefficients.1 * x)
  let second ← signed32 (coefficients.2.1 * y)
  let two ← signed32 (first + second)
  let third ← signed32 (coefficients.2.2 * z)
  let sum ← signed32 (two + third)
  roundDivideSigned sum scale

def dot3Q13 : Int × Int × Int → Int → Int → Int → Option Int :=
  dot3 q13One

def dot3Q12CoefficientsToQ13 :
    Int × Int × Int → Int → Int → Int → Option Int :=
  dot3 q12CoefficientScale

def cubeQ13 (value : Int) : Option Int := do
  let half ← tdiv q13One 2
  let product ← signed32 (value * value)
  let square ← tdiv (← signed32 (product + half)) q13One
  let product ← signed32 (square * value)
  tdiv (← signed32 (product + half)) q13One

def encodeSearch (targetQ16 : Nat) : Nat → Nat → Nat → Option Nat
  | 0, low, high => if low < high then none else some low
  | fuel + 1, low, high =>
      if low < high then do
        let distance ← sub high low
        let middle ← unsigned32 (low + distance / 2)
        let entry ← srgbToLinear middle
        if entry < targetQ16 then
          encodeSearch targetQ16 fuel (← unsigned32 (middle + 1)) high
        else
          encodeSearch targetQ16 fuel low middle
      else
        some low

def encodeSrgbQ13 (linear : Int) : Option UInt8 := do
  let targetQ16 ← unsigned32 ((← natural linear) * 8)
  let low ← encodeSearch targetQ16 256 0 256
  if low = 0 then
    some 0
  else if low ≥ 256 then
    some 255
  else
    let before ← sub low 1
    let lowerDistance ← sub targetQ16 (← srgbToLinear before)
    let upperDistance ← sub (← srgbToLinear low) targetQ16
    let nearest ←
      unsigned8 (if lowerDistance ≤ upperDistance then before else low)
    some (UInt8.ofNat nearest)

def interpolateMagnitude (magnitude elapsedMs durationMs : Nat) :
    Option Nat := do
  let whole ← div magnitude durationMs
  let remainder ← mod magnitude durationMs
  let partialProduct ← unsigned32 (remainder * elapsedMs)
  let covered ← unsigned32 (whole * elapsedMs)
  let result ← unsigned32 (covered + (← div partialProduct durationMs))
  let fractionalRemainder ← mod partialProduct durationMs
  let doubled ← unsigned32 (fractionalRemainder * 2)
  if doubled ≥ durationMs then unsigned32 (result + 1) else some result

def interpolateComponent (source target : Int) (elapsedMs durationMs : Nat) :
    Option Int :=
  if durationMs = 0 ∨ elapsedMs ≥ durationMs then
    some target
  else if elapsedMs = 0 then
    some source
  else do
    let difference ← signed32 (target - source)
    let magnitude ←
      (if difference < 0 then signed32 (-difference) else some difference)
    let change ←
      interpolateMagnitude (← natural magnitude) elapsedMs durationMs
    let change ← signed32 change
    let value ←
      (if difference < 0 then
        signed32 (source - change)
      else
        signed32 (source + change))
    signed16 value

/-- The rounded Q2.13 root of each of the three sums in `ToOklab`. -/
def rootQ13 (value : Nat) : Option Int := do
  let root ← cubeRootQ16 value
  let sum ← unsigned32 (root + 4)
  signed32 (sum / 8 : Nat)

def toOklab (rgb : RgbColor) : Option OklabColor := do
  let r ← srgbToLinear rgb.red.toNat
  let g ← srgbToLinear rgb.green.toNat
  let b ← srgbToLinear rgb.blue.toNat
  let l ← sumQ16Products (27015, 35149, 3372) r g b
  let m ← sumQ16Products (13887, 44610, 7038) r g b
  let s ← sumQ16Products (5787, 18463, 41286) r g b
  let lRoot ← rootQ13 l
  let mRoot ← rootQ13 m
  let sRoot ← rootQ13 s
  some
    ⟨← signed16 (← dot3Q13 (1724, 6501, -33) lRoot mRoot sRoot),
      ← signed16 (← dot3Q13 (16204, -19895, 3691) lRoot mRoot sRoot),
      ← signed16 (← dot3Q13 (212, 6412, -6625) lRoot mRoot sRoot)⟩

def fromOklab (lab : OklabColor) : Option RgbColor := do
  let lRoot := clampQ13Root (← dot3Q13 (8192, 3247, 1768) lab.l lab.a lab.b)
  let mRoot := clampQ13Root (← dot3Q13 (8192, -865, -523) lab.l lab.a lab.b)
  let sRoot :=
    clampQ13Root (← dot3Q13 (8192, -733, -10580) lab.l lab.a lab.b)
  let l ← cubeQ13 lRoot
  let m ← cubeQ13 mRoot
  let s ← cubeQ13 sRoot
  let red ← dot3Q12CoefficientsToQ13 (16698, -13548, 946) l m s
  let green ← dot3Q12CoefficientsToQ13 (-5196, 10690, -1398) l m s
  let blue ← dot3Q12CoefficientsToQ13 (-17, -2881, 6994) l m s
  some
    ⟨← encodeSrgbQ13 (clampQ13Root red),
      ← encodeSrgbQ13 (clampQ13Root green),
      ← encodeSrgbQ13 (clampQ13Root blue)⟩

def interpolate (source target : OklabColor) (elapsedMs durationMs : UInt16) :
    Option OklabColor :=
  if durationMs = 0 ∨ elapsedMs ≥ durationMs then
    some target
  else if elapsedMs = 0 then
    some source
  else do
    let elapsed := elapsedMs.toNat
    let duration := durationMs.toNat
    some
      ⟨← interpolateComponent source.l target.l elapsed duration,
        ← interpolateComponent source.a target.a elapsed duration,
        ← interpolateComponent source.b target.b elapsed duration⟩

end PrismKit.Oklab.Checked
