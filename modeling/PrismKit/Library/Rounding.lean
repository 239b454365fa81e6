import Mathlib.Data.Nat.Init
import Mathlib.Tactic.Linarith

/-!
# Rounded division and interpolation

Quotients of natural numbers rounded to the nearest integer, and the values on
a straight line between two numbers in whole steps.
-/

namespace PrismKit.Library

/-- The quotient rounded to the nearest integer, halves up. -/
def roundDiv (numerator denominator : Nat) : Nat :=
  (numerator + denominator / 2) / denominator

/-- An exact quotient is not changed by the rounding. -/
theorem roundDiv_mul_left {denominator : Nat} (positive : 0 < denominator)
    (value : Nat) : roundDiv (denominator * value) denominator = value := by
  have half : denominator / 2 < denominator :=
    Nat.div_lt_self positive Nat.one_lt_two
  unfold roundDiv
  rw [Nat.add_comm, Nat.add_mul_div_left _ _ positive,
    Nat.div_eq_of_lt half, Nat.zero_add]

theorem roundDiv_le_roundDiv {numerator larger : Nat}
    (ordered : numerator ≤ larger) (denominator : Nat) :
    roundDiv numerator denominator ≤ roundDiv larger denominator :=
  Nat.div_le_div_right (Nat.add_le_add_right ordered _)

/-- A numerator below a multiple has a rounded quotient below the factor. -/
theorem roundDiv_le {numerator denominator value : Nat}
    (positive : 0 < denominator) (bounded : numerator ≤ denominator * value) :
    roundDiv numerator denominator ≤ value := by
  have ordered := roundDiv_le_roundDiv bounded denominator
  rw [roundDiv_mul_left positive] at ordered
  exact ordered

theorem roundDiv_zero (numerator : Nat) : roundDiv numerator 0 = 0 :=
  Nat.div_zero _

theorem roundDiv_add_mul {denominator : Nat} (positive : 0 < denominator)
    (numerator factor : Nat) :
    roundDiv (numerator + denominator * factor) denominator =
      roundDiv numerator denominator + factor := by
  unfold roundDiv
  rw [Nat.add_right_comm, Nat.add_mul_div_left _ _ positive]

/-- Of a numerator below the denominator, only the half decides. -/
theorem roundDiv_of_lt {numerator denominator : Nat}
    (small : numerator < denominator) :
    roundDiv numerator denominator =
      if numerator * 2 ≥ denominator then 1 else 0 := by
  unfold roundDiv
  split
  · apply Nat.div_eq_of_lt_le <;> omega
  · apply Nat.div_eq_of_lt
    omega

/-- The whole quotient and the rounding of its remainder. -/
theorem roundDiv_eq {denominator : Nat} (positive : 0 < denominator)
    (numerator : Nat) :
    roundDiv numerator denominator =
      numerator / denominator +
        if numerator % denominator * 2 ≥ denominator then 1 else 0 := by
  have split := Nat.mod_add_div numerator denominator
  rw [← roundDiv_of_lt (Nat.mod_lt numerator positive), Nat.add_comm,
    ← roundDiv_add_mul positive, split]

theorem rest_of_multiple {rest denominator lower upper : Nat}
    (small : rest < denominator)
    (sum : rest + denominator * lower = denominator * upper) :
    rest = 0 ∧ lower = upper := by
  have same := congrArg (· % denominator) sum
  simp only [Nat.add_mul_mod_self_left, Nat.mul_mod_right,
    Nat.mod_eq_of_lt small] at same
  rw [same, Nat.zero_add] at sum
  exact ⟨same, Nat.eq_of_mul_eq_mul_left (by omega) sum⟩

/-- The two parts of a multiple round to the factor, or both round up. -/
theorem roundDiv_complement {left right factor denominator : Nat}
    (positive : 0 < denominator)
    (parts : left + right = denominator * factor) :
    roundDiv left denominator + roundDiv right denominator = factor ∨
      roundDiv left denominator + roundDiv right denominator =
        factor + 1 := by
  have leftSmall := Nat.mod_lt left positive
  have rightSmall := Nat.mod_lt right positive
  have leftSplit := Nat.mod_add_div left denominator
  have rightSplit := Nat.mod_add_div right denominator
  rw [roundDiv_eq positive, roundDiv_eq positive]
  generalize left % denominator = leftRest at *
  generalize right % denominator = rightRest at *
  generalize left / denominator = leftFactor at *
  generalize right / denominator = rightFactor at *
  have sum :
      leftRest + rightRest + denominator * (leftFactor + rightFactor) =
        denominator * factor := by
    rw [Nat.mul_add, ← parts]
    omega
  -- The remainders add up to nothing or to one denominator.
  rcases Nat.lt_or_ge (leftRest + rightRest) denominator with short | long
  · have exact := rest_of_multiple short sum
    left
    rw [if_neg (by omega), if_neg (by omega)]
    omega
  · have carried :
        leftRest + rightRest - denominator +
            denominator * (leftFactor + rightFactor + 1) =
          denominator * factor := by
      rw [Nat.mul_add, Nat.mul_one]
      omega
    have exact := rest_of_multiple (by omega) carried
    split <;> split <;> omega

/-- The quotient is a nearest one. -/
theorem roundDiv_near {denominator : Nat} (positive : 0 < denominator)
    (numerator : Nat) :
    2 * (denominator * roundDiv numerator denominator) ≤
        2 * numerator + denominator ∧
      2 * numerator ≤
        2 * (denominator * roundDiv numerator denominator) + denominator := by
  have below := Nat.mul_div_le (numerator + denominator / 2) denominator
  have above := Nat.lt_mul_div_succ (numerator + denominator / 2) positive
  unfold roundDiv
  rw [Nat.mul_add, Nat.mul_one] at above
  omega

/-- The cube of a fixed-point number with `scale` steps to the unit, rounded
after each of its two products. -/
def roundedCube (scale value : Nat) : Nat :=
  roundDiv (roundDiv (value * value) scale * value) scale

/-- The error of the square counts once for each unit of the value, that of
the second product once. -/
theorem roundedCube_near {scale : Nat} (positive : 0 < scale) (value : Nat) :
    2 * (scale * (scale * roundedCube scale value)) ≤
        2 * (value * value * value) + scale * value + scale * scale ∧
      2 * (value * value * value) ≤
        2 * (scale * (scale * roundedCube scale value)) + scale * value +
          scale * scale := by
  unfold roundedCube
  have square := roundDiv_near positive (value * value)
  generalize roundDiv (value * value) scale = squared at *
  have cube := roundDiv_near positive (squared * value)
  generalize roundDiv (squared * value) scale = cubed at *
  have lower := Nat.mul_le_mul_right value square.1
  have upper := Nat.mul_le_mul_right value square.2
  have scaledLower := Nat.mul_le_mul_left scale cube.1
  have scaledUpper := Nat.mul_le_mul_left scale cube.2
  constructor <;> linarith

/-- The value after `elapsed` of `duration` steps from `start` to `target`. -/
def blend (start target duration elapsed : Nat) : Nat :=
  if start ≤ target then
    start + roundDiv ((target - start) * elapsed) duration
  else
    start - roundDiv ((start - target) * elapsed) duration

section Blend

variable {start target duration : Nat}

theorem covered_le {distance elapsed : Nat} (positive : 0 < duration)
    (within : elapsed ≤ duration) :
    roundDiv (distance * elapsed) duration ≤ distance := by
  apply roundDiv_le positive
  rw [Nat.mul_comm duration]
  exact Nat.mul_le_mul_left distance within

theorem covered_mono {distance elapsed later : Nat}
    (ordered : elapsed ≤ later) :
    roundDiv (distance * elapsed) duration ≤
      roundDiv (distance * later) duration :=
  roundDiv_le_roundDiv (Nat.mul_le_mul_left distance ordered) duration

theorem blend_of_le (rising : start ≤ target) (elapsed : Nat) :
    blend start target duration elapsed =
      start + roundDiv ((target - start) * elapsed) duration :=
  if_pos rising

theorem blend_of_lt (falling : target < start) (elapsed : Nat) :
    blend start target duration elapsed =
      start - roundDiv ((start - target) * elapsed) duration :=
  if_neg (Nat.not_le.mpr falling)

/-- All values lie between the endpoints. -/
theorem blend_between {elapsed : Nat} (positive : 0 < duration)
    (within : elapsed ≤ duration) :
    min start target ≤ blend start target duration elapsed ∧
      blend start target duration elapsed ≤ max start target := by
  rcases Nat.lt_or_ge target start with falling | rising
  · have covered :=
      @covered_le duration (start - target) elapsed positive within
    rw [blend_of_lt falling]
    omega
  · have covered :=
      @covered_le duration (target - start) elapsed positive within
    rw [blend_of_le rising]
    omega

theorem blend_mono {elapsed later : Nat} (rising : start ≤ target)
    (ordered : elapsed ≤ later) :
    blend start target duration elapsed ≤
      blend start target duration later := by
  rw [blend_of_le rising, blend_of_le rising]
  exact Nat.add_le_add_left (covered_mono ordered) start

theorem blend_antitone {elapsed later : Nat} (falling : target < start)
    (ordered : elapsed ≤ later) :
    blend start target duration later ≤
      blend start target duration elapsed := by
  rw [blend_of_lt falling, blend_of_lt falling]
  exact Nat.sub_le_sub_left (covered_mono ordered) start

end Blend

end PrismKit.Library
