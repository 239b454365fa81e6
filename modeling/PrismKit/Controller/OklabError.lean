import PrismKit.Controller.OklabRange
import PrismKit.Library.Enclosure
import PrismKit.Library.Rounding
import Mathlib.Tactic.Ring

/-!
# The errors of the OKLab conversion

What the roundings of the pipeline leave of a color that is converted to OKLab
and back: the roots of the cone responses come back up to a few steps, and the
cubes of the returned roots are near the responses.
-/

namespace PrismKit.Oklab

open Library

section Cubes

variable {lhs rhs value larger : Nat}

theorem multiplyQ16_eq_min (lhs rhs : Nat) :
    multiplyQ16 lhs rhs = min (roundDiv (lhs * rhs) 65536) 65535 := by
  have half : lhs * rhs % 65536 * 2 ≥ 65536 ↔ lhs * rhs % 65536 ≥ 32768 := by
    omega
  rw [roundDiv_eq (by decide)]
  simp only [multiplyQ16, half]
  generalize lhs * rhs / 65536 +
    (if lhs * rhs % 65536 ≥ 32768 then 1 else 0) = rounded
  split <;> omega

theorem multiplyQ16_mono {left right : Nat} (first : lhs ≤ left)
    (second : rhs ≤ right) : multiplyQ16 lhs rhs ≤ multiplyQ16 left right := by
  have products :=
    roundDiv_le_roundDiv (Nat.mul_le_mul first second) 65536
  rw [multiplyQ16_eq_min, multiplyQ16_eq_min]
  omega

/-- Factors below one have a product that is not capped. -/
theorem multiplyQ16_eq (first : lhs ≤ 65535) (second : rhs ≤ 65535) :
    multiplyQ16 lhs rhs = roundDiv (lhs * rhs) 65536 := by
  have product : lhs * rhs ≤ 65535 * 65535 := Nat.mul_le_mul first second
  have rounded : roundDiv (lhs * rhs) 65536 ≤ 65535 :=
    roundDiv_le (by decide) (by omega)
  rw [multiplyQ16_eq_min, Nat.min_eq_left rounded]

theorem cubeQ16_mono (ordered : value ≤ larger) :
    cubeQ16 value ≤ cubeQ16 larger :=
  multiplyQ16_mono (multiplyQ16_mono ordered ordered) ordered

theorem cubeQ16_eq (bounded : value ≤ 65535) :
    cubeQ16 value = roundedCube 65536 value := by
  unfold cubeQ16 roundedCube
  rw [multiplyQ16_eq (multiplyQ16_le _ _) bounded,
    multiplyQ16_eq bounded bounded]

theorem cubeQ13_natCast (bounded : value ≤ 8192) :
    cubeQ13 value = (roundedCube 8192 value : Nat) := by
  rw [cubeQ13_eq (Int.natCast_nonneg value) (by omega)]
  unfold roundedCube roundDiv
  push_cast
  rfl

end Cubes

section Roots

variable {value larger : Nat}

theorem cubeRootQ16_nearest (value : Nat) :
    Nearest cubeQ16 65535 value (cubeRootQ16 value) := by
  have ordered : ∀ index later, index ≤ later → later ≤ 65535 →
      cubeQ16 index ≤ cubeQ16 later := by
    intro index later earlier _
    exact cubeQ16_mono earlier
  have found := cubeRootSearch_spec value
  unfold cubeRootQ16
  generalize cubeRootSearch value 65535 0 65535 = low at found
  have bounded := found.le_high
  have upper : low % 65536 = low := by omega
  simp only [upper]
  by_cases short : cubeQ16 low < value
  · rw [if_pos short]
    have last : low = 65535 := by
      rcases Nat.eq_or_lt_of_le bounded with last | inside
      · exact last
      · have failed := found.fails_at inside
        rw [decide_eq_false_iff_not, upper] at failed
        exact absurd short failed
    subst last
    apply nearest_last ordered (Nat.le_of_lt short)
    intro _
    exact Nat.lt_of_le_of_lt (cubeQ16_mono (by decide)) short
  · rw [if_neg short]
    have reached := Nat.not_lt.mp short
    rcases Nat.eq_zero_or_pos low with zero | positive
    · subst zero
      have least : value = 0 := Nat.le_zero.mp reached
      subst least
      exact nearest_first ordered (Nat.zero_le _)
    · have passed := found.holds_before positive
      have lower : (if low = 0 then 0 else low - 1) % 65536 = low - 1 := by
        rw [if_neg (Nat.ne_of_gt positive)]
        omega
      rw [decide_eq_true_eq, Nat.mod_eq_of_lt (by omega)] at passed
      rw [lower]
      exact nearest_choice ordered positive bounded passed reached

/-- The passage of the root from one step of Q2.13 to the next. -/
theorem rootQ13_le_iff {root : Nat} (inside : root < 8192) :
    rootQ13 value ≤ root ↔ 2 * value ≤ halfway cubeQ16 (8 * root + 3) := by
  have nearest :=
    cubeRootQ16_nearest value (8 * root + 3) (by omega)
  rw [← nearest]
  unfold rootQ13
  omega

theorem rootQ13_mono (less : value ≤ larger) :
    rootQ13 value ≤ rootQ13 larger := by
  have roots : cubeRootQ16 value ≤ cubeRootQ16 larger :=
    (cubeRootQ16_nearest value).mono (cubeRootQ16_nearest larger) less
      (cubeRootQ16_le value)
  unfold rootQ13
  omega

/-- The middle between two cubes, up to their roundings. -/
theorem halfway_cubeQ16 {index : Nat} (inside : index < 65535) :
    4294967296 * halfway cubeQ16 index ≤
        index ^ 3 + (index + 1) ^ 3 + 65536 * index + 4295000064 ∧
      index ^ 3 + (index + 1) ^ 3 ≤
        4294967296 * halfway cubeQ16 index + 65536 * index + 4295000064 := by
  have here := @roundedCube_near 65536 (by decide) index
  have next := @roundedCube_near 65536 (by decide) (index + 1)
  unfold halfway
  rw [cubeQ16_eq (Nat.le_of_lt inside), cubeQ16_eq inside]
  constructor <;> linarith

/-- The cube of the root is near the value: it lies between the middles of
the steps of Q0.16 that are rounded to the root. -/
theorem rootQ13_bracket (bounded : value ≤ 65535) :
    (8 * rootQ13 value - 5) ^ 3 + (8 * rootQ13 value - 4) ^ 3 -
          524288 * rootQ13 value ≤
        8589934592 * value ∧
      8589934592 * value ≤
        (8 * rootQ13 value + 3) ^ 3 + (8 * rootQ13 value + 4) ^ 3 +
          524288 * rootQ13 value + 4295229440 := by
  have range := rootQ13_bounds value
  obtain ⟨root, same⟩ := Int.eq_ofNat_of_zero_le range.1
  constructor
  · cases root with
    | zero =>
        rw [same]
        omega
    | succ root =>
        have inside : root < 8192 := by omega
        have above : ¬ rootQ13 value ≤ root := by omega
        rw [rootQ13_le_iff inside, Nat.not_le] at above
        have near := (@halfway_cubeQ16 (8 * root + 3) (by omega)).2
        zify at above near
        rw [same]
        push_cast at *
        linarith
  · rcases Nat.lt_or_ge root 8192 with inside | last
    · have below : rootQ13 value ≤ root := Int.le_of_eq same
      rw [rootQ13_le_iff inside] at below
      have near := (@halfway_cubeQ16 (8 * root + 3) (by omega)).1
      zify at below near
      rw [same]
      linarith
    · have top : rootQ13 value = 8192 := by omega
      rw [top]
      omega

end Roots

/-! ### Cubes of returned roots -/

/-- How far the cube of a root that is some steps off can exceed the value of
the root, in parts of 2^33: what the steps add to the cube of the least number
of Q0.16 that is rounded to the root, and the roundings of both cubes. -/
def excess (root step : Int) : Int :=
  (3072 * step + 1728) * root ^ 2 + (3072 * step ^ 2 + 4717608) * root +
    1024 * step ^ 3 + 4194304 * step + 34359738557

/-- How far it can fall short of the value, which is that of the largest number
rounded to the root. -/
def shortfall (root step : Int) : Int :=
  (1344 - 3072 * step) * root ^ 2 + (4719192 - 3072 * step ^ 2) * root -
    1024 * step ^ 3 + 4194304 * step + 38654967899

/-- The deviations of the cubes for all roots up to a limit. -/
def deviation (limit step : Int) : Enclosure Int where
  lower := if step ≤ 0 then -(shortfall limit step / 8589934592) else -4
  upper := if 0 ≤ step then excess limit step / 8589934592 else 4

section Deviation

variable {value : Nat} {limit step root : Int}

theorem cubeQ13_near {root : Int} (lower : 0 ≤ root) (upper : root ≤ 8192) :
    68719476736 * cubeQ13 root ≤
        1024 * root ^ 3 + 4194304 * root + 34359738368 ∧
      1024 * root ^ 3 ≤
        68719476736 * cubeQ13 root + 4194304 * root + 34359738368 := by
  obtain ⟨index, rfl⟩ := Int.eq_ofNat_of_zero_le lower
  have near := @roundedCube_near 8192 (by decide) index
  rw [cubeQ13_natCast (by omega)]
  zify at near
  constructor <;> linarith

theorem clampQ13Root_of_between (lower : 0 ≤ root) (upper : root ≤ 8192) :
    clampQ13Root root = root := by
  unfold clampQ13Root q13One
  split <;> omega

theorem cubeQ13_clamp_le (lower : 0 ≤ root) :
    68719476736 * cubeQ13 (clampQ13Root root) ≤
      1024 * root ^ 3 + 4194304 * root + 34359738368 := by
  have bounds := clampQ13Root_bounds root
  have near := (cubeQ13_near bounds.1 bounds.2).1
  have less : clampQ13Root root ≤ root := by
    unfold clampQ13Root q13One
    split <;> omega
  have cubes : clampQ13Root root ^ 3 ≤ root ^ 3 :=
    pow_le_pow_left₀ bounds.1 less 3
  linarith

theorem deviation_le_excess (bounded : value ≤ 65535)
    (lower : 0 ≤ rootQ13 value + step) :
    8589934592 *
        (8 * cubeQ13 (clampQ13Root (rootQ13 value + step)) - value) ≤
      excess (rootQ13 value) step := by
  have bracket := (rootQ13_bracket bounded).1
  have cube := cubeQ13_clamp_le lower
  unfold excess
  linarith

theorem deviation_ge_shortfall (bounded : value ≤ 65535)
    (lower : 0 ≤ rootQ13 value + step)
    (upper : rootQ13 value + step ≤ 8192) :
    -shortfall (rootQ13 value) step ≤
      8589934592 *
        (8 * cubeQ13 (clampQ13Root (rootQ13 value + step)) - value) := by
  have bracket := (rootQ13_bracket bounded).2
  have cube := (cubeQ13_near lower upper).2
  rw [clampQ13Root_of_between lower upper]
  unfold shortfall
  linarith

theorem excess_mono (nonnegative : 0 ≤ root) (capped : root ≤ limit)
    (forward : 0 ≤ step) : excess root step ≤ excess limit step := by
  have squares : root ^ 2 ≤ limit ^ 2 := pow_le_pow_left₀ nonnegative capped 2
  have quadratic :
      (3072 * step + 1728) * root ^ 2 ≤ (3072 * step + 1728) * limit ^ 2 :=
    mul_le_mul_of_nonneg_left squares (by omega)
  have linear :
      (3072 * step ^ 2 + 4717608) * root ≤
        (3072 * step ^ 2 + 4717608) * limit :=
    mul_le_mul_of_nonneg_left capped (by positivity)
  unfold excess
  linarith

theorem shortfall_mono (nonnegative : 0 ≤ root) (capped : root ≤ limit)
    (backward : step = -1 ∨ step = 0) :
    shortfall root step ≤ shortfall limit step := by
  have squares : root ^ 2 ≤ limit ^ 2 := pow_le_pow_left₀ nonnegative capped 2
  unfold shortfall
  rcases backward with rfl | rfl <;> linarith

/-- A root that came back smaller has hardly a larger cube, and one that came
back larger hardly a smaller one. -/
theorem excess_back (root : Int) : excess root (-1) < 42949672960 := by
  have vertex := sq_nonneg (2688 * root - 4720680)
  unfold excess
  linarith

theorem shortfall_forth (root : Int) (steps : step = 1 ∨ step = 2) :
    shortfall root step < 42949672960 := by
  unfold shortfall
  rcases steps with rfl | rfl
  · have vertex := sq_nonneg (3456 * root - 4716120)
    linarith
  · have vertex := sq_nonneg (9600 * root - 4706904)
    linarith

theorem deviation_of_negative (bounded : value ≤ 65535)
    (backward : -1 ≤ step) (below : rootQ13 value + step < 0) :
    8 * cubeQ13 (clampQ13Root (rootQ13 value + step)) - value = 0 := by
  have range := rootQ13_bounds value
  have zero : rootQ13 value = 0 := by omega
  have bracket := (rootQ13_bracket bounded).2
  have clamped : clampQ13Root (rootQ13 value + step) = 0 := if_pos below
  have cube : cubeQ13 0 = 0 := rfl
  rw [zero] at bracket
  rw [clamped, cube]
  omega

theorem deviation_le_upper (bounded : value ≤ 65535)
    (capped : rootQ13 value ≤ limit) (backward : -1 ≤ step) :
    8 * cubeQ13 (clampQ13Root (rootQ13 value + step)) - value ≤
      (deviation limit step).upper := by
  have range := rootQ13_bounds value
  unfold deviation
  simp only
  by_cases forward : 0 ≤ step
  · have exceeds := @deviation_le_excess value step bounded (by omega)
    have largest := excess_mono range.1 capped forward
    rw [if_pos forward]
    apply Int.le_ediv_of_mul_le (by decide)
    linarith
  · rw [if_neg forward]
    have back : step = -1 := by omega
    subst back
    rcases Int.lt_or_le (rootQ13 value + -1) 0 with below | inside
    · rw [deviation_of_negative bounded (Int.le_refl _) below]
      decide
    · have exceeds := deviation_le_excess bounded inside
      have small := excess_back (rootQ13 value)
      omega

theorem deviation_ge_lower (bounded : value ≤ 65535)
    (capped : rootQ13 value ≤ limit) (backward : -1 ≤ step)
    (forward : step ≤ 2) :
    (deviation limit step).lower ≤
      8 * cubeQ13 (clampQ13Root (rootQ13 value + step)) - value := by
  have range := rootQ13_bounds value
  unfold deviation
  simp only
  rcases Int.lt_or_le 8192 (rootQ13 value + step) with above | inside
  · have clamped : clampQ13Root (rootQ13 value + step) = 8192 := by
      unfold clampQ13Root q13One
      rw [if_neg (by omega), if_pos above]
    have cube : cubeQ13 8192 = 8192 := rfl
    rw [if_neg (by omega), clamped, cube]
    omega
  · by_cases still : step ≤ 0
    · have largest :=
        @shortfall_mono limit step _ range.1 capped (by omega)
      rw [if_pos still]
      rcases Int.lt_or_le (rootQ13 value + step) 0 with below | positive
      · have zero : rootQ13 value = 0 := by omega
        have back : step = -1 := by omega
        subst back
        have positive : 0 ≤ shortfall 0 (-1) := by decide
        rw [deviation_of_negative bounded backward below]
        rw [zero] at largest
        omega
      · have falls := deviation_ge_shortfall bounded positive inside
        omega
    · have falls :=
        @deviation_ge_shortfall value step bounded (by omega) inside
      have small := @shortfall_forth step (rootQ13 value) (by omega)
      rw [if_neg still]
      omega

/-- The cube of a root that comes back some steps off. -/
theorem deviation_holds (bounded : value ≤ 65535)
    (capped : rootQ13 value ≤ limit) (backward : -1 ≤ step)
    (forward : step ≤ 2) :
    (deviation limit step).Holds
      (8 * cubeQ13 (clampQ13Root (rootQ13 value + step)) - value) :=
  ⟨deviation_ge_lower bounded capped backward forward,
    deviation_le_upper bounded capped backward⟩

end Deviation

theorem rootQ13_ratio {value other : Nat} (bounded : value ≤ 65535)
    (within : other ≤ 65535) (ratio : 2 * other ≤ 5 * value) :
    5 * rootQ13 other ≤ 7 * rootQ13 value + 3500 := by
  have range := rootQ13_bounds value
  have otherRange := rootQ13_bounds other
  have above := (rootQ13_bracket bounded).2
  have below := (rootQ13_bracket within).1
  zify at ratio
  generalize rootQ13 value = root at *
  generalize rootQ13 other = far at *
  by_contra beyond
  have distance : 56 * root + 27983 ≤ 5 * (8 * far - 5) := by omega
  have cubes :
      (56 * root + 27983) ^ 3 ≤ (5 * (8 * far - 5)) ^ 3 :=
    pow_le_pow_left₀ (by omega) distance 3
  have next : (8 * far - 5) ^ 3 ≤ (8 * far - 4) ^ 3 :=
    pow_le_pow_left₀ (by omega) (by omega) 3
  have square : 0 ≤ root ^ 2 := sq_nonneg root
  have cube : 0 ≤ root ^ 3 := pow_nonneg range.1 3
  linarith

theorem dot3Q13_near (row : Int × Int × Int) (x y z : Int) :
    2 *
          (8192 * dot3Q13 row x y z -
            (row.1 * x + row.2.1 * y + row.2.2 * z)) ≤
        8192 ∧
      2 *
          (row.1 * x + row.2.1 * y + row.2.2 * z -
            8192 * dot3Q13 row x y z) ≤
        8192 :=
  roundDivideSigned_spec _ (by decide)

/-- The roots that the inverse matrix yields from the coordinates, by its
row. -/
def returned (row : Int × Int × Int) (l m s : Int) : Int :=
  dot3Q13 row (coordinates l m s).l (coordinates l m s).a
    (coordinates l m s).b

/-- The steps by which the first two roots can come back off. -/
def steps : List (Int × Int) :=
  [(-1, -1), (-1, 0), (0, -1), (0, 0), (0, 1), (1, 0), (1, 1)]

/-- The steps by which the third root can come back off. -/
def shortSteps : List Int :=
  [-1, 0, 1, 2]

theorem mem_steps {first second : Int} (h₁ : -1 ≤ first ∧ first ≤ 1)
    (h₂ : -1 ≤ second ∧ second ≤ 1)
    (near : -1 ≤ first - second ∧ first - second ≤ 1) :
    (first, second) ∈ steps := by
  have cases₁ : first = -1 ∨ first = 0 ∨ first = 1 := by omega
  have cases₂ : second = -1 ∨ second = 0 ∨ second = 1 := by omega
  unfold steps
  rcases cases₁ with rfl | rfl | rfl <;>
    rcases cases₂ with rfl | rfl | rfl <;>
      first
        | decide
        | omega

theorem mem_shortSteps {third : Int} :
    third ∈ shortSteps ↔ -1 ≤ third ∧ third ≤ 2 := by
  simp only [shortSteps, List.mem_cons, List.not_mem_nil, or_false]
  omega

theorem steps_bounds {pair : Int × Int} (member : pair ∈ steps) :
    (-1 ≤ pair.1 ∧ pair.1 ≤ 2) ∧ -1 ≤ pair.2 ∧ pair.2 ≤ 2 := by
  have all : ∀ pair ∈ steps,
      (-1 ≤ pair.1 ∧ pair.1 ≤ 2) ∧ -1 ≤ pair.2 ∧ pair.2 ≤ 2 := by
    decide
  exact all pair member

section Steps

variable {l m s : Int} (hl : 0 ≤ l ∧ l ≤ 8192) (hm : 0 ≤ m ∧ m ≤ 8192)
  (hs : 0 ≤ s ∧ s ≤ 8192) (lm : 5 * m ≤ 7 * l + 3500)
  (ml : 5 * l ≤ 7 * m + 3500)
include hl hm hs lm ml

/-- The product of the two rounded matrices differs from the unit matrix by
less than 2^-13 in each entry, and each rounding of a coordinate counts by its
coefficient. -/
theorem returned_steps :
    (returned (8192, 3247, 1768) l m s - l,
        returned (8192, -865, -523) l m s - m) ∈ steps ∧
      returned (8192, -733, -10580) l m s - s ∈ shortSteps := by
  have lightness := dot3Q13_near (1724, 6501, -33) l m s
  have first := dot3Q13_near (16204, -19895, 3691) l m s
  have second := dot3Q13_near (212, 6412, -6625) l m s
  unfold returned coordinates
  simp only at *
  generalize dot3Q13 (1724, 6501, -33) l m s = lab at *
  generalize dot3Q13 (16204, -19895, 3691) l m s = a at *
  generalize dot3Q13 (212, 6412, -6625) l m s = b at *
  have backL := dot3Q13_near (8192, 3247, 1768) lab a b
  have backM := dot3Q13_near (8192, -865, -523) lab a b
  have backS := dot3Q13_near (8192, -733, -10580) lab a b
  simp only at *
  generalize dot3Q13 (8192, 3247, 1768) lab a b = rl at *
  generalize dot3Q13 (8192, -865, -523) lab a b = rm at *
  generalize dot3Q13 (8192, -733, -10580) lab a b = rs at *
  rw [mem_shortSteps]
  -- A step beyond the bounds leaves one of the products too far off.
  have lowL : -2 < rl - l := by linarith
  have highL : rl - l < 2 := by linarith
  have lowM : -2 < rm - m := by linarith
  have highM : rm - m < 2 := by linarith
  have lowS : -2 < rs - s := by linarith
  have highS : rs - s < 3 := by linarith
  have lowLM : -2 < rl - l - (rm - m) := by linarith
  have highLM : rl - l - (rm - m) < 2 := by linarith
  clear lightness first second backL backM backS hl hm hs lm ml
  constructor
  · apply mem_steps <;> omega
  · omega

end Steps

/-- What the deviations of the three cubes add up to in a channel, for all
steps by which the roots can come back off. -/
def Budget (row limits : Int × Int × Int) (bound : Enclosure Int) : Prop :=
  ∀ pair ∈ steps, ∀ third ∈ shortSteps,
    (Enclosure.form row (deviation limits.1 pair.1)
      (deviation limits.2.1 pair.2) (deviation limits.2.2 third)).Within bound

instance (row limits : Int × Int × Int) (bound : Enclosure Int) :
    Decidable (Budget row limits bound) :=
  inferInstanceAs (Decidable (∀ pair ∈ steps, _))

end PrismKit.Oklab
