import PrismKit.Controller.OklabChecked
import PrismKit.Library.BinarySearch

/-!
# The range of the OKLab conversion

Every step of the conversion has its bounds, and within these bounds the
checked functions have the values of the plain ones.
-/

namespace PrismKit.Oklab

open Library Library.Checked

theorem srgbToLinearQ16_length : srgbToLinearQ16.length = 256 := by
  decide +kernel

theorem srgbToLinear_le (code : Nat) : srgbToLinear code ≤ 65535 := by
  have entries : ∀ entry ∈ srgbToLinearQ16, entry ≤ 65535 := by
    decide +kernel
  unfold srgbToLinear
  cases found : srgbToLinearQ16[code]? with
  | none => exact Nat.zero_le _
  | some entry => exact entries entry (List.mem_of_getElem? found)

theorem Checked.srgbToLinear_eq {code : Nat} (inside : code < 256) :
    Checked.srgbToLinear code = some (Oklab.srgbToLinear code) := by
  unfold Checked.srgbToLinear Oklab.srgbToLinear
  rw [List.getElem?_eq_getElem (by rwa [srgbToLinearQ16_length])]
  rfl

section Unsigned

variable {lhs rhs value : Nat}

theorem saturated_le (value : Nat) :
    (if value > 65535 then 65535 else value) ≤ 65535 := by
  split <;> omega

theorem multiplyQ16_le (lhs rhs : Nat) : multiplyQ16 lhs rhs ≤ 65535 :=
  saturated_le _

theorem Checked.multiplyQ16_eq (left : lhs ≤ 65535) (right : rhs ≤ 65535) :
    Checked.multiplyQ16 lhs rhs = some (Oklab.multiplyQ16 lhs rhs) := by
  have product : lhs * rhs ≤ 65535 * 65535 := Nat.mul_le_mul left right
  have rounded :
      (if lhs * rhs % 65536 ≥ 32768 then
        unsigned32 (lhs * rhs / 65536 + 1)
      else
        some (lhs * rhs / 65536)) =
      some
        (lhs * rhs / 65536 + if lhs * rhs % 65536 ≥ 32768 then 1 else 0) := by
    split
    · exact unsigned32_of_lt (by omega)
    · rfl
  apply step (unsigned32_of_lt (Nat.lt_of_le_of_lt product (by decide)))
  apply step rounded
  exact unsigned16_of_lt (Nat.lt_succ_of_le (saturated_le _))

theorem sumQ16Products_le (coefficients : Nat × Nat × Nat) (x y z : Nat) :
    sumQ16Products coefficients x y z ≤ 65535 :=
  saturated_le _

theorem Checked.sumQ16Products_eq {coefficients : Nat × Nat × Nat}
    {x y z : Nat} (first : coefficients.1 ≤ 65535)
    (second : coefficients.2.1 ≤ 65535) (third : coefficients.2.2 ≤ 65535)
    (hx : x ≤ 65535) (hy : y ≤ 65535) (hz : z ≤ 65535) :
    Checked.sumQ16Products coefficients x y z =
      some (Oklab.sumQ16Products coefficients x y z) := by
  have firstBound := multiplyQ16_le coefficients.1 x
  have secondBound := multiplyQ16_le coefficients.2.1 y
  have thirdBound := multiplyQ16_le coefficients.2.2 z
  apply step (Checked.multiplyQ16_eq first hx)
  apply step (Checked.multiplyQ16_eq second hy)
  apply step (Checked.multiplyQ16_eq third hz)
  apply step (unsigned32_of_lt (by omega))
  apply step (unsigned32_of_lt (by omega))
  exact unsigned16_of_lt (Nat.lt_succ_of_le (saturated_le _))

theorem Checked.cubeQ16_eq (bounded : value ≤ 65535) :
    Checked.cubeQ16 value = some (Oklab.cubeQ16 value) := by
  apply step (Checked.multiplyQ16_eq bounded bounded)
  exact Checked.multiplyQ16_eq (multiplyQ16_le _ _) bounded

theorem cubeQ16_zero : cubeQ16 0 = 0 :=
  rfl

theorem cubeRootSearch_eq (value fuel low high : Nat) :
    cubeRootSearch value fuel low high =
      lowerBound (fun middle => cubeQ16 (middle % 65536) < value) fuel low
        high := by
  induction fuel generalizing low high with
  | zero => rfl
  | succ fuel inductionHypothesis =>
      simp only [cubeRootSearch, lowerBound, inductionHypothesis,
        decide_eq_true_eq]

theorem Checked.cubeRootSearch_eq {fuel low high : Nat}
    (ordered : low ≤ high) (bounded : high ≤ 65535)
    (enough : high - low ≤ fuel) :
    Checked.cubeRootSearch value fuel low high =
      some (Oklab.cubeRootSearch value fuel low high) := by
  induction fuel generalizing low high with
  | zero =>
      have empty : ¬ low < high := by omega
      rw [Checked.cubeRootSearch, if_neg empty, Oklab.cubeRootSearch]
  | succ fuel inductionHypothesis =>
      rw [Checked.cubeRootSearch, Oklab.cubeRootSearch]
      by_cases nonempty : low < high
      · have inside : low + (high - low) / 2 < high := by omega
        have narrow : (low + (high - low) / 2) % 65536 =
            low + (high - low) / 2 := by omega
        rw [if_pos nonempty, if_pos nonempty]
        simp only [narrow]
        apply step (sub_of_le ordered)
        apply step (unsigned32_of_lt (by omega))
        apply step (unsigned16_of_lt (by omega))
        apply step (Checked.cubeQ16_eq (by omega))
        split
        · apply step (unsigned32_of_lt (by omega))
          exact inductionHypothesis (by omega) bounded (by omega)
        · exact inductionHypothesis (by omega) (by omega) (by omega)
      · rw [if_neg nonempty, if_neg nonempty]

/-- What the bisection leaves for the choice between two neighbors. -/
theorem cubeRootSearch_spec (value : Nat) :
    LowerBound (fun middle => cubeQ16 (middle % 65536) < value) 0 65535
      (cubeRootSearch value 65535 0 65535) := by
  rw [cubeRootSearch_eq]
  exact lowerBound_spec (Nat.zero_le _) (Nat.le_refl _)

theorem cubeRootQ16_le (value : Nat) : cubeRootQ16 value ≤ 65535 := by
  have bounded := (cubeRootSearch_spec value).le_high
  unfold cubeRootQ16
  simp only
  split
  · omega
  · split <;> split <;> omega

theorem Checked.cubeRootQ16_eq (value : Nat) :
    Checked.cubeRootQ16 value = some (Oklab.cubeRootQ16 value) := by
  have found := cubeRootSearch_spec value
  have searched :=
    @Checked.cubeRootSearch_eq value 65535 0 65535 (Nat.zero_le _)
      (Nat.le_refl _) (Nat.le_refl _)
  unfold Oklab.cubeRootQ16
  apply step searched
  generalize Oklab.cubeRootSearch value 65535 0 65535 = low at found
  have bounded := found.le_high
  have upper : low % 65536 = low := by omega
  have lower :
      (if low = 0 then 0 else low - 1) % 65536 =
        if low = 0 then 0 else low - 1 := by
    split <;> omega
  -- The lower neighbor has a cube that does not exceed the value.
  have lowerCube : Oklab.cubeQ16 (if low = 0 then 0 else low - 1) ≤ value := by
    split
    · rw [cubeQ16_zero]
      exact Nat.zero_le _
    · have passed := found.holds_before (by omega)
      rw [decide_eq_true_eq, Nat.mod_eq_of_lt (by omega)] at passed
      exact Nat.le_of_lt passed
  have smaller : (if low = 0 then some 0 else sub low 1) =
      some (if low = 0 then 0 else low - 1) := by
    split
    · rfl
    · exact sub_of_le (by omega)
  simp only [upper, lower]
  apply step (unsigned16_of_lt (by omega))
  apply step smaller
  apply step (unsigned16_of_lt (by split <;> omega))
  apply step (Checked.cubeQ16_eq bounded)
  apply step (Checked.cubeQ16_eq (by split <;> omega))
  split
  · rfl
  · rename_i reaches
    apply step (sub_of_le lowerCube)
    apply step (sub_of_le (Nat.not_lt.mp reaches))
    rfl

end Unsigned

section Signed

variable {numerator denominator : Int}

theorem tdiv_add_half {magnitude : Int} (nonnegative : 0 ≤ magnitude)
    (positive : 0 < denominator) :
    (magnitude + denominator.tdiv 2).tdiv denominator =
      (magnitude + denominator / 2) / denominator := by
  have half : denominator.tdiv 2 = denominator / 2 :=
    Int.tdiv_eq_ediv_of_nonneg (Int.le_of_lt positive)
  rw [half]
  exact Int.tdiv_eq_ediv_of_nonneg (by omega)

/-- The quotient is a nearest one. -/
theorem roundDivideSigned_spec (numerator : Int)
    (positive : 0 < denominator) :
    2 * (denominator * roundDivideSigned numerator denominator - numerator) ≤
        denominator ∧
      2 *
          (numerator - denominator * roundDivideSigned numerator denominator) ≤
        denominator := by
  unfold roundDivideSigned
  split
  · rename_i nonnegative
    rw [tdiv_add_half nonnegative positive]
    have below :=
      Int.mul_ediv_self_le (x := numerator + denominator / 2)
        (Int.ne_of_gt positive)
    have above :=
      Int.lt_mul_ediv_self_add (x := numerator + denominator / 2) positive
    constructor <;> omega
  · rename_i negative
    rw [tdiv_add_half (by omega) positive, Int.mul_neg]
    have below :=
      Int.mul_ediv_self_le (x := -numerator + denominator / 2)
        (Int.ne_of_gt positive)
    have above :=
      Int.lt_mul_ediv_self_add (x := -numerator + denominator / 2) positive
    constructor <;> omega

/-- A numerator between two multiples has its quotient between the factors. -/
theorem roundDivideSigned_bounds {lower upper : Int}
    (positive : 0 < denominator) (below : denominator * lower ≤ numerator)
    (above : numerator ≤ denominator * upper) :
    lower ≤ roundDivideSigned numerator denominator ∧
      roundDivideSigned numerator denominator ≤ upper := by
  have nearest := roundDivideSigned_spec numerator positive
  generalize roundDivideSigned numerator denominator = quotient at nearest
  constructor
  · apply Int.le_of_lt_add_one
    apply Int.lt_of_mul_lt_mul_left (a := denominator)
    · rw [Int.mul_add, Int.mul_one]
      omega
    · exact Int.le_of_lt positive
  · apply Int.le_of_lt_add_one
    apply Int.lt_of_mul_lt_mul_left (a := denominator)
    · rw [Int.mul_add, Int.mul_one]
      omega
    · exact Int.le_of_lt positive

theorem Checked.roundDivideSigned_eq (positive : 0 < denominator)
    (small : numerator.natAbs + denominator.natAbs < 2147483648) :
    Checked.roundDivideSigned numerator denominator =
      some (Oklab.roundDivideSigned numerator denominator) := by
  have half : denominator.tdiv 2 = denominator / 2 :=
    Int.tdiv_eq_ediv_of_nonneg (Int.le_of_lt positive)
  have nonzero : denominator ≠ 0 := Int.ne_of_gt positive
  have two : (2 : Int) ≠ 0 := by decide
  unfold Oklab.roundDivideSigned
  apply step (tdiv_of_ne_zero two _)
  split
  · apply step (signed32_of_natAbs (Nat.le_refl _) (by omega))
    exact tdiv_of_ne_zero nonzero _
  · apply step (signed32_of_natAbs (Nat.le_refl _) (by omega))
    apply step (signed32_of_natAbs (Nat.le_refl _) (by omega))
    apply step (tdiv_of_ne_zero nonzero _)
    apply @signed32_of_natAbs _ (numerator.natAbs + denominator.natAbs)
    · rw [Int.natAbs_neg, Int.natAbs_tdiv]
      exact Nat.le_trans (Nat.div_le_self _ _) (by omega)
    · exact small

/-- The coefficients of a row add up to less than the type holds. -/
theorem Checked.dot3_eq {scale x y z : Int} {bound : Nat}
    {coefficients : Int × Int × Int} (positive : 0 < scale)
    (hx : x.natAbs ≤ bound) (hy : y.natAbs ≤ bound)
    (hz : z.natAbs ≤ bound)
    (row :
      (coefficients.1.natAbs + coefficients.2.1.natAbs +
          coefficients.2.2.natAbs) * bound + scale.natAbs <
        2147483648) :
    Checked.dot3 scale coefficients x y z =
      some (Oklab.dot3 scale coefficients x y z) := by
  have first := Nat.mul_le_mul_left coefficients.1.natAbs hx
  have second := Nat.mul_le_mul_left coefficients.2.1.natAbs hy
  have third := Nat.mul_le_mul_left coefficients.2.2.natAbs hz
  rw [← Int.natAbs_mul] at first second third
  rw [Nat.add_mul, Nat.add_mul] at row
  have two :=
    Int.natAbs_add_le (coefficients.1 * x) (coefficients.2.1 * y)
  have all :=
    Int.natAbs_add_le (coefficients.1 * x + coefficients.2.1 * y)
      (coefficients.2.2 * z)
  apply step (signed32_of_natAbs first (by omega))
  apply step (signed32_of_natAbs second (by omega))
  apply step (signed32_of_natAbs two (by omega))
  apply step (signed32_of_natAbs third (by omega))
  apply step (signed32_of_natAbs all (by omega))
  exact Checked.roundDivideSigned_eq positive (by omega)

theorem clampQ13Root_bounds (value : Int) :
    0 ≤ clampQ13Root value ∧ clampQ13Root value ≤ 8192 := by
  unfold clampQ13Root q13One
  split
  · omega
  · split <;> omega

theorem cubeQ13_bounds {value : Int} (lower : 0 ≤ value)
    (upper : value ≤ 8192) :
    (0 ≤ value * value ∧ value * value ≤ 67108864) ∧
      (0 ≤ (value * value + 4096) / 8192 * value ∧
        (value * value + 4096) / 8192 * value ≤ 67108864) := by
  have square : value * value ≤ 8192 * 8192 :=
    Int.mul_le_mul upper upper lower (by decide)
  have positive : 0 ≤ value * value := Int.mul_nonneg lower lower
  have cube : (value * value + 4096) / 8192 * value ≤ 8192 * 8192 :=
    Int.mul_le_mul (by omega) upper lower (by decide)
  have nonnegative : 0 ≤ (value * value + 4096) / 8192 * value :=
    Int.mul_nonneg (by omega) lower
  omega

theorem cubeQ13_eq {value : Int} (lower : 0 ≤ value)
    (upper : value ≤ 8192) :
    cubeQ13 value =
      ((value * value + 4096) / 8192 * value + 4096) / 8192 := by
  have bounds := cubeQ13_bounds lower upper
  have half : q13One.tdiv 2 = 4096 := rfl
  unfold cubeQ13
  simp only [half]
  rw [Int.tdiv_eq_ediv_of_nonneg (a := value * value + 4096) (by omega),
    q13One, Int.tdiv_eq_ediv_of_nonneg (by omega)]

theorem Checked.cubeQ13_eq {value : Int} (lower : 0 ≤ value)
    (upper : value ≤ 8192) :
    Checked.cubeQ13 value = some (Oklab.cubeQ13 value) := by
  have bounds := cubeQ13_bounds lower upper
  have half : q13One.tdiv 2 = 4096 := rfl
  have nonzero : q13One ≠ 0 := by decide
  have two : (2 : Int) ≠ 0 := by decide
  have squared :
      (value * value + 4096).tdiv q13One = (value * value + 4096) / 8192 :=
    Int.tdiv_eq_ediv_of_nonneg (by omega)
  unfold Oklab.cubeQ13
  apply step (tdiv_of_ne_zero two _)
  simp only [half]
  apply step (signed32_of_natAbs (Nat.le_refl _) (by omega))
  apply step (signed32_of_natAbs (Nat.le_refl _) (by omega))
  apply step (tdiv_of_ne_zero nonzero _)
  rw [squared]
  apply step (signed32_of_natAbs (Nat.le_refl _) (by omega))
  apply step (signed32_of_natAbs (Nat.le_refl _) (by omega))
  exact tdiv_of_ne_zero nonzero _

end Signed

theorem encodeSearch_eq (targetQ16 fuel low high : Nat) :
    encodeSearch targetQ16 fuel low high =
      lowerBound (fun middle => srgbToLinear middle < targetQ16) fuel low
        high := by
  induction fuel generalizing low high with
  | zero => rfl
  | succ fuel inductionHypothesis =>
      simp only [encodeSearch, lowerBound, inductionHypothesis,
        decide_eq_true_eq]

theorem Checked.encodeSearch_eq {targetQ16 fuel low high : Nat}
    (ordered : low ≤ high) (bounded : high ≤ 256)
    (enough : high - low ≤ fuel) :
    Checked.encodeSearch targetQ16 fuel low high =
      some (Oklab.encodeSearch targetQ16 fuel low high) := by
  induction fuel generalizing low high with
  | zero =>
      have empty : ¬ low < high := by omega
      rw [Checked.encodeSearch, if_neg empty, Oklab.encodeSearch]
  | succ fuel inductionHypothesis =>
      rw [Checked.encodeSearch, Oklab.encodeSearch]
      by_cases nonempty : low < high
      · have inside : low + (high - low) / 2 < high := by omega
        rw [if_pos nonempty, if_pos nonempty]
        apply step (sub_of_le ordered)
        apply step (unsigned32_of_lt (by omega))
        apply step (Checked.srgbToLinear_eq (by omega))
        simp only
        split
        · apply step (unsigned32_of_lt (by omega))
          exact inductionHypothesis (by omega) bounded (by omega)
        · exact inductionHypothesis (by omega) (by omega) (by omega)
      · rw [if_neg nonempty, if_neg nonempty]

theorem encodeSearch_spec (targetQ16 : Nat) :
    LowerBound (fun middle => srgbToLinear middle < targetQ16) 0 256
      (encodeSearch targetQ16 256 0 256) := by
  rw [encodeSearch_eq]
  exact lowerBound_spec (Nat.zero_le _) (Nat.le_refl _)

theorem Checked.encodeSrgbQ13_eq {linear : Int} (lower : 0 ≤ linear)
    (upper : linear ≤ 8192) :
    Checked.encodeSrgbQ13 linear = some (Oklab.encodeSrgbQ13 linear) := by
  have target : (linear % 4294967296).toNat * 8 % 4294967296 =
      linear.toNat * 8 := by omega
  unfold Oklab.encodeSrgbQ13
  simp only [target]
  apply step (natural_of_nonneg lower)
  apply step (unsigned32_of_lt (by omega))
  apply step
    (Checked.encodeSearch_eq (Nat.zero_le _) (Nat.le_refl _)
      (Nat.le_refl _))
  have found := encodeSearch_spec (linear.toNat * 8)
  generalize Oklab.encodeSearch (linear.toNat * 8) 256 0 256 = low at found
  split
  · rfl
  · rename_i nonzero
    split
    · rfl
    · rename_i inside
      have passed := found.holds_before (Nat.pos_of_ne_zero nonzero)
      have failed := found.fails_at (Nat.not_le.mp inside)
      rw [decide_eq_true_eq] at passed
      rw [decide_eq_false_iff_not] at failed
      apply step (sub_of_le (by omega))
      apply step (Checked.srgbToLinear_eq (by omega))
      apply step (sub_of_le (Nat.le_of_lt passed))
      apply step (Checked.srgbToLinear_eq (Nat.not_le.mp inside))
      apply step (sub_of_le (Nat.not_lt.mp failed))
      apply step (unsigned8_of_lt (by split <;> omega))
      rfl

/-! ### The conversions -/

/-- The response of one kind of cones to a color, by its matrix row. -/
def cone (row : Nat × Nat × Nat) (rgb : RgbColor) : Nat :=
  sumQ16Products row (srgbToLinear rgb.red.toNat)
    (srgbToLinear rgb.green.toNat) (srgbToLinear rgb.blue.toNat)

/-- The root of a cone response in Q2.13. -/
def rootQ13 (value : Nat) : Int :=
  ((cubeRootQ16 value + 4) / 8 : Nat)

theorem rootQ13_bounds (value : Nat) :
    0 ≤ rootQ13 value ∧ rootQ13 value ≤ 8192 := by
  have bounded := cubeRootQ16_le value
  unfold rootQ13
  omega

/-- The bounds of the converted coordinates: those of the three rows of the
matrix, whose coefficients of opposite sign cancel. -/
theorem oklab_bounds {l m s : Int} (hl : 0 ≤ l ∧ l ≤ 8192)
    (hm : 0 ≤ m ∧ m ≤ 8192) (hs : 0 ≤ s ∧ s ≤ 8192) :
    (dot3Q13 (1724, 6501, -33) l m s).natAbs ≤ 8270 ∧
      (dot3Q13 (16204, -19895, 3691) l m s).natAbs ≤ 19910 ∧
      (dot3Q13 (212, 6412, -6625) l m s).natAbs ≤ 6635 := by
  unfold dot3Q13 dot3 q13One
  simp only
  refine ⟨?_, ?_, ?_⟩
  · have bounds :=
      @roundDivideSigned_bounds (1724 * l + 6501 * m + -33 * s) 8192 (-8270)
        8270 (by decide) (by omega) (by omega)
    omega
  · have bounds :=
      @roundDivideSigned_bounds (16204 * l + -19895 * m + 3691 * s) 8192
        (-19910) 19910 (by decide) (by omega) (by omega)
    omega
  · have bounds :=
      @roundDivideSigned_bounds (212 * l + 6412 * m + -6625 * s) 8192 (-6635)
        6635 (by decide) (by omega) (by omega)
    omega

theorem int16_of_natAbs {value : Int} {bound : Nat}
    (near : value.natAbs ≤ bound) (small : bound < 32768) :
    int16 value = value := by
  unfold int16
  exact Int.bmod_eq_of_le (by omega) (by omega)

theorem signed16_of_natAbs {value : Int} {bound : Nat}
    (near : value.natAbs ≤ bound) (small : bound < 32768) :
    signed16 value = some (int16 value) := by
  rw [int16_of_natAbs near small]
  apply signed16_of_bounds <;> omega

/-- The coordinates that the matrix yields from the roots of the responses. -/
def coordinates (l m s : Int) : OklabColor :=
  ⟨dot3Q13 (1724, 6501, -33) l m s, dot3Q13 (16204, -19895, 3691) l m s,
    dot3Q13 (212, 6412, -6625) l m s⟩

/-- The narrowing of the coordinates to their fields changes none of them. -/
theorem toOklab_eq (rgb : RgbColor) :
    toOklab rgb =
      coordinates (rootQ13 (cone (27015, 35149, 3372) rgb))
        (rootQ13 (cone (13887, 44610, 7038) rgb))
        (rootQ13 (cone (5787, 18463, 41286) rgb)) := by
  have bounds :=
    oklab_bounds (rootQ13_bounds (cone (27015, 35149, 3372) rgb))
      (rootQ13_bounds (cone (13887, 44610, 7038) rgb))
      (rootQ13_bounds (cone (5787, 18463, 41286) rgb))
  unfold coordinates
  rw [← int16_of_natAbs bounds.1 (by decide),
    ← int16_of_natAbs bounds.2.1 (by decide),
    ← int16_of_natAbs bounds.2.2 (by decide)]
  rfl

theorem toOklab_bounds (rgb : RgbColor) :
    (toOklab rgb).l.natAbs ≤ 8270 ∧ (toOklab rgb).a.natAbs ≤ 19910 ∧
      (toOklab rgb).b.natAbs ≤ 6635 := by
  rw [toOklab_eq]
  exact oklab_bounds (rootQ13_bounds _) (rootQ13_bounds _) (rootQ13_bounds _)

theorem Checked.cone_eq {row : Nat × Nat × Nat} (first : row.1 ≤ 65535)
    (second : row.2.1 ≤ 65535) (third : row.2.2 ≤ 65535) (rgb : RgbColor) :
    Checked.sumQ16Products row (Oklab.srgbToLinear rgb.red.toNat)
        (Oklab.srgbToLinear rgb.green.toNat)
        (Oklab.srgbToLinear rgb.blue.toNat) =
      some (cone row rgb) :=
  Checked.sumQ16Products_eq first second third (srgbToLinear_le _)
    (srgbToLinear_le _) (srgbToLinear_le _)

theorem Checked.rootQ13_eq (value : Nat) :
    Checked.rootQ13 value = some (Oklab.rootQ13 value) := by
  have bounded := cubeRootQ16_le value
  apply step (Checked.cubeRootQ16_eq value)
  apply step (unsigned32_of_lt (by omega))
  apply signed32_of_bounds <;> omega

theorem rootQ13_natAbs_le (value : Nat) : (rootQ13 value).natAbs ≤ 8192 := by
  have bounds := rootQ13_bounds value
  omega

/-- A coordinate of the forward conversion. -/
theorem Checked.forward_eq {row : Int × Int × Int}
    (small :
      (row.1.natAbs + row.2.1.natAbs + row.2.2.natAbs) * 8192 + 8192 <
        2147483648)
    (l m s : Nat) :
    Checked.dot3Q13 row (Oklab.rootQ13 l) (Oklab.rootQ13 m)
        (Oklab.rootQ13 s) =
      some
        (Oklab.dot3Q13 row (Oklab.rootQ13 l) (Oklab.rootQ13 m)
          (Oklab.rootQ13 s)) :=
  Checked.dot3_eq (by decide) (rootQ13_natAbs_le l) (rootQ13_natAbs_le m)
    (rootQ13_natAbs_le s) small

/-- No step of the forward conversion overflows. -/
theorem Checked.toOklab_eq (rgb : RgbColor) :
    Checked.toOklab rgb = some (Oklab.toOklab rgb) := by
  have bounds := toOklab_bounds rgb
  rw [Oklab.toOklab_eq] at bounds
  apply step (Checked.srgbToLinear_eq rgb.red.toNat_lt)
  apply step (Checked.srgbToLinear_eq rgb.green.toNat_lt)
  apply step (Checked.srgbToLinear_eq rgb.blue.toNat_lt)
  apply step (Checked.cone_eq (by decide) (by decide) (by decide) rgb)
  apply step (Checked.cone_eq (by decide) (by decide) (by decide) rgb)
  apply step (Checked.cone_eq (by decide) (by decide) (by decide) rgb)
  apply step (Checked.rootQ13_eq _)
  apply step (Checked.rootQ13_eq _)
  apply step (Checked.rootQ13_eq _)
  apply step (Checked.forward_eq (by decide) _ _ _)
  apply step (signed16_of_natAbs bounds.1 (by decide))
  apply step (Checked.forward_eq (by decide) _ _ _)
  apply step (signed16_of_natAbs bounds.2.1 (by decide))
  apply step (Checked.forward_eq (by decide) _ _ _)
  apply step (signed16_of_natAbs bounds.2.2 (by decide))
  rfl

/-- The coordinates that three 16-bit fields hold. -/
def ofFields (l a b : Int16) : OklabColor :=
  ⟨l.toInt, a.toInt, b.toInt⟩

theorem natAbs_toInt_le (field : Int16) : field.toInt.natAbs ≤ 32768 := by
  have lower := field.le_toInt
  have upper := field.toInt_lt
  omega

/-- A root of the inverse conversion. -/
theorem Checked.inverse_eq {row : Int × Int × Int}
    (small :
      (row.1.natAbs + row.2.1.natAbs + row.2.2.natAbs) * 32768 + 8192 <
        2147483648)
    (l a b : Int16) :
    Checked.dot3Q13 row l.toInt a.toInt b.toInt =
      some (Oklab.dot3Q13 row l.toInt a.toInt b.toInt) :=
  Checked.dot3_eq (by decide) (natAbs_toInt_le l) (natAbs_toInt_le a)
    (natAbs_toInt_le b) small

theorem Checked.cubeQ13_clamp_eq (value : Int) :
    Checked.cubeQ13 (clampQ13Root value) =
      some (Oklab.cubeQ13 (clampQ13Root value)) :=
  Checked.cubeQ13_eq (clampQ13Root_bounds value).1
    (clampQ13Root_bounds value).2

theorem cubeQ13_clamp_natAbs_le (value : Int) :
    (cubeQ13 (clampQ13Root value)).natAbs ≤ 8192 := by
  have root := clampQ13Root_bounds value
  have bounds := cubeQ13_bounds root.1 root.2
  rw [Oklab.cubeQ13_eq root.1 root.2]
  omega

/-- A linear channel of the inverse conversion. -/
theorem Checked.channel_eq {row : Int × Int × Int}
    (small :
      (row.1.natAbs + row.2.1.natAbs + row.2.2.natAbs) * 8192 + 4096 <
        2147483648)
    (l m s : Int) :
    Checked.dot3Q12CoefficientsToQ13 row (Oklab.cubeQ13 (clampQ13Root l))
        (Oklab.cubeQ13 (clampQ13Root m)) (Oklab.cubeQ13 (clampQ13Root s)) =
      some
        (Oklab.dot3Q12CoefficientsToQ13 row (Oklab.cubeQ13 (clampQ13Root l))
          (Oklab.cubeQ13 (clampQ13Root m))
          (Oklab.cubeQ13 (clampQ13Root s))) :=
  Checked.dot3_eq (by decide) (cubeQ13_clamp_natAbs_le l)
    (cubeQ13_clamp_natAbs_le m) (cubeQ13_clamp_natAbs_le s) small

theorem Checked.encodeSrgbQ13_clamp_eq (linear : Int) :
    Checked.encodeSrgbQ13 (clampQ13Root linear) =
      some (Oklab.encodeSrgbQ13 (clampQ13Root linear)) :=
  Checked.encodeSrgbQ13_eq (clampQ13Root_bounds linear).1
    (clampQ13Root_bounds linear).2

/-- No step of the inverse conversion overflows, whatever its fields hold. -/
theorem Checked.fromOklab_eq (l a b : Int16) :
    Checked.fromOklab (ofFields l a b) =
      some (Oklab.fromOklab (ofFields l a b)) := by
  apply step (Checked.inverse_eq (by decide) l a b)
  apply step (Checked.inverse_eq (by decide) l a b)
  apply step (Checked.inverse_eq (by decide) l a b)
  apply step (Checked.cubeQ13_clamp_eq _)
  apply step (Checked.cubeQ13_clamp_eq _)
  apply step (Checked.cubeQ13_clamp_eq _)
  apply step (Checked.channel_eq (by decide) _ _ _)
  apply step (Checked.channel_eq (by decide) _ _ _)
  apply step (Checked.channel_eq (by decide) _ _ _)
  apply step (Checked.encodeSrgbQ13_clamp_eq _)
  apply step (Checked.encodeSrgbQ13_clamp_eq _)
  apply step (Checked.encodeSrgbQ13_clamp_eq _)
  rfl

end PrismKit.Oklab
