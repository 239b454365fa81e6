import PrismKit.Controller.GradientPath
import PrismKit.Controller.OklabError
import PrismKit.Controller.OklabPath

/-!
# Colors that come back from OKLab

A gradient between equal colors holds the color that the conversion to OKLab
and back leaves.  Its channels are those of the color up to the errors of the
fixed-point pipeline, which the steep curve of the encoding magnifies in dark
channels.
-/

namespace PrismKit.Oklab

open Library

theorem srgbToLinear_mem {code : Nat} (inside : code < 256) :
    srgbToLinear code ∈ srgbToLinearQ16 := by
  unfold srgbToLinear
  rw [List.getElem?_eq_getElem (by rwa [srgbToLinearQ16_length])]
  exact List.getElem_mem _

theorem srgbToLinear_mono {code later : Nat} (ordered : code ≤ later)
    (inside : later ≤ 255) : srgbToLinear code ≤ srgbToLinear later := by
  have adjacent : ∀ code < 255,
      srgbToLinear code ≤ srgbToLinear (code + 1) := by
    decide +kernel
  induction later, ordered using Nat.le_induction with
  | base => exact Nat.le_refl _
  | succ later _ inductionHypothesis =>
      exact
        Nat.le_trans (inductionHypothesis (Nat.le_of_succ_le inside))
          (adjacent later inside)

/-- The response to the colors whose channels do not exceed those of a
limit. -/
theorem cone_mono (row : Nat × Nat × Nat) {rgb limit : RgbColor}
    (red : rgb.red ≤ limit.red) (green : rgb.green ≤ limit.green)
    (blue : rgb.blue ≤ limit.blue) : cone row rgb ≤ cone row limit := by
  have bounded (code : UInt8) : code.toNat ≤ 255 :=
    Nat.le_of_lt_succ code.toNat_lt
  have first :=
    multiplyQ16_mono (Nat.le_refl row.1)
      (srgbToLinear_mono (UInt8.le_iff_toNat_le.mp red) (bounded _))
  have second :=
    multiplyQ16_mono (Nat.le_refl row.2.1)
      (srgbToLinear_mono (UInt8.le_iff_toNat_le.mp green) (bounded _))
  have third :=
    multiplyQ16_mono (Nat.le_refl row.2.2)
      (srgbToLinear_mono (UInt8.le_iff_toNat_le.mp blue) (bounded _))
  unfold cone sumQ16Products
  simp only
  split <;> split <;> omega

/-- A row whose products with the largest entry fit is never capped. -/
theorem cone_eq {row : Nat × Nat × Nat}
    (fits :
      multiplyQ16 row.1 65535 + multiplyQ16 row.2.1 65535 +
          multiplyQ16 row.2.2 65535 ≤
        65535)
    (rgb : RgbColor) :
    cone row rgb =
      multiplyQ16 row.1 (srgbToLinear rgb.red.toNat) +
          multiplyQ16 row.2.1 (srgbToLinear rgb.green.toNat) +
        multiplyQ16 row.2.2 (srgbToLinear rgb.blue.toNat) := by
  have first :=
    multiplyQ16_mono (Nat.le_refl row.1) (srgbToLinear_le rgb.red.toNat)
  have second :=
    multiplyQ16_mono (Nat.le_refl row.2.1) (srgbToLinear_le rgb.green.toNat)
  have third :=
    multiplyQ16_mono (Nat.le_refl row.2.2) (srgbToLinear_le rgb.blue.toNat)
  exact if_neg (by omega)

theorem cone_le (row : Nat × Nat × Nat) (rgb : RgbColor) :
    cone row rgb ≤ 65535 :=
  sumQ16Products_le _ _ _ _

/-- The response of the long, medium and short cones. -/
def long (rgb : RgbColor) : Nat :=
  cone (27015, 35149, 3372) rgb

def medium (rgb : RgbColor) : Nat :=
  cone (13887, 44610, 7038) rgb

def short (rgb : RgbColor) : Nat :=
  cone (5787, 18463, 41286) rgb

/-- No entry of the table has products of a larger ratio. -/
theorem long_medium_ratio (rgb : RgbColor) :
    2 * medium rgb ≤ 5 * long rgb ∧ 2 * long rgb ≤ 5 * medium rgb := by
  have entries : ∀ entry ∈ srgbToLinearQ16,
      (2 * multiplyQ16 13887 entry ≤ 5 * multiplyQ16 27015 entry ∧
          2 * multiplyQ16 27015 entry ≤ 5 * multiplyQ16 13887 entry) ∧
        (2 * multiplyQ16 44610 entry ≤ 5 * multiplyQ16 35149 entry ∧
          2 * multiplyQ16 35149 entry ≤ 5 * multiplyQ16 44610 entry) ∧
        2 * multiplyQ16 7038 entry ≤ 5 * multiplyQ16 3372 entry ∧
          2 * multiplyQ16 3372 entry ≤ 5 * multiplyQ16 7038 entry := by
    decide +kernel
  have red := (entries _ (srgbToLinear_mem rgb.red.toNat_lt)).1
  have green := (entries _ (srgbToLinear_mem rgb.green.toNat_lt)).2.1
  have blue := (entries _ (srgbToLinear_mem rgb.blue.toNat_lt)).2.2
  unfold long medium
  rw [cone_eq (by decide) rgb, cone_eq (by decide) rgb]
  simp only
  omega

/-! ### Returned channels -/

/-- The linear value of a channel of the converted color, by the row of the
inverse matrix. -/
def returnedChannel (row : Int × Int × Int) (rgb : RgbColor) : Int :=
  let l := rootQ13 (long rgb)
  let m := rootQ13 (medium rgb)
  let s := rootQ13 (short rgb)
  dot3Q12CoefficientsToQ13 row
    (cubeQ13 (clampQ13Root (returned (8192, 3247, 1768) l m s)))
    (cubeQ13 (clampQ13Root (returned (8192, -865, -523) l m s)))
    (cubeQ13 (clampQ13Root (returned (8192, -733, -10580) l m s)))

theorem fromOklab_toOklab (rgb : RgbColor) :
    fromOklab (toOklab rgb) =
      ⟨encodeSrgbQ13
          (clampQ13Root (returnedChannel (16698, -13548, 946) rgb)),
        encodeSrgbQ13
          (clampQ13Root (returnedChannel (-5196, 10690, -1398) rgb)),
        encodeSrgbQ13
          (clampQ13Root (returnedChannel (-17, -2881, 6994) rgb))⟩ := by
  rw [toOklab_eq]
  rfl

/-- What a row makes of the products of one table entry with a column of the
forward matrix, without the part that is the channel itself. -/
def leak (row : Int × Int × Int) (column : Nat × Nat × Nat) (own : Int)
    (entry : Nat) : Int :=
  row.1 * multiplyQ16 column.1 entry + row.2.1 * multiplyQ16 column.2.1 entry +
      row.2.2 * multiplyQ16 column.2.2 entry -
    own * entry

/-- Bounds of the leaks of the three channels of a color. -/
def Leaks (row own : Int × Int × Int) (red green blue : Enclosure Int) :
    Prop :=
  ∀ entry ∈ srgbToLinearQ16,
    red.Holds (leak row (27015, 13887, 5787) own.1 entry) ∧
      green.Holds (leak row (35149, 44610, 18463) own.2.1 entry) ∧
        blue.Holds (leak row (3372, 7038, 41286) own.2.2 entry)

instance (row own : Int × Int × Int) (red green blue : Enclosure Int) :
    Decidable (Leaks row own red green blue) :=
  inferInstanceAs (Decidable (∀ entry ∈ srgbToLinearQ16, _))

theorem leaks_sum {row own : Int × Int × Int} {red green blue : Enclosure Int}
    (leaks : Leaks row own red green blue) (rgb : RgbColor) :
    ((red.sum green).sum blue).Holds
      (row.1 * long rgb + row.2.1 * medium rgb + row.2.2 * short rgb -
        (own.1 * srgbToLinear rgb.red.toNat +
            own.2.1 * srgbToLinear rgb.green.toNat +
          own.2.2 * srgbToLinear rgb.blue.toNat)) := by
  have hr := (leaks _ (srgbToLinear_mem rgb.red.toNat_lt)).1
  have hg := (leaks _ (srgbToLinear_mem rgb.green.toNat_lt)).2.1
  have hb := (leaks _ (srgbToLinear_mem rgb.blue.toNat_lt)).2.2
  have sum := (hr.sum hg).sum hb
  have l := @cone_eq (27015, 35149, 3372) (by decide) rgb
  have m := @cone_eq (13887, 44610, 7038) (by decide) rgb
  have s := @cone_eq (5787, 18463, 41286) (by decide) rgb
  unfold long medium short
  rw [l, m, s]
  unfold leak at sum
  push_cast
  obtain ⟨below, above⟩ := sum
  constructor <;> linarith

/-- The limits of the three roots for a class of colors. -/
def Limited (limits : Int × Int × Int) (rgb : RgbColor) : Prop :=
  rootQ13 (long rgb) ≤ limits.1 ∧ rootQ13 (medium rgb) ≤ limits.2.1 ∧
    rootQ13 (short rgb) ≤ limits.2.2

instance (limits : Int × Int × Int) (rgb : RgbColor) :
    Decidable (Limited limits rgb) :=
  inferInstanceAs (Decidable (_ ∧ _))

/-- The colors whose channels do not exceed those of a limited one. -/
theorem Limited.mono {limits : Int × Int × Int} {rgb limit : RgbColor}
    (limited : Limited limits limit) (red : rgb.red ≤ limit.red)
    (green : rgb.green ≤ limit.green) (blue : rgb.blue ≤ limit.blue) :
    Limited limits rgb := by
  obtain ⟨first, second, third⟩ := limited
  exact
    ⟨Int.le_trans (rootQ13_mono (cone_mono _ red green blue)) first,
      Int.le_trans (rootQ13_mono (cone_mono _ red green blue)) second,
      Int.le_trans (rootQ13_mono (cone_mono _ red green blue)) third⟩

/-- Where the three roots come back to. -/
theorem roots_steps (rgb : RgbColor) :
    (returned (8192, 3247, 1768) (rootQ13 (long rgb)) (rootQ13 (medium rgb))
          (rootQ13 (short rgb)) -
        rootQ13 (long rgb),
      returned (8192, -865, -523) (rootQ13 (long rgb)) (rootQ13 (medium rgb))
          (rootQ13 (short rgb)) -
        rootQ13 (medium rgb)) ∈ steps ∧
      returned (8192, -733, -10580) (rootQ13 (long rgb))
          (rootQ13 (medium rgb)) (rootQ13 (short rgb)) -
        rootQ13 (short rgb) ∈ shortSteps := by
  have ratio := long_medium_ratio rgb
  exact
    returned_steps (rootQ13_bounds _) (rootQ13_bounds _) (rootQ13_bounds _)
      (rootQ13_ratio (cone_le _ _) (cone_le _ _) ratio.1)
      (rootQ13_ratio (cone_le _ _) (cone_le _ _) ratio.2)

theorem returned_deviation {limit back : Int} {value : Nat}
    (bounded : value ≤ 65535) (capped : rootQ13 value ≤ limit)
    (steps : -1 ≤ back - rootQ13 value ∧ back - rootQ13 value ≤ 2) :
    (deviation limit (back - rootQ13 value)).Holds
      (8 * cubeQ13 (clampQ13Root back) - value) := by
  have held := deviation_holds bounded capped steps.1 steps.2
  rw [add_sub_cancel] at held
  exact held

/-- The error of a channel in parts of 2^28: what its row leaks of the three
channels, what the cubes deviate, and the rounding of the channel itself. -/
theorem returnedChannel_error {row own limits : Int × Int × Int}
    {red green blue bound : Enclosure Int} {rgb : RgbColor}
    (leaks : Leaks row own red green blue) (budget : Budget row limits bound)
    (limited : Limited limits rgb) :
    ((((red.sum green).sum blue).sum bound).sum ⟨-16384, 16384⟩).Holds
      (32768 * returnedChannel row rgb -
        (own.1 * srgbToLinear rgb.red.toNat +
            own.2.1 * srgbToLinear rgb.green.toNat +
          own.2.2 * srgbToLinear rgb.blue.toNat)) := by
  obtain ⟨pair, third⟩ := roots_steps rgb
  have sum := leaks_sum leaks rgb
  have within := budget _ pair _ third
  have bounds := steps_bounds pair
  rw [mem_shortSteps] at third
  unfold returnedChannel
  simp only at within bounds third ⊢
  generalize returned (8192, 3247, 1768) (rootQ13 (long rgb))
    (rootQ13 (medium rgb)) (rootQ13 (short rgb)) = l at *
  generalize returned (8192, -865, -523) (rootQ13 (long rgb))
    (rootQ13 (medium rgb)) (rootQ13 (short rgb)) = m at *
  generalize returned (8192, -733, -10580) (rootQ13 (long rgb))
    (rootQ13 (medium rgb)) (rootQ13 (short rgb)) = s at *
  have dl := @returned_deviation _ l (long rgb) (cone_le _ _) limited.1 bounds.1
  have dm :=
    @returned_deviation _ m (medium rgb) (cone_le _ _) limited.2.1 bounds.2
  have ds :=
    @returned_deviation _ s (short rgb) (cone_le _ _) limited.2.2 third
  have deviations := (dl.form dm ds row).widen within
  obtain ⟨below, above⟩ := sum.sum deviations
  have rounding :=
    @roundDivideSigned_spec 4096
      (row.1 * cubeQ13 (clampQ13Root l) + row.2.1 * cubeQ13 (clampQ13Root m) +
        row.2.2 * cubeQ13 (clampQ13Root s)) (by decide)
  unfold dot3Q12CoefficientsToQ13 dot3 q12CoefficientScale
  unfold Enclosure.sum at *
  simp only at *
  constructor
  · simp only
    linarith
  · simp only
    linarith

/-- The code is the one of the nearest entry. -/
theorem encodeSrgbQ13_nearest {linear : Int} (lower : 0 ≤ linear)
    (upper : linear ≤ 8192) :
    Nearest srgbToLinear 255 (8 * linear.toNat)
      (encodeSrgbQ13 linear).toNat := by
  have ordered : ∀ index later, index ≤ later → later ≤ 255 →
      srgbToLinear index ≤ srgbToLinear later := fun _ _ =>
    srgbToLinear_mono
  have target : (linear % 4294967296).toNat * 8 % 4294967296 =
      8 * linear.toNat := by omega
  have found := encodeSearch_spec (8 * linear.toNat)
  unfold encodeSrgbQ13
  simp only [target]
  generalize encodeSearch (8 * linear.toNat) 256 0 256 = low at found
  have bounded := found.le_high
  split
  · rename_i zero
    subst zero
    have failed := found.fails_at (by decide)
    rw [decide_eq_false_iff_not, Nat.not_lt] at failed
    exact nearest_first ordered failed
  · rename_i nonzero
    have passed := found.holds_before (Nat.pos_of_ne_zero nonzero)
    rw [decide_eq_true_eq] at passed
    split
    · rename_i beyond
      have last : low = 256 := by omega
      subst last
      apply nearest_last ordered (Nat.le_of_lt passed)
      intro _
      exact Nat.lt_of_le_of_lt (srgbToLinear_mono (by decide) (by decide))
        passed
    · rename_i inside
      have failed := found.fails_at (Nat.not_le.mp inside)
      rw [decide_eq_false_iff_not, Nat.not_lt] at failed
      rw [UInt8.toNat_ofNat', Nat.mod_eq_of_lt (by split <;> omega)]
      exact
        nearest_choice ordered (Nat.pos_of_ne_zero nonzero) (by omega) passed
          failed

/-- An error within which the nearest entry is at most a number of codes
off. -/
def Separated (error : Enclosure Int) (spread code : Nat) : Prop :=
  (code + spread < 255 →
      2 * (4096 * srgbToLinear code + error.upper) ≤
        4096 * halfway srgbToLinear (code + spread)) ∧
    (spread < code →
      4096 * halfway srgbToLinear (code - spread - 1) <
        2 * (4096 * srgbToLinear code + error.lower))

instance (error : Enclosure Int) (spread code : Nat) :
    Decidable (Separated error spread code) :=
  inferInstanceAs (Decidable (_ ∧ _))

/-- The distance of two codes. -/
def codeDistance (first second : UInt8) : Nat :=
  (first.toNat - second.toNat : Int).natAbs

/-- The errors in linear light, in Q0.16, that leave a code within a number of
codes: they stop short of the middle between the last of these codes and the
next one. -/
def Affords (spread code : Nat) (error : Int) : Prop :=
  (code + spread < 255 →
      2 * error ≤
        halfway srgbToLinear (code + spread) - 2 * srgbToLinear code) ∧
    (spread < code →
      halfway srgbToLinear (code - spread - 1) - 2 * srgbToLinear code <
        2 * error)

instance (spread code : Nat) (error : Int) :
    Decidable (Affords spread code error) :=
  inferInstanceAs (Decidable (_ ∧ _))

/-- The budget is exact. -/
theorem codeDistance_le_iff {channel : Int} {spread : Nat} {code : UInt8} :
    codeDistance (encodeSrgbQ13 (clampQ13Root channel)) code ≤ spread ↔
      Affords spread code.toNat (8 * channel - srgbToLinear code.toNat) := by
  have bounds := clampQ13Root_bounds channel
  have inside := code.toNat_lt
  have nearest := encodeSrgbQ13_nearest bounds.1 bounds.2
  have byte := (encodeSrgbQ13 (clampQ13Root channel)).toNat_lt
  have clamped :
      clampQ13Root channel = channel ∨
        clampQ13Root channel = 0 ∧ channel < 0 ∨
          clampQ13Root channel = 8192 ∧ 8192 < channel := by
    unfold clampQ13Root q13One
    split
    · omega
    · split <;> omega
  generalize clampQ13Root channel = linear at *
  have room : ∀ index, halfway srgbToLinear index < 131072 := by
    intro index
    have here := srgbToLinear_le index
    have next := srgbToLinear_le (index + 1)
    unfold halfway
    omega
  have distance :
      codeDistance (encodeSrgbQ13 linear) code ≤ spread ↔
        (encodeSrgbQ13 linear).toNat ≤ code.toNat + spread ∧
          code.toNat ≤ (encodeSrgbQ13 linear).toNat + spread := by
    unfold codeDistance
    omega
  rw [distance]
  constructor
  · rintro ⟨high, low⟩
    constructor
    · intro below
      have reached := (nearest _ below).mp high
      have short := room (code.toNat + spread)
      omega
    · intro above
      have missed :=
        mt (nearest (code.toNat - spread - 1) (by omega)).mpr (by omega)
      omega
  · rintro ⟨high, low⟩
    constructor
    · rcases Nat.lt_or_ge (code.toNat + spread) 255 with below | beyond
      · have reached := high below
        have short := room (code.toNat + spread)
        rw [nearest _ below]
        omega
      · omega
    · by_contra far
      have missed := low (by omega)
      have reached :=
        (nearest (code.toNat - spread - 1) (by omega)).mp (by omega)
      have short := room (code.toNat - spread - 1)
      omega

theorem codeDistance_le {error : Enclosure Int} {channel : Int} {spread : Nat}
    {code : UInt8}
    (held :
      error.Holds (32768 * channel - 4096 * srgbToLinear code.toNat))
    (separated : Separated error spread code.toNat) :
    codeDistance (encodeSrgbQ13 (clampQ13Root channel)) code ≤ spread := by
  obtain ⟨below, above⟩ := held
  obtain ⟨rises, falls⟩ := separated
  rw [codeDistance_le_iff]
  constructor
  · intro within
    have room := rises within
    omega
  · intro within
    have room := falls within
    omega

/-! ### The three channels -/

/-- A channel of the conversion: its row of the inverse matrix, the factor of
its own part, and what the row leaks of each channel. -/
structure Channel where
  row : Int × Int × Int
  own : Int × Int × Int
  code : RgbColor → UInt8
  red : Enclosure Int
  green : Enclosure Int
  blue : Enclosure Int
  own_code :
    ∀ rgb,
      own.1 * srgbToLinear rgb.red.toNat +
            own.2.1 * srgbToLinear rgb.green.toNat +
          own.2.2 * srgbToLinear rgb.blue.toNat =
        4096 * srgbToLinear (code rgb).toNat
  leaks : Leaks row own red green blue

/-- What the conversion to OKLab and back adds to the linear value of a channel
of a color, in Q0.16. -/
def Channel.linearError (channel : Channel) (rgb : RgbColor) : Int :=
  8 * returnedChannel channel.row rgb - srgbToLinear (channel.code rgb).toNat

/-- The colors up to a limit, with the budget of a channel for them. -/
structure Shade (channel : Channel) where
  limit : RgbColor
  limits : Int × Int × Int
  bound : Enclosure Int
  limited : Limited limits limit
  budget : Budget channel.row limits bound

namespace Shade

variable {channel : Channel} (shade : Shade channel)

def error : Enclosure Int :=
  (((channel.red.sum channel.green).sum channel.blue).sum shade.bound).sum
    ⟨-16384, 16384⟩

theorem error_holds {rgb : RgbColor} (red : rgb.red ≤ shade.limit.red)
    (green : rgb.green ≤ shade.limit.green)
    (blue : rgb.blue ≤ shade.limit.blue) :
    shade.error.Holds
      (32768 * returnedChannel channel.row rgb -
        4096 * srgbToLinear (channel.code rgb).toNat) := by
  have held :=
    returnedChannel_error channel.leaks shade.budget
      (shade.limited.mono red green blue)
  rw [channel.own_code] at held
  exact held

theorem distance_le {rgb : RgbColor} {spread : Nat}
    (red : rgb.red ≤ shade.limit.red) (green : rgb.green ≤ shade.limit.green)
    (blue : rgb.blue ≤ shade.limit.blue)
    (separated : Separated shade.error spread (channel.code rgb).toNat) :
    codeDistance
        (encodeSrgbQ13 (clampQ13Root (returnedChannel channel.row rgb)))
        (channel.code rgb) ≤
      spread :=
  codeDistance_le (shade.error_holds red green blue) separated

end Shade

theorem le_255 (code : UInt8) : code ≤ 255 := by
  rw [UInt8.le_iff_toNat_le]
  exact Nat.le_of_lt_succ code.toNat_lt

def redChannel : Channel where
  row := (16698, -13548, 946)
  own := (4096, 0, 0)
  code := RgbColor.red
  red := ⟨-15914, 13686⟩
  green := ⟨-13318, 19166⟩
  blue := ⟨-14966, 20512⟩
  own_code := by
    intro rgb
    simp only
    omega
  leaks := by decide +kernel

def greenChannel : Channel where
  row := (-5196, 10690, -1398)
  own := (0, 4096, 0)
  code := RgbColor.green
  red := ⟨-14954, 6182⟩
  green := ⟨-7290, 7750⟩
  blue := ⟨-8104, 8026⟩
  own_code := by
    intro rgb
    simp only
    omega
  leaks := by decide +kernel

def blueChannel : Channel where
  row := (-17, -2881, 6994)
  own := (0, 0, 4096)
  code := RgbColor.blue
  red := ⟨-3990, 10589⟩
  green := ⟨-4242, 14597⟩
  blue := ⟨-17872, 3721⟩
  own_code := by
    intro rgb
    simp only
    omega
  leaks := by decide +kernel

def darkRed : Shade redChannel where
  limit := ⟨63, 255, 255⟩
  limits := (6941, 7600, 7956)
  bound := ⟨-847232, 861126⟩
  limited := by decide +kernel
  budget := by decide +kernel

def dimRed : Shade redChannel where
  limit := ⟨106, 255, 255⟩
  limits := (7086, 7663, 7980)
  bound := ⟨-877478, 877182⟩
  limited := by decide +kernel
  budget := by decide +kernel

def anyRed : Shade redChannel where
  limit := ⟨255, 255, 255⟩
  limits := (8192, 8192, 8192)
  bound := ⟨-1043200, 1091740⟩
  limited := by decide +kernel
  budget := by decide +kernel

def dimGreen : Shade greenChannel where
  limit := ⟨255, 72, 255⟩
  limits := (6495, 5846, 7398)
  bound := ⟨-431470, 401012⟩
  limited := by decide +kernel
  budget := by decide +kernel

def anyGreen : Shade greenChannel where
  limit := ⟨255, 255, 255⟩
  limits := (8192, 8192, 8192)
  bound := ⟨-666646, 650578⟩
  limited := by decide +kernel
  budget := by decide +kernel

def dimBlue : Shade blueChannel where
  limit := ⟨255, 255, 66⟩
  limits := (8057, 7905, 6058)
  bound := ⟨-306475, 395714⟩
  limited := by decide +kernel
  budget := by decide +kernel

def anyBlue : Shade blueChannel where
  limit := ⟨255, 255, 255⟩
  limits := (8192, 8192, 8192)
  bound := ⟨-434050, 614194⟩
  limited := by decide +kernel
  budget := by decide +kernel

section Distances

variable (rgb : RgbColor)

theorem red_distance :
    codeDistance (fromOklab (toOklab rgb)).red rgb.red ≤
      if rgb.red.toNat < 91 then 11 else 1 := by
  have dark : ∀ code < 64, Separated darkRed.error 11 code := by
    decide +kernel
  have dim : ∀ code < 107, 64 ≤ code →
      Separated dimRed.error (if code < 91 then 11 else 1) code := by
    decide +kernel
  have any : ∀ code < 256, 107 ≤ code → Separated anyRed.error 1 code := by
    decide +kernel
  rw [fromOklab_toOklab]
  rcases Nat.lt_or_ge rgb.red.toNat 64 with low | high
  · have covered : rgb.red ≤ 63 :=
      UInt8.le_iff_toNat_le.mpr (Nat.le_of_lt_succ low)
    rw [if_pos (Nat.lt_trans low (by decide))]
    exact darkRed.distance_le covered (le_255 _) (le_255 _) (dark _ low)
  · rcases Nat.lt_or_ge rgb.red.toNat 107 with low | bright
    · have covered : rgb.red ≤ 106 :=
        UInt8.le_iff_toNat_le.mpr (Nat.le_of_lt_succ low)
      exact dimRed.distance_le covered (le_255 _) (le_255 _) (dim _ low high)
    · rw [if_neg (by omega)]
      exact
        anyRed.distance_le (le_255 _) (le_255 _) (le_255 _)
          (any _ rgb.red.toNat_lt bright)

theorem green_distance :
    codeDistance (fromOklab (toOklab rgb)).green rgb.green ≤
      if rgb.green.toNat < 51 then 6 else 1 := by
  have dim : ∀ code < 73,
      Separated dimGreen.error (if code < 51 then 6 else 1) code := by
    decide +kernel
  have any : ∀ code < 256, 73 ≤ code → Separated anyGreen.error 1 code := by
    decide +kernel
  rw [fromOklab_toOklab]
  rcases Nat.lt_or_ge rgb.green.toNat 73 with low | bright
  · have covered : rgb.green ≤ 72 :=
      UInt8.le_iff_toNat_le.mpr (Nat.le_of_lt_succ low)
    exact dimGreen.distance_le (le_255 _) covered (le_255 _) (dim _ low)
  · rw [if_neg (by omega)]
    exact
      anyGreen.distance_le (le_255 _) (le_255 _) (le_255 _)
        (any _ rgb.green.toNat_lt bright)

theorem blue_distance :
    codeDistance (fromOklab (toOklab rgb)).blue rgb.blue ≤
      if rgb.blue.toNat < 46 then 5 else 1 := by
  have dim : ∀ code < 67,
      Separated dimBlue.error (if code < 46 then 5 else 1) code := by
    decide +kernel
  have any : ∀ code < 256, 67 ≤ code → Separated anyBlue.error 1 code := by
    decide +kernel
  rw [fromOklab_toOklab]
  rcases Nat.lt_or_ge rgb.blue.toNat 67 with low | bright
  · have covered : rgb.blue ≤ 66 :=
      UInt8.le_iff_toNat_le.mpr (Nat.le_of_lt_succ low)
    exact dimBlue.distance_le (le_255 _) (le_255 _) covered (dim _ low)
  · rw [if_neg (by omega)]
    exact
      anyBlue.distance_le (le_255 _) (le_255 _) (le_255 _)
        (any _ rgb.blue.toNat_lt bright)

theorem linearError_le :
    (redChannel.linearError rgb).natAbs ≤ 283 ∧
      (greenChannel.linearError rgb).natAbs ≤ 174 ∧
        (blueChannel.linearError rgb).natAbs ≤ 161 := by
  have red := @Shade.error_holds _ anyRed rgb (le_255 _) (le_255 _) (le_255 _)
  have green := @Shade.error_holds _ anyGreen rgb (le_255 _) (le_255 _) (le_255 _)
  have blue := @Shade.error_holds _ anyBlue rgb (le_255 _) (le_255 _) (le_255 _)
  have first : anyRed.error = ⟨-1103782, 1161488⟩ := rfl
  have second : anyGreen.error = ⟨-713378, 688920⟩ := rfl
  have third : anyBlue.error = ⟨-476538, 659485⟩ := rfl
  rw [first] at red
  rw [second] at green
  rw [third] at blue
  obtain ⟨redBelow, redAbove⟩ := red
  obtain ⟨greenBelow, greenAbove⟩ := green
  obtain ⟨blueBelow, blueAbove⟩ := blue
  unfold Channel.linearError
  simp only at *
  omega

end Distances

/-- Grays leave their three channels nearly equal, so that the errors of the
responses cancel. -/
theorem gray_distance {rgb : RgbColor} (first : rgb.red = rgb.green)
    (second : rgb.green = rgb.blue) :
    codeDistance (fromOklab (toOklab rgb)).red rgb.red ≤ 1 ∧
      codeDistance (fromOklab (toOklab rgb)).green rgb.green ≤ 1 ∧
        codeDistance (fromOklab (toOklab rgb)).blue rgb.blue ≤ 1 := by
  have dark : ∀ code < 91,
      let gray := UInt8.ofNat code
      let returned := fromOklab (toOklab ⟨gray, gray, gray⟩)
      codeDistance returned.red gray ≤ 1 ∧
        codeDistance returned.green gray ≤ 1 ∧
          codeDistance returned.blue gray ≤ 1 := by
    decide +kernel
  obtain ⟨red, green, blue⟩ := rgb
  simp only at first second
  subst first second
  rcases Nat.lt_or_ge red.toNat 91 with low | bright
  · have returned := dark red.toNat low
    rw [UInt8.ofNat_toNat] at returned
    exact returned
  · have r := red_distance ⟨red, red, red⟩
    have g := green_distance ⟨red, red, red⟩
    have b := blue_distance ⟨red, red, red⟩
    rw [if_neg (Nat.not_lt.mpr bright)] at r
    rw [if_neg (by simp only; omega)] at g b
    exact ⟨r, g, b⟩

theorem interpolateComponent_self {value : Int} {elapsed duration : Nat}
    (narrow : Narrow value) (positive : 0 < elapsed)
    (running : elapsed < duration) :
    interpolateComponent value value elapsed duration = value := by
  have between := interpolateComponent_between narrow narrow positive running
  omega

/-- Such a gradient holds the color that the conversion leaves. -/
theorem interpolateRgb_self (rgb : RgbColor) {elapsed duration : UInt16}
    (positive : 0 < elapsed) (running : elapsed < duration) :
    interpolateRgb rgb rgb elapsed duration = fromOklab (toOklab rgb) := by
  have nonzero : elapsed ≠ 0 := by
    rintro rfl
    exact absurd positive (by decide)
  have narrow := narrow_toOklab rgb
  rw [interpolateRgb_of_between nonzero running,
    interpolate_of_between _ _ positive running]
  rw [UInt16.lt_iff_toNat_lt] at positive running
  rw [interpolateComponent_self narrow.1 positive running,
    interpolateComponent_self narrow.2.1 positive running,
    interpolateComponent_self narrow.2.2 positive running]

end PrismKit.Oklab
