import Mathlib.Data.Nat.Init

/-!
# Lower-bound search

The bisection that finds the first index of an interval at which a test stops
to hold.  The interval gets shorter in every iteration, so that its length is
enough fuel.
-/

namespace PrismKit.Library

/-- Bisection of `[low, high)`: the test holds before the result and fails at
the result. -/
def lowerBound (before : Nat → Bool) : Nat → Nat → Nat → Nat
  | 0, low, _ => low
  | fuel + 1, low, high =>
      if low < high then
        let middle := low + (high - low) / 2
        if before middle then
          lowerBound before fuel (middle + 1) high
        else
          lowerBound before fuel low middle
      else
        low

/-- What a search of `[low, high)` knows of its result: the test was made on
both sides of it. -/
structure LowerBound (before : Nat → Bool) (low high result : Nat) : Prop where
  low_le : low ≤ result
  le_high : result ≤ high
  holds_before : low < result → before (result - 1) = true
  fails_at : result < high → before result = false

variable {before : Nat → Bool}

theorem lowerBound_spec {fuel low high : Nat} (ordered : low ≤ high)
    (enough : high - low ≤ fuel) :
    LowerBound before low high (lowerBound before fuel low high) := by
  induction fuel generalizing low high with
  | zero =>
      have empty : low = high := by omega
      subst empty
      exact
        ⟨Nat.le_refl _, Nat.le_refl _, fun less => absurd less (Nat.lt_irrefl _),
          fun less => absurd less (Nat.lt_irrefl _)⟩
  | succ fuel inductionHypothesis =>
      rw [lowerBound]
      by_cases nonempty : low < high
      · rw [if_pos nonempty]
        simp only
        generalize split : low + (high - low) / 2 = middle
        have above : low ≤ middle := by omega
        have below : middle < high := by omega
        cases test : before middle with
        | true =>
            rw [if_pos rfl]
            have right :=
              @inductionHypothesis (middle + 1) high below (by omega)
            refine
              ⟨Nat.le_trans (by omega) right.low_le, right.le_high, ?_,
                right.fails_at⟩
            intro _
            rcases Nat.eq_or_lt_of_le right.low_le with same | later
            · rw [← same, Nat.add_sub_cancel]
              exact test
            · exact right.holds_before later
        | false =>
            rw [if_neg Bool.false_ne_true]
            have left := @inductionHypothesis low middle above (by omega)
            refine
              ⟨left.low_le, Nat.le_trans left.le_high (by omega),
                left.holds_before, ?_⟩
            intro _
            rcases Nat.eq_or_lt_of_le left.le_high with same | earlier
            · rw [same]
              exact test
            · exact left.fails_at earlier
      · rw [if_neg nonempty]
        exact
          ⟨Nat.le_refl _, ordered, fun less => absurd less (Nat.lt_irrefl _),
            fun less => absurd less nonempty⟩

/-- Twice the value in the middle between an entry of a table and the next. -/
def halfway (table : Nat → Nat) (index : Nat) : Nat :=
  table index + table (index + 1)

/-- An index is the one of an entry nearest to a target, the lower one of two,
if exactly the middles from it on are not below the target. -/
def Nearest (table : Nat → Nat) (high target result : Nat) : Prop :=
  ∀ index < high, result ≤ index ↔ 2 * target ≤ halfway table index

section Nearest

variable {table : Nat → Nat} {high target : Nat}
  (ordered :
    ∀ index later, index ≤ later → later ≤ high → table index ≤ table later)
include ordered

theorem nearest_last (above : table high ≤ target)
    (strict : 0 < high → table (high - 1) < target) :
    Nearest table high target high := by
  intro index inside
  have here := ordered index (high - 1) (by omega) (Nat.sub_le _ _)
  have next := ordered (index + 1) high inside (Nat.le_refl _)
  have below := strict (Nat.zero_lt_of_lt inside)
  unfold halfway
  omega

theorem nearest_first (below : target ≤ table 0) :
    Nearest table high target 0 := by
  intro index inside
  have here := ordered 0 index (Nat.zero_le _) (Nat.le_of_lt inside)
  have next := ordered 0 (index + 1) (Nat.zero_le _) inside
  unfold halfway
  omega

/-- A target between two entries, of which the nearer one is chosen. -/
theorem nearest_choice {low : Nat} (positive : 0 < low) (inside : low ≤ high)
    (passed : table (low - 1) < target) (reached : target ≤ table low) :
    Nearest table high target
      (if target - table (low - 1) ≤ table low - target then
        low - 1
      else
        low) := by
  intro index within
  unfold halfway
  rcases Nat.lt_trichotomy (index + 1) low with before | same | after
  · have here := ordered index (low - 1) (by omega) (by omega)
    have next := ordered (index + 1) (low - 1) (by omega) (by omega)
    split <;> omega
  · subst same
    rw [Nat.add_sub_cancel] at passed ⊢
    split <;> omega
  · have here := ordered low index (by omega) (Nat.le_of_lt within)
    have next := ordered low (index + 1) (by omega) within
    split <;> omega

omit ordered

theorem Nearest.mono {larger result later : Nat}
    (found : Nearest table high target result)
    (next : Nearest table high larger later) (less : target ≤ larger)
    (within : result ≤ high) : result ≤ later := by
  rcases Nat.lt_or_ge later high with inside | outside
  · apply (found later inside).mpr
    have reached := (next later inside).mp (Nat.le_refl _)
    omega
  · exact Nat.le_trans within outside

end Nearest

end PrismKit.Library
