import Mathlib.Data.List.Basic
import Mathlib.Data.List.Range
import Mathlib.Logic.Function.Basic

/-!
# Counting on an index range

How the number of indexes with a property changes when the property changes at
one index, and how a sum of weights changes when one or two weights do.
-/

namespace PrismKit.Library

def countBelow (bound : Nat) (property : Nat → Bool) : Nat :=
  (List.range bound).countP property

theorem countBelow_succ (bound : Nat) (property : Nat → Bool) :
    countBelow (bound + 1) property =
      countBelow bound property + (property bound).toNat := by
  unfold countBelow
  rw [List.range_succ, List.countP_append]
  cases decided : property bound <;> simp [decided]

theorem countBelow_congr {bound : Nat} {property other : Nat → Bool}
    (same : ∀ index, index < bound → property index = other index) :
    countBelow bound property = countBelow bound other := by
  induction bound with
  | zero =>
      rfl
  | succ bound inductionHypothesis =>
      rw [countBelow_succ, countBelow_succ, same bound (Nat.lt_succ_self bound),
        inductionHypothesis fun index below =>
          same index (Nat.lt_succ_of_lt below)]

/-- Changing a property at one index moves the count by that index. -/
theorem countBelow_change {bound changed : Nat}
    {property other : Nat → Bool} (inRange : changed < bound)
    (same : ∀ index, index ≠ changed → property index = other index) :
    countBelow bound property + (other changed).toNat =
      countBelow bound other + (property changed).toNat := by
  induction bound with
  | zero =>
      exact absurd inRange (Nat.not_lt_zero changed)
  | succ bound inductionHypothesis =>
      rw [countBelow_succ, countBelow_succ]
      rcases Nat.lt_succ_iff_lt_or_eq.mp inRange with below | rfl
      · rw [same bound (Nat.ne_of_gt below)]
        have earlier := inductionHypothesis below
        omega
      · have equal :
            countBelow changed property = countBelow changed other :=
          countBelow_congr fun index below => same index (Nat.ne_of_lt below)
        omega

theorem countBelow_eq_zero_iff {bound : Nat} {property : Nat → Bool} :
    countBelow bound property = 0 ↔
      ∀ index, index < bound → property index = false := by
  unfold countBelow
  rw [List.countP_eq_zero]
  simp only [List.mem_range, Bool.not_eq_true]

/-- The sum of the weights of the indexes below the bound. -/
def total (weight : Nat → Nat) : Nat → Nat
  | 0 => 0
  | bound + 1 => total weight bound + weight bound

theorem total_congr {bound : Nat} {weight other : Nat → Nat}
    (same : ∀ index, index < bound → weight index = other index) :
    total weight bound = total other bound := by
  induction bound with
  | zero =>
      rfl
  | succ bound inductionHypothesis =>
      have earlier :=
        inductionHypothesis fun index below =>
          same index (Nat.lt_succ_of_lt below)
      rw [total, total, same bound (Nat.lt_succ_self bound), earlier]

theorem total_change {bound changed : Nat} {weight other : Nat → Nat}
    (inRange : changed < bound)
    (same : ∀ index, index ≠ changed → weight index = other index) :
    total weight bound + other changed =
      total other bound + weight changed := by
  induction bound with
  | zero =>
      exact absurd inRange (Nat.not_lt_zero changed)
  | succ bound inductionHypothesis =>
      rw [total, total]
      rcases Nat.lt_succ_iff_lt_or_eq.mp inRange with below | rfl
      · rw [same bound (Nat.ne_of_gt below)]
        have earlier := inductionHypothesis below
        omega
      · have equal : total weight changed = total other changed :=
          total_congr fun index below => same index (Nat.ne_of_lt below)
        omega

/-- Changing two weights moves the sum by both. -/
theorem total_exchange {bound first second : Nat} {weight other : Nat → Nat}
    (firstInRange : first < bound) (secondInRange : second < bound)
    (different : first ≠ second)
    (same :
      ∀ index, index ≠ first → index ≠ second → weight index = other index) :
    total weight bound + (other first + other second) =
      total other bound + (weight first + weight second) := by
  -- First move one weight, then the other.
  have moved :
      total weight bound + other first =
        total (Function.update weight first (other first)) bound +
          weight first := by
    have step :=
      total_change firstInRange
        (fun index apart =>
          (Function.update_of_ne apart (other first) weight).symm)
    rw [Function.update_self] at step
    exact step
  have rest :
      total (Function.update weight first (other first)) bound +
          other second =
        total other bound + weight second := by
    have step :=
      @total_change bound second
        (Function.update weight first (other first)) other secondInRange (by
          intro index apart
          by_cases isFirst : index = first
          · rw [isFirst, Function.update_self]
          · rw [Function.update_of_ne isFirst]
            exact same index isFirst apart)
    rw [Function.update_of_ne different.symm] at step
    exact step
  omega

end PrismKit.Library
