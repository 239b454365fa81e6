import Mathlib.Data.Nat.Init
import PrismKit.Library.Successor

/-!
# Periodic grids

The multiples of a period, seen from an instant: the distance to the next one,
and that there is none before it.  A grid may also be based at another instant
than zero, and it may end.
-/

namespace PrismKit.Library

/-- The distance from an instant to the next multiple of the period. -/
def untilGrid (period time : Nat) : Nat :=
  period - time % period

section Grid

variable {period time : Nat}

theorem untilGrid_pos (positive : 0 < period) : 0 < untilGrid period time :=
  Nat.sub_pos_of_lt (Nat.mod_lt time positive)

theorem untilGrid_le : untilGrid period time ≤ period :=
  Nat.sub_le _ _

/-- After the distance there is a multiple. -/
theorem add_untilGrid (positive : 0 < period) :
    time + untilGrid period time = period * (time / period + 1) := by
  have rest := Nat.mod_lt time positive
  have split := Nat.mod_add_div time period
  unfold untilGrid
  rw [Nat.mul_add, Nat.mul_one]
  omega

theorem dvd_add_untilGrid (positive : 0 < period) :
    period ∣ time + untilGrid period time :=
  ⟨_, add_untilGrid positive⟩

/-- A multiple after the instant is not before the end of the distance. -/
theorem add_untilGrid_le {later : Nat} (positive : 0 < period)
    (after : time < later) (multiple : period ∣ later) :
    time + untilGrid period time ≤ later := by
  obtain ⟨factor, rfl⟩ := multiple
  rw [add_untilGrid positive]
  apply Nat.mul_le_mul_left
  exact Nat.succ_le_of_lt (Nat.div_lt_of_lt_mul after)

/-- The points of a grid based at `base` that come before `finish`, and
`finish` itself. -/
def gridUntil (period base finish : Nat) : Set Nat :=
  {point | point = finish ∨ point < finish ∧ period ∣ point - base}

/-- The distance to the grid, or to the end where that is nearer, leads to the
next of these points. -/
theorem successor_gridUntil {base finish : Nat} (positive : 0 < period)
    (based : base ≤ time) (unfinished : time < finish) :
    Successor (gridUntil period base finish) time
      (time + min (finish - time) (untilGrid period (time - base))) := by
  have ahead := @untilGrid_pos period (time - base) positive
  constructor
  · refine ⟨?_, by omega⟩
    rcases Nat.lt_or_ge (time + untilGrid period (time - base)) finish with
      within | beyond
    · right
      rw [Nat.min_eq_right (by omega)]
      refine ⟨within, ?_⟩
      have shift :
          time + untilGrid period (time - base) - base =
            time - base + untilGrid period (time - base) := by
        omega
      rw [shift]
      exact dvd_add_untilGrid positive
    · left
      rw [Nat.min_eq_left (by omega)]
      omega
  · rintro point ⟨rfl | ⟨within, multiple⟩, after⟩
    · omega
    · have next :=
        add_untilGrid_le positive (by omega : time - base < point - base)
          multiple
      omega

end Grid

end PrismKit.Library
