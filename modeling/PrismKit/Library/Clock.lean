import Mathlib.Algebra.Group.Nat.Defs

/-!
# Wrapping 32-bit clocks

Differences of readings of a millisecond clock that is truncated to 32 bits.
As long as two instants are less than a full turn apart, the difference of
their readings is the time between them.
-/

namespace PrismKit.Library

/-- Only equal instants have no difference. -/
theorem sub_eq_zero_iff {left right : UInt32} :
    left - right = 0 ↔ left = right := by
  constructor
  · intro zero
    have sum := UInt32.sub_add_cancel left right
    rw [zero, UInt32.zero_add] at sum
    exact sum.symm
  · intro same
    rw [same, UInt32.sub_self]

/-- The difference of two truncated readings is the elapsed time. -/
theorem toNat_sub_ofNat {start now : Nat} (ordered : start ≤ now)
    (near : now < start + 2 ^ 32) :
    (UInt32.ofNat now - UInt32.ofNat start).toNat = now - start := by
  rw [UInt32.toNat_sub, UInt32.toNat_ofNat', UInt32.toNat_ofNat']
  omega

/-- A truncated difference is never more than the elapsed time. -/
theorem toNat_sub_ofNat_le {start now : Nat} (ordered : start ≤ now) :
    (UInt32.ofNat now - UInt32.ofNat start).toNat ≤ now - start := by
  rw [UInt32.toNat_sub, UInt32.toNat_ofNat', UInt32.toNat_ofNat']
  omega

/-- An instant `delay` ahead appears almost a full turn behind. -/
theorem toNat_sub_add_self (instant delay : UInt32) (positive : delay ≠ 0) :
    (instant - (instant + delay)).toNat = 2 ^ 32 - delay.toNat := by
  have nonzero : delay.toNat ≠ 0 := fun zero =>
    positive (UInt32.toNat_inj.mp zero)
  have instantBound := instant.toNat_lt
  have delayBound := delay.toNat_lt
  rw [UInt32.toNat_sub, UInt32.toNat_add]
  omega

/-- The time that was set is the time that remains at first. -/
theorem add_sub_self (instant delay : UInt32) :
    instant + delay - instant = delay := by
  rw [UInt32.add_comm]
  exact UInt32.add_sub_cancel delay instant

/-- Differences do not see a common shift. -/
theorem add_sub_add_right (left right offset : UInt32) :
    left + offset - (right + offset) = left - right := by
  apply UInt32.toNat_inj.mp
  simp only [UInt32.toNat_sub, UInt32.toNat_add]
  have leftBound := left.toNat_lt
  have rightBound := right.toNat_lt
  omega

/-- The remaining time to an instant shrinks by the time that passes, until
it runs out; then the instant appears as the overshoot behind. -/
theorem toNat_sub_later (deadline : UInt32) {before now : Nat}
    (ordered : before ≤ now) (near : now < before + 2 ^ 32) :
    if now - before ≤ (deadline - UInt32.ofNat before).toNat then
      (deadline - UInt32.ofNat now).toNat =
        (deadline - UInt32.ofNat before).toNat - (now - before)
    else
      (UInt32.ofNat now - deadline).toNat =
        now - before - (deadline - UInt32.ofNat before).toNat := by
  have deadlineBound := deadline.toNat_lt
  simp only [UInt32.toNat_sub, UInt32.toNat_ofNat']
  split <;> omega

/-- The deadline lies ahead of an instant by at most sixteen bits. -/
def Ahead (instant deadline : UInt32) : Prop :=
  deadline - instant ≠ 0 ∧ (deadline - instant).toNat ≤ 65535

/-- A deadline that lay ahead and does not appear behind still lies ahead. -/
theorem Ahead.later {deadline : UInt32} {before now : Nat}
    (ahead : Ahead (UInt32.ofNat before) deadline) (ordered : before ≤ now)
    (near : now < before + 2 ^ 31)
    (waits : 2 ^ 31 ≤ (UInt32.ofNat now - deadline).toNat) :
    Ahead (UInt32.ofNat now) deadline := by
  obtain ⟨-, short⟩ := ahead
  have later := toNat_sub_later deadline ordered (by omega)
  split at later
  · refine ⟨?_, by omega⟩
    intro arrived
    rw [sub_eq_zero_iff.mp arrived, UInt32.sub_self, UInt32.toNat_zero]
      at waits
    omega
  · omega

/-- The readings do not decrease, and each is less than half a turn after the
one before it. -/
def Timely (readings : List Nat) : Prop :=
  ∀ index, index + 1 < readings.length →
    readings.getD index 0 ≤ readings.getD (index + 1) 0 ∧
      readings.getD (index + 1) 0 < readings.getD index 0 + 2 ^ 31

instance (readings : List Nat) : Decidable (Timely readings) :=
  decidable_of_iff
    (∀ index, index < readings.length - 1 →
      readings.getD index 0 ≤ readings.getD (index + 1) 0 ∧
        readings.getD (index + 1) 0 < readings.getD index 0 + 2 ^ 31)
    ⟨fun timely index below => timely index (by omega),
      fun timely index below => timely index (by omega)⟩

theorem getD_of_isPrefix {readings more : List Nat}
    (grows : readings <+: more) {index : Nat}
    (below : index < readings.length) :
    more.getD index 0 = readings.getD index 0 := by
  obtain ⟨rest, rfl⟩ := grows
  rw [List.getD_eq_getElem?_getD, List.getD_eq_getElem?_getD,
    List.getElem?_append_left below]

theorem Timely.of_prefix {readings more : List Nat} (timely : Timely more)
    (grows : readings <+: more) : Timely readings := by
  intro index below
  have earlier := getD_of_isPrefix grows (Nat.lt_of_succ_lt below)
  have later := getD_of_isPrefix grows below
  have step := timely index (Nat.lt_of_lt_of_le below grows.length_le)
  rw [earlier, later] at step
  exact step

theorem Timely.mono {readings : List Nat} (timely : Timely readings)
    {first last : Nat} (ordered : first ≤ last)
    (below : last < readings.length) :
    readings.getD first 0 ≤ readings.getD last 0 := by
  induction ordered with
  | refl =>
      exact Nat.le_refl _
  | @step last _ inductionHypothesis =>
      exact
        Nat.le_trans (inductionHypothesis (Nat.lt_of_succ_lt below))
          (timely last below).1

/-- `run` is the first positive position from `start` on whose reading is at
least `delay` after the reading at `start`. -/
structure FirstRun (readings : List Nat) (start delay run : Nat) : Prop where
  positive : 1 ≤ run
  ordered : start ≤ run
  reached : readings.getD start 0 + delay ≤ readings.getD run 0
  first :
    ∀ other, 1 ≤ other → start ≤ other → other < run →
      readings.getD other 0 < readings.getD start 0 + delay

theorem FirstRun.of_prefix {readings more : List Nat} {start delay run : Nat}
    (found : FirstRun readings start delay run) (grows : readings <+: more)
    (below : run < readings.length) : FirstRun more start delay run := by
  obtain ⟨positive, ordered, reached, first⟩ := found
  have startEq := getD_of_isPrefix grows (Nat.lt_of_le_of_lt ordered below)
  refine ⟨positive, ordered, ?_, ?_⟩
  · rw [startEq, getD_of_isPrefix grows below]
    exact reached
  · intro other otherPositive after before
    rw [startEq, getD_of_isPrefix grows (Nat.lt_trans before below)]
    exact first other otherPositive after before

/-- Without a delay the first run is the run of the start, or the first of
all. -/
theorem FirstRun.of_zero {readings : List Nat} {start run : Nat}
    (timely : Timely readings) (found : FirstRun readings start 0 run)
    (below : run < readings.length) : run = max 1 start := by
  obtain ⟨positive, ordered, -, first⟩ := found
  rcases Nat.lt_or_ge (max 1 start) run with before | notBefore
  · have late :=
      first (max 1 start) (Nat.le_max_left ..) (Nat.le_max_right ..) before
    have monotone :=
      timely.mono (Nat.le_max_right 1 start) (Nat.lt_trans before below)
    omega
  · omega

/-- A truncated difference that covers a short delay shows that it elapsed. -/
theorem elapsed_of_le {start now : Nat} {delay : UInt16}
    (ordered : start ≤ now)
    (covers : delay.toUInt32 ≤ UInt32.ofNat now - UInt32.ofNat start) :
    start + delay.toNat ≤ now := by
  have short := delay.toNat_lt
  by_cases near : now < start + 2 ^ 32
  · rw [UInt32.le_iff_toNat_le, toNat_sub_ofNat ordered near,
      UInt16.toNat_toUInt32] at covers
    omega
  · omega

/-- A truncated difference below a delay shows that it has not elapsed, if the
instants are less than a full turn apart. -/
theorem not_elapsed_of_not_le {start now : Nat} {delay : UInt16}
    (ordered : start ≤ now) (near : now < start + 2 ^ 32)
    (uncovered : ¬ delay.toUInt32 ≤ UInt32.ofNat now - UInt32.ofNat start) :
    now < start + delay.toNat := by
  rw [UInt32.le_iff_toNat_le, toNat_sub_ofNat ordered near,
    UInt16.toNat_toUInt32] at uncovered
  omega

end PrismKit.Library
