/-!
# Least value with a sentinel

A running minimum kept in one variable, where a sentinel such as zero stands
for the minimum of no values at all.
-/

namespace PrismKit.Library

open Std

variable {α : Type} [LE α]

/-- `result` is the least of the values, or the sentinel if there are none. -/
inductive Earliest (sentinel : α) (values : List α) (result : α) : Prop
  | absent (empty : values = []) (same : result = sentinel)
  | least (present : result ≠ sentinel) (member : result ∈ values)
      (lower : ∀ value ∈ values, result ≤ value)

theorem Earliest.nil (sentinel : α) : Earliest sentinel [] sentinel :=
  .absent rfl rfl

theorem Earliest.of_ne_nil {sentinel result : α} {values : List α}
    (earliest : Earliest sentinel values result) (nonempty : values ≠ []) :
    result ≠ sentinel ∧ result ∈ values ∧
      ∀ value ∈ values, result ≤ value := by
  cases earliest with
  | absent empty same =>
      exact absurd empty nonempty
  | least present member lower =>
      exact ⟨present, member, lower⟩

variable [DecidableEq α] [LT α] [DecidableLT α]

/-- Keep the earlier of the current value and a new one. -/
def keepEarlier (sentinel current value : α) : α :=
  if current = sentinel ∨ value < current then value else current

theorem Earliest.snoc [IsLinearOrder α] [LawfulOrderLT α]
    {sentinel current value : α} {values : List α}
    (earliest : Earliest sentinel values current)
    (proper : value ≠ sentinel) :
    Earliest sentinel (values ++ [value])
      (keepEarlier sentinel current value) := by
  unfold keepEarlier
  cases earliest with
  | absent empty same =>
      rw [if_pos (Or.inl same), empty]
      apply Earliest.least proper List.mem_cons_self
      intro other member
      rw [List.mem_singleton.mp member]
      exact le_refl value
  | least present member lower =>
      split
      · rename_i replaced
        have below : value < current := replaced.resolve_left present
        apply Earliest.least proper
          (List.mem_append_right _ List.mem_cons_self)
        intro other among
        rcases List.mem_append.mp among with old | new
        · exact le_trans (le_of_lt below) (lower other old)
        · rw [List.mem_singleton.mp new]
          exact le_refl value
      · rename_i kept
        have above : current ≤ value :=
          not_lt.mp fun below => kept (Or.inr below)
        apply Earliest.least present (List.mem_append_left _ member)
        intro other among
        rcases List.mem_append.mp among with old | new
        · exact lower other old
        · rw [List.mem_singleton.mp new]
          exact above

end PrismKit.Library
