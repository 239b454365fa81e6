import Mathlib.Data.List.Induction
import Mathlib.Logic.Function.Basic

/-!
# Overwriting a memory

Writes to a memory in their order.  A cell holds what was written to it last, so
the writes before others that reach the same cells leave no trace, and a log can
be replayed.
-/

namespace PrismKit.Library

universe u v

variable {κ : Type u} {ν : Type v} [DecidableEq κ]

def overwrite (memory : κ → ν) (writes : List (κ × ν)) : κ → ν :=
  writes.foldl (fun memory write => Function.update memory write.1 write.2)
    memory

/-- What was written to a cell last. -/
def lastWrite (writes : List (κ × ν)) (key : κ) : Option ν :=
  writes.reverse.lookup key

theorem lastWrite_append (earlier later : List (κ × ν)) (key : κ) :
    lastWrite (earlier ++ later) key =
      (lastWrite later key).or (lastWrite earlier key) := by
  rw [lastWrite, List.reverse_append, List.lookup_append]
  rfl

theorem lastWrite_isSome {writes : List (κ × ν)} {key : κ} :
    (lastWrite writes key).isSome ↔ ∃ write ∈ writes, write.1 = key := by
  rw [lastWrite, List.lookup_isSome_iff]
  constructor
  · rintro ⟨write, member, same⟩
    exact ⟨write, List.mem_reverse.mp member, (eq_of_beq same).symm⟩
  · rintro ⟨write, member, rfl⟩
    exact ⟨write, List.mem_reverse.mpr member, beq_self_eq_true _⟩

theorem overwrite_append (memory : κ → ν) (earlier later : List (κ × ν)) :
    overwrite memory (earlier ++ later) =
      overwrite (overwrite memory earlier) later :=
  List.foldl_append

@[simp]
theorem overwrite_singleton (memory : κ → ν) (key : κ) (value : ν) :
    overwrite memory [(key, value)] = Function.update memory key value :=
  rfl

theorem overwrite_apply (memory : κ → ν) (writes : List (κ × ν)) (key : κ) :
    overwrite memory writes key =
      (lastWrite writes key).getD (memory key) := by
  induction writes using List.reverseRecOn with
  | nil =>
      rfl
  | append_singleton writes write inductionHypothesis =>
      rw [overwrite_append, lastWrite_append]
      by_cases same : key = write.1
      · obtain ⟨written, value⟩ := write
        simp [overwrite, lastWrite, same]
      · have elsewhere : lastWrite [write] key = none := by
          rw [← Option.not_isSome_iff_eq_none, lastWrite_isSome]
          rintro ⟨other, member, rfl⟩
          cases List.mem_singleton.mp member
          exact same rfl
        rw [elsewhere, Option.none_or, ← inductionHypothesis]
        exact Function.update_of_ne same _ _

/-- Writes to cells that are written again leave no trace. -/
theorem overwrite_absorb {earlier later : List (κ × ν)}
    (again : ∀ write ∈ earlier, ∃ other ∈ later, other.1 = write.1)
    (memory : κ → ν) :
    overwrite memory (earlier ++ later) = overwrite memory later := by
  funext key
  rw [overwrite_apply, overwrite_apply, lastWrite_append]
  cases last : lastWrite later key with
  | some value =>
      rfl
  | none =>
      have unwritten : lastWrite earlier key = none := by
        rw [← Option.not_isSome_iff_eq_none, lastWrite_isSome]
        rintro ⟨write, member, rfl⟩
        have written := lastWrite_isSome.mpr (again write member)
        rw [last] at written
        cases written
      rw [unwritten]
      rfl

end PrismKit.Library
