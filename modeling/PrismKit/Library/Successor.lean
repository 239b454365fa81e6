import Mathlib.Data.List.Chain
import Mathlib.Order.Bounds.Basic

/-!
# Successors in a set

A list whose every entry is the next element of a set after the entry before it
runs through the set without gaps and without repetitions.
-/

namespace PrismKit.Library

variable {α : Type} [LinearOrder α] {among : Set α} {first other : α}
  {rest : List α}

/-- `next` is the first element of the set after `value`. -/
def Successor (among : Set α) (value next : α) : Prop :=
  IsLeast {other | other ∈ among ∧ value < other} next

theorem increasing_of_successors
    (chain : (first :: rest).IsChain (Successor among)) :
    (first :: rest).Pairwise (· < ·) := by
  apply List.IsChain.pairwise
  exact chain.imp fun value next step => step.1.2

/-- What the list runs through. -/
theorem mem_of_successors
    (chain : (first :: rest).IsChain (Successor among)) :
    other ∈ rest ↔
      other ∈ among ∧ first < other ∧
        other ≤ (first :: rest).getLast (List.cons_ne_nil first rest) := by
  induction rest generalizing first with
  | nil =>
      rw [List.getLast_singleton]
      constructor
      · intro member
        exact absurd member List.not_mem_nil
      · rintro ⟨-, after, upTo⟩
        exact absurd after (not_lt.mpr upTo)
  | cons next rest inductionHypothesis =>
      obtain ⟨step, steps⟩ := List.isChain_cons_cons.mp chain
      obtain ⟨⟨present, after⟩, least⟩ := step
      have listed := @inductionHypothesis next steps
      rw [List.getLast_cons (List.cons_ne_nil next rest), List.mem_cons,
        listed]
      constructor
      · rintro (rfl | ⟨among', later, upTo⟩)
        · refine ⟨present, after, ?_⟩
          rcases List.mem_cons.mp (List.getLast_mem (List.cons_ne_nil other rest))
            with same | member
          · exact le_of_eq same.symm
          · exact
              le_of_lt
                ((List.pairwise_cons.mp (increasing_of_successors steps)).1
                  _ member)
        · exact ⟨among', lt_trans after later, upTo⟩
      · rintro ⟨among', later, upTo⟩
        rcases eq_or_lt_of_le (least ⟨among', later⟩) with same | further
        · exact Or.inl same.symm
        · exact Or.inr ⟨among', further, upTo⟩

end PrismKit.Library
