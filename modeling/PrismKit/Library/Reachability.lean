import PrismKit.Library.Loops
import Mathlib.Logic.Relation
import Mathlib.Data.Finset.Card
import Mathlib.Data.Finset.Range
import Mathlib.Data.Finset.Filter

/-!
# Reachability over finitely many nodes

Two facts about a relation on the nodes below a bound:

* rows of a relation that are closed in place through one node after another
  end as the transitive closure;
* the nodes of an acyclic relation can be ranked by the number of nodes they
  reach.
-/

namespace PrismKit.Library

open Relation

section Closure

variable {edge : Nat → Nat → Prop} {closed : Nat → Nat → Nat → Prop}

private theorem closed_mono
    (next :
      ∀ through source target,
        closed (through + 1) source target ↔
          closed through source target ∨
            closed through source through ∧ closed through through target)
    {low high source target : Nat} (ordered : low ≤ high)
    (holds : closed low source target) : closed high source target := by
  induction ordered with
  | refl =>
      exact holds
  | step _ inductionHypothesis =>
      exact (next _ _ _).mpr (Or.inl inductionHypothesis)

/-- After the nodes below `through` were processed, the rows are transitive
through each of them. -/
private theorem closed_trans
    (next :
      ∀ through source target,
        closed (through + 1) source target ↔
          closed through source target ∨
            closed through source through ∧ closed through through target)
    {through middle source target : Nat} (below : middle < through)
    (first : closed through source middle)
    (second : closed through middle target) :
    closed through source target := by
  induction through generalizing middle source target with
  | zero =>
      exact absurd below (Nat.not_lt_zero middle)
  | succ through inductionHypothesis =>
      rw [next] at first second ⊢
      rcases Nat.lt_succ_iff_lt_or_eq.mp below with earlier | rfl
      · rcases first with direct | ⟨toNew, fromNew⟩ <;>
          rcases second with direct' | ⟨toNew', fromNew'⟩
        · exact Or.inl (inductionHypothesis earlier direct direct')
        · exact Or.inr
            ⟨inductionHypothesis earlier direct toNew', fromNew'⟩
        · exact Or.inr
            ⟨toNew, inductionHypothesis earlier fromNew direct'⟩
        · exact Or.inr ⟨toNew, fromNew'⟩
      · have source_middle : closed middle source middle := by
          rcases first with direct | ⟨toNew, -⟩
          · exact direct
          · exact toNew
        have middle_target : closed middle middle target := by
          rcases second with direct | ⟨-, fromNew⟩
          · exact direct
          · exact fromNew
        exact Or.inr ⟨source_middle, middle_target⟩

/-- Closing the rows through every node below the bound computes the
transitive closure, provided that no edge leaves the bound. -/
theorem closed_iff_transGen (closed : Nat → Nat → Nat → Prop)
    {count source target : Nat}
    (start : ∀ source target, closed 0 source target ↔ edge source target)
    (next :
      ∀ through source target,
        closed (through + 1) source target ↔
          closed through source target ∨
            closed through source through ∧ closed through through target)
    (bounded : ∀ source target, edge source target → target < count) :
    closed count source target ↔ TransGen edge source target := by
  constructor
  · suffices sound :
        ∀ through source target, closed through source target →
          TransGen edge source target from sound count source target
    intro through
    induction through with
    | zero =>
        intro source target holds
        exact TransGen.single ((start source target).mp holds)
    | succ through inductionHypothesis =>
        intro source target holds
        rcases (next through source target).mp holds with
          direct | ⟨toNew, fromNew⟩
        · exact inductionHypothesis source target direct
        · exact
            (inductionHypothesis source through toNew).trans
              (inductionHypothesis through target fromNew)
  · intro path
    have direct :
        ∀ source target, edge source target →
          closed count source target :=
      fun source target holds =>
        closed_mono next (Nat.zero_le count) ((start source target).mpr holds)
    induction path with
    | single holds =>
        exact direct _ _ holds
    | @tail middle _ initial last inductionHypothesis =>
        have middleBelow : middle < count := by
          cases initial with
          | single holds =>
              exact bounded _ _ holds
          | tail _ holds =>
              exact bounded _ _ holds
        exact
          closed_trans next middleBelow inductionHypothesis (direct _ _ last)

end Closure

section Rank

open Classical in
/-- The number of nodes below the bound that a node reaches. -/
noncomputable def reachCount (edge : Nat → Nat → Prop) (count node : Nat) :
    Nat :=
  ((Finset.range count).filter (TransGen edge node)).card

variable {edge : Nat → Nat → Prop} {count source target : Nat}

/-- Along an edge of an acyclic relation the rank strictly decreases. -/
theorem reachCount_lt (acyclic : ∀ node, ¬ TransGen edge node node)
    (targetBelow : target < count) (holds : edge source target) :
    reachCount edge count target < reachCount edge count source := by
  classical
  apply Finset.card_lt_card
  rw [Finset.ssubset_iff_of_subset]
  · refine ⟨target, ?_, ?_⟩
    · simp only [Finset.mem_filter, Finset.mem_range]
      exact ⟨targetBelow, TransGen.single holds⟩
    · simp only [Finset.mem_filter, Finset.mem_range, not_and]
      exact fun _ => acyclic target
  · intro node member
    simp only [Finset.mem_filter, Finset.mem_range] at member ⊢
    exact ⟨member.1, TransGen.head holds member.2⟩

/-- A node below the bound does not reach itself, so its rank is smaller than
the bound. -/
theorem reachCount_lt_count (acyclic : ∀ node, ¬ TransGen edge node node)
    (sourceBelow : source < count) :
    reachCount edge count source < count := by
  classical
  calc
    reachCount edge count source < (Finset.range count).card := by
      apply Finset.card_lt_card
      rw [Finset.ssubset_iff_of_subset (Finset.filter_subset _ _)]
      refine ⟨source, Finset.mem_range.mpr sourceBelow, ?_⟩
      simp only [Finset.mem_filter, not_and]
      exact fun _ => acyclic source
    _ = count := Finset.card_range count

end Rank

end PrismKit.Library
