import Mathlib.Data.Nat.Init

/-!
# Counted loops

The two loop shapes used by fixed-capacity firmware: a counted loop whose body
always runs to the end, and a counted loop that may leave early with an error.
Both come with one invariant rule, which is the only induction their users
need.
-/

namespace PrismKit.Library

universe u v w

variable {σ : Type u} {τ : Type w} {ε : Type v}

/-- Run `body 0`, `body 1`, ..., `body (count - 1)` in that order. -/
def forUpTo (body : Nat → σ → σ) (initial : σ) : Nat → σ
  | 0 => initial
  | count + 1 => body count (forUpTo body initial count)

def forUpToExcept (body : Nat → σ → Except ε σ) (initial : σ) :
    Nat → Except ε σ
  | 0 => .ok initial
  | count + 1 =>
      match forUpToExcept body initial count with
      | .error failure => .error failure
      | .ok state => body count state

@[simp]
theorem forUpTo_zero (body : Nat → σ → σ) (initial : σ) :
    forUpTo body initial 0 = initial :=
  rfl

@[simp]
theorem forUpTo_succ (body : Nat → σ → σ) (initial : σ) (count : Nat) :
    forUpTo body initial (count + 1) =
      body count (forUpTo body initial count) :=
  rfl

/-- A property indexed by the iteration number and kept by every iteration
holds when the loop ends. -/
theorem forUpTo_invariant
    {body : Nat → σ → σ} {initial : σ} (property : Nat → σ → Prop)
    (count : Nat) (start : property 0 initial)
    (iteration :
      ∀ index, index < count → ∀ state,
        property index state → property (index + 1) (body index state)) :
    property count (forUpTo body initial count) := by
  induction count with
  | zero =>
      exact start
  | succ count inductionHypothesis =>
      have earlier : property count (forUpTo body initial count) :=
        inductionHypothesis fun index below =>
          iteration index (Nat.lt_succ_of_lt below)
      exact iteration count (Nat.lt_succ_self count) _ earlier

/-- Two loops whose iterations keep a relation between their states end in
related states. -/
theorem forUpTo_related
    {body : Nat → σ → σ} {body' : Nat → τ → τ} {initial : σ} {initial' : τ}
    (related : Nat → σ → τ → Prop)
    (count : Nat) (start : related 0 initial initial')
    (iteration :
      ∀ index, index < count → ∀ state other, related index state other →
        related (index + 1) (body index state) (body' index other)) :
    related count (forUpTo body initial count)
      (forUpTo body' initial' count) := by
  induction count with
  | zero =>
      exact start
  | succ count inductionHypothesis =>
      apply iteration count (Nat.lt_succ_self count)
      apply inductionHypothesis
      intro index below
      exact iteration index (Nat.lt_succ_of_lt below)

/-- A loop with early exit either keeps an invariant to its end, or stops with
the error of the first failing iteration. -/
theorem forUpToExcept_cases
    {body : Nat → σ → Except ε σ} {initial : σ}
    (property : Nat → σ → Prop) (stops : Nat → ε → Prop)
    (count : Nat) (start : property 0 initial)
    (iteration :
      ∀ index, index < count → ∀ state, property index state →
        (∃ next, body index state = .ok next ∧ property (index + 1) next) ∨
          ∃ failure, body index state = .error failure ∧
            stops index failure) :
    (∃ final, forUpToExcept body initial count = .ok final ∧
        property count final) ∨
      ∃ failure index, index < count ∧
        forUpToExcept body initial count = .error failure ∧
          stops index failure := by
  induction count with
  | zero =>
      exact Or.inl ⟨initial, rfl, start⟩
  | succ count inductionHypothesis =>
      have earlier :=
        inductionHypothesis fun index below =>
          iteration index (Nat.lt_succ_of_lt below)
      rcases earlier with
        ⟨state, reached, holds⟩ | ⟨failure, index, below, reached, stopped⟩
      · simp only [forUpToExcept, reached]
        rcases iteration count (Nat.lt_succ_self count) state holds with
          ⟨next, stepped, nextHolds⟩ | ⟨failure, stepped, stopped⟩
        · exact Or.inl ⟨next, stepped, nextHolds⟩
        · exact Or.inr
            ⟨failure, count, Nat.lt_succ_self count, stepped, stopped⟩
      · right
        refine ⟨failure, index, Nat.lt_succ_of_lt below, ?_, stopped⟩
        simp only [forUpToExcept, reached]

/-- A loop with early exit succeeds and keeps an invariant when no iteration
that starts in the invariant fails. -/
theorem forUpToExcept_invariant
    {body : Nat → σ → Except ε σ} {initial : σ}
    (property : Nat → σ → Prop)
    (count : Nat) (start : property 0 initial)
    (iteration :
      ∀ index, index < count → ∀ state, property index state →
        ∃ next, body index state = .ok next ∧
          property (index + 1) next) :
    ∃ final, forUpToExcept body initial count = .ok final ∧
      property count final := by
  have outcome :=
    forUpToExcept_cases property (fun _ _ => False) count start
      fun index below state holds => Or.inl (iteration index below state holds)
  rcases outcome with finished | ⟨_, _, _, _, impossible⟩
  · exact finished
  · exact impossible.elim

end PrismKit.Library
