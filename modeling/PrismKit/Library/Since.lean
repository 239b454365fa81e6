import Mathlib.Data.List.Basic
import Mathlib.Data.List.Induction

/-!
# Intervals of a log

What a log says about something that some entries open and some entries close:
it is open if an opening entry has no closing entry after it.  A log grows at
its end, so every notion here has a lemma for one more entry.
-/

namespace PrismKit.Library

universe u

variable {α : Type u}

/-- The log was opened by `start`, and `rest` came since, without a closing
entry. -/
def Since (opens closes : α → Prop) (log : List α) (start : α)
    (rest : List α) : Prop :=
  ∃ earlier, log = earlier ++ start :: rest ∧ opens start ∧
    ∀ later ∈ rest, ¬ closes later

/-- Some opening entry has no closing entry after it. -/
def OpenSince (opens closes : α → Prop) (log : List α) : Prop :=
  ∃ start rest, Since opens closes log start rest

/-- A log, cut at one of its entries. -/
theorem split_at (log : List α) (index : Nat) (below : index < log.length) :
    log =
      log.take index ++ log.get ⟨index, below⟩ :: log.drop (index + 1) := by
  simp

variable {opens closes : α → Prop}

theorem not_since_nil (start : α) (rest : List α) :
    ¬ Since opens closes [] start rest := by
  intro since
  obtain ⟨earlier, shape, -⟩ := since
  simp at shape

theorem not_openSince_nil : ¬ OpenSince opens closes ([] : List α) := by
  intro isOpen
  obtain ⟨start, rest, since⟩ := isOpen
  exact not_since_nil start rest since

/-- An entry opens a new interval, or belongs to the open one. -/
theorem since_append_singleton {log : List α} {entry start : α}
    {rest : List α} :
    Since opens closes (log ++ [entry]) start rest ↔
      (opens entry ∧ start = entry ∧ rest = []) ∨
        ¬ closes entry ∧ ∃ shorter,
          rest = shorter ++ [entry] ∧ Since opens closes log start shorter := by
  constructor
  · intro since
    obtain ⟨earlier, shape, starts, quiet⟩ := since
    rcases List.eq_nil_or_concat rest with empty | ⟨shorter, last, grown⟩
    · subst empty
      obtain ⟨-, same⟩ := List.append_inj' shape rfl
      cases same
      exact Or.inl ⟨starts, rfl, rfl⟩
    · rw [List.concat_eq_append] at grown
      subst grown
      have regrouped :
          log ++ [entry] = (earlier ++ start :: shorter) ++ [last] := by
        simpa using shape
      obtain ⟨front, same⟩ := List.append_inj' regrouped rfl
      cases same
      right
      refine ⟨quiet entry (by simp), shorter, rfl, earlier, front, starts, ?_⟩
      intro later member
      exact quiet later (List.mem_append_left _ member)
  · intro cases'
    rcases cases' with ⟨starts, rfl, rfl⟩ | ⟨silent, shorter, rfl, since⟩
    · exact ⟨log, rfl, starts, fun later member => absurd member (by simp)⟩
    · obtain ⟨earlier, rfl, starts, quiet⟩ := since
      refine ⟨earlier, by simp, starts, ?_⟩
      intro later member
      rcases List.mem_append.mp member with old | new
      · exact quiet later old
      · rw [List.mem_singleton.mp new]
        exact silent

theorem openSince_append_singleton {log : List α} {entry : α} :
    OpenSince opens closes (log ++ [entry]) ↔
      opens entry ∨ OpenSince opens closes log ∧ ¬ closes entry := by
  constructor
  · intro isOpen
    obtain ⟨start, rest, since⟩ := isOpen
    rcases since_append_singleton.mp since with
      ⟨starts, -, -⟩ | ⟨silent, shorter, -, earlier⟩
    · exact Or.inl starts
    · exact Or.inr ⟨⟨start, shorter, earlier⟩, silent⟩
  · intro cases'
    rcases cases' with starts | ⟨⟨start, rest, since⟩, silent⟩
    · exact
        ⟨entry, [], since_append_singleton.mpr (Or.inl ⟨starts, rfl, rfl⟩)⟩
    · exact
        ⟨start, rest ++ [entry],
          since_append_singleton.mpr (Or.inr ⟨silent, rest, rfl, since⟩)⟩

/-- In a log that is not open every opening entry is closed later. -/
theorem exists_closes_of_not_openSince {log earlier rest : List α} {start : α}
    (shut : ¬ OpenSince opens closes log)
    (shape : log = earlier ++ start :: rest) (starts : opens start) :
    ∃ later ∈ rest, closes later := by
  by_contra quiet
  apply shut
  refine ⟨start, rest, earlier, shape, starts, ?_⟩
  intro later member closing
  exact quiet ⟨later, member, closing⟩

theorem Since.cut {log front back : List α} {start entry : α}
    (since : Since opens closes log start (front ++ entry :: back)) :
    ∃ earlier, log = earlier ++ entry :: back ∧
      Since opens closes earlier start front := by
  obtain ⟨earlier, rfl, starts, quiet⟩ := since
  refine ⟨earlier ++ start :: front, by simp, earlier, rfl, starts, ?_⟩
  intro later member
  exact quiet later (List.mem_append_left _ member)

/-- Where every opening entry closes what was open before, the log has one
opening entry at most. -/
theorem Since.unique {log rest more : List α} {start other : α}
    (entails : ∀ entry, opens entry → closes entry)
    (first : Since opens closes log start rest)
    (second : Since opens closes log other more) :
    start = other ∧ rest = more := by
  induction log using List.reverseRecOn generalizing rest more with
  | nil =>
      exact absurd first (not_since_nil start rest)
  | append_singleton log entry inductionHypothesis =>
      rcases since_append_singleton.mp first with
        ⟨starts, rfl, rfl⟩ | ⟨silent, shorter, rfl, earlier⟩
      · rcases since_append_singleton.mp second with
          ⟨-, rfl, rfl⟩ | ⟨silent, -⟩
        · exact ⟨rfl, rfl⟩
        · exact absurd (entails _ starts) silent
      · rcases since_append_singleton.mp second with
          ⟨starts, -⟩ | ⟨-, others, rfl, also⟩
        · exact absurd (entails _ starts) silent
        · obtain ⟨same, equal⟩ := inductionHypothesis earlier also
          rw [equal]
          exact ⟨same, rfl⟩

end PrismKit.Library
