import PrismKit.Library.Loops
import Mathlib.Data.List.Basic
import Mathlib.Logic.Function.Basic

/-!
# Stable insertion sort on a range

An in-place insertion sort on the positions `begin`, ..., `begin + count - 1`
of an array, given as a total function.  Each item is saved, the larger items
before it are shifted right by one, and the item is written into the hole.

The comparison `larger left right` says that `left` has to stand after
`right`.  Because only larger items are shifted, items that compare as equal
keep their order; `sortRange_ordered` states this as one strict order that
combines the comparison with the initial order.
-/

namespace PrismKit.Library

universe u

variable {α : Type u}

/-- The items at `count` consecutive positions, in order. -/
def view (items : Nat → α) (begin count : Nat) : List α :=
  (List.range count).map fun offset => items (begin + offset)

@[simp]
theorem view_zero (items : Nat → α) (begin : Nat) :
    view items begin 0 = [] :=
  rfl

@[simp]
theorem length_view (items : Nat → α) (begin count : Nat) :
    (view items begin count).length = count := by
  simp [view]

theorem view_succ (items : Nat → α) (begin count : Nat) :
    view items begin (count + 1) =
      view items begin count ++ [items (begin + count)] := by
  simp [view, List.range_succ]

theorem view_congr {items other : Nat → α} {begin count : Nat}
    (same :
      ∀ position, begin ≤ position → position < begin + count →
        items position = other position) :
    view items begin count = view other begin count := by
  apply List.map_congr_left
  intro offset member
  have below : offset < count := List.mem_range.mp member
  exact same (begin + offset) (by omega) (by omega)

/-- The array as a value: a loop over it runs every iteration once, where one
over functions would run it again for each item that is read. -/
structure Items (α : Type u) where
  get : Nat → α

section Insertion

variable (larger : α → α → Bool)

/-- Shift the items larger than `item` right by one, walking left from
position `insert`; the first component is the position of the hole. -/
def shiftLarger (item : α) (begin : Nat) : Nat → (Nat → α) → Nat × (Nat → α)
  | 0, items => (0, items)
  | insert + 1, items =>
      if begin < insert + 1 ∧ larger (items insert) item then
        shiftLarger item begin insert
          (Function.update items (insert + 1) (items insert))
      else
        (insert + 1, items)

/-- Insert the item at position `begin + 1 + offset` into the sorted items
before it. -/
def insertSorted (begin offset : Nat) (items : Items α) : Items α :=
  let position := begin + 1 + offset
  let item := items.get position
  let (insert, shifted) := shiftLarger larger item begin position items.get
  ⟨Function.update shifted insert item⟩

/-- Insertion sort on `count` positions from `begin` on. -/
def sortRange (begin count : Nat) (items : Items α) : Items α :=
  forUpTo (insertSorted larger begin) items (count - 1)

end Insertion

variable (larger : α → α → Bool)

/-- What the shifting loop leaves behind.  The items before the start split
into those left of the hole and those right of it. -/
private theorem shiftLarger_spec (item : α) (begin count : Nat)
    (items : Nat → α) :
    ∃ left right,
      view items begin count = left ++ right ∧
      (∀ other ∈ right, larger other item) ∧
      (∀ other ∈ left.getLast?, larger other item = false) ∧
      (let result := shiftLarger larger item begin (begin + count) items
       let inserted := Function.update result.2 result.1 item
       view inserted begin (count + 1) = left ++ item :: right ∧
         ∀ position, position < begin ∨ begin + count < position →
           inserted position = items position) := by
  induction count generalizing items with
  | zero =>
      refine ⟨[], [], rfl, by simp, by simp, ?_⟩
      have stopped :
          shiftLarger larger item begin (begin + 0) items =
            (begin, items) := by
        cases begin with
        | zero =>
            rfl
        | succ begin =>
            simp [shiftLarger]
      simp only [stopped]
      constructor
      · simp [view]
      · intro position outside
        have elsewhere : position ≠ begin := by omega
        simp [elsewhere]
  | succ count inductionHypothesis =>
      by_cases shifts : larger (items (begin + count)) item
      · -- The item at `begin + count` moves right and the walk goes on.
        let moved :=
          Function.update items (begin + (count + 1)) (items (begin + count))
        obtain ⟨left, right, split, rightLarger, leftLast, inserted,
            outside⟩ := inductionHypothesis moved
        have sameBelow : view moved begin count = view items begin count := by
          apply view_congr
          intro position _ below
          have elsewhere : position ≠ begin + (count + 1) := by omega
          simp [moved, elsewhere]
        have continues :
            shiftLarger larger item begin (begin + (count + 1)) items =
              shiftLarger larger item begin (begin + count) moved := by
          have positive : begin < begin + count + 1 := by omega
          show shiftLarger larger item begin (begin + count + 1) items = _
          simp only [shiftLarger, positive, shifts, and_self, if_true]
          rfl
        refine ⟨left, right ++ [items (begin + count)], ?_, ?_, leftLast, ?_⟩
        · rw [view_succ, ← sameBelow, split, List.append_assoc]
        · intro other member
          rcases List.mem_append.mp member with inside | last
          · exact rightLarger other inside
          · rw [List.mem_singleton.mp last]
            exact shifts
        · simp only [continues]
          refine ⟨?_, ?_⟩
          · rw [view_succ, inserted, outside (begin + (count + 1)) (by omega)]
            simp [moved]
          · intro position far
            rw [outside position (by omega)]
            have elsewhere : position ≠ begin + (count + 1) := by omega
            simp [moved, elsewhere]
      · have stops :
            shiftLarger larger item begin (begin + (count + 1)) items =
              (begin + (count + 1), items) := by
          show shiftLarger larger item begin (begin + count + 1) items = _
          simp [shiftLarger, shifts, Nat.add_assoc]
        refine ⟨view items begin (count + 1), [], by simp, by simp, ?_, ?_⟩
        · intro other last
          rw [view_succ] at last
          simp only [List.getLast?_append, List.getLast?_singleton,
            Option.some_or, Option.mem_def, Option.some.injEq] at last
          rw [← last]
          simpa using shifts
        · simp only [stops]
          constructor
          · rw [view_succ]
            have sameBelow :
                view
                    (Function.update items (begin + (count + 1)) item)
                    begin (count + 1) =
                  view items begin (count + 1) := by
              apply view_congr
              intro position _ below
              have elsewhere : position ≠ begin + (count + 1) := by omega
              simp [elsewhere]
            simp [sameBelow]
          · intro position far
            have elsewhere : position ≠ begin + (count + 1) := by omega
            simp [elsewhere]

/-- One insertion moves the next item into the items before it, and touches
nothing else. -/
theorem insertSorted_spec (begin offset : Nat) (items : Items α) :
    ∃ left right,
      view items.get begin (offset + 1) = left ++ right ∧
      (∀ other ∈ right, larger other (items.get (begin + 1 + offset))) ∧
      (∀ other ∈ left.getLast?,
        larger other (items.get (begin + 1 + offset)) = false) ∧
      view (insertSorted larger begin offset items).get begin (offset + 2) =
        left ++ items.get (begin + 1 + offset) :: right ∧
      ∀ position, position < begin ∨ begin + 1 + offset < position →
        (insertSorted larger begin offset items).get position =
          items.get position := by
  have position : begin + (offset + 1) = begin + 1 + offset := by omega
  have spec :=
    shiftLarger_spec larger (items.get (begin + 1 + offset)) begin
      (offset + 1) items.get
  rw [position] at spec
  exact spec

/-- After `count` insertions the first `count + 1` items are permuted and the
others are untouched. -/
private theorem insertions_perm (begin count : Nat) (items : Items α) :
    (view (forUpTo (insertSorted larger begin) items count).get begin
        (count + 1)).Perm (view items.get begin (count + 1)) ∧
      ∀ position, position < begin ∨ begin + count < position →
        (forUpTo (insertSorted larger begin) items count).get position =
          items.get position := by
  induction count with
  | zero =>
      simp
  | succ count inductionHypothesis =>
      obtain ⟨permuted, outside⟩ := inductionHypothesis
      rw [forUpTo_succ]
      generalize forUpTo (insertSorted larger begin) items count =
        current at permuted outside ⊢
      obtain ⟨left, right, split, _, _, inserted, far⟩ :=
        insertSorted_spec larger begin count current
      constructor
      · have untouched :
            current.get (begin + 1 + count) =
              items.get (begin + (count + 1)) := by
          rw [outside (begin + 1 + count) (by omega)]
          congr 1
          omega
        rw [inserted, view_succ items.get, untouched]
        calc
          (left ++ items.get (begin + (count + 1)) :: right).Perm
              (items.get (begin + (count + 1)) :: (left ++ right)) :=
            List.perm_middle
          _ |>.Perm
              (items.get (begin + (count + 1)) ::
                view items.get begin (count + 1)) := by
            rw [← split]
            exact permuted.cons _
          _ |>.Perm
              (view items.get begin (count + 1) ++
                [items.get (begin + (count + 1))]) :=
            (List.perm_append_singleton _ _).symm
      · intro position beyond
        rw [far position (by omega), outside position (by omega)]

/-- The sort of a range permutes its items and touches no other position. -/
theorem sortRange_perm (begin count : Nat) (items : Items α) :
    (view (sortRange larger begin count items).get begin count).Perm
      (view items.get begin count) ∧
    ∀ position, position < begin ∨ begin + count ≤ position →
      (sortRange larger begin count items).get position =
        items.get position := by
  cases count with
  | zero =>
      simp [sortRange]
  | succ count =>
      obtain ⟨permuted, outside⟩ :=
        insertions_perm larger begin count items
      exact ⟨permuted, fun position beyond => outside position (by omega)⟩

/-- Insertion between smaller and larger items keeps an order. -/
private theorem pairwise_insert {before : α → α → Prop} {item : α}
    {left right : List α} (sorted : (left ++ right).Pairwise before)
    (leftBefore : ∀ other ∈ left, before other item)
    (rightAfter : ∀ other ∈ right, before item other) :
    (left ++ item :: right).Pairwise before := by
  rw [List.pairwise_append] at sorted ⊢
  obtain ⟨leftSorted, rightSorted, across⟩ := sorted
  refine ⟨leftSorted, List.pairwise_cons.mpr ⟨rightAfter, rightSorted⟩, ?_⟩
  intro first firstMember second secondMember
  rcases List.mem_cons.mp secondMember with rfl | later
  · exact leftBefore first firstMember
  · exact across first firstMember second later

/-- The sort is stable.  If the initial items stand in the order `older`, the
sorted ones stand in any order `before` that refines the comparison by
`older`. -/
theorem sortRange_ordered (older before : α → α → Prop)
    (begin count : Nat) (items : Items α)
    (initial : (view items.get begin count).Pairwise older)
    (transitive :
      ∀ first second third, before first second → before second third →
        before first third)
    (ofLarger :
      ∀ left right, larger left right → before right left)
    (ofOlder :
      ∀ left right, older left right → larger left right = false →
        before left right) :
    (view (sortRange larger begin count items).get begin count).Pairwise
      before := by
  cases count with
  | zero =>
      simp
  | succ count =>
      show (view (forUpTo (insertSorted larger begin) items count).get begin
        (count + 1)).Pairwise before
      induction count with
      | zero =>
          simp [view]
      | succ count inductionHypothesis =>
          rw [view_succ, List.pairwise_append] at initial
          obtain ⟨earlier, -, lastNewest⟩ := initial
          have sorted := inductionHypothesis earlier
          obtain ⟨permuted, outside⟩ :=
            insertions_perm larger begin count items
          rw [forUpTo_succ]
          generalize forUpTo (insertSorted larger begin) items count =
            current at sorted permuted outside ⊢
          obtain ⟨left, right, split, rightLarger, leftLast, inserted, -⟩ :=
            insertSorted_spec larger begin count current
          have untouched :
              current.get (begin + 1 + count) =
                items.get (begin + (count + 1)) := by
            rw [outside (begin + 1 + count) (by omega)]
            congr 1
            omega
          rw [untouched] at rightLarger leftLast inserted
          rw [inserted]
          rw [split] at sorted permuted
          apply pairwise_insert sorted
          · intro other member
            -- The last item on the left decides; the others precede it.
            rcases List.eq_nil_or_concat left with rfl | ⟨front, last, rfl⟩
            · exact absurd member (by simp)
            · have lastOlder : older last (items.get (begin + (count + 1))) :=
                lastNewest last (permuted.mem_iff.mp (by simp)) _ (by simp)
              have lastBefore : before last (items.get (begin + (count + 1))) :=
                ofOlder _ _ lastOlder (leftLast last (by simp))
              rw [List.concat_eq_append, List.mem_append,
                List.mem_singleton] at member
              rcases member with inFront | rfl
              · have frontBefore : before other last := by
                  have leftSorted := (List.pairwise_append.mp sorted).1
                  rw [List.concat_eq_append, List.pairwise_append] at leftSorted
                  exact leftSorted.2.2 other inFront last (by simp)
                exact transitive _ _ _ frontBefore lastBefore
              · exact lastBefore
          · intro other member
            exact ofLarger _ _ (rightLarger other member)

example :
    view
        (sortRange (fun left right : Nat => left > right) 1 4
          ⟨fun position => 9 - position⟩).get 0 6 =
      [9, 5, 6, 7, 8, 4] := by
  decide

end PrismKit.Library
