import Mathlib.Data.List.Basic
import Mathlib.Data.List.Perm.Basic
import Mathlib.Data.List.TakeDrop

/-!
# Swap removal

Removing a position of an unordered array by moving its last element into the
hole.  As a multiset this removes one element; as a list it also moves the last
element to the front of everything behind the hole.
-/

namespace PrismKit.Library

universe u v

variable {α : Type u} {β : Type v}

/-- Overwrite position `index` with the last element and drop the last one. -/
def swapRemove (items : List α) (index : Nat) : List α :=
  match items.getLast? with
  | none => items
  | some last => (items.set index last).dropLast

theorem map_swapRemove (change : α → β) (items : List α) (index : Nat) :
    swapRemove (items.map change) index =
      (swapRemove items index).map change := by
  unfold swapRemove
  rw [List.getLast?_map]
  cases items.getLast? with
  | none =>
      rfl
  | some last =>
      simp only [Option.map_some, List.map_dropLast, List.map_set]

theorem mem_of_mem_swapRemove {items : List α} {index : Nat} {item : α}
    (member : item ∈ swapRemove items index) : item ∈ items := by
  unfold swapRemove at member
  split at member
  · exact member
  · rename_i last found
    rcases List.mem_or_eq_of_mem_set ((List.dropLast_sublist _).mem member) with
      kept | moved
    · exact kept
    · rw [moved]
      exact List.mem_of_getLast? found

/-- The two shapes of a swap removal: the hole is the last position, or the
last element moves into it. -/
theorem swapRemove_cases {items : List α} {index : Nat} {item : α}
    (found : items[index]? = some item) :
    (∃ front, items = front ++ [item] ∧ front.length = index ∧
        swapRemove items index = front) ∨
      ∃ front middle last,
        items = front ++ item :: (middle ++ [last]) ∧
          front.length = index ∧
          swapRemove items index = front ++ last :: middle := by
  obtain ⟨below, rfl⟩ := List.getElem?_eq_some_iff.mp found
  have split :
      items = items.take index ++ items[index] :: items.drop (index + 1) := by
    rw [List.getElem_cons_drop, List.take_append_drop]
  have frontLength : (items.take index).length = index := by
    rw [List.length_take]
    omega
  generalize items[index] = item at split
  generalize items.take index = front at split frontLength
  rcases List.eq_nil_or_concat (items.drop (index + 1)) with
    nothing | ⟨middle, last, rest⟩
  · rw [nothing] at split
    left
    refine ⟨front, split, frontLength, ?_⟩
    rw [split]
    simp [swapRemove, ← frontLength]
  · rw [rest, List.concat_eq_append] at split
    right
    refine ⟨front, middle, last, split, frontLength, ?_⟩
    have reassociated :
        items = (front ++ item :: middle) ++ [last] := by
      rw [split]
      simp
    have lastFound : items.getLast? = some last := by
      rw [reassociated]
      exact List.getLast?_concat
    have overwritten :
        items.set index last = (front ++ last :: middle) ++ [last] := by
      rw [split, ← frontLength]
      simp
    simp only [swapRemove, lastFound]
    rw [overwritten, List.dropLast_concat]

/-- As a multiset, swap removal removes exactly the element at the hole. -/
theorem swapRemove_perm {items : List α} {index : Nat} {item : α}
    (found : items[index]? = some item) :
    items.Perm (item :: swapRemove items index) := by
  rcases swapRemove_cases found with
    ⟨front, shape, -, result⟩ | ⟨front, middle, last, shape, -, result⟩
  · rw [result, shape]
    exact List.perm_append_singleton item front
  · rw [result, shape]
    calc
      (front ++ item :: (middle ++ [last])).Perm
          (item :: (front ++ (middle ++ [last]))) := List.perm_middle
      _ |>.Perm (item :: (front ++ last :: middle)) :=
        ((List.perm_append_singleton last middle).append_left front).cons item

theorem length_swapRemove {items : List α} {index : Nat} {item : α}
    (found : items[index]? = some item) :
    (swapRemove items index).length + 1 = items.length := by
  rw [(swapRemove_perm found).length_eq, List.length_cons]

/-- The positions before the hole keep their elements. -/
theorem swapRemove_getElem?_of_lt {items : List α} {index other : Nat}
    {item : α} (found : items[index]? = some item) (before : other < index) :
    (swapRemove items index)[other]? = items[other]? := by
  rcases swapRemove_cases found with
    ⟨front, shape, length, result⟩ | ⟨front, middle, last, shape, length, result⟩
  · rw [result, shape, List.getElem?_append_left (by omega)]
  · rw [result, shape, List.getElem?_append_left (by omega),
      List.getElem?_append_left (by omega)]

/-- The elements that the last one passes when it moves into the hole. -/
def passed (items : List α) (index : Nat) : List α :=
  (items.drop (index + 1)).dropLast

/-- What the last element passes stands before it. -/
theorem rel_of_passed {relation : α → α → Prop} {items : List α} {index : Nat}
    {other last : α} (ordered : items.Pairwise relation)
    (ahead : other ∈ passed items index) (ends : items.getLast? = some last) :
    relation other last := by
  have shape : items.dropLast ++ [last] = items :=
    List.dropLast_append_getLast? last ends
  have member : other ∈ items.dropLast := by
    rw [passed, List.dropLast_drop_eq_drop_dropLast] at ahead
    exact List.mem_of_mem_drop ahead
  rw [← shape, List.pairwise_append] at ordered
  exact ordered.2.2 other member last List.mem_cons_self

/-- Swap removal keeps an order exactly when the last element may stand before
everything it passes. -/
theorem pairwise_swapRemove_iff {relation : α → α → Prop} {items : List α}
    {index : Nat} {item : α} (found : items[index]? = some item)
    (ordered : items.Pairwise relation) :
    (swapRemove items index).Pairwise relation ↔
      ∀ last, items.getLast? = some last →
        ∀ other ∈ passed items index, relation last other := by
  rcases swapRemove_cases found with
    ⟨front, shape, length, result⟩ | ⟨front, middle, last, shape, length, result⟩
  · have nothing : passed items index = [] := by
      simp [passed, shape, ← length]
    rw [result, nothing]
    rw [shape, List.pairwise_append] at ordered
    constructor
    · intro _ last _ other member
      exact absurd member List.not_mem_nil
    · intro _
      exact ordered.1
  · have between : passed items index = middle := by
      simp [passed, shape, ← length]
    have regrouped : items = (front ++ item :: middle) ++ [last] := by
      simp [shape]
    have ends : items.getLast? = some last := by
      rw [regrouped]
      exact List.getLast?_concat
    rw [result, between, ends]
    rw [shape, List.pairwise_append, List.pairwise_cons,
      List.pairwise_append] at ordered
    obtain ⟨frontOrdered, ⟨-, middleOrdered, -, -⟩, frontBefore⟩ := ordered
    constructor
    · intro kept found lastFound other member
      cases lastFound
      rw [List.pairwise_append, List.pairwise_cons] at kept
      exact kept.2.1.1 other member
    · intro mayLead
      rw [List.pairwise_append, List.pairwise_cons]
      refine ⟨frontOrdered, ⟨mayLead last rfl, middleOrdered⟩, ?_⟩
      intro early earlyMember late lateMember
      apply frontBefore early earlyMember
      rcases List.mem_cons.mp lateMember with rfl | lateMember
      · simp
      · simp [lateMember]

theorem position_of_mem_swapRemove {items : List α} {index : Nat}
    {item kept : α} (found : items[index]? = some item)
    (member : kept ∈ swapRemove items index) :
    ∃ other, other ≠ index ∧ items[other]? = some kept := by
  have atFront {front rest : List α} (early : kept ∈ front) :
      ∃ other, other < front.length ∧ (front ++ rest)[other]? = some kept := by
    obtain ⟨other, below, rfl⟩ := List.mem_iff_getElem.mp early
    refine ⟨other, below, ?_⟩
    rw [List.getElem?_append_left below, List.getElem?_eq_getElem below]
  rcases swapRemove_cases found with
    ⟨front, shape, length, result⟩ | ⟨front, middle, last, shape, length, result⟩
  · rw [result] at member
    obtain ⟨other, below, same⟩ := atFront member
    exact ⟨other, by omega, shape ▸ same⟩
  · rw [result] at member
    rcases List.mem_append.mp member with early | late
    · obtain ⟨other, below, same⟩ := atFront early
      exact ⟨other, by omega, shape ▸ same⟩
    · have behind : kept ∈ middle ++ [last] := by
        simpa [or_comm] using late
      obtain ⟨other, same⟩ := List.mem_iff_getElem?.mp behind
      refine ⟨front.length + (other + 1), by omega, ?_⟩
      rw [shape, List.getElem?_append_right (by omega),
        Nat.add_sub_cancel_left, List.getElem?_cons_succ]
      exact same

/-- Overwriting one position, as a multiset. -/
theorem set_perm {items : List α} {index : Nat} {item : α} (other : α)
    (found : items[index]? = some item) :
    ∃ rest, items.Perm (item :: rest) ∧
      (items.set index other).Perm (other :: rest) := by
  obtain ⟨below, rfl⟩ := List.getElem?_eq_some_iff.mp found
  refine ⟨items.take index ++ items.drop (index + 1), ?_, ?_⟩
  · calc
      items.Perm (items.take index ++ items[index] :: items.drop (index + 1)) := by
        rw [List.getElem_cons_drop, List.take_append_drop]
      _ |>.Perm _ := List.perm_middle
  · rw [List.set_eq_take_append_cons_drop, if_pos below]
    exact List.perm_middle

end PrismKit.Library
