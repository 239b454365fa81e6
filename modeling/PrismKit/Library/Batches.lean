/-!
# Batches

A bounded buffer in front of a sink: an item that no longer fits sends the
buffer on first, and what is left at the end is sent last.  `batches` lists
what the sink receives, and `offer` what happens when the sink may refuse.
-/

namespace PrismKit.Library

universe u

variable {α : Type u}

/-- What a buffer of the given size sends on for the items, when it already
holds `buffer`. -/
def batches (size : Nat) : List α → List α → List (List α)
  | buffer, [] => if buffer.length = 0 then [] else [buffer]
  | buffer, item :: items =>
      if buffer.length + 1 > size then
        buffer :: batches size [item] items
      else
        batches size (buffer ++ [item]) items

/-- Nothing is lost, added or reordered. -/
theorem flatten_batches (size : Nat) (buffer items : List α) :
    (batches size buffer items).flatten = buffer ++ items := by
  induction items generalizing buffer with
  | nil =>
      rw [batches, List.append_nil]
      split
      · rename_i empty
        rw [List.eq_nil_of_length_eq_zero empty]
        rfl
      · exact List.append_nil buffer
  | cons item items inductionHypothesis =>
      rw [batches]
      split
      · rw [List.flatten_cons, inductionHypothesis]
        rfl
      · rw [inductionHypothesis, List.append_assoc]
        rfl

theorem batches_of_fit {size : Nat} {buffer items : List α}
    (fit : buffer.length + items.length ≤ size)
    (nonempty : buffer ++ items ≠ []) :
    batches size buffer items = [buffer ++ items] := by
  induction items generalizing buffer with
  | nil =>
      rw [List.append_nil] at nonempty ⊢
      rw [batches, if_neg (by simpa using nonempty)]
  | cons item items inductionHypothesis =>
      rw [List.length_cons] at fit
      rw [batches, if_neg (by omega), inductionHypothesis]
      · rw [List.append_assoc]
        rfl
      · rw [List.length_append, List.length_singleton]
        omega
      · simp

/-- A batch that is followed by another one is full. -/
theorem batches_of_overflow {size : Nat} (positive : 0 < size)
    {buffer items : List α} (short : buffer.length ≤ size)
    (overflow : size < buffer.length + items.length) :
    batches size buffer items =
      (buffer ++ items).take size ::
        batches size [] ((buffer ++ items).drop size) := by
  induction items generalizing buffer with
  | nil =>
      rw [List.length_nil] at overflow
      omega
  | cons item items inductionHypothesis =>
      rw [List.length_cons] at overflow
      rw [batches]
      split
      · rename_i full
        have length : buffer.length = size := by omega
        have fresh :
            batches size [] (item :: items) = batches size [item] items := by
          rw [batches, if_neg (by rw [List.length_nil]; omega)]
          rfl
        rw [List.take_append_of_le_length (by omega),
          List.drop_append_of_le_length (by omega),
          List.take_of_length_le (by omega),
          List.drop_of_length_le (by omega), List.nil_append, fresh]
      · rw [inductionHypothesis (by simp; omega) (by simp; omega),
          List.append_assoc]
        rfl

/-- Offer items to a sink that answers by the number of the call, up to the
first one it refuses.  The second component tells whether it took all. -/
def offer (accepts : Nat → Bool) : Nat → List α → List (α × Bool) × Bool
  | _, [] => ([], true)
  | calls, item :: items =>
      if accepts calls then
        ((item, true) :: (offer accepts (calls + 1) items).1,
          (offer accepts (calls + 1) items).2)
      else
        ([(item, false)], false)

/-- The items that a sink took. -/
def taken (answers : List (α × Bool)) : List α :=
  (answers.filter Prod.snd).map Prod.fst

theorem taken_append (left right : List (α × Bool)) :
    taken (left ++ right) = taken left ++ taken right := by
  rw [taken, List.filter_append, List.map_append]
  rfl

/-- The sink takes the items of a front part, which is all of them exactly
when it refuses none. -/
theorem taken_offer (accepts : Nat → Bool) (calls : Nat) (items : List α) :
    ∃ count,
      taken (offer accepts calls items).1 = items.take count ∧
        ((offer accepts calls items).2 = true → items.take count = items) ∧
        ((offer accepts calls items).2 = false → count < items.length) := by
  induction items generalizing calls with
  | nil =>
      exact ⟨0, rfl, fun _ => rfl, fun refused => Bool.noConfusion refused⟩
  | cons item items inductionHypothesis =>
      rw [offer]
      split
      · obtain ⟨count, front, whole, part⟩ := inductionHypothesis (calls + 1)
        refine ⟨count + 1, ?_, ?_, ?_⟩
        · rw [List.take_succ_cons, ← front]
          rfl
        · intro all
          rw [List.take_succ_cons, whole all]
        · intro refused
          rw [List.length_cons]
          exact Nat.succ_lt_succ (part refused)
      · refine ⟨0, rfl, fun all => Bool.noConfusion all, fun _ => ?_⟩
        exact Nat.succ_pos items.length

theorem offer_of_accepting {accepts : Nat → Bool} {calls : Nat}
    {items : List α}
    (accepting :
      ∀ call, call < items.length → accepts (calls + call) = true) :
    (offer accepts calls items).2 = true := by
  induction items generalizing calls with
  | nil =>
      rfl
  | cons item items inductionHypothesis =>
      have first : accepts calls = true :=
        accepting 0 (Nat.succ_pos items.length)
      rw [offer, if_pos first]
      apply inductionHypothesis
      intro call below
      rw [Nat.add_right_comm, Nat.add_assoc]
      exact accepting (call + 1) (Nat.succ_lt_succ below)

/-- After some refusals the sink takes the given number of calls in a row. -/
def Straight (accepts : Nat → Bool) (calls count : Nat) : Prop :=
  ∃ refused,
    (∀ call, call < refused → accepts (calls + call) = false) ∧
    ∀ call, call < count → accepts (calls + refused + call) = true

/-- Such a sink takes everything, or refuses the first item at once. -/
theorem Straight.of_refused {accepts : Nat → Bool} {calls : Nat}
    {items : List α} (straight : Straight accepts calls items.length)
    (failed : (offer accepts calls items).2 = false) :
    (∃ item, (offer accepts calls items).1 = [(item, false)]) ∧
      Straight accepts (calls + 1) items.length := by
  obtain ⟨refused, refuses, takes⟩ := straight
  cases refused with
  | zero =>
      rw [Nat.add_zero] at takes
      rw [offer_of_accepting takes] at failed
      cases failed
  | succ refused =>
      refine ⟨?_, refused, ?_, ?_⟩
      · cases items with
        | nil =>
            cases failed
        | cons item items =>
            have first : accepts calls = false :=
              refuses 0 (Nat.succ_pos refused)
            refine ⟨item, ?_⟩
            rw [offer, first]
            rfl
      · intro call below
        rw [Nat.add_right_comm, Nat.add_assoc]
        exact refuses (call + 1) (Nat.succ_lt_succ below)
      · intro call below
        rw [Nat.add_assoc calls, Nat.add_comm 1]
        exact takes call below

theorem batches_ne_nil {size : Nat} {buffer items : List α}
    (nonempty : buffer ++ items ≠ []) : batches size buffer items ≠ [] := by
  intro none
  apply nonempty
  rw [← flatten_batches size, none]
  rfl

end PrismKit.Library
