import PrismKit.Library.Mailbox
import Mathlib.Data.Nat.ModEq
import Mathlib.Logic.Function.Basic

/-!
# Ring buffers

A queue in a fixed array: the oldest message stands at `head`, and the others
follow it around the end of the array.  With a bit that is posted by a
successful `send` and cleared with the last message, it is a lawful mailbox.
-/

namespace PrismKit.Library

universe u

/-- A ring of `capacity` slots. -/
structure Ring (μ : Type u) (capacity : Nat) where
  slots : Nat → μ
  head : Nat
  count : Nat
  head_lt : head < capacity
  count_le : count ≤ capacity

namespace Ring

variable {μ : Type u} {capacity : Nat}

def empty (blank : μ) (positive : 0 < capacity) : Ring μ capacity :=
  ⟨fun _ => blank, 0, 0, positive, Nat.zero_le capacity⟩

/-- The slot of a message by its position in the queue. -/
def slot (ring : Ring μ capacity) (position : Nat) : Nat :=
  (ring.head + position) % capacity

/-- The queue that the ring stands for. -/
def contents (ring : Ring μ capacity) : List μ :=
  (List.range ring.count).map fun position =>
    ring.slots (ring.slot position)

def send (message : μ) (ring : Ring μ capacity) : Ring μ capacity × Bool :=
  if full : capacity ≤ ring.count then
    (ring, false)
  else
    ({ ring with
        slots := Function.update ring.slots (ring.slot ring.count) message
        count := ring.count + 1
        count_le := Nat.lt_of_not_le full }, true)

def receive (ring : Ring μ capacity) : Ring μ capacity × Option μ :=
  if ring.count = 0 then
    (ring, none)
  else
    ({ ring with
        head := ring.slot 1
        count := ring.count - 1
        head_lt := Nat.mod_lt _ (Nat.zero_lt_of_lt ring.head_lt)
        count_le := (Nat.sub_le _ _).trans ring.count_le },
      some (ring.slots ring.head))

@[simp]
theorem contents_length (ring : Ring μ capacity) :
    ring.contents.length = ring.count := by
  simp [contents]

/-- The slots of a ring are one turn of the array: two positions share a slot
only if they are the same. -/
theorem slot_inj {ring : Ring μ capacity} {first second : Nat}
    (firstBelow : first < capacity) (secondBelow : second < capacity)
    (same : ring.slot first = ring.slot second) : first = second := by
  have apart : Nat.ModEq capacity first second :=
    Nat.ModEq.add_left_cancel' ring.head same
  exact Nat.ModEq.eq_of_lt_of_lt apart firstBelow secondBelow

theorem slot_zero (ring : Ring μ capacity) : ring.slot 0 = ring.head :=
  Nat.mod_eq_of_lt ring.head_lt

/-- Refused when full, and otherwise behind everything in the queue. -/
theorem contents_send (message : μ) (ring : Ring μ capacity) :
    (ring.send message).2 = decide (ring.count < capacity) ∧
      (ring.send message).1.contents =
        if ring.count < capacity then
          ring.contents ++ [message]
        else
          ring.contents := by
  by_cases space : ring.count < capacity
  · have notFull : ¬ capacity ≤ ring.count := Nat.not_le.mpr space
    simp only [send, dif_neg notFull, if_pos space, decide_eq_true space,
      true_and]
    unfold contents
    rw [List.range_succ, List.map_append]
    congr 1
    · apply List.map_congr_left
      intro position member
      have below : position < ring.count := List.mem_range.mp member
      apply Function.update_of_ne
      intro same
      have equal : position = ring.count :=
        slot_inj (below.trans space) space same
      exact absurd equal (Nat.ne_of_lt below)
    · rw [List.map_singleton]
      exact congrArg (fun last => [last]) (Function.update_self ..)
  · have full : capacity ≤ ring.count := Nat.not_lt.mp space
    simp only [send, dif_pos full, if_neg space, decide_eq_false space,
      and_self]

/-- The oldest message, and the queue without it. -/
theorem contents_receive (ring : Ring μ capacity) :
    ring.receive.2 = ring.contents.head? ∧
      ring.receive.1.contents = ring.contents.tail := by
  by_cases nothing : ring.count = 0
  · have empty : ring.contents = [] := by
      rw [contents, nothing]
      rfl
    simp [receive, nothing, empty]
  · obtain ⟨rest, count⟩ := Nat.exists_eq_succ_of_ne_zero nothing
    have split :
        ring.contents =
          ring.slots ring.head ::
            (List.range rest).map fun position =>
              ring.slots (ring.slot (position + 1)) := by
      rw [contents, count, List.range_succ_eq_map, List.map_cons,
        List.map_map, slot_zero]
      rfl
    rw [split]
    simp only [receive, if_neg nothing, List.head?_cons, List.tail_cons,
      true_and]
    unfold contents
    have fewer : ring.count - 1 = rest := by
      rw [count]
      rfl
    have moved :
        ∀ position,
          (ring.slot 1 + position) % capacity =
            ring.slot (position + 1) := by
      intro position
      simp only [slot, Nat.mod_add_mod]
      rw [Nat.add_assoc, Nat.add_comm 1]
    show
      ((List.range (ring.count - 1)).map fun position =>
          ring.slots ((ring.slot 1 + position) % capacity)) =
        _
    rw [fewer]
    apply List.map_congr_left
    intro position _
    rw [moved]

/-- A ring with its bit in an event group. -/
def mailbox : Mailbox (Ring μ capacity × Bool) μ where
  send := fun message (ring, posted) =>
    let (sent, ok) := ring.send message
    ((sent, posted || ok), ok)
  receive := fun (ring, posted) =>
    let (rest, message) := ring.receive
    ((rest, posted && decide (rest.count ≠ 0)), message)
  posted := Prod.snd
  consume := fun (ring, _) => (ring, false)

theorem mailbox_lawful :
    (mailbox : Mailbox (Ring μ capacity × Bool) μ).Lawful
      (fun state => state.1.contents) capacity where
  send_space := by
    rintro message ⟨ring, posted⟩ space
    rw [contents_length] at space
    obtain ⟨ok, stored⟩ := contents_send message ring
    rw [decide_eq_true space] at ok
    rw [if_pos space] at stored
    refine ⟨ok, stored, ?_⟩
    show (posted || (ring.send message).2) = true
    rw [ok, Bool.or_true]
  send_full := by
    rintro message ⟨ring, posted⟩ full
    rw [contents_length] at full
    obtain ⟨ok, stored⟩ := contents_send message ring
    rw [decide_eq_false (Nat.not_lt.mpr full)] at ok
    rw [if_neg (Nat.not_lt.mpr full)] at stored
    refine ⟨ok, stored, fun before => ?_⟩
    have bit : posted = true := before
    show (posted || (ring.send message).2) = true
    rw [bit, Bool.true_or]
  receive_cons := by
    rintro ⟨ring, posted⟩ message rest held
    obtain ⟨oldest, left⟩ := contents_receive ring
    have split : ring.contents = message :: rest := held
    rw [split] at oldest left
    exact ⟨oldest, left⟩
  receive_nil := by
    rintro ⟨ring, posted⟩ held
    obtain ⟨oldest, left⟩ := contents_receive ring
    have empty : ring.contents = [] := held
    rw [empty] at oldest left
    exact ⟨oldest, left⟩
  consume := fun _ => rfl

end Ring

end PrismKit.Library
