import Mathlib.Data.List.Basic
import Mathlib.Data.List.Infix

/-!
# Mailboxes with a wake-up bit

A bounded queue between two threads of a platform, and the event bit that its
`send` posts.  The receiving thread sleeps until the bit is posted, and then
receives until the queue is empty.

A `Channel` is a mailbox together with what has passed through it.  Whatever
the order of the calls of both threads, every accepted message is received at
most once and in order, and a receiver that sleeps without its bit misses
nothing.
-/

namespace PrismKit.Library

universe u v

/-- The operations of a mailbox on states `σ` with messages `μ`; `consume` is
what a wait does that returns with the bit. -/
structure Mailbox (σ : Type u) (μ : Type v) where
  send : μ → σ → σ × Bool
  receive : σ → σ × Option μ
  posted : σ → Bool
  consume : σ → σ

/-- What a mailbox promises: it is a queue of some capacity, a message that
finds no space is refused, and an accepted one posts the bit. -/
structure Mailbox.Lawful {σ : Type u} {μ : Type v} (mailbox : Mailbox σ μ)
    (contents : σ → List μ) (capacity : Nat) : Prop where
  send_space :
    ∀ message state, (contents state).length < capacity →
      (mailbox.send message state).2 = true ∧
        contents (mailbox.send message state).1 =
          contents state ++ [message] ∧
        mailbox.posted (mailbox.send message state).1 = true
  send_full :
    ∀ message state, capacity ≤ (contents state).length →
      (mailbox.send message state).2 = false ∧
        contents (mailbox.send message state).1 = contents state ∧
        (mailbox.posted state = true →
          mailbox.posted (mailbox.send message state).1 = true)
  receive_cons :
    ∀ state message rest, contents state = message :: rest →
      (mailbox.receive state).2 = some message ∧
        contents (mailbox.receive state).1 = rest
  receive_nil :
    ∀ state, contents state = [] →
      (mailbox.receive state).2 = none ∧
        contents (mailbox.receive state).1 = []
  consume : ∀ state, contents (mailbox.consume state) = contents state

/-- A mailbox with the messages that it accepted and delivered.  `draining`
tells whether its receiver is awake and has not found it empty since. -/
structure Channel (σ : Type u) (μ : Type v) where
  state : σ
  accepted : List μ := []
  received : List μ := []
  draining : Bool := false

namespace Channel

variable {σ : Type u} {μ : Type v} (mailbox : Mailbox σ μ)

def send (message : μ) (channel : Channel σ μ) : Channel σ μ × Bool :=
  let (state, ok) := mailbox.send message channel.state
  ({ channel with
      state := state
      accepted :=
        if ok then channel.accepted ++ [message] else channel.accepted },
    ok)

/-- The receiver wakes up with the bit. -/
def wake (channel : Channel σ μ) : Channel σ μ :=
  { channel with state := mailbox.consume channel.state, draining := true }

/-- Nothing left: the receiver is going to wait for the bit. -/
def receive (channel : Channel σ μ) : Channel σ μ × Option μ :=
  match mailbox.receive channel.state with
  | (state, some message) =>
      ({ channel with
          state := state
          received := channel.received ++ [message] }, some message)
  | (state, none) =>
      ({ channel with state := state, draining := false }, none)

/-- What holds between the two threads. -/
structure Sound (contents : σ → List μ) (capacity : Nat)
    (channel : Channel σ μ) : Prop where
  conserved : channel.received ++ contents channel.state = channel.accepted
  bounded : (contents channel.state).length ≤ capacity
  tended :
    channel.draining = false → contents channel.state ≠ [] →
      mailbox.posted channel.state = true

variable {mailbox} {contents : σ → List μ} {capacity : Nat}
  {channel : Channel σ μ}

/-- What has arrived is what was accepted first. -/
theorem Sound.received_prefix (sound : Sound mailbox contents capacity channel) :
    channel.received <+: channel.accepted :=
  ⟨contents channel.state, sound.conserved⟩

theorem Sound.received_all (sound : Sound mailbox contents capacity channel)
    (sleeps : channel.draining = false)
    (silent : mailbox.posted channel.state = false) :
    channel.received = channel.accepted := by
  have empty : contents channel.state = [] := by
    by_contra occupied
    rw [sound.tended sleeps occupied] at silent
    cases silent
  rw [← sound.conserved, empty, List.append_nil]

section Send

variable (lawful : mailbox.Lawful contents capacity) (message : μ)
include lawful

/-- Sending keeps a channel sound, whatever its receiver does. -/
theorem Sound.send (sound : Sound mailbox contents capacity channel) :
    Sound mailbox contents capacity (channel.send mailbox message).1 := by
  by_cases space : (contents channel.state).length < capacity
  · obtain ⟨ok, stored, posted⟩ :=
      lawful.send_space message channel.state space
    have accepted :
        (channel.send mailbox message).1.accepted =
          channel.accepted ++ [message] :=
      if_pos ok
    refine ⟨?_, ?_, fun _ _ => posted⟩
    · rw [accepted, ← sound.conserved, List.append_assoc]
      exact congrArg (channel.received ++ ·) stored
    · show (contents (mailbox.send message channel.state).1).length ≤ capacity
      rw [stored, List.length_append]
      exact space
  · obtain ⟨refused, same, posted⟩ :=
      lawful.send_full message channel.state (Nat.not_lt.mp space)
    have accepted :
        (channel.send mailbox message).1.accepted = channel.accepted :=
      if_neg (by rw [refused]; exact Bool.false_ne_true)
    refine ⟨?_, ?_, ?_⟩
    · rw [accepted, ← sound.conserved]
      exact congrArg (channel.received ++ ·) same
    · show (contents (mailbox.send message channel.state).1).length ≤ capacity
      rw [same]
      exact sound.bounded
    · intro sleeps occupied
      apply posted
      apply sound.tended sleeps
      rw [← same]
      exact occupied

end Send

/-- Some messages, one after the other. -/
def sendAll (mailbox : Mailbox σ μ) (messages : List μ)
    (channel : Channel σ μ) : Channel σ μ :=
  messages.foldl (fun channel message => (channel.send mailbox message).1)
    channel

/-- Some of the messages are accepted, in their order; the receiver is not
disturbed. -/
theorem sendAll_accepted (messages : List μ) (channel : Channel σ μ) :
    (∃ kept, kept.Sublist messages ∧
        (channel.sendAll mailbox messages).accepted =
          channel.accepted ++ kept) ∧
      (channel.sendAll mailbox messages).received = channel.received ∧
      (channel.sendAll mailbox messages).draining = channel.draining := by
  induction messages generalizing channel with
  | nil =>
      exact ⟨⟨[], .refl _, (List.append_nil _).symm⟩, rfl, rfl⟩
  | cons message rest inductionHypothesis =>
      obtain ⟨⟨kept, sublist, accepted⟩, received, draining⟩ :=
        inductionHypothesis (channel.send mailbox message).1
      refine ⟨?_, received, draining⟩
      by_cases ok : (mailbox.send message channel.state).2 = true
      · refine ⟨message :: kept, sublist.cons_cons message, ?_⟩
        have first :
            (channel.send mailbox message).1.accepted =
              channel.accepted ++ [message] :=
          if_pos ok
        exact
          accepted.trans
            (by rw [first, List.append_assoc, List.singleton_append])
      · refine ⟨kept, sublist.cons message, ?_⟩
        have first :
            (channel.send mailbox message).1.accepted = channel.accepted :=
          if_neg ok
        exact accepted.trans (by rw [first])

theorem Sound.sendAll (lawful : mailbox.Lawful contents capacity)
    (sound : Sound mailbox contents capacity channel) (messages : List μ) :
    Sound mailbox contents capacity (channel.sendAll mailbox messages) := by
  induction messages generalizing channel with
  | nil =>
      exact sound
  | cons message rest inductionHypothesis =>
      exact inductionHypothesis (sound.send lawful message)

/-- Where there is space for all messages, all of them are accepted. -/
theorem sendAll_space (lawful : mailbox.Lawful contents capacity)
    {messages : List μ}
    (space :
      (contents channel.state).length + messages.length ≤ capacity) :
    (channel.sendAll mailbox messages).accepted =
      channel.accepted ++ messages := by
  induction messages generalizing channel with
  | nil =>
      exact (List.append_nil _).symm
  | cons message rest inductionHypothesis =>
      rw [List.length_cons] at space
      obtain ⟨ok, stored, -⟩ :=
        lawful.send_space message channel.state (by omega)
      have accepted :
          (channel.send mailbox message).1.accepted =
            channel.accepted ++ [message] :=
        if_pos ok
      have left :
          (contents (channel.send mailbox message).1.state).length +
              rest.length ≤ capacity := by
        show (contents (mailbox.send message channel.state).1).length + _ ≤ _
        rw [stored, List.length_append, List.length_singleton]
        omega
      refine (inductionHypothesis left).trans ?_
      rw [accepted, List.append_assoc, List.singleton_append]

/-- Waking up keeps a channel sound. -/
theorem Sound.wake (lawful : mailbox.Lawful contents capacity)
    (sound : Sound mailbox contents capacity channel) :
    Sound mailbox contents capacity (channel.wake mailbox) where
  conserved := by
    show channel.received ++ contents (mailbox.consume channel.state) = _
    rw [lawful.consume]
    exact sound.conserved
  bounded := by
    show (contents (mailbox.consume channel.state)).length ≤ capacity
    rw [lawful.consume]
    exact sound.bounded
  tended := fun asleep => absurd asleep (by simp [Channel.wake])

theorem receive_of_some {message : μ}
    (taken : (channel.receive mailbox).2 = some message) :
    (channel.receive mailbox).1.received = channel.received ++ [message] ∧
      (channel.receive mailbox).1.accepted = channel.accepted ∧
      (channel.receive mailbox).1.draining = channel.draining := by
  unfold Channel.receive at taken ⊢
  split at taken
  · cases taken
    exact ⟨rfl, rfl, rfl⟩
  · cases taken

theorem receive_of_none (nothing : (channel.receive mailbox).2 = none) :
    (channel.receive mailbox).1.received = channel.received ∧
      (channel.receive mailbox).1.accepted = channel.accepted ∧
      (channel.receive mailbox).1.draining = false := by
  unfold Channel.receive at nothing ⊢
  split at nothing
  · cases nothing
  · exact ⟨rfl, rfl, rfl⟩

section Receive

variable (lawful : mailbox.Lawful contents capacity)
include lawful

/-- The two outcomes of `receive`. -/
theorem receive_cases (channel : Channel σ μ) :
    (contents channel.state = [] ∧
        ∃ state, contents state = [] ∧
          channel.receive mailbox =
            ({ channel with state := state, draining := false }, none)) ∨
      ∃ message rest state,
        contents channel.state = message :: rest ∧ contents state = rest ∧
          channel.receive mailbox =
            ({ channel with
                state := state
                received := channel.received ++ [message] },
              some message) := by
  unfold Channel.receive
  cases held : contents channel.state with
  | nil =>
      obtain ⟨nothing, empty⟩ := lawful.receive_nil channel.state held
      cases result : mailbox.receive channel.state with
      | mk state message =>
          rw [result] at nothing empty
          cases nothing
          exact Or.inl ⟨rfl, state, empty, rfl⟩
  | cons message rest =>
      obtain ⟨oldest, left⟩ :=
        lawful.receive_cons channel.state message rest held
      cases result : mailbox.receive channel.state with
      | mk state taken =>
          rw [result] at oldest left
          cases oldest
          exact Or.inr ⟨message, rest, state, rfl, left, rfl⟩

theorem Sound.receive (sound : Sound mailbox contents capacity channel)
    (awake : channel.draining = true) :
    Sound mailbox contents capacity (channel.receive mailbox).1 := by
  rcases receive_cases lawful channel with
    ⟨held, state, empty, result⟩ | ⟨message, rest, state, held, left, result⟩
  · rw [result]
    refine ⟨?_, ?_, fun _ occupied => absurd empty occupied⟩
    · rw [← sound.conserved, held]
      exact congrArg (channel.received ++ ·) empty
    · show (contents state).length ≤ capacity
      rw [empty]
      exact Nat.zero_le capacity
  · rw [result]
    refine ⟨?_, ?_, fun asleep => ?_⟩
    · rw [← sound.conserved, held]
      show channel.received ++ [message] ++ contents state = _
      rw [left, List.append_assoc, List.singleton_append]
    · have bounded := sound.bounded
      rw [held, List.length_cons] at bounded
      show (contents state).length ≤ capacity
      rw [left]
      exact Nat.le_of_succ_le bounded
    · have impossible : channel.draining = false := asleep
      rw [awake] at impossible
      cases impossible

end Receive

end Channel

end PrismKit.Library
