import PrismKit.Commands.Agreement

/-!
# Messages of the command handlers

A handler sends at most one message, which only depends on the payload, and the
payload of every message is the member of the union that its command reads.
-/

namespace PrismKit

universe u

/-- The command reads the member of the union that was written. -/
def ControllerCommandMessage.WellFormed (message : ControllerCommandMessage) :
    Prop :=
  match message.cmd, message.payload with
  | .setMultipleColor, .setMultiple _
  | .setSingleColor, .setSingle _
  | .setMultipleColorHsv, .setMultipleHsv _
  | .setSingleColorHsv, .setSingleHsv _
  | .setMultipleColorGrouped, .groupedSetMultiple _
  | .setSingleColorGrouped, .groupedSetSingle _
  | .setMultipleColorHsvGrouped, .groupedSetMultipleHsv _
  | .setSingleColorHsvGrouped, .groupedSetSingleHsv _
  | .runGroup, .runGroup _
  | .resetInstructions, _
  | .run, _
  | .start, .start _
  | .fade, .fade _
  | .gradient, .gradient _ => True
  | _, _ => False

namespace ControllerCommandSink

variable {σ : Type u} (mailbox : ControllerCommandMailbox σ)

/-- The messages that a handler sends when it is invoked. -/
def messages (invocation : Invocation) : List ControllerCommandMessage :=
  (receive listMailbox (some []) invocation).getD []

def sendAll (messages : List ControllerCommandMessage) (box : σ) : σ :=
  messages.foldl (fun box message => mailbox.send message box) box

/-- A handler of either kind, on a mailbox and on a list. -/
structure Family (size : Nat)
    (decode : List UInt8 → ControllerCommandMessage)
    (handler : List UInt8 → ControllerCommandSink σ → ControllerCommandSink σ)
    (plain :
      List UInt8 → ControllerCommandSink (List ControllerCommandMessage) →
        ControllerCommandSink (List ControllerCommandMessage)) : Prop where
  handler :
    handler = handleLegacy mailbox size decode ∧
        plain = handleLegacy listMailbox size decode ∨
      handler = handleExact mailbox size decode ∧
        plain = handleExact listMailbox size decode
  wellFormed : ∀ data, (decode data).WellFormed

/-- Every handler in the table is of one of the two kinds. -/
theorem family_of_lt {id : Nat} (below : id < 14) :
    ∃ tag size decode handler plain,
      (handlers mailbox)[id]? = some (tag, handler) ∧
        (handlers listMailbox)[id]? = some (tag, plain) ∧
        Family mailbox size decode handler plain := by
  match id, below with
  | 0, _ =>
      exact ⟨_, 7, _, _, _, rfl, rfl, Or.inl ⟨rfl, rfl⟩, fun _ => trivial⟩
  | 1, _ =>
      exact ⟨_, 6, _, _, _, rfl, rfl, Or.inl ⟨rfl, rfl⟩, fun _ => trivial⟩
  | 2, _ =>
      exact ⟨_, 0, _, _, _, rfl, rfl, Or.inl ⟨rfl, rfl⟩, fun _ => trivial⟩
  | 3, _ =>
      exact ⟨_, 0, _, _, _, rfl, rfl, Or.inl ⟨rfl, rfl⟩, fun _ => trivial⟩
  | 4, _ =>
      exact ⟨_, 6, _, _, _, rfl, rfl, Or.inl ⟨rfl, rfl⟩, fun _ => trivial⟩
  | 5, _ =>
      exact ⟨_, 7, _, _, _, rfl, rfl, Or.inl ⟨rfl, rfl⟩, fun _ => trivial⟩
  | 6, _ =>
      exact ⟨_, 11, _, _, _, rfl, rfl, Or.inr ⟨rfl, rfl⟩, fun _ => trivial⟩
  | 7, _ =>
      exact ⟨_, 10, _, _, _, rfl, rfl, Or.inr ⟨rfl, rfl⟩, fun _ => trivial⟩
  | 8, _ =>
      exact ⟨_, 10, _, _, _, rfl, rfl, Or.inr ⟨rfl, rfl⟩, fun _ => trivial⟩
  | 9, _ =>
      exact ⟨_, 11, _, _, _, rfl, rfl, Or.inr ⟨rfl, rfl⟩, fun _ => trivial⟩
  | 10, _ =>
      exact ⟨_, 12, _, _, _, rfl, rfl, Or.inr ⟨rfl, rfl⟩, fun _ => trivial⟩
  | 11, _ =>
      exact ⟨_, 2, _, _, _, rfl, rfl, Or.inr ⟨rfl, rfl⟩, fun _ => trivial⟩
  | 12, _ =>
      exact ⟨_, 11, _, _, _, rfl, rfl, Or.inr ⟨rfl, rfl⟩, fun _ => trivial⟩
  | 13, _ =>
      exact ⟨_, 12, _, _, _, rfl, rfl, Or.inr ⟨rfl, rfl⟩, fun _ => trivial⟩

section Family

variable {mailbox} {size : Nat} {decode : List UInt8 → ControllerCommandMessage}
  {handler : List UInt8 → ControllerCommandSink σ → ControllerCommandSink σ}
  {plain :
    List UInt8 → ControllerCommandSink (List ControllerCommandMessage) →
      ControllerCommandSink (List ControllerCommandMessage)}

theorem Family.sends (family : Family mailbox size decode handler plain)
    (data : List UInt8) :
    ∃ sent : List ControllerCommandMessage,
      (sent = [] ∨ sent = [decode data]) ∧ plain data (some []) = some sent ∧
        (∀ box, handler data (some box) = some (sendAll mailbox sent box)) ∧
        handler data none = none := by
  rcases family.handler with ⟨rfl, rfl⟩ | ⟨rfl, rfl⟩
  · unfold handleLegacy
    by_cases short : data.length < size
    · exact ⟨[], Or.inl rfl, by simp [short], by simp [short, sendAll], rfl⟩
    · refine
        ⟨[decode data], Or.inr rfl, ?_, ?_, rfl⟩
      · simp [short, queueCommand, listMailbox]
      · simp [short, queueCommand, sendAll]
  · unfold handleExact
    by_cases exact : hasExactPayload data size
    · refine ⟨[decode data], Or.inr rfl, ?_, ?_, ?_⟩
      · simp [exact, queueCommand, listMailbox]
      · simp [exact, queueCommand, sendAll]
      · simp [exact, queueCommand]
    · exact
        ⟨[], Or.inl rfl, by simp [exact], by simp [exact, sendAll],
          by simp [exact]⟩

end Family

/-- Whatever the mailbox, an invocation sends the same well-formed messages, and
without a mailbox it does nothing. -/
theorem receive_spec (invocation : Invocation) :
    (∀ box,
        receive mailbox (some box) invocation =
          some (sendAll mailbox (messages invocation) box)) ∧
      receive mailbox none invocation = none ∧
      ∀ message ∈ messages invocation, message.WellFormed := by
  rcases invocation with ⟨handler, data⟩
  cases handler with
  | loopback =>
      exact ⟨fun _ => rfl, rfl, fun _ member => nomatch member⟩
  | external id =>
      by_cases below : id < 14
      · obtain ⟨tag, size, decode, handler, plain, found, listed, family⟩ :=
          family_of_lt mailbox below
        obtain ⟨sent, shape, sends, stores, nothing⟩ := family.sends data
        have same : messages ⟨.external id, data⟩ = sent := by
          simp only [messages, receive, listed, sends, Option.getD_some]
        rw [same]
        refine ⟨?_, ?_, ?_⟩
        · intro box
          simp only [receive, found]
          exact stores box
        · simp only [receive, found]
          exact nothing
        · intro message member
          rcases shape with rfl | rfl
          · cases member
          · cases List.mem_singleton.mp member
            exact family.wellFormed data
      · have beyond : (handlers mailbox)[id]? = none :=
          List.getElem?_eq_none (Nat.not_lt.mp below)
        have listed : (handlers listMailbox)[id]? = none :=
          List.getElem?_eq_none (Nat.not_lt.mp below)
        have none : messages ⟨.external id, data⟩ = [] := by
          simp only [messages, receive, listed, Option.getD_some]
        rw [none]
        simp only [receive, beyond]
        exact ⟨fun _ => rfl, trivial, fun _ member => nomatch member⟩

end ControllerCommandSink

end PrismKit
