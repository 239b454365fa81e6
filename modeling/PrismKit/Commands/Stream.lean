import PrismKit.Commands.Messages

/-!
# Commands in a byte string

What the reference scanner and the command handlers make of the bytes of the
serial port.  The frames that the host writes one after the other are read as
one message for each command, and of a transmission that breaks off the complete
frames are read.
-/

namespace PrismKit

open Scanner ControllerCommandSink

/-- The handler calls for a packet, with the table that `Register` fills. -/
def Packet.invocations (packet : Packet) : List Invocation :=
  Dispatch.answers
    ⟨packet.1, packet.2, commandTable listMailbox⟩

/-- The handler calls that a byte string asks for. -/
def invocationsIn (bytes : List UInt8) : List Invocation :=
  (scan bytes).flatMap Packet.invocations

def messagesOf (packets : List Packet) : List ControllerCommandMessage :=
  (packets.flatMap Packet.invocations).flatMap messages

/-- The commands in a byte string. -/
def commandsIn (bytes : List UInt8) : List ControllerCommandMessage :=
  (invocationsIn bytes).flatMap messages

/-- Read byte by byte. -/
theorem invocationsIn_eq (bytes : List UInt8) :
    invocationsIn bytes =
      (feedAll none bytes).2.flatMap Packet.invocations := by
  rw [invocationsIn, feedAll_eq_scan]

theorem invocationsIn_nil : invocationsIn [] = [] :=
  invocationsIn_eq []

/-- More bytes ask for more calls, behind those asked for before. -/
theorem invocationsIn_append (left right : List UInt8) :
    invocationsIn (left ++ right) =
      invocationsIn left ++
        (feedAll (feedAll none left).1 right).2.flatMap Packet.invocations := by
  rw [invocationsIn_eq, invocationsIn_eq, feedAll_append, List.flatMap_append]

theorem commandsIn_nil : commandsIn [] = [] := by
  rw [commandsIn, invocationsIn_nil]
  rfl

theorem messagesOf_append (left right : List Packet) :
    messagesOf (left ++ right) = messagesOf left ++ messagesOf right := by
  rw [messagesOf, List.flatMap_append, List.flatMap_append]
  rfl

/-- Bytes behind a string that ends with a complete frame, or with none. -/
theorem commandsIn_append {left : List UInt8}
    (aligned : (feedAll none left).1 = none) (right : List UInt8) :
    commandsIn (left ++ right) =
      commandsIn left ++ messagesOf (feedAll none right).2 := by
  rw [commandsIn, invocationsIn_append, aligned, List.flatMap_append]
  rfl

namespace HostCommand

def message : HostCommand → ControllerCommandMessage
  | setSingleColor r g b index mark =>
      ⟨.setSingleColor, .setSingle ⟨mark, r, g, b, index⟩⟩
  | setMultipleColor r g b first last mark =>
      ⟨.setMultipleColor, .setMultiple ⟨mark, r, g, b, ⟨first, last⟩⟩⟩
  | setMultipleColorGrouped r g b first last groupId mark =>
      ⟨.setMultipleColorGrouped,
        .groupedSetMultiple ⟨mark, r, g, b, ⟨first, last⟩, groupId⟩⟩
  | setSingleColorGrouped r g b index groupId mark =>
      ⟨.setSingleColorGrouped,
        .groupedSetSingle ⟨mark, r, g, b, index, groupId⟩⟩
  | runGroup parentGroupId mark targetGroupId additionalRepeats =>
      ⟨.runGroup,
        .runGroup ⟨parentGroupId, mark, targetGroupId, additionalRepeats⟩⟩
  | fadeGrouped mark percent durationMs index groupId =>
      ⟨.fade, .fade ⟨mark, percent, durationMs, index, groupId⟩⟩
  | gradientGrouped mark r g b durationMs index groupId =>
      ⟨.gradient, .gradient ⟨mark, r, g, b, durationMs, index, groupId⟩⟩
  | resetInstructions => ⟨.resetInstructions, .unset⟩
  | setSingleColorHsv h s v index mark =>
      ⟨.setSingleColorHsv, .setSingleHsv ⟨mark, h, s, v, index⟩⟩
  | setMultipleColorHsv h s v first last mark =>
      ⟨.setMultipleColorHsv, .setMultipleHsv ⟨mark, h, s, v, ⟨first, last⟩⟩⟩
  | run => ⟨.run, .unset⟩
  | start rootAdditionalRepeats => ⟨.start, .start ⟨rootAdditionalRepeats⟩⟩

def bytes (command : HostCommand) : List UInt8 :=
  command.frame.getD []

theorem sends_message (command : HostCommand) :
    ∃ tag payload id,
      Understood listMailbox command tag payload id command.message := by
  cases command with
  | setSingleColor r g b index mark =>
      exact ⟨_, _, _, understood_setSingleColor listMailbox r g b index mark⟩
  | setMultipleColor r g b first last mark =>
      exact
        ⟨_, _, _,
          understood_setMultipleColor listMailbox r g b first last mark⟩
  | setMultipleColorGrouped r g b first last groupId mark =>
      exact
        ⟨_, _, _,
          understood_setMultipleColorGrouped listMailbox r g b first last
            groupId mark⟩
  | setSingleColorGrouped r g b index groupId mark =>
      exact
        ⟨_, _, _,
          understood_setSingleColorGrouped listMailbox r g b index groupId
            mark⟩
  | runGroup parentGroupId mark targetGroupId additionalRepeats =>
      exact
        ⟨_, _, _,
          understood_runGroup listMailbox parentGroupId mark targetGroupId
            additionalRepeats⟩
  | fadeGrouped mark percent durationMs index groupId =>
      exact
        ⟨_, _, _,
          understood_fadeGrouped listMailbox mark percent durationMs index
            groupId⟩
  | gradientGrouped mark r g b durationMs index groupId =>
      exact
        ⟨_, _, _,
          understood_gradientGrouped listMailbox mark r g b durationMs index
            groupId⟩
  | resetInstructions =>
      exact ⟨_, _, _, understood_resetInstructions listMailbox⟩
  | setSingleColorHsv h s v index mark =>
      exact
        ⟨_, _, _, understood_setSingleColorHsv listMailbox h s v index mark⟩
  | setMultipleColorHsv h s v first last mark =>
      exact
        ⟨_, _, _,
          understood_setMultipleColorHsv listMailbox h s v first last mark⟩
  | run => exact ⟨_, _, _, understood_run listMailbox⟩
  | start repeats => exact ⟨_, _, _, understood_start listMailbox repeats⟩

theorem frame_eq (command : HostCommand) :
    command.frame = some command.bytes := by
  obtain ⟨tag, payload, id, understood⟩ := command.sends_message
  rw [bytes, understood.frame]
  rfl

/-- A frame is read as its message, and the reader waits for the next one. -/
theorem read (command : HostCommand) :
    ∃ packet,
      feedAll none command.bytes = (none, [packet]) ∧
        messagesOf [packet] = [command.message] := by
  obtain ⟨tag, payload, id, understood⟩ := command.sends_message
  refine ⟨(tag, payload), ?_, ?_⟩
  · rw [bytes, understood.frame]
    exact feedAll_wire tag understood.short
  · rw [messagesOf, List.flatMap_singleton]
    show (Dispatch.answers ⟨tag, payload, _⟩).flatMap messages = _
    rw [understood.answers, List.flatMap_singleton, messages, understood.sends]
    rfl

theorem read_cut (command : HostCommand) {piece : List UInt8}
    (cut : piece <+: command.bytes)
    (short : piece.length < command.bytes.length) :
    (feedAll none piece).2 = [] := by
  obtain ⟨tag, payload, id, understood⟩ := command.sends_message
  have whole : command.bytes = syncByte :: wireBody tag payload := by
    rw [bytes, understood.frame, ← wire_eq_cons]
    rfl
  rw [whole] at cut short
  cases piece with
  | nil =>
      rfl
  | cons byte body =>
      obtain ⟨rfl, missing, complete⟩ := List.cons_prefix_cons.mp cut
      rw [List.length_cons, List.length_cons] at short
      have declares := declared_wireBody tag understood.short
      have length := length_wireBody tag payload
      have unfinished : Unfinished ([] ++ body) := by
        rw [List.nil_append]
        by_cases early : body.length < headerSize
        · exact Or.inl early
        · right
          rw [← complete, declared_append (by omega)] at declares
          rw [declares]
          exact ⟨understood.short, by omega⟩
      rw [feedAll, feed, if_pos rfl]
      simp only
      rw [feedAll_unfinished unfinished]
      rfl

end HostCommand

/-- The bytes of the frames of some commands, one after the other. -/
def stream (commands : List HostCommand) : List UInt8 :=
  commands.flatMap HostCommand.bytes

theorem stream_read (commands : List HostCommand) :
    (feedAll none (stream commands)).1 = none ∧
      messagesOf (feedAll none (stream commands)).2 =
        commands.map HostCommand.message := by
  induction commands with
  | nil =>
      exact ⟨rfl, rfl⟩
  | cons command rest inductionHypothesis =>
      obtain ⟨packet, reads, sends⟩ := command.read
      rw [stream, List.flatMap_cons, feedAll_append, reads]
      refine ⟨inductionHypothesis.1, ?_⟩
      rw [messagesOf_append, sends]
      exact congrArg _ inductionHypothesis.2

/-- Of a transmission that breaks off, exactly the commands whose frames are
complete are read; they are all of them only if nothing is missing. -/
theorem stream_cut (commands : List HostCommand) {piece : List UInt8}
    (cut : piece <+: stream commands) :
    ∃ count,
      count ≤ commands.length ∧
        messagesOf (feedAll none piece).2 =
          (commands.take count).map HostCommand.message ∧
        (count = commands.length → piece = stream commands) ∧
        ∀ complete, complete ≤ commands.length →
          (stream (commands.take complete) <+: piece ↔ complete ≤ count) := by
  induction commands generalizing piece with
  | nil =>
      cases List.prefix_nil.mp cut
      refine ⟨0, Nat.le_refl 0, rfl, fun _ => rfl, ?_⟩
      intro complete bound
      rw [List.take_nil]
      exact iff_of_true List.nil_prefix bound
  | cons command rest inductionHypothesis =>
      rw [stream, List.flatMap_cons] at cut ⊢
      by_cases short : piece.length < command.bytes.length
      · refine ⟨0, Nat.zero_le _, ?_, (fun all => Nat.noConfusion all), ?_⟩
        · have front :=
            List.prefix_of_prefix_length_le cut (List.prefix_append _ _)
              (Nat.le_of_lt short)
          rw [command.read_cut front short]
          rfl
        · intro complete _
          cases complete with
          | zero => exact iff_of_true List.nil_prefix (Nat.le_refl 0)
          | succ complete =>
              refine iff_of_false ?_ (Nat.not_succ_le_zero _)
              rw [List.take_succ_cons, stream, List.flatMap_cons]
              intro contained
              have long :=
                ((List.prefix_append _ _).trans contained).length_le
              omega
      · obtain ⟨later, rfl⟩ :=
          List.prefix_of_prefix_length_le (List.prefix_append _ _) cut
            (Nat.le_of_not_lt short)
        obtain ⟨count, bound, reads, all, frames⟩ :=
          inductionHypothesis ((List.prefix_append_right_inj _).mp cut)
        obtain ⟨packet, first, sends⟩ := command.read
        refine ⟨count + 1, Nat.succ_le_succ bound, ?_, ?_, ?_⟩
        · rw [feedAll_append, first, messagesOf_append, sends, reads]
          rfl
        · intro complete
          exact congrArg _ (all (Nat.succ.inj complete))
        · intro complete within
          cases complete with
          | zero => exact iff_of_true List.nil_prefix (Nat.zero_le _)
          | succ complete =>
              rw [List.take_succ_cons, stream, List.flatMap_cons,
                List.prefix_append_right_inj, Nat.succ_le_succ_iff]
              exact frames complete (Nat.le_of_succ_le_succ within)

end PrismKit
