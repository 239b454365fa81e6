import PrismKit.Commands.Stream
import PrismKit.Firmware.Interleaving

/-!
# Commands from the serial port

What arrives in the command mailbox of the commands that the bytes of the serial
port say, in every interleaving of the tasks.
-/

namespace PrismKit

open Library Scanner

universe u v w x

variable {σ : Type u} {φ : Type v} {β : Type w} {τ : Type x}
  {platform : Platform σ φ β τ}
  {contents : σ → List ControllerCommandMessage}
  {frames : φ → List SharedFrame}
  {start before after firmware : Firmware σ φ β τ}

/-- The invocations of handlers that are still to come. -/
def HwPoint.pending : HwPoint → List Invocation
  | .delivering rest _ => rest
  | _ => []

theorem Link.Received.refl {link : Link} (parsing : link.Parsing) :
    Received [] link link where
  parsing := parsing
  pending := rfl
  packets := (List.append_nil _).symm
  read := rfl
  timestamp := rfl
  frameTimeout := rfl

namespace Firmware

/-- The instance with the command handlers before the first byte. -/
theorem commandLink_eq (platform : Platform σ φ β τ) :
    commandLink (sinkMailbox platform) {} =
      { toProtocol :=
          { Protocol.create {} with
            handlers := commandTable (sinkMailbox platform) } } := by
  rw [commandLink, register_create]

/-- The protocol engine has read all bytes, with the command handlers in its
table. -/
structure Fed (platform : Platform σ φ β τ) (firmware : Firmware σ φ β τ) :
    Prop where
  received :
    Link.Received firmware.bytes
      (commandLink (sinkMailbox platform) {})
      firmware.link
  cached : firmware.link.cached = []
  answered :
    firmware.link.Answered fun table =>
      table = commandTable (sinkMailbox platform)

/-- The handlers called are those that the bytes ask for. -/
theorem Fed.invocations (fed : firmware.Fed platform) :
    firmware.link.invocations = invocationsIn firmware.bytes := by
  have fresh :
      (commandLink (sinkMailbox platform) {}).packets = [] ∧
        (commandLink (sinkMailbox platform) {}).pending = none := by
    rw [commandLink_eq]
    exact ⟨rfl, rfl⟩
  have packets : firmware.link.packets = scan firmware.bytes := by
    rw [fed.received.packets, fresh.1, fresh.2, List.nil_append,
      feedAll_eq_scan]
  have answers :
      ∀ dispatch ∈ firmware.link.dispatches,
        dispatch.answers = dispatch.packet.invocations := by
    intro dispatch member
    have registered : dispatch.table = commandTable listMailbox :=
      fed.answered.tables dispatch member
    cases dispatch with
    | mk tag payload table =>
        cases registered
        rfl
  rw [fed.answered.invocations, invocationsIn, ← packets, Link.packets,
    List.flatMap_map]
  exact List.flatMap_congr answers

theorem Fed.initial (initial : Initial contents frames platform start) :
    start.Fed platform := by
  refine ⟨?_, ?_, ?_⟩
  · rw [initial.bytes, initial.link]
    refine Link.Received.refl ?_
    rw [commandLink_eq]
    exact True.intro
  · rw [initial.link, commandLink_eq]
    exact view_zero _ _
  · rw [initial.link, commandLink_eq]
    exact ⟨rfl, (fun _ member => nomatch member), rfl⟩

/-- One run of the protocol engine. -/
theorem Fed.run (fed : before.Fed platform) (chunks : List Chunk)
    (link :
      after.link =
        before.link.run (environment platform) (chunks.map Chunk.result))
    (bytes : after.bytes = before.bytes ++ chunks.flatMap Chunk.bytes) :
    after.Fed platform := by
  have reads : before.link.read = true := by
    rw [fed.received.read, commandLink_eq]
    rfl
  have untimed : before.link.Untimed := by
    left
    rw [fed.received.frameTimeout, commandLink_eq]
    rfl
  obtain ⟨received, cached⟩ :=
    Link.run_received (environment platform) chunks fed.received.parsing reads
      untimed
  rw [fed.cached, List.nil_append] at received
  refine ⟨?_, ?_, ?_⟩
  · rw [link, bytes]
    exact fed.received.append received
  · rw [link]
    exact cached
  · rw [link]
    exact
      fed.answered.call (environment platform)
        (tableProperty_full
          (commandTable_distinct (sinkMailbox platform))
          rfl)
        (.run (chunks.map Chunk.result))

theorem Fed.of_same (fed : before.Fed platform)
    (link : after.link = before.link) (bytes : after.bytes = before.bytes) :
    after.Fed platform := by
  obtain ⟨received, cached, answered⟩ := fed
  refine ⟨?_, ?_, ?_⟩
  · rw [link, bytes]
    exact received
  · rw [link]
    exact cached
  · rw [link]
    exact answered

theorem Fed.moves (moves : Moves platform before after)
    (fed : before.Fed platform) : after.Fed platform := by
  cases moves with
  | elapse | expire | wakeCommands | wakeTimeout | receive | drained | idle
  | deliver | delivered | collect | collected | apply | failed | blink =>
      exact fed.of_same rfl rfl
  | listen chunks frame point => exact fed.run chunks rfl rfl
  | bind finish point executes =>
      have effect := (executed executes).eq
      apply fed.of_same
      · show Firmware.link _ = _
        rw [effect]
      · show Firmware.bytes _ = _
        rw [effect]
  | begin fuel startTime runTime finish point executes =>
      rw [(executed executes).eq]
      exact fed.of_same rfl rfl
  | dispatch fuel startTime runTime finish message timeout point executes =>
      rw [(executed executes).eq]
      exact fed.of_same rfl rfl
  | tick fuel now finish point executes =>
      rw [(executed executes).eq]
      exact fed.of_same rfl rfl

/-- Some of the handlers that the bytes ask for have been called; the others are
still to come.  The mailbox has accepted some of their messages, in their
order. -/
def Handled (firmware : Firmware σ φ β τ) : Prop :=
  ∃ called,
    invocationsIn firmware.bytes = called ++ firmware.hw.pending ∧
      firmware.commands.accepted.Sublist
        (called.flatMap ControllerCommandSink.messages)

/-- Other moves than those of the handlers. -/
theorem Handled.of_same (handled : before.Handled)
    (bytes : after.bytes = before.bytes)
    (pending : after.hw.pending = before.hw.pending)
    (accepted : after.commands.accepted = before.commands.accepted) :
    after.Handled := by
  obtain ⟨called, asked, sublist⟩ := handled
  refine ⟨called, ?_, ?_⟩
  · rw [bytes, pending]
    exact asked
  · rw [accepted]
    exact sublist

/-- A call of the controller leaves the hardware task and the commands alone. -/
theorem Executed.handled {fuel finish : Nat} {call : Call} {next : AppPoint}
    (executed : Executed platform fuel finish call next before after)
    (handled : before.Handled) : after.Handled := by
  apply handled.of_same
  · rw [executed.eq]
  · rw [executed.eq]
  · rw [executed.eq]

/-- What a run of the protocol engine adds to the calls of handlers. -/
theorem Fed.drop {chunks : List Chunk} (fed : before.Fed platform)
    (fed' : after.Fed platform)
    (bytes : after.bytes = before.bytes ++ chunks.flatMap Chunk.bytes) :
    invocationsIn after.bytes =
      invocationsIn before.bytes ++
        after.link.invocations.drop before.link.invocations.length := by
  rw [fed.invocations, fed'.invocations, bytes, invocationsIn_append,
    List.drop_left]

theorem Handled.moves (moves : Moves platform before after)
    (fed : before.Fed platform) (handled : before.Handled) :
    after.Handled := by
  have fed' := fed.moves moves
  cases moves with
  | elapse | expire | wakeCommands | wakeTimeout =>
      exact handled.of_same rfl rfl rfl
  | receive timeout message point received =>
      exact handled.of_same rfl rfl (Channel.receive_of_some received).2.1
  | drained timeout point empty =>
      exact handled.of_same rfl rfl (Channel.receive_of_none empty).2.1
  | bind finish point executes =>
      have effect := (executed executes).handled handled
      exact effect
  | begin fuel startTime runTime finish point executes =>
      exact (executed executes).handled handled
  | dispatch fuel startTime runTime finish message timeout point executes =>
      exact (executed executes).handled handled
  | tick fuel now finish point executes =>
      exact (executed executes).handled handled
  | idle frame point =>
      exact handled.of_same rfl (by rw [point]; rfl) rfl
  | listen chunks frame point =>
      obtain ⟨called, asked, sublist⟩ := handled
      rw [point] at asked
      have all : invocationsIn before.bytes = called :=
        asked.trans (List.append_nil called)
      have more := fed.drop fed' rfl
      rw [all] at more
      exact ⟨called, more, sublist⟩
  | deliver invocation rest frame point =>
      obtain ⟨called, asked, sublist⟩ := handled
      rw [point] at asked
      refine ⟨called ++ [invocation], ?_, ?_⟩
      · refine asked.trans ?_
        rw [List.append_assoc]
        rfl
      · rw [List.flatMap_append, List.flatMap_singleton]
        show (before.handled platform invocation).accepted.Sublist _
        rw [handled_eq]
        split
        · obtain ⟨⟨kept, some, accepted⟩, -, -⟩ :=
            @Channel.sendAll_accepted _ _ platform.commandBox
              (ControllerCommandSink.messages invocation) before.commands
          rw [accepted]
          exact sublist.append some
        · exact sublist.trans (List.sublist_append_left _ _)
  | delivered frame point =>
      refine handled.of_same rfl ?_ rfl
      rw [point]
      cases frame <;> rfl
  | collect frame point | collected point | apply frame point
  | failed frame point =>
      exact handled.of_same rfl (by rw [point]; rfl) rfl
  | blink led next point ends =>
      refine handled.of_same rfl ?_ rfl
      rw [point]
      rcases ends with rfl | rfl <;> rfl

/-! ### A burst that fits -/

/-- Since a state with nothing to deliver, every command that the bytes brought
was accepted, as far as the mailbox had space for all of them. -/
structure Burst (contents : σ → List ControllerCommandMessage)
    (middle firmware : Firmware σ φ β τ) : Prop where
  wired : firmware.wired = true
  received :
    middle.commands.received.length ≤ firmware.commands.received.length
  accepted :
    ∃ called,
      let arrived :=
        called ++
          firmware.hw.pending.flatMap ControllerCommandSink.messages
      commandsIn firmware.bytes = commandsIn middle.bytes ++ arrived ∧
        ((contents middle.commands.state).length + arrived.length ≤ 32 →
          firmware.commands.accepted = middle.commands.accepted ++ called)

variable {middle : Firmware σ φ β τ}

theorem Burst.refl (wired : middle.wired = true)
    (settled : middle.hw.pending = []) : Burst contents middle middle where
  wired := wired
  received := Nat.le_refl _
  accepted := by
    refine ⟨[], ?_, fun _ => (List.append_nil _).symm⟩
    rw [settled]
    exact (List.append_nil _).symm

theorem Burst.of_same (burst : Burst contents middle before)
    (wired : after.wired = before.wired)
    (bytes : after.bytes = before.bytes)
    (pending : after.hw.pending = before.hw.pending)
    (accepted : after.commands.accepted = before.commands.accepted)
    (received :
      before.commands.received.length ≤ after.commands.received.length) :
    Burst contents middle after where
  wired := wired.trans burst.wired
  received := Nat.le_trans burst.received received
  accepted := by
    rw [bytes, pending, accepted]
    exact burst.accepted

theorem Executed.burst {fuel finish : Nat} {call : Call} {next : AppPoint}
    (executed : Executed platform fuel finish call next before after)
    (burst : Burst contents middle before) : Burst contents middle after := by
  apply burst.of_same
  · rw [executed.eq]
  · rw [executed.eq]
  · rw [executed.eq]
  · rw [executed.eq]
  · rw [executed.eq]

/-- The messages waiting now have waited before or came with the burst. -/
theorem Burst.length_contents {called : List ControllerCommandMessage}
    (burst : Burst contents middle before)
    (first : middle.Tended platform contents frames)
    (tended : before.Tended platform contents frames)
    (accepted :
      before.commands.accepted = middle.commands.accepted ++ called) :
    (contents before.commands.state).length ≤
      (contents middle.commands.state).length + called.length := by
  have now := congrArg List.length tended.commands.conserved
  have earlier := congrArg List.length first.commands.conserved
  have same := congrArg List.length accepted
  have received := burst.received
  rw [List.length_append] at now earlier same
  omega

theorem Burst.moves (lawful : platform.Lawful contents frames)
    (first : middle.Tended platform contents frames)
    (moves : Moves platform before after) (fed : before.Fed platform)
    (tended : before.Tended platform contents frames)
    (burst : Burst contents middle before) : Burst contents middle after := by
  have fed' := fed.moves moves
  cases moves with
  | elapse | expire | wakeCommands | wakeTimeout =>
      exact burst.of_same rfl rfl rfl rfl (Nat.le_refl _)
  | receive timeout message point received =>
      obtain ⟨received, accepted, -⟩ := Channel.receive_of_some received
      refine burst.of_same rfl rfl rfl accepted ?_
      rw [received, List.length_append]
      exact Nat.le_add_right _ _
  | drained timeout point empty =>
      obtain ⟨received, accepted, -⟩ := Channel.receive_of_none empty
      exact burst.of_same rfl rfl rfl accepted (Nat.le_of_eq (by rw [received]))
  | bind finish point executes =>
      obtain ⟨-, received, accepted⟩ := (executed executes).burst burst
      exact ⟨rfl, received, accepted⟩
  | begin fuel startTime runTime finish point executes =>
      exact (executed executes).burst burst
  | dispatch fuel startTime runTime finish message timeout point executes =>
      exact (executed executes).burst burst
  | tick fuel now finish point executes =>
      exact (executed executes).burst burst
  | idle frame point =>
      exact burst.of_same rfl rfl (by rw [point]; rfl) rfl (Nat.le_refl _)
  | listen chunks frame point =>
      obtain ⟨wired, received, called, arrived, accepted⟩ := burst
      have more := fed.drop fed' rfl
      refine ⟨wired, received, called, ?_, ?_⟩
      · rw [point] at arrived
        simp only [HwPoint.pending, List.flatMap_nil, List.append_nil] at arrived
        rw [commandsIn, more, List.flatMap_append]
        refine (congrArg (· ++ _) arrived).trans ?_
        exact List.append_assoc _ _ _
      · rintro space
        apply accepted
        rw [point]
        simp only [HwPoint.pending, List.flatMap_nil, List.append_nil]
        rw [List.length_append] at space
        omega
  | deliver invocation rest frame point =>
      obtain ⟨called, arrived, accepted⟩ := burst.accepted
      rw [point] at arrived accepted
      simp only [HwPoint.pending, List.flatMap_cons] at arrived accepted
      have sends :
          before.handled platform invocation =
            before.commands.sendAll platform.commandBox
              (ControllerCommandSink.messages invocation) := by
        rw [handled_eq, if_pos burst.wired]
      refine
        ⟨burst.wired, ?_, called ++ ControllerCommandSink.messages invocation,
          ?_, ?_⟩
      · show _ ≤ (before.handled platform invocation).received.length
        rw [sends, (Channel.sendAll_accepted _ _).2.1]
        exact burst.received
      · rw [List.append_assoc]
        exact arrived
      · intro space
        show (before.handled platform invocation).accepted = _
        simp only [HwPoint.pending, List.append_assoc] at space
        have before' := accepted space
        have held := burst.length_contents first tended before'
        rw [List.length_append, List.length_append] at space
        rw [sends, ← List.append_assoc, ← before']
        exact Channel.sendAll_space lawful.commandBox (by omega)
  | delivered frame point =>
      refine burst.of_same rfl rfl ?_ rfl (Nat.le_refl _)
      rw [point]
      cases frame <;> rfl
  | collect frame point | collected point | apply frame point
  | failed frame point =>
      exact burst.of_same rfl rfl (by rw [point]; rfl) rfl (Nat.le_refl _)
  | blink led next point ends =>
      refine burst.of_same rfl rfl ?_ rfl (Nat.le_refl _)
      rw [point]
      rcases ends with rfl | rfl <;> rfl

end Firmware

end PrismKit
