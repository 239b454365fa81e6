import PrismKit.Protocol.Transmit

/-!
# Loopback

The loopback handler answers through the one transmit slot, and `Run` empties
the slot only before and after it reads.  Of the loopback frames that one call
of `Run` completes, the first is echoed and the others find the slot taken.
-/

namespace PrismKit

open Library Scanner

def completed :
    Option (List UInt8) → List Delivery → List (List Packet)
  | _, [] => []
  | pending, delivery :: rest =>
      (feedAll pending delivery.bytes).2 ::
        completed (feedAll pending delivery.bytes).1 rest

def wires (packets : List Packet) : List UInt8 :=
  packets.flatMap fun packet => wire packet.1 packet.2

theorem flatten_completed (pending : Option (List UInt8))
    (deliveries : List Delivery) :
    (completed pending deliveries).flatten =
      (feedAll pending (deliveries.flatMap Delivery.bytes)).2 := by
  induction deliveries generalizing pending with
  | nil =>
      rfl
  | cons delivery rest inductionHypothesis =>
      rw [completed, List.flatten_cons, List.flatMap_cons, feedAll_append,
        inductionHypothesis]

theorem wires_append (left right : List Packet) :
    wires (left ++ right) = wires left ++ wires right :=
  List.flatMap_append

theorem wires_eq_nil_iff (packets : List Packet) :
    wires packets = [] ↔ packets = [] := by
  cases packets with
  | nil =>
      exact ⟨fun _ => rfl, fun _ => rfl⟩
  | cons packet rest =>
      refine ⟨?_, fun nothing => nomatch nothing⟩
      intro nothing
      have size := length_wire packet.1 packet.2
      rw [wires, List.flatMap_cons, List.append_eq_nil_iff] at nothing
      rw [nothing.1, List.length_nil] at size
      omega

def firsts (groups : List (List Packet)) : List Packet :=
  groups.flatMap fun group => group.take 1

theorem wires_group (group : List Packet) :
    wires group = wires (group.take 1) ++ wires (group.drop 1) := by
  rw [← wires_append, List.take_append_drop]

theorem length_wires_firsts_le (groups : List (List Packet)) :
    (wires (firsts groups)).length ≤ (wires groups.flatten).length := by
  induction groups with
  | nil =>
      exact Nat.le_refl _
  | cons group rest inductionHypothesis =>
      rw [firsts] at inductionHypothesis ⊢
      rw [List.flatMap_cons, List.flatten_cons, wires_append, wires_append,
        wires_group group]
      simp only [List.length_append]
      omega

/-- The first packets are all there is exactly when no group has two. -/
theorem wires_firsts_iff (groups : List (List Packet)) :
    wires (firsts groups) = wires groups.flatten ↔
      ∀ group ∈ groups, group.length ≤ 1 := by
  induction groups with
  | nil =>
      exact ⟨fun _ _ member => (nomatch member), fun _ => rfl⟩
  | cons group rest inductionHypothesis =>
      have shorter := length_wires_firsts_le rest
      have whole :
          wires (firsts (group :: rest)) = wires (group :: rest).flatten ↔
            wires (firsts rest) =
              wires (group.drop 1) ++ wires rest.flatten := by
        rw [firsts, List.flatMap_cons, List.flatten_cons, wires_append,
          wires_append, wires_group group, List.append_assoc]
        exact List.append_right_inj _
      rw [whole, List.forall_mem_cons, ← inductionHypothesis]
      constructor
      · intro same
        have nothing : wires (group.drop 1) = [] := by
          have sizes := congrArg List.length same
          rw [List.length_append] at sizes
          exact List.eq_nil_of_length_eq_zero (by omega)
        rw [nothing, List.nil_append] at same
        rw [wires_eq_nil_iff, List.drop_eq_nil_iff] at nothing
        exact ⟨nothing, same⟩
      · rintro ⟨one, same⟩
        rw [List.drop_eq_nil_iff.mpr one, same]
        rfl

namespace Link

/-- The transmit slot after packets for the loopback handler. -/
def queued (slot : Option (List UInt8)) (packets : List Packet) :
    Option (List UInt8) :=
  slot.or (packets.head?.map Prod.snd)

theorem queued_append (slot : Option (List UInt8))
    (first second : List Packet) :
    queued (queued slot first) second = queued slot (first ++ second) := by
  cases slot with
  | some data =>
      rfl
  | none =>
      cases first with
      | nil =>
          rfl
      | cons packet rest =>
          rfl

def Loops (link : Link) : Prop :=
  (link.handlers.find? fun entry => entry.tag = Tag.loopback) =
    some ⟨Tag.loopback, .loopback⟩

structure Echoing (packets : List Packet) (before after : Link) : Prop where
  write : after.write = before.write
  chunks : after.chunks = before.chunks
  handlers : after.handlers = before.handlers
  slot : after.txData = queued before.txData packets
  tag :
    (before.txData ≠ none → before.txTag = Tag.loopback) →
      after.txData ≠ none → after.txTag = Tag.loopback

namespace Echoing

theorem of_same {before after : Link} (write : after.write = before.write)
    (chunks : after.chunks = before.chunks)
    (handlers : after.handlers = before.handlers)
    (txData : after.txData = before.txData)
    (txTag : after.txTag = before.txTag) : Echoing [] before after where
  write := write
  chunks := chunks
  handlers := handlers
  slot := by
    rw [txData, queued, List.head?_nil, Option.map_none, Option.or_none]
  tag := by
    rw [txData, txTag]
    exact id

theorem append {first second : List Packet} {before middle after : Link}
    (left : Echoing first before middle)
    (right : Echoing second middle after) :
    Echoing (first ++ second) before after where
  write := right.write.trans left.write
  chunks := right.chunks.trans left.chunks
  handlers := right.handlers.trans left.handlers
  slot := by
    rw [right.slot, left.slot, queued_append]
  tag := right.tag ∘ left.tag

end Echoing

variable {environment : Environment}

theorem consumeByte_echoing (raw : UInt8) {link : Link}
    (parsing : link.Parsing) (loops : link.Loops)
    (tags : ∀ packet ∈ (feed link.pending raw).2, packet.1 = Tag.loopback) :
    Echoing (feed link.pending raw).2 link
      (link.consumeByte environment raw) := by
  have packets := (consumeByte_consumed environment raw parsing).packets
  cases consumeByte_cases environment raw link with
  | inl quiet =>
      obtain ⟨_, _, _, _, _, _, _, same⟩ := quiet
      rw [same] at packets ⊢
      have none' := List.self_eq_append_right.mp packets
      rw [none']
      exact Echoing.of_same rfl rfl rfl rfl rfl
  | inr complete =>
      obtain ⟨_, _, same⟩ := complete
      have kept := dispatchFrame_keepsReceiver environment link
      have dispatched :
          (link.consumeByte environment raw).packets =
            link.packets ++ [(link.rxTag, link.rxPayload)] := by
        rw [same]
        show (link.dispatchFrame environment).dispatches.map Dispatch.packet = _
        rw [kept.dispatches, List.map_append]
        rfl
      have arrived : (feed link.pending raw).2 = _ :=
        (List.append_cancel_left (packets.symm.trans dispatched))
      have tag : link.rxTag = Tag.loopback := by
        apply tags (link.rxTag, link.rxPayload)
        rw [arrived]
        exact List.mem_singleton_self _
      rw [arrived, same, dispatchFrame, tag, loops]
      simp only [invoke, Protocol.loopbackImpl, Protocol.resetParser]
      cases slot : link.txData with
      | none =>
          rw [if_neg (not_not.mpr rfl)]
          refine ⟨rfl, rfl, rfl, ?_, fun _ _ => rfl⟩
          rw [slot]
          rfl
      | some data =>
          rw [if_pos (Option.some_ne_none data)]
          refine ⟨rfl, rfl, rfl, ?_, fun before _ => before ?_⟩
          · rw [slot]
            rfl
          · rw [slot]
            exact Option.some_ne_none data

theorem Absorbs.echoing {bytes : List UInt8} {before after : Link}
    (absorbs : Absorbs environment bytes before after)
    (parsing : before.Parsing) (loops : before.Loops)
    (tags :
      ∀ packet ∈ (feedAll before.pending bytes).2, packet.1 = Tag.loopback) :
    Echoing (feedAll before.pending bytes).2 before after := by
  induction absorbs with
  | done link =>
      exact Echoing.of_same rfl rfl rfl rfl rfl
  | cache readahead readaheadIdx readaheadCnt _ inductionHypothesis =>
      have later := inductionHypothesis parsing loops tags
      exact ⟨later.write, later.chunks, later.handlers, later.slot, later.tag⟩
  | @byte raw bytes before after _ inductionHypothesis =>
      have consumed := consumeByte_consumed environment raw parsing
      have here :
          ∀ packet ∈ (feed before.pending raw).2, packet.1 = Tag.loopback := by
        intro packet member
        exact tags packet (List.mem_append_left _ member)
      have step := @consumeByte_echoing environment raw before parsing loops here
      have loops' : (before.consumeByte environment raw).Loops := by
        rw [Loops, step.handlers]
        exact loops
      rw [consumed.pending] at inductionHypothesis
      exact
        step.append
          (inductionHypothesis consumed.parsing loops' fun packet member =>
            tags packet (List.mem_append_right _ member))

/-! ### A session -/

/-- An instance between two calls that has answered everything so far. -/
structure Resting (link : Link) : Prop where
  parsing : link.Parsing
  read : link.read = true
  write : link.write = true
  untimed : link.Untimed
  cached : link.cached = []
  loops : link.Loops
  slot : link.txData = none

/-- `Run` echoes the first loopback frame that it completes. -/
theorem Resting.run (accepting : ∀ call, environment.accepts call = true)
    {link : Link} (resting : link.Resting) {chunks : List Chunk}
    (tags :
      ∀ packet ∈ (feedAll link.pending (chunks.flatMap Chunk.bytes)).2,
        packet.1 = Tag.loopback) :
    (link.run environment (chunks.map Chunk.result)).Resting ∧
      (link.run environment (chunks.map Chunk.result)).pending =
        (feedAll link.pending (chunks.flatMap Chunk.bytes)).1 ∧
      (link.run environment (chunks.map Chunk.result)).written =
        link.written ++
          wires
            ((feedAll link.pending (chunks.flatMap Chunk.bytes)).2.take 1) := by
  have idle : link.txPhase environment = link :=
    txPhase_idle environment resting.slot
  have unchecked := resting.untimed.checkTimeout environment
  obtain ⟨bytes, absorbs, drained, delivered⟩ :=
    receive_absorbs environment
      (Nat.le_refl (link.available (chunks.map Chunk.result)))
  have same := delivered chunks rfl resting.read
  rw [resting.cached, List.nil_append] at same
  rw [same] at absorbs
  have received := absorbs.received environment resting.parsing
  have echoing := absorbs.echoing resting.parsing resting.loops tags
  have ran :
      link.run environment (chunks.map Chunk.result) =
        (receive environment (link.available (chunks.map Chunk.result))
          (chunks.map Chunk.result) link).txPhase environment := by
    rw [Link.run, idle, unchecked]
  rw [ran]
  generalize
    receive environment (link.available (chunks.map Chunk.result))
      (chunks.map Chunk.result) link = middle at *
  have written : middle.written = link.written := by
    rw [Link.written, echoing.chunks]
    rfl
  have rest :
      ∀ {after : Link} (calls : List (List UInt8 × Bool)),
        after = { middle with chunks := calls, txData := none } →
          after.Resting ∧ after.pending = middle.pending := by
    rintro _ calls rfl
    refine ⟨⟨received.parsing, ?_, ?_, ?_, drained, ?_, rfl⟩, rfl⟩
    · exact received.read.trans resting.read
    · exact echoing.write.trans resting.write
    · rw [Untimed, received.frameTimeout, received.timestamp]
      exact resting.untimed
    · rw [Loops, echoing.handlers]
      exact resting.loops
  have slot := echoing.slot
  have tag := echoing.tag fun pending => absurd resting.slot pending
  rw [resting.slot] at slot
  generalize
    (feedAll link.pending (chunks.flatMap Chunk.bytes)).2 = packets at *
  cases packets with
  | nil =>
      have empty : middle.txData = none := slot
      have silent : middle.txPhase environment = middle :=
        txPhase_idle environment empty
      have same : middle = { middle with txData := none } := by
        rw [← empty]
      obtain ⟨resting', pending⟩ := rest middle.chunks same
      rw [silent]
      exact
        ⟨resting', received.pending, written.trans (List.append_nil _).symm⟩
  | cons packet others =>
      have loaded : middle.txData = some packet.2 := slot
      have tag := tag (loaded ▸ Option.some_ne_none packet.2)
      have writes := echoing.write.trans resting.write
      obtain ⟨bytes, calls, same⟩ :=
        txPhase_accepted accepting writes loaded
      obtain ⟨resting', pending⟩ := rest calls same
      refine ⟨resting', pending.trans received.pending, ?_⟩
      rw [bytes, written, tag, ← tags packet List.mem_cons_self, wires,
        List.take_succ_cons, List.take_zero, List.flatMap_singleton]

/-- A call other than `Send` leaves the slot empty. -/
theorem Resting.addHandler {link : Link} (resting : link.Resting) (tag : Tag)
    (handler : Option FrameHandler) :
    (link.perform (.addHandler tag handler)).Resting ∧
      (link.perform (.addHandler tag handler)).pending = link.pending ∧
      (link.perform (.addHandler tag handler)).written = link.written := by
  cases handler with
  | none =>
      exact ⟨resting, rfl, rfl⟩
  | some handler =>
      simp only [perform, Protocol.addHandler]
      split
      · exact ⟨resting, rfl, rfl⟩
      · split
        · exact ⟨resting, rfl, rfl⟩
        · have loops := resting.loops
          refine
            ⟨⟨resting.parsing, resting.read, resting.write, resting.untimed,
              resting.cached, ?_, resting.slot⟩, rfl, rfl⟩
          rw [Loops] at loops ⊢
          rw [List.find?_append, loops]
          rfl

/-- A session without `Send` echoes the first loopback frame that each call
completes. -/
theorem Resting.session (accepting : ∀ call, environment.accepts call = true)
    {link : Link} (resting : link.Resting) {deliveries : List Delivery}
    (noSend : ∀ frame, Delivery.send frame ∉ deliveries)
    (tags :
      ∀ packet ∈
          (feedAll link.pending (deliveries.flatMap Delivery.bytes)).2,
        packet.1 = Tag.loopback) :
    (link.session environment (deliveries.map Delivery.call)).written =
      link.written ++ wires (firsts (completed link.pending deliveries)) := by
  induction deliveries generalizing link with
  | nil =>
      exact (List.append_nil _).symm
  | cons delivery rest inductionHypothesis =>
      have later : ∀ frame, Delivery.send frame ∉ rest := by
        intro frame member
        exact noSend frame (List.mem_cons_of_mem _ member)
      rw [List.flatMap_cons, feedAll_append] at tags
      have step :
          (link.call environment delivery.call).Resting ∧
            (link.call environment delivery.call).pending =
              (feedAll link.pending delivery.bytes).1 ∧
            (link.call environment delivery.call).written =
              link.written ++
                wires ((feedAll link.pending delivery.bytes).2.take 1) := by
        cases delivery with
        | send frame =>
            exact absurd List.mem_cons_self (noSend frame)
        | addHandler tag handler =>
            obtain ⟨resting', pending, written⟩ :=
              resting.addHandler tag handler
            exact
              ⟨resting', pending, written.trans (List.append_nil _).symm⟩
        | run chunks =>
            exact
              resting.run accepting fun packet member =>
                tags packet (List.mem_append_left _ member)
      obtain ⟨resting', pending, written⟩ := step
      have whole :=
        inductionHypothesis resting' later (by
          rw [pending]
          exact fun packet member =>
            tags packet (List.mem_append_right _ member))
      rw [List.map_cons, Link.session, List.foldl_cons]
      rw [Link.session] at whole
      rw [whole, written, pending, completed, firsts, firsts,
        List.flatMap_cons, wires_append, List.append_assoc]

/-- What the loopback handler echoes.  Of loopback frames that arrive in any
way at an instance on which nothing else is sent, the first one completed in
each call of `Run` is echoed, in order.  These are all of them exactly when no
call completes two. -/
theorem loopback_echoes (accepting : ∀ call, environment.accepts call = true)
    (config : ProtocolConfig) (reads : config.read = true)
    (writes : config.write = true)
    (untimed : config.frameTimeout = 0 ∨ config.timestamp = false)
    (payloads : List (List UInt8))
    (short : ∀ payload ∈ payloads, payload.length ≤ maxFrameDataLength)
    (deliveries : List Delivery)
    (noSend : ∀ frame, Delivery.send frame ∉ deliveries)
    (arrives :
      deliveries.flatMap Delivery.bytes =
        payloads.flatMap (wire Tag.loopback)) :
    let final :=
      (create config).session environment (deliveries.map Delivery.call)
    (completed none deliveries).flatten =
        payloads.map (fun payload => (Tag.loopback, payload)) ∧
      final.written = wires (firsts (completed none deliveries)) ∧
      (final.written = payloads.flatMap (wire Tag.loopback) ↔
        ∀ group ∈ completed none deliveries, group.length ≤ 1) := by
  intro final
  have read :
      ∀ payloads : List (List UInt8),
        (∀ payload ∈ payloads, payload.length ≤ maxFrameDataLength) →
          feedAll none (payloads.flatMap (wire Tag.loopback)) =
            (none, payloads.map fun payload => (Tag.loopback, payload)) := by
    intro payloads short
    induction payloads with
    | nil =>
        rfl
    | cons payload rest inductionHypothesis =>
        rw [List.forall_mem_cons] at short
        rw [List.flatMap_cons, feedAll_append,
          feedAll_wire Tag.loopback short.1, inductionHypothesis short.2]
        rfl
  have all :
      (completed none deliveries).flatten =
        payloads.map fun payload => (Tag.loopback, payload) := by
    rw [flatten_completed, arrives, read payloads short]
  have fresh : (create config).Resting :=
    ⟨True.intro, reads, writes, untimed, view_zero _ _, rfl, rfl⟩
  have tags :
      ∀ packet ∈ (feedAll (create config).pending
          (deliveries.flatMap Delivery.bytes)).2,
        packet.1 = Tag.loopback := by
    intro packet member
    have found :
        packet ∈ payloads.map fun payload => (Tag.loopback, payload) := by
      rw [← all, flatten_completed]
      exact member
    obtain ⟨_, _, rfl⟩ := List.mem_map.mp found
    rfl
  have echoed : final.written = wires (firsts (completed none deliveries)) :=
    fresh.session accepting noSend tags
  have whole :
      payloads.flatMap (wire Tag.loopback) =
        wires (completed none deliveries).flatten := by
    rw [all, wires, List.flatMap_map]
  refine ⟨all, echoed, ?_⟩
  rw [echoed, whole]
  exact wires_firsts_iff _

/-- A frame with one byte, and the first half of an empty one; its second half
comes with the next call. -/
def twoRuns : List Delivery :=
  [.run
      [⟨[0xAA, 0x00, 0x00, 0x01, 0x00, 0x2A, 0x2B, 0xAA, 0x00],
        by decide, by decide⟩],
    .run [⟨[0x00, 0x00, 0x00, 0x00], by decide, by decide⟩]]

theorem loopback_echoes_of_twoRuns :
    ((create {}).session {} (twoRuns.map Delivery.call)).written =
      wire Tag.loopback [0x2A] ++ wire Tag.loopback [] := by
  have noSend : ∀ frame, Delivery.send frame ∉ twoRuns := by
    intro frame member
    simp [twoRuns] at member
  have short :
      ∀ payload ∈ [[(0x2A : UInt8)], []],
        payload.length ≤ maxFrameDataLength := by
    decide
  have arrives :
      twoRuns.flatMap Delivery.bytes =
        [[(0x2A : UInt8)], []].flatMap (wire Tag.loopback) := by
    decide +kernel
  have accepting : ∀ call, Environment.accepts {} call = true :=
    fun _ => rfl
  have echoes :=
    loopback_echoes accepting {} rfl rfl (Or.inl rfl) _ short twoRuns
      noSend arrives
  exact echoes.2.2.mpr (by decide +kernel)

/-- Two frames that one call completes. -/
def oneRun : List Delivery :=
  [.run
    [⟨[0xAA, 0x00, 0x00, 0x00, 0x00, 0x00, 0xAA, 0x00, 0x00, 0x00, 0x00,
        0x00], by decide, by decide⟩]]

/-- Only the first of them is echoed. -/
theorem not_every_loopback_echoed :
    oneRun.flatMap Delivery.bytes =
        wire Tag.loopback [] ++ wire Tag.loopback [] ∧
      ((create {}).session {} (oneRun.map Delivery.call)).written =
        wire Tag.loopback [] ∧
      ¬ ∀ (payloads : List (List UInt8)) (deliveries : List Delivery),
          (∀ payload ∈ payloads, payload.length ≤ maxFrameDataLength) →
            (∀ frame, Delivery.send frame ∉ deliveries) →
              deliveries.flatMap Delivery.bytes =
                  payloads.flatMap (wire Tag.loopback) →
                ((create {}).session {}
                    (deliveries.map Delivery.call)).written =
                  payloads.flatMap (wire Tag.loopback) := by
  have written :
      ((create {}).session {} (oneRun.map Delivery.call)).written =
        wire Tag.loopback [] := by
    decide +kernel
  refine ⟨by decide +kernel, written, ?_⟩
  intro every
  have both :=
    every [[], []] oneRun (by decide) (by simp [oneRun]) (by decide +kernel)
  rw [written] at both
  exact absurd both (by decide +kernel)

end Link

end PrismKit
