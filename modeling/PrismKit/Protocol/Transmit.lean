import PrismKit.Library.Batches
import PrismKit.Protocol.Delivery

/-!
# Transmission

What `TxPhase` writes: the wire bytes of the pending frame in batches of the
local chunk, up to the first batch that the write callback refuses.  A reader
that waits for a sync byte gets exactly this frame out of the wire bytes.
-/

namespace PrismKit

open Library Scanner

/-! ### The wire format -/

/-- The bytes of a frame on the wire. -/
def wire (tag : Tag) (payload : List UInt8) : List UInt8 :=
  [syncByte] ++ Link.txHeader tag (UInt16.ofNat payload.length) ++ payload ++
    [computeChecksum (Link.txHeader tag (UInt16.ofNat payload.length)) payload]

/-- The bytes of a frame behind its sync byte. -/
def wireBody (tag : Tag) (payload : List UInt8) : List UInt8 :=
  Link.txHeader tag (UInt16.ofNat payload.length) ++
    (payload ++
      [computeChecksum (Link.txHeader tag (UInt16.ofNat payload.length))
        payload])

def frameOf (tag : Tag) (payload : List UInt8) : Frame :=
  Frame.create tag (some payload) (UInt16.ofNat payload.length)

theorem wire_eq_cons (tag : Tag) (payload : List UInt8) :
    wire tag payload = syncByte :: wireBody tag payload := by
  rw [wire, List.append_assoc, List.append_assoc]
  rfl

theorem length_wireBody (tag : Tag) (payload : List UInt8) :
    (wireBody tag payload).length = headerSize + payload.length + 1 := by
  simp only [wireBody, Link.txHeader, List.length_append, List.length_cons,
    List.length_nil, headerSize]
  omega

theorem length_wire (tag : Tag) (payload : List UInt8) :
    (wire tag payload).length = payload.length + 6 := by
  rw [wire_eq_cons, List.length_cons, length_wireBody, headerSize]
  omega

namespace Scanner

/-- The header bytes say what they were assembled from. -/
theorem header_txHeader (tag : Tag) (length : UInt16) (rest : List UInt8) :
    header (Link.txHeader tag length ++ rest) = ⟨tag, length⟩ := by
  rw [header_append (Nat.le_refl _)]
  simp only [header, Frame.parseHeader, Link.txHeader]
  exact congrArg₂ FrameHeader.mk (join16_split tag) (join16_split length)

theorem declared_wireBody (tag : Tag) {payload : List UInt8}
    (short : payload.length ≤ maxFrameDataLength) :
    declared (wireBody tag payload) = payload.length := by
  rw [declared, wireBody, header_txHeader]
  show (UInt16.ofNat payload.length).toNat = payload.length
  rw [UInt16.toNat_ofNat']
  unfold maxFrameDataLength at short
  omega

/-- The packet of a frame is what the frame was made for. -/
theorem packet_wireBody (tag : Tag) {payload : List UInt8}
    (short : payload.length ≤ maxFrameDataLength) :
    packet (wireBody tag payload) = [(tag, payload)] := by
  let head := Link.txHeader tag (UInt16.ofNat payload.length)
  have front : (head ++ payload).length = headerSize + payload.length :=
    List.length_append
  have split :
      wireBody tag payload =
        (head ++ payload) ++ [computeChecksum head payload] := by
    rw [List.append_assoc]
    rfl
  have covered :
      (wireBody tag payload).take (headerSize + payload.length) =
        head ++ payload := by
    rw [split, List.take_left' front]
  have last :
      (wireBody tag payload).getD (headerSize + payload.length) 0 =
        computeChecksum head payload := by
    rw [split, List.getD_eq_getElem?_getD,
      List.getElem?_append_right (by omega), front, Nat.sub_self]
    rfl
  have valid : computeChecksum head payload = parity (head ++ payload) := by
    rw [parity, List.foldl_append]
    rfl
  rw [packet, declared_wireBody tag short, last, covered, if_pos valid,
    wireBody, header_txHeader]
  rfl

/-- The incremental reader gets one frame out of the wire bytes. -/
theorem feedAll_wire (tag : Tag) {payload : List UInt8}
    (short : payload.length ≤ maxFrameDataLength) :
    feedAll none (wire tag payload) = (none, [(tag, payload)]) := by
  have declares := declared_wireBody tag short
  have length := length_wireBody tag payload
  rw [wire_eq_cons, feedAll, feed, if_pos rfl]
  simp only
  rw [feedAll_frame (by omega) (by omega), packet_wireBody tag short]
  rfl

/-- The header bytes are those that the header was read from. -/
theorem txHeader_header {body : List UInt8}
    (complete : headerSize ≤ body.length) :
    Link.txHeader (header body).tag (header body).length =
      body.take headerSize := by
  match body with
  | [] | [_] | [_, _] | [_, _, _] =>
      simp [headerSize] at complete
  | first :: second :: third :: fourth :: rest =>
      obtain ⟨low, high⟩ := split16_join first second
      obtain ⟨low', high'⟩ := split16_join third fourth
      simp only [Link.txHeader, header, Frame.parseHeader,
        List.getD_cons_zero, List.getD_cons_succ, low, high, low', high',
        headerSize, List.take_succ_cons, List.take_zero]

/-- A complete frame with a right checksum is the wire format of its packet. -/
theorem wire_of_packet {body : List UInt8} {found : Packet}
    (length : headerSize + declared body + 1 ≤ body.length)
    (member : found ∈ packet body) :
    syncByte :: body.take (headerSize + declared body + 1) =
        wire found.1 found.2 ∧
      found.2.length = declared body := by
  unfold packet at member
  split at member
  · rename_i valid
    rw [List.mem_singleton] at member
    rw [member]
    have covered :
        (body.take (headerSize + declared body)).length =
          headerSize + declared body := by
      rw [List.length_take]
      omega
    have size :
        ((body.take (headerSize + declared body)).drop headerSize).length =
          declared body := by
      rw [List.length_drop, covered]
      omega
    have head :
        Link.txHeader (header body).tag (UInt16.ofNat (declared body)) =
          (body.take (headerSize + declared body)).take headerSize := by
      have four : headerSize ≤ headerSize + declared body := by omega
      rw [List.take_take, Nat.min_eq_left four, declared, UInt16.ofNat_toNat]
      exact txHeader_header (by omega)
    have split :=
      List.take_append_drop headerSize
        (body.take (headerSize + declared body))
    have checksum :
        computeChecksum
            ((body.take (headerSize + declared body)).take headerSize)
            ((body.take (headerSize + declared body)).drop headerSize) =
          parity (body.take (headerSize + declared body)) := by
      conv =>
        rhs
        rw [← split, parity, List.foldl_append]
      rfl
    refine ⟨?_, size⟩
    rw [wire, size, head, checksum, List.singleton_append,
      List.cons_append, split, List.take_add_one, ← valid]
    have inside : headerSize + declared body < body.length := by omega
    rw [List.getD_eq_getElem?_getD, List.getElem?_eq_getElem inside]
    rfl
  · cases member

/-- A packet that is found was on the wire, and the reader was waiting for its
sync byte. -/
theorem feedAll_mem {bytes : List UInt8} {found : Packet}
    (member : found ∈ (feedAll none bytes).2) :
    ∃ front back,
      bytes = front ++ wire found.1 found.2 ++ back ∧
        (feedAll none front).1 = none ∧
        found.2.length ≤ maxFrameDataLength := by
  rw [feedAll_eq_scan] at member
  induction bytes using scan.induct with
  | case1 =>
      rw [scan] at member
      cases member
  | case2 byte rest noise inductionHypothesis =>
      rw [scan, if_pos noise] at member
      obtain ⟨front, back, same, idle, short⟩ := inductionHypothesis member
      refine ⟨byte :: front, back, ?_, ?_, short⟩
      · rw [same]
        rfl
      · simp only [feedAll, feed, if_neg noise, idle]
  | case3 byte rest sync short =>
      rw [scan, if_neg sync, if_pos short] at member
      cases member
  | case4 byte rest sync complete large inductionHypothesis =>
      rw [scan, if_neg sync, if_neg complete, if_pos large] at member
      obtain ⟨front, back, same, idle, short⟩ := inductionHypothesis member
      refine ⟨byte :: rest.take headerSize ++ front, back, ?_, ?_, short⟩
      · rw [List.append_assoc, List.append_assoc, ← List.append_assoc front,
          ← same, List.cons_append, List.take_append_drop]
      · rw [feedAll_append,
          feedAll_dropped (not_not.mp sync) (Nat.not_lt.mp complete) large]
        exact idle
  | case5 byte rest sync complete small short =>
      rw [scan, if_neg sync, if_neg complete, if_neg small, if_pos short]
        at member
      cases member
  | case6 byte rest sync complete small long inductionHypothesis =>
      rw [scan, if_neg sync, if_neg complete, if_neg small, if_neg long]
        at member
      cases List.mem_append.mp member with
      | inl here =>
          obtain ⟨whole, size⟩ := wire_of_packet (by omega) here
          refine
            ⟨[], rest.drop (headerSize + declared rest + 1), ?_, rfl,
              by omega⟩
          rw [← whole, List.nil_append, List.cons_append,
            List.take_append_drop, not_not.mp sync]
      | inr later =>
          obtain ⟨front, back, same, idle, short⟩ := inductionHypothesis later
          refine
            ⟨byte :: rest.take (headerSize + declared rest + 1) ++ front, back,
              ?_, ?_, short⟩
          · rw [List.append_assoc, List.append_assoc,
              ← List.append_assoc front, ← same, List.cons_append,
              List.take_append_drop]
          · rw [feedAll_append,
              feedAll_taken (not_not.mp sync) (by omega) (by omega)]
            exact idle

end Scanner

namespace Link

variable (environment : Environment)

/-- The chunk that is left after `emit` is written as the last one. -/
private def finish (emitted : Link × Option (List UInt8)) : Link × Bool :=
  match emitted with
  | (failed, none) => (failed, false)
  | (current, some chunk) => current.flush environment chunk

/-- `emit` and the last `flush` offer the batches to the write callback. -/
private theorem finish_emit (bytes chunk : List UInt8) (link : Link) :
    finish environment (emit environment bytes chunk link) =
      ({ link with
          chunks :=
            link.chunks ++
              (offer environment.accepts link.chunks.length
                (batches chunkSize chunk bytes)).1 },
        (offer environment.accepts link.chunks.length
          (batches chunkSize chunk bytes)).2) := by
  induction bytes generalizing chunk link with
  | nil =>
      rw [emit, finish, flush, batches]
      split
      · simp only [offer, List.append_nil]
      · simp only [offer, writeChunk]
        split
        · rename_i accepted
          rw [accepted]
        · rename_i refused
          rw [Bool.not_eq_true] at refused
          rw [refused]
  | cons byte rest inductionHypothesis =>
      rw [emit, batches]
      split
      · rename_i full
        have nonempty : ¬ chunk.length = 0 := by
          unfold chunkSize at full
          omega
        have flushed :
            link.flush environment chunk = link.writeChunk environment chunk :=
          if_neg nonempty
        rw [flushed, offer, writeChunk]
        cases accepted : environment.accepts link.chunks.length with
        | true =>
            simp only [if_true]
            rw [inductionHypothesis]
            simp only [List.length_append, List.length_singleton,
              List.append_assoc, List.singleton_append]
        | false =>
            rfl
      · exact inductionHypothesis (chunk ++ [byte]) link

theorem writeFrameWire_offer (header data : List UInt8) {link : Link}
    (writes : link.write = true) :
    link.writeFrameWire environment header data =
      ({ link with
          chunks :=
            link.chunks ++
              (offer environment.accepts link.chunks.length
                (batches chunkSize []
                  ([syncByte] ++ header ++ data ++
                    [computeChecksum header data]))).1 },
        (offer environment.accepts link.chunks.length
          (batches chunkSize []
            ([syncByte] ++ header ++ data ++
              [computeChecksum header data]))).2) := by
  rw [← finish_emit, writeFrameWire, if_neg (not_not.mpr writes)]
  rfl

/-- The bytes that the write callback has taken. -/
def written (link : Link) : List UInt8 :=
  (taken link.chunks).flatten

/-- One attempt to send the pending frame. -/
def attempt (link : Link) (data : List UInt8) :
    List (List UInt8 × Bool) × Bool :=
  offer environment.accepts link.chunks.length
    (batches chunkSize [] (wire link.txTag data))

/-- `TxPhase` makes one attempt and clears the slot when it went through. -/
theorem txPhase_attempt {link : Link} {data : List UInt8}
    (writes : link.write = true) (pending : link.txData = some data) :
    link.txPhase environment =
      { link with
        chunks := link.chunks ++ (link.attempt environment data).1
        txData :=
          if (link.attempt environment data).2 then none else some data } := by
  have sent :=
    writeFrameWire_offer environment
      (txHeader link.txTag (UInt16.ofNat data.length)) data writes
  have same :
      link.attempt environment data =
        offer environment.accepts link.chunks.length
          (batches chunkSize []
            ([syncByte] ++ txHeader link.txTag (UInt16.ofNat data.length) ++
              data ++
                [computeChecksum
                  (txHeader link.txTag (UInt16.ofNat data.length)) data])) :=
    rfl
  rw [← same] at sent
  simp only [txPhase, pending]
  rw [sent]
  cases (link.attempt environment data).2 with
  | true =>
      rfl
  | false =>
      simp only [← pending]
      rfl

/-- `Send` puts a frame of legal length into an empty slot. -/
theorem perform_send {link : Link} (idle : link.txData = none) (tag : Tag)
    {payload : List UInt8} (short : payload.length ≤ maxFrameDataLength) :
    link.perform (.send (frameOf tag payload)) =
      { link with txTag := tag, txData := some payload } := by
  obtain ⟨valid, sameTag, samePayload⟩ := Frame.create_payload tag short
  simp only [perform, Protocol.send, frameOf, valid, idle, sameTag,
    samePayload]
  rfl

/-- A frame and what is on the line after it. -/
structure Segment where
  tag : Tag
  payload : List UInt8
  short : payload.length ≤ maxFrameDataLength
  filler : List UInt8
  clean : syncByte ∉ filler

/-- Send a frame and let `TxPhase` write it. -/
def transmit (sender : Link) (segment : Segment) : Link :=
  (sender.perform
    (.send (frameOf segment.tag segment.payload))).txPhase environment

/-- The bytes that a sender puts on the line for one frame after the other,
with the fillers between them. -/
def stream : Link → List Segment → List UInt8
  | _, [] => []
  | sender, segment :: rest =>
      (sender.transmit environment segment).written.drop
          sender.written.length ++
        segment.filler ++
        stream (sender.transmit environment segment) rest

variable {environment}

theorem txPhase_accepted
    (accepting : ∀ call, environment.accepts call = true) {link : Link}
    {data : List UInt8} (writes : link.write = true)
    (pending : link.txData = some data) :
    (link.txPhase environment).written =
        link.written ++ wire link.txTag data ∧
      ∃ chunks,
        link.txPhase environment = { link with chunks, txData := none } := by
  have whole : (link.attempt environment data).2 = true :=
    offer_of_accepting fun call _ => accepting (link.chunks.length + call)
  obtain ⟨count, front, all, _⟩ :=
    taken_offer environment.accepts link.chunks.length
      (batches chunkSize [] (wire link.txTag data))
  have attempted := txPhase_attempt environment writes pending
  rw [whole, if_pos rfl] at attempted
  refine ⟨?_, _, attempted⟩
  rw [attempted, written, taken_append, List.flatten_append, attempt, front,
    all whole, flatten_batches]
  rfl

theorem transmit_accepted {sender : Link}
    (accepting : ∀ call, environment.accepts call = true)
    (writes : sender.write = true) (idle : sender.txData = none)
    (segment : Segment) :
    (sender.transmit environment segment).written =
        sender.written ++ wire segment.tag segment.payload ∧
      (sender.transmit environment segment).write = true ∧
      (sender.transmit environment segment).txData = none := by
  let loaded : Link :=
    { sender with txTag := segment.tag, txData := some segment.payload }
  have sent : sender.transmit environment segment = loaded.txPhase environment := by
    rw [transmit, perform_send idle segment.tag segment.short]
  have writes' : loaded.write = true := writes
  obtain ⟨bytes, chunks, same⟩ := txPhase_accepted accepting writes' rfl
  rw [sent]
  refine ⟨bytes, ?_, ?_⟩
  · rw [same]
    exact writes
  · rw [same]

theorem feedAll_stream {sender : Link}
    (accepting : ∀ call, environment.accepts call = true)
    (writes : sender.write = true) (idle : sender.txData = none)
    (segments : List Segment) :
    feedAll none (stream environment sender segments) =
      (none, segments.map fun segment => (segment.tag, segment.payload)) := by
  induction segments generalizing sender with
  | nil =>
      rfl
  | cons segment rest inductionHypothesis =>
      obtain ⟨bytes, writes', idle'⟩ :=
        transmit_accepted accepting writes idle segment
      rw [stream, bytes, List.drop_left, feedAll_append, feedAll_append,
        feedAll_wire segment.tag segment.short, feedAll_filler segment.clean,
        inductionHypothesis writes' idle']
      rfl

/-- Whatever is sent arrives: a fresh receiver dispatches every frame of the
stream once, in order and unchanged, and waits for the next sync byte. -/
theorem stream_delivered {sender : Link}
    (accepting : ∀ call, environment.accepts call = true)
    (writes : sender.write = true) (idle : sender.txData = none)
    {leading : List UInt8} (clean : syncByte ∉ leading)
    (segments : List Segment) (receiving : Environment)
    (config : ProtocolConfig) (reads : config.read = true)
    (untimed : config.frameTimeout = 0 ∨ config.timestamp = false)
    (deliveries : List Delivery)
    (arrives :
      deliveries.flatMap Delivery.bytes =
        leading ++ stream environment sender segments) :
    let final :=
      (create config).session receiving (deliveries.map Delivery.call)
    final.packets =
        segments.map (fun segment => (segment.tag, segment.payload)) ∧
      final.state = .waitingForSync := by
  intro final
  have received := session_fresh receiving reads untimed deliveries
  have read :
      feedAll none (deliveries.flatMap Delivery.bytes) =
        (none, segments.map fun segment => (segment.tag, segment.payload)) := by
    rw [arrives, feedAll_append, feedAll_filler clean,
      feedAll_stream accepting writes idle]
    rfl
  refine ⟨?_, ?_⟩
  · rw [received.packets]
    exact congrArg Prod.snd read
  · exact
      Protocol.waiting_of_pending
        (received.pending.trans (congrArg Prod.fst read))

/-- A frame full of sync bytes, a filler, and an empty frame. -/
def syncFrames : List Segment :=
  [⟨0x00AA, [0xAA, 0xAA], by decide, [0x00], by decide⟩,
    ⟨0x0000, [], by decide, [], by decide⟩]

/-- The two frames and a leading filler, split inside the first header and
inside the second frame. -/
def syncDeliveries : List Delivery :=
  [.run [⟨[0x01, 0xAA, 0xAA], by decide, by decide⟩],
    .run [⟨[0x00, 0x02, 0x00, 0xAA, 0xAA, 0xA8, 0x00, 0xAA, 0x00, 0x00],
      by decide, by decide⟩, ⟨[0x00, 0x00, 0x00], by decide, by decide⟩]]

theorem stream_delivered_of_syncFrames :
    ((create {}).session {} (syncDeliveries.map Delivery.call)).packets =
      [(0x00AA, [0xAA, 0xAA]), (0x0000, [])] := by
  have clean : syncByte ∉ [(0x01 : UInt8)] := by
    decide
  have arrives :
      syncDeliveries.flatMap Delivery.bytes =
        [0x01] ++ stream {} (create {}) syncFrames := by
    decide +kernel
  exact
    (stream_delivered (fun _ => rfl) rfl rfl clean syncFrames {} {} rfl
      (Or.inl rfl) syncDeliveries arrives).1

end Link

end PrismKit
