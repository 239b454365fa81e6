import PrismKit.Protocol.Link
import PrismKit.Protocol.Scanner

/-!
# Reception

The four-state parser behind its read-ahead cache reads the stream byte by
byte as `Scanner.feed` does.  How the bytes were split into read calls and
calls of `Run` makes no difference, so the dispatched packets are those of the
reference scanner.
-/

namespace PrismKit

open Library Scanner

/-- Callbacks, read-ahead cache and dispatches stay as they are. -/
structure KeepsReceiver (before after : Link) : Prop where
  read : after.read = before.read
  timestamp : after.timestamp = before.timestamp
  frameTimeout : after.frameTimeout = before.frameTimeout
  readahead : after.readahead = before.readahead
  readaheadIdx : after.readaheadIdx = before.readaheadIdx
  readaheadCnt : after.readaheadCnt = before.readaheadCnt
  dispatches : after.dispatches = before.dispatches

namespace Link

variable (environment : Environment)

/-- A call of a handler reaches the handler table and the transmit slot. -/
theorem perform_eq (link : Link) (request : Request) :
    ∃ handlers txTag txData,
      link.perform request = { link with handlers, txTag, txData } := by
  cases request with
  | send frame =>
      simp only [perform, Protocol.send]
      split
      · exact ⟨_, _, _, rfl⟩
      · split
        · exact ⟨_, _, _, rfl⟩
        · exact ⟨_, _, _, rfl⟩
  | addHandler tag handler =>
      cases handler with
      | none =>
          exact ⟨_, _, _, rfl⟩
      | some handler =>
          simp only [perform, Protocol.addHandler]
          split
          · exact ⟨_, _, _, rfl⟩
          · split
            · exact ⟨_, _, _, rfl⟩
            · exact ⟨_, _, _, rfl⟩

theorem performAll_eq (requests : List Request) (link : Link) :
    ∃ handlers txTag txData,
      requests.foldl perform link = { link with handlers, txTag, txData } := by
  induction requests generalizing link with
  | nil =>
      exact ⟨_, _, _, rfl⟩
  | cons request rest inductionHypothesis =>
      obtain ⟨_, _, _, first⟩ := perform_eq link request
      obtain ⟨handlers, txTag, txData, second⟩ :=
        inductionHypothesis (link.perform request)
      refine ⟨handlers, txTag, txData, ?_⟩
      rw [List.foldl_cons, second, first]

theorem invoke_eq (handler : FrameHandler) (data : List UInt8) (link : Link) :
    ∃ handlers txTag txData,
      link.invoke environment handler data =
        { link with
          handlers
          txTag
          txData
          invocations := link.invocations ++ [⟨handler, data⟩] } := by
  cases handler with
  | loopback =>
      simp only [invoke, Protocol.loopbackImpl]
      split
      · exact ⟨_, _, _, rfl⟩
      · exact ⟨_, _, _, rfl⟩
  | external id =>
      let called : Link :=
        { link with
          invocations := link.invocations ++ [⟨.external id, data⟩] }
      obtain ⟨handlers, txTag, txData, same⟩ :=
        performAll_eq (environment.respond called.invocations) called
      exact ⟨handlers, txTag, txData, same⟩

theorem dispatchFrame_eq (link : Link) :
    ∃ handlers txTag txData calls,
      link.dispatchFrame environment =
          { link with
            handlers
            txTag
            txData
            invocations := link.invocations ++ calls
            dispatches :=
              link.dispatches ++
                [⟨link.rxTag, link.rxPayload, link.handlers⟩] } ∧
        ∀ call ∈ calls, call.data = link.rxPayload := by
  unfold dispatchFrame
  cases link.handlers.find? fun entry => entry.tag = link.rxTag with
  | none =>
      refine
        ⟨link.handlers, link.txTag, link.txData, [], ?_,
          fun _ member => absurd member List.not_mem_nil⟩
      simp only [List.append_nil]
  | some entry =>
      obtain ⟨handlers, txTag, txData, same⟩ :=
        invoke_eq environment entry.handler link.rxPayload
          { link with
            dispatches :=
              link.dispatches ++
                [⟨link.rxTag, link.rxPayload, link.handlers⟩] }
      refine ⟨handlers, txTag, txData, _, same, ?_⟩
      intro call member
      rw [List.mem_singleton] at member
      rw [member]

theorem dispatchFrame_keepsReceiver (link : Link) :
    KeepsReceiver
      { link with
        dispatches :=
          link.dispatches ++ [⟨link.rxTag, link.rxPayload, link.handlers⟩] }
      (link.dispatchFrame environment) := by
  obtain ⟨_, _, _, _, same, _⟩ := dispatchFrame_eq environment link
  rw [same]
  exact ⟨rfl, rfl, rfl, rfl, rfl, rfl, rfl⟩

theorem flush_eq (chunk : List UInt8) (link : Link) :
    ∃ chunks, (link.flush environment chunk).1 = { link with chunks } := by
  unfold flush
  split
  · exact ⟨link.chunks, rfl⟩
  · exact ⟨_, rfl⟩

theorem emit_eq (bytes chunk : List UInt8) (link : Link) :
    ∃ chunks, (emit environment bytes chunk link).1 = { link with chunks } := by
  induction bytes generalizing chunk link with
  | nil =>
      exact ⟨link.chunks, rfl⟩
  | cons byte rest inductionHypothesis =>
      obtain ⟨flushed, same⟩ := flush_eq environment chunk link
      rw [emit]
      simp only
      split
      · split
        · rw [same]
          exact inductionHypothesis [byte] { link with chunks := flushed }
        · exact ⟨flushed, same⟩
      · exact inductionHypothesis (chunk ++ [byte]) link

theorem writeFrameWire_eq (header data : List UInt8) (link : Link) :
    ∃ chunks,
      (link.writeFrameWire environment header data).1 =
        { link with chunks } := by
  obtain ⟨emitted, same⟩ :=
    emit_eq environment
      ([syncByte] ++ header ++ data ++ [computeChecksum header data]) [] link
  unfold writeFrameWire
  split
  · exact ⟨link.chunks, rfl⟩
  · split
    · rename_i failed result
      rw [result] at same
      exact ⟨emitted, same⟩
    · rename_i current chunk result
      rw [result] at same
      subst same
      exact flush_eq environment chunk _

theorem txPhase_idle {link : Link} (idle : link.txData = none) :
    link.txPhase environment = link := by
  unfold txPhase
  rw [idle]

/-- `TxPhase` changes nothing but the transmit slot, and this only to clear
it. -/
theorem txPhase_eq (link : Link) :
    ∃ chunks txData,
      link.txPhase environment = { link with chunks, txData } ∧
        (txData = none ∨ txData = link.txData) := by
  unfold txPhase
  split
  · exact ⟨link.chunks, link.txData, rfl, Or.inr rfl⟩
  · rename_i data pending
    obtain ⟨written, same⟩ :=
      writeFrameWire_eq environment
        (txHeader link.txTag (UInt16.ofNat data.length)) data link
    simp only [same]
    split
    · exact ⟨written, none, rfl, Or.inl rfl⟩
    · exact ⟨written, link.txData, rfl, Or.inr rfl⟩

end Link

/-! ### One byte -/

theorem header_view (buffer : Nat → UInt8) {count : Nat}
    (complete : headerSize ≤ count) :
    header (view buffer 0 count) = Frame.parseHeader buffer := by
  have same :
      ∀ index, index < headerSize →
        (view buffer 0 count).getD index 0 = buffer index := by
    intro index below
    have inside : index < count := by omega
    simp [view, List.getD_eq_getElem?_getD, List.getElem?_range inside]
  simp only [header, Frame.parseHeader]
  rw [same 0 (by decide), same 1 (by decide), same 2 (by decide),
    same 3 (by decide)]

/-- Storing the next byte extends the stored frame. -/
theorem view_update_append (buffer : Nat → UInt8) (count : Nat)
    (raw : UInt8) :
    view (Function.update buffer count raw) 0 (count + 1) =
      view buffer 0 count ++ [raw] := by
  rw [view_succ, Nat.zero_add, Function.update_self]
  congr 1
  apply view_congr
  intro position _ below
  have other : position ≠ count := by omega
  exact Function.update_of_ne other raw buffer

theorem parseHeader_update (buffer : Nat → UInt8) {index : Nat}
    (behind : headerSize ≤ index) (raw : UInt8) :
    Frame.parseHeader (Function.update buffer index raw) =
      Frame.parseHeader buffer := by
  unfold headerSize at behind
  have same :
      ∀ position, position < 4 →
        Function.update buffer index raw position = buffer position := by
    intro position below
    have other : position ≠ index := by omega
    exact Function.update_of_ne other raw buffer
  simp only [Frame.parseHeader]
  rw [same 0 (by decide), same 1 (by decide), same 2 (by decide),
    same 3 (by decide)]

namespace Protocol

/-- The unfinished frame since its sync byte. -/
def pending (protocol : Protocol) : Option (List UInt8) :=
  match protocol.state with
  | .waitingForSync => none
  | .readingHeader => some (view protocol.rxBuffer 0 protocol.rxIndex)
  | .readingData =>
      some (view protocol.rxBuffer 0 (headerSize + protocol.rxIndex))
  | .readingChecksum =>
      some
        (view protocol.rxBuffer 0
          (headerSize + protocol.rxDataLength.toNat))

/-- Without an unfinished frame the parser waits for a sync byte. -/
theorem waiting_of_pending {protocol : Protocol}
    (idle : protocol.pending = none) : protocol.state = .waitingForSync := by
  unfold pending at idle
  cases state : protocol.state with
  | waitingForSync =>
      rfl
  | readingHeader | readingData | readingChecksum =>
      rw [state] at idle
      cases idle

theorem pending_of_waiting {protocol : Protocol}
    (waiting : protocol.state = .waitingForSync) : protocol.pending = none := by
  rw [pending, waiting]

/-- Tag and length are those of the header in the receive buffer. -/
structure Framed (buffer : Nat → UInt8) (tag : Tag) (length : UInt16) :
    Prop where
  short : length.toNat ≤ maxFrameDataLength
  header : Frame.parseHeader buffer = ⟨tag, length⟩

/-- The parser fields fit its state. -/
def Parsing (protocol : Protocol) : Prop :=
  match protocol.state with
  | .waitingForSync => True
  | .readingHeader => protocol.rxIndex < headerSize
  | .readingData =>
      protocol.rxIndex < protocol.rxDataLength.toNat ∧
        Framed protocol.rxBuffer protocol.rxTag protocol.rxDataLength
  | .readingChecksum =>
      Framed protocol.rxBuffer protocol.rxTag protocol.rxDataLength

theorem Framed.declared_view {buffer : Nat → UInt8} {tag : Tag}
    {length : UInt16} (framed : Framed buffer tag length) {count : Nat}
    (complete : headerSize ≤ count) :
    declared (view buffer 0 count) = length.toNat := by
  rw [declared, header_view _ complete, framed.header]

theorem view_split (buffer : Nat → UInt8) (count : Nat) :
    view buffer 0 (headerSize + count) =
      view buffer 0 headerSize ++ view buffer headerSize count := by
  induction count with
  | zero =>
      rw [view_zero, List.append_nil, Nat.add_zero]
  | succ count inductionHypothesis =>
      rw [← Nat.add_assoc, view_succ, view_succ, inductionHypothesis,
        List.append_assoc, Nat.zero_add]

/-- The checksum over the two buffers is the parity of the stored frame. -/
theorem rxChecksum_eq_parity (protocol : Protocol) :
    protocol.rxChecksum =
      parity
        (view protocol.rxBuffer 0
          (headerSize + protocol.rxDataLength.toNat)) := by
  rw [view_split, parity, List.foldl_append]
  rfl

end Protocol

/-- The tag and the payload of a run of `DispatchFrame`. -/
def Dispatch.packet (dispatch : Dispatch) : Packet :=
  (dispatch.tag, dispatch.payload)

def Link.packets (link : Link) : List Packet :=
  link.dispatches.map Dispatch.packet

namespace Link

variable (environment : Environment)

/-- A byte changes the parser fields only, unless it completes a frame with a
right checksum. -/
theorem consumeByte_cases (raw : UInt8) (link : Link) :
    (∃ state frameStartTs rxBuffer rxIndex rxDataLength rxTag clockReads,
        link.consumeByte environment raw =
          { link with
            state, frameStartTs, rxBuffer, rxIndex, rxDataLength, rxTag,
            clockReads }) ∨
      link.state = .readingChecksum ∧ raw = link.rxChecksum ∧
        link.consumeByte environment raw =
          { link.dispatchFrame environment with
            toProtocol := (link.dispatchFrame environment).resetParser } := by
  cases state : link.state with
  | waitingForSync =>
      left
      simp only [consumeByte, state]
      split
      · split
        · exact ⟨_, _, _, _, _, _, _, rfl⟩
        · exact ⟨_, _, _, _, _, _, _, rfl⟩
      · exact ⟨_, _, _, _, _, _, _, rfl⟩
  | readingHeader =>
      left
      simp only [consumeByte, state]
      split
      · split
        · exact ⟨_, _, _, _, _, _, _, rfl⟩
        · exact ⟨_, _, _, _, _, _, _, rfl⟩
      · exact ⟨_, _, _, _, _, _, _, rfl⟩
  | readingData =>
      left
      simp only [consumeByte, state]
      split
      · exact ⟨_, _, _, _, _, _, _, rfl⟩
      · exact ⟨_, _, _, _, _, _, _, rfl⟩
  | readingChecksum =>
      simp only [consumeByte, state]
      by_cases valid : raw = link.rxChecksum
      · right
        exact ⟨trivial, valid, if_pos valid⟩
      · left
        rw [if_neg valid]
        exact ⟨_, _, _, _, _, _, _, rfl⟩

/-- What reading one byte does to the receiver. -/
structure Consumed (raw : UInt8) (before after : Link) : Prop where
  parsing : after.Parsing
  pending : after.pending = (feed before.pending raw).1
  packets : after.packets = before.packets ++ (feed before.pending raw).2
  read : after.read = before.read
  timestamp : after.timestamp = before.timestamp
  frameTimeout : after.frameTimeout = before.frameTimeout
  readahead : after.readahead = before.readahead
  readaheadIdx : after.readaheadIdx = before.readaheadIdx
  readaheadCnt : after.readaheadCnt = before.readaheadCnt

private theorem sync_consumed (raw : UInt8) {link : Link}
    (state : link.state = .waitingForSync) :
    Consumed raw link (link.consumeByte environment raw) := by
  have idle : link.pending = none := by
    rw [Protocol.pending, state]
  simp only [consumeByte, state]
  split
  · rename_i sync
    have fed : feed none raw = (some [], []) := by
      rw [feed, if_pos sync]
    by_cases timed : link.timestamp = true
    · simp only [Protocol.resetParser, timed, if_true, readClock]
      refine ⟨?_, ?_, ?_, rfl, timed.symm, rfl, rfl, rfl, rfl⟩
      · show 0 < headerSize
        decide
      · rw [idle, fed]
        rfl
      · rw [idle, fed, List.append_nil]
        rfl
    · rw [Bool.not_eq_true] at timed
      simp only [Protocol.resetParser, timed]
      refine ⟨?_, ?_, ?_, rfl, timed.symm, rfl, rfl, rfl, rfl⟩
      · show 0 < headerSize
        decide
      · rw [idle, fed]
        rfl
      · rw [idle, fed, List.append_nil]
        rfl
  · rename_i noise
    have fed : feed none raw = (none, []) := by
      rw [feed, if_neg noise]
    refine ⟨?_, ?_, ?_, rfl, rfl, rfl, rfl, rfl, rfl⟩
    · rw [Protocol.Parsing, state]
      trivial
    · rw [idle, fed]
    · rw [idle, fed, List.append_nil]

private theorem header_consumed (raw : UInt8) {link : Link}
    (state : link.state = .readingHeader) (parsing : link.Parsing) :
    Consumed raw link (link.consumeByte environment raw) := by
  have before : link.pending = some (view link.rxBuffer 0 link.rxIndex) := by
    rw [Protocol.pending, state]
  have inside : link.rxIndex < headerSize := by
    rw [Protocol.Parsing, state] at parsing
    exact parsing
  have stored := view_update_append link.rxBuffer link.rxIndex raw
  have length :
      (view link.rxBuffer 0 link.rxIndex ++ [raw]).length =
        link.rxIndex + 1 := by
    rw [← stored, length_view]
  simp only [consumeByte, state]
  split
  · rename_i complete
    have last : link.rxIndex + 1 = headerSize := by omega
    have said :
        declared (view link.rxBuffer 0 link.rxIndex ++ [raw]) =
          (Frame.parseHeader
            (Function.update link.rxBuffer link.rxIndex raw)).length.toNat := by
      rw [← stored, declared, header_view _ complete]
    split
    · rename_i large
      have finished :
          ¬ Unfinished (view link.rxBuffer 0 link.rxIndex ++ [raw]) := by
        unfold Unfinished
        omega
      have fed : feed link.pending raw = (none, []) := by
        rw [before, feed, if_neg finished, if_pos (by omega)]
      refine ⟨?_, ?_, ?_, rfl, rfl, rfl, rfl, rfl, rfl⟩
      · exact True.intro
      · rw [fed]
        rfl
      · rw [fed, List.append_nil]
        rfl
    · rename_i small
      have unfinished :
          Unfinished (view link.rxBuffer 0 link.rxIndex ++ [raw]) := by
        right
        omega
      have fed :
          feed link.pending raw =
            (some (view link.rxBuffer 0 link.rxIndex ++ [raw]), []) := by
        rw [before, feed, if_pos unfinished]
      by_cases empty :
          (Frame.parseHeader
            (Function.update link.rxBuffer link.rxIndex raw)).length = 0
      · simp only [if_pos empty]
        refine
          ⟨⟨Nat.not_lt.mp small, rfl⟩, ?_, ?_, rfl, rfl, rfl, rfl, rfl, rfl⟩
        · rw [fed, ← stored, last]
          simp only [Protocol.pending, empty]
          rfl
        · rw [fed, List.append_nil]
          rfl
      · simp only [if_neg empty]
        refine
          ⟨⟨?_, Nat.not_lt.mp small, rfl⟩, ?_, ?_, rfl, rfl, rfl, rfl, rfl,
            rfl⟩
        · show 0 < UInt16.toNat _
          exact Nat.pos_of_ne_zero fun zero => empty (UInt16.toNat_inj.mp zero)
        · rw [fed, ← stored, last]
          rfl
        · rw [fed, List.append_nil]
          rfl
  · rename_i incomplete
    have unfinished :
        Unfinished (view link.rxBuffer 0 link.rxIndex ++ [raw]) := by
      left
      omega
    have fed :
        feed link.pending raw =
          (some (view link.rxBuffer 0 link.rxIndex ++ [raw]), []) := by
      rw [before, feed, if_pos unfinished]
    refine ⟨?_, ?_, ?_, rfl, rfl, rfl, rfl, rfl, rfl⟩
    · simp only [Protocol.Parsing]
      omega
    · rw [fed, ← stored]
      simp only [Protocol.pending]
    · rw [fed, List.append_nil]
      rfl

private theorem data_consumed (raw : UInt8) {link : Link}
    (state : link.state = .readingData) (parsing : link.Parsing) :
    Consumed raw link (link.consumeByte environment raw) := by
  have before :
      link.pending = some (view link.rxBuffer 0 (headerSize + link.rxIndex)) := by
    rw [Protocol.pending, state]
  obtain ⟨inside, framed⟩ :
      link.rxIndex < link.rxDataLength.toNat ∧
        Protocol.Framed link.rxBuffer link.rxTag link.rxDataLength := by
    rw [Protocol.Parsing, state] at parsing
    exact parsing
  have stored :=
    view_update_append link.rxBuffer (headerSize + link.rxIndex) raw
  have sameHeader :=
    parseHeader_update link.rxBuffer (Nat.le_add_right headerSize link.rxIndex)
      raw
  have said :
      declared (view link.rxBuffer 0 (headerSize + link.rxIndex) ++ [raw]) =
        link.rxDataLength.toNat := by
    rw [← stored, declared, header_view _ (by omega), sameHeader,
      framed.header]
  have short := framed.short
  have unfinished :
      Unfinished (view link.rxBuffer 0 (headerSize + link.rxIndex) ++ [raw]) := by
    right
    rw [said, ← stored, length_view]
    omega
  have fed :
      feed link.pending raw =
        (some (view link.rxBuffer 0 (headerSize + link.rxIndex) ++ [raw]),
          []) := by
    rw [before, feed, if_pos unfinished]
  simp only [consumeByte, state]
  split
  · rename_i complete
    refine
      ⟨⟨short, sameHeader.trans framed.header⟩, ?_, ?_, rfl, rfl, rfl, rfl,
        rfl, rfl⟩
    · have last : link.rxDataLength.toNat = link.rxIndex + 1 := by omega
      rw [fed, ← stored]
      simp only [Protocol.pending, last]
      rfl
    · rw [fed, List.append_nil]
      rfl
  · rename_i incomplete
    refine ⟨?_, ?_, ?_, rfl, rfl, rfl, rfl, rfl, rfl⟩
    · simp only [Protocol.Parsing]
      exact ⟨Nat.not_le.mp incomplete, short, sameHeader.trans framed.header⟩
    · rw [fed, ← stored]
      simp only [Protocol.pending]
      rfl
    · rw [fed, List.append_nil]
      rfl

private theorem checksum_consumed (raw : UInt8) {link : Link}
    (state : link.state = .readingChecksum)
    (framed : Protocol.Framed link.rxBuffer link.rxTag link.rxDataLength) :
    Consumed raw link (link.consumeByte environment raw) := by
  have before :
      link.pending =
        some (view link.rxBuffer 0 (headerSize + link.rxDataLength.toNat)) := by
    rw [Protocol.pending, state]
  have split := Protocol.view_split link.rxBuffer link.rxDataLength.toNat
  have whole := link.rxChecksum_eq_parity
  have said := framed.declared_view (Nat.le_add_right headerSize
    link.rxDataLength.toNat)
  have head :=
    header_view link.rxBuffer
      (Nat.le_add_right headerSize link.rxDataLength.toNat)
  have length :=
    length_view link.rxBuffer 0 (headerSize + link.rxDataLength.toNat)
  have payload :
      link.rxPayload =
        (view link.rxBuffer 0 (headerSize + link.rxDataLength.toNat)).drop
          headerSize := by
    rw [split, List.drop_left' (length_view _ _ _)]
    rfl
  have short := framed.short
  generalize view link.rxBuffer 0 (headerSize + link.rxDataLength.toNat) =
    body at before whole said head length payload
  have complete : headerSize ≤ body.length := by omega
  have finished : ¬ Unfinished (body ++ [raw]) := by
    unfold Unfinished
    rw [declared_append complete, List.length_append, List.length_singleton]
    omega
  have small : ¬ declared (body ++ [raw]) > maxFrameDataLength := by
    rw [declared_append complete]
    omega
  have last : (body ++ [raw]).getD body.length 0 = raw := by
    simp [List.getD_eq_getElem?_getD]
  have fed :
      feed link.pending raw =
        (none,
          if raw = link.rxChecksum then [(link.rxTag, link.rxPayload)]
          else []) := by
    rw [before, feed, if_neg finished, if_neg small, packet,
      declared_append complete, header_append complete, said, ← length, last,
      List.take_left, whole, payload, head, framed.header]
  simp only [consumeByte, state]
  split
  · rename_i valid
    rw [if_pos valid] at fed
    have kept := dispatchFrame_keepsReceiver environment link
    refine
      ⟨True.intro, ?_, ?_, kept.read, kept.timestamp, kept.frameTimeout,
        kept.readahead, kept.readaheadIdx, kept.readaheadCnt⟩
    · rw [fed]
      rfl
    · rw [fed]
      show (link.dispatchFrame environment).dispatches.map Dispatch.packet = _
      rw [kept.dispatches, List.map_append]
      rfl
  · rename_i invalid
    rw [if_neg invalid] at fed
    refine ⟨True.intro, ?_, ?_, rfl, rfl, rfl, rfl, rfl, rfl⟩
    · rw [fed]
      rfl
    · rw [fed, List.append_nil]
      rfl

/-- The parser reads a byte as the scanner does. -/
theorem consumeByte_consumed (raw : UInt8) {link : Link}
    (parsing : link.Parsing) :
    Consumed raw link (link.consumeByte environment raw) := by
  cases state : link.state with
  | waitingForSync =>
      exact sync_consumed environment raw state
  | readingHeader =>
      exact header_consumed environment raw state parsing
  | readingData =>
      exact data_consumed environment raw state parsing
  | readingChecksum =>
      rw [Protocol.Parsing, state] at parsing
      exact checksum_consumed environment raw state parsing

/-! ### The receive loop -/

structure Received (bytes : List UInt8) (before after : Link) : Prop where
  parsing : after.Parsing
  pending : after.pending = (feedAll before.pending bytes).1
  packets : after.packets = before.packets ++ (feedAll before.pending bytes).2
  read : after.read = before.read
  timestamp : after.timestamp = before.timestamp
  frameTimeout : after.frameTimeout = before.frameTimeout

namespace Received

/-- The caches and the transmit slot are not part of the parser. -/
theorem of_caches {link : Link} (parsing : link.Parsing)
    (chunks : List (List UInt8 × Bool)) (txData : Option (List UInt8))
    (readahead : Nat → UInt8) (readaheadIdx readaheadCnt : Nat) :
    Received [] link
      { link with chunks, txData, readahead, readaheadIdx, readaheadCnt } where
  parsing := parsing
  pending := rfl
  packets := (List.append_nil _).symm
  read := rfl
  timestamp := rfl
  frameTimeout := rfl

theorem of_consumed {raw : UInt8} {before after : Link}
    (consumed : Consumed raw before after) : Received [raw] before after where
  parsing := consumed.parsing
  pending := consumed.pending
  packets := by
    rw [consumed.packets]
    simp only [feedAll, List.append_nil]
  read := consumed.read
  timestamp := consumed.timestamp
  frameTimeout := consumed.frameTimeout

theorem append {left right : List UInt8} {before middle after : Link}
    (first : Received left before middle)
    (second : Received right middle after) :
    Received (left ++ right) before after where
  parsing := second.parsing
  pending := by
    rw [second.pending, first.pending, feedAll_append]
  packets := by
    rw [second.packets, first.packets, first.pending, feedAll_append,
      List.append_assoc]
  read := second.read.trans first.read
  timestamp := second.timestamp.trans first.timestamp
  frameTimeout := second.frameTimeout.trans first.frameTimeout

end Received

end Link

/-- A piece of the stream that one call of the read callback delivers. -/
structure Chunk where
  bytes : List UInt8
  nonempty : bytes ≠ []
  short : bytes.length ≤ Link.readaheadSize

def Chunk.result (chunk : Chunk) : ReadResult :=
  ⟨chunk.bytes, chunk.bytes.length⟩

namespace Link

variable (environment : Environment)

/-- The bytes in the read-ahead cache that are still to be read. -/
def cached (link : Link) : List UInt8 :=
  view link.readahead link.readaheadIdx (link.readaheadCnt - link.readaheadIdx)

theorem view_cons (items : Nat → UInt8) (begin count : Nat) :
    view items begin (count + 1) =
      items begin :: view items (begin + 1) count := by
  simp only [view, List.range_succ_eq_map, List.map_cons, List.map_map,
    Nat.add_zero]
  congr 1
  apply List.map_congr_left
  intro offset _
  simp only [Function.comp_apply]
  congr 1
  omega

theorem view_refilled (readahead : Nat → UInt8) {bytes : List UInt8}
    (short : bytes.length ≤ readaheadSize) :
    view (refilled readahead bytes) 0 bytes.length = bytes := by
  apply List.ext_getElem
  · exact length_view _ _ _
  · intro index _ inside
    have below : index < readaheadSize := by omega
    simp [view, refilled, below, inside]

/-- What `ReadRawByte` does: it serves the cache, and when this is empty it
fills it with one read. -/
inductive Fetches (link : Link) :
    List ReadResult → Option UInt8 × Link × List ReadResult → Prop
  | cached (waiting : link.readaheadIdx < link.readaheadCnt)
      (reads : List ReadResult) :
      Fetches link reads
        (some (link.readahead link.readaheadIdx),
          { link with readaheadIdx := link.readaheadIdx + 1 }, reads)
  | filled (empty : link.readaheadCnt ≤ link.readaheadIdx)
      (readable : link.read = true) (result : ReadResult)
      (rest : List ReadResult) (positive : 0 < result.count) :
      Fetches link (result :: rest)
        (some (refilled link.readahead result.data 0),
          { link with
            readahead := refilled link.readahead result.data
            readaheadIdx := 1
            readaheadCnt := min result.count readaheadSize }, rest)
  | nothing (empty : link.readaheadCnt ≤ link.readaheadIdx)
      (readable : link.read = true) (result : ReadResult)
      (rest : List ReadResult) (zero : result.count = 0) :
      Fetches link (result :: rest)
        (none,
          { link with
            readahead := refilled link.readahead result.data
            readaheadCnt := 0 }, rest)
  | silent (empty : link.readaheadCnt ≤ link.readaheadIdx)
      (readable : link.read = true) :
      Fetches link [] (none, { link with readaheadCnt := 0 }, [])
  | unset (empty : link.readaheadCnt ≤ link.readaheadIdx)
      (unreadable : ¬ link.read = true) (reads : List ReadResult) :
      Fetches link reads (none, link, reads)

theorem readRawByte_fetches (reads : List ReadResult) (link : Link) :
    Fetches link reads (link.readRawByte reads) := by
  unfold readRawByte
  split
  · rename_i waiting
    exact Fetches.cached waiting reads
  · rename_i empty
    have empty' := Nat.not_lt.mp empty
    split
    · rename_i readable
      cases reads with
      | nil =>
          exact Fetches.silent empty' readable
      | cons result rest =>
          have capped :
              (if result.count > readaheadSize then readaheadSize
                else result.count) = min result.count readaheadSize := by
            split
            · omega
            · omega
          simp only [capped]
          by_cases zero : result.count = 0
          · have none' : ¬ min result.count readaheadSize > 0 := by omega
            rw [if_neg none', zero, Nat.zero_min]
            exact Fetches.nothing empty' readable result rest zero
          · have some' : min result.count readaheadSize > 0 := by
              unfold readaheadSize
              omega
            rw [if_pos some']
            exact
              Fetches.filled empty' readable result rest
                (Nat.pos_of_ne_zero zero)
    · rename_i unreadable
      exact Fetches.unset empty' unreadable reads

/-- Bytes are read one after the other; in between only the cache changes. -/
inductive Absorbs : List UInt8 → Link → Link → Prop
  | done (link : Link) : Absorbs [] link link
  | cache {bytes : List UInt8} {before after : Link}
      (readahead : Nat → UInt8) (readaheadIdx readaheadCnt : Nat)
      (rest :
        Absorbs bytes
          { before with readahead, readaheadIdx, readaheadCnt } after) :
      Absorbs bytes before after
  | byte (raw : UInt8) {bytes : List UInt8} {before after : Link}
      (rest : Absorbs bytes (before.consumeByte environment raw) after) :
      Absorbs (raw :: bytes) before after

theorem Absorbs.received {bytes : List UInt8} {before after : Link}
    (absorbs : Absorbs environment bytes before after)
    (parsing : before.Parsing) : Received bytes before after := by
  induction absorbs with
  | done link =>
      exact Received.of_caches parsing _ _ _ _ _
  | @cache _ link _ readahead readaheadIdx readaheadCnt _ inductionHypothesis =>
      have changed :=
        Received.of_caches parsing link.chunks link.txData readahead
          readaheadIdx readaheadCnt
      exact changed.append (inductionHypothesis parsing)
  | byte raw _ inductionHypothesis =>
      have consumed := consumeByte_consumed environment raw parsing
      exact
        (Received.of_consumed consumed).append
          (inductionHypothesis consumed.parsing)

theorem consumeByte_cache (raw : UInt8) (link : Link) :
    (link.consumeByte environment raw).cached = link.cached ∧
      (link.consumeByte environment raw).read = link.read ∧
      ∀ reads,
        (link.consumeByte environment raw).available reads =
          link.available reads := by
  cases consumeByte_cases environment raw link with
  | inl quiet =>
      obtain ⟨_, _, _, _, _, _, _, same⟩ := quiet
      rw [same]
      exact ⟨rfl, rfl, fun _ => rfl⟩
  | inr complete =>
      have kept := dispatchFrame_keepsReceiver environment link
      rw [complete.2.2]
      simp only [cached, available, Protocol.resetParser, kept.read,
        kept.readahead, kept.readaheadIdx, kept.readaheadCnt]
      exact ⟨trivial, trivial, fun _ => trivial⟩

theorem cached_eq_nil {link : Link}
    (empty : link.readaheadCnt ≤ link.readaheadIdx) : link.cached = [] := by
  rw [cached, Nat.sub_eq_zero_of_le empty, view_zero]

/-- Whatever the read callback does, the receive loop reads some bytes until
the cache is empty.  When it delivers chunks, these are the bytes of the cache
and of the chunks. -/
theorem receive_absorbs {fuel : Nat} {reads : List ReadResult} {link : Link}
    (enough : link.available reads ≤ fuel) :
    ∃ bytes,
      Absorbs environment bytes link (receive environment fuel reads link) ∧
        (receive environment fuel reads link).cached = [] ∧
        ∀ chunks : List Chunk,
          reads = chunks.map Chunk.result → link.read = true →
            bytes = link.cached ++ chunks.flatMap Chunk.bytes := by
  induction fuel generalizing reads link with
  | zero =>
      unfold available at enough
      omega
  | succ fuel inductionHypothesis =>
      have fetches := readRawByte_fetches reads link
      rw [receive]
      generalize link.readRawByte reads = outcome at fetches
      cases fetches with
      | cached waiting =>
          have count :
              link.readaheadCnt - link.readaheadIdx =
                link.readaheadCnt - (link.readaheadIdx + 1) + 1 := by
            omega
          have front : link.cached = _ :=
            congrArg (view link.readahead link.readaheadIdx) count
          rw [view_cons] at front
          let filled : Link :=
            { link with readaheadIdx := link.readaheadIdx + 1 }
          obtain ⟨sameCached, sameRead, sameAvailable⟩ :=
            consumeByte_cache environment
              (link.readahead link.readaheadIdx) filled
          have fewer : filled.available reads ≤ fuel := by
            simp only [filled, available] at enough ⊢
            omega
          obtain ⟨bytes, absorbs, drained, exact'⟩ :=
            inductionHypothesis
              (Nat.le_trans (Nat.le_of_eq (sameAvailable reads)) fewer)
          refine
            ⟨_, Absorbs.cache _ _ _ (Absorbs.byte _ absorbs), drained, ?_⟩
          intro chunks delivers readable
          rw [exact' chunks delivers (sameRead.trans readable), sameCached,
            front]
          rfl
      | filled empty readable result rest positive =>
          let filled : Link :=
            { link with
              readahead := refilled link.readahead result.data
              readaheadIdx := 1
              readaheadCnt := min result.count readaheadSize }
          obtain ⟨sameCached, sameRead, sameAvailable⟩ :=
            consumeByte_cache environment
              (refilled link.readahead result.data 0) filled
          have fewer : filled.available rest ≤ fuel := by
            simp only [filled, available, List.map_cons, List.sum_cons]
              at enough ⊢
            omega
          obtain ⟨bytes, absorbs, drained, exact'⟩ :=
            inductionHypothesis
              (Nat.le_trans (Nat.le_of_eq (sameAvailable rest)) fewer)
          refine
            ⟨_, Absorbs.cache _ _ _ (Absorbs.byte _ absorbs), drained, ?_⟩
          intro chunks delivers readable
          cases chunks with
          | nil =>
              cases delivers
          | cons chunk others =>
              cases delivers
              have some' := List.length_pos_iff.mpr chunk.nonempty
              have successor :
                  chunk.bytes.length = chunk.bytes.length - 1 + 1 := by
                omega
              have whole := view_refilled link.readahead chunk.short
              rw [successor, view_cons] at whole
              have size :
                  min chunk.result.count readaheadSize = chunk.bytes.length :=
                Nat.min_eq_left chunk.short
              rw [exact' others rfl (sameRead.trans readable), sameCached,
                cached_eq_nil empty, List.nil_append, List.flatMap_cons,
                ← whole]
              simp only [filled, cached, size]
              rfl
      | nothing empty readable result rest zero =>
          refine
            ⟨[], Absorbs.cache _ _ _ (Absorbs.done _),
              cached_eq_nil (Nat.zero_le _), ?_⟩
          intro chunks delivers _
          cases chunks with
          | nil =>
              cases delivers
          | cons chunk others =>
              cases delivers
              exact absurd (List.length_eq_zero_iff.mp zero) chunk.nonempty
      | silent empty readable =>
          refine
            ⟨[], Absorbs.cache _ _ _ (Absorbs.done _),
              cached_eq_nil (Nat.zero_le _), ?_⟩
          intro chunks delivers _
          rw [List.map_eq_nil_iff.mp delivers.symm, cached_eq_nil empty]
          rfl
      | unset empty unreadable =>
          refine ⟨[], Absorbs.done _, cached_eq_nil empty, ?_⟩
          intro chunks _ readable
          exact absurd readable unreadable

/-- The receive loop reads the cache and the chunks to their end. -/
theorem receive_received {fuel : Nat} {chunks : List Chunk} {link : Link}
    (parsing : link.Parsing) (reads : link.read = true)
    (enough : link.available (chunks.map Chunk.result) ≤ fuel) :
    Received (link.cached ++ chunks.flatMap Chunk.bytes) link
        (receive environment fuel (chunks.map Chunk.result) link) ∧
      (receive environment fuel (chunks.map Chunk.result) link).cached =
        [] := by
  obtain ⟨bytes, absorbs, drained, delivered⟩ :=
    receive_absorbs environment enough
  rw [← delivered chunks rfl reads]
  exact ⟨absorbs.received environment parsing, drained⟩

def Untimed (link : Link) : Prop :=
  link.frameTimeout = 0 ∨ link.timestamp = false

theorem Untimed.checkTimeout {link : Link} (untimed : link.Untimed) :
    link.checkTimeout environment = link := by
  unfold Link.checkTimeout
  rw [if_neg]
  rintro ⟨positive, timed, _⟩
  cases untimed with
  | inl zero =>
      rw [zero] at positive
      exact absurd positive (by decide)
  | inr absent =>
      rw [absent] at timed
      cases timed

theorem txPhase_received {link : Link} (parsing : link.Parsing) :
    Received [] link (link.txPhase environment) ∧
      (link.txPhase environment).cached = link.cached := by
  obtain ⟨written, slot, same, _⟩ := txPhase_eq environment link
  rw [same]
  exact ⟨Received.of_caches parsing written slot _ _ _, rfl⟩

theorem run_received (chunks : List Chunk) {link : Link}
    (parsing : link.Parsing) (reads : link.read = true)
    (untimed : link.Untimed) :
    Received (link.cached ++ chunks.flatMap Chunk.bytes) link
        (link.run environment (chunks.map Chunk.result)) ∧
      (link.run environment (chunks.map Chunk.result)).cached = [] := by
  obtain ⟨sent, same⟩ := txPhase_received environment parsing
  have checked :
      (link.txPhase environment).checkTimeout environment =
        link.txPhase environment := by
    apply Untimed.checkTimeout
    rw [Untimed, sent.frameTimeout, sent.timestamp]
    exact untimed
  obtain ⟨received, drained⟩ :=
    receive_received environment sent.parsing (sent.read.trans reads)
      (Nat.le_refl
        ((link.txPhase environment).available (chunks.map Chunk.result)))
  obtain ⟨last, kept⟩ := txPhase_received environment received.parsing
  have whole := (sent.append received).append last
  rw [same, List.nil_append, List.append_nil] at whole
  unfold run
  simp only [checked]
  exact ⟨whole, kept.trans drained⟩

end Link

end PrismKit
