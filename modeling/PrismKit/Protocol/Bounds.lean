import PrismKit.Protocol.Delivery
import Mathlib.Data.List.Induction
import Mathlib.Logic.Relation

/-!
# Buffer bounds

`rx_index_` counts header bytes first and payload bytes later, and the length
that bounds it comes from the wire.  A bound on every access needs one
invariant over both meanings, and since the loopback handler copies what was
received, the bound on the transmit buffer rests on the same invariant.

The steps of an instance are finer than the calls of its interface: a state
that lasts only between two bytes of one `Run` counts as well.
-/

namespace PrismKit

open Library Relation

/-- Capacity of `rx_buffer_`. -/
def rxBufferSize : Nat :=
  headerSize + maxFrameDataLength

/-- The frame was built by `Frame::Create`. -/
def Frame.Created (frame : Frame) : Prop :=
  ∃ tag data length, frame = Frame.create tag data length

theorem Frame.Created.length_payload {frame : Frame}
    (created : frame.Created) : frame.payload.length ≤ maxFrameDataLength := by
  obtain ⟨tag, data, length, rfl⟩ := created
  have bounded :
      (Frame.create tag data length).length.toNat ≤ maxFrameDataLength := by
    unfold Frame.create
    split
    · exact Nat.zero_le _
    · rename_i short
      split
      · exact Nat.zero_le _
      · exact Nat.not_lt.mp short
  rw [Frame.payload, List.length_take]
  omega

namespace Protocol

/-- The index at which the next byte goes into `rx_buffer_`, if it does. -/
def nextWrite (protocol : Protocol) : Option Nat :=
  match protocol.state with
  | .waitingForSync => none
  | .readingHeader => some protocol.rxIndex
  | .readingData => some (headerSize + protocol.rxIndex)
  | .readingChecksum => none

/-- The payload bytes stored so far for the current frame. -/
def storedPayload (protocol : Protocol) : List UInt8 :=
  view protocol.rxBuffer headerSize protocol.rxIndex

/-- The pending payload, if any, fits into the transmit buffer. -/
def SlotFits (protocol : Protocol) : Prop :=
  ∀ data, protocol.txData = some data → data.length ≤ maxFrameDataLength

end Protocol

/-- A call back into the instance sends a created frame, if any. -/
def Request.Created : Request → Prop
  | .send frame => frame.Created
  | .addHandler _ _ => True

/-- An instance at some point of its work, and the number that the last call of
the read callback returned. -/
structure LinkState where
  link : Link
  returned : Nat := 0

namespace LinkState

/-- The number that the last call of the read callback returned, after a call
of `ReadRawByte`. -/
def returnedAfter (reads : List ReadResult) (current : LinkState) : Nat :=
  if current.link.readaheadIdx < current.link.readaheadCnt then
    current.returned
  else if current.link.read then
    match reads with
    | [] => 0
    | result :: _ => result.count
  else
    current.returned

/-- What an instance does next.  The bytes and the times are arbitrary, and so
is the order; calls of a handler are steps of their own as well. -/
inductive Step (environment : Environment) : LinkState → LinkState → Prop
  | request (request : Request) (created : request.Created)
      (current : LinkState) :
      Step environment current
        { current with link := current.link.perform request }
  | txPhase (current : LinkState) :
      Step environment current
        { current with link := current.link.txPhase environment }
  | checkTimeout (current : LinkState) :
      Step environment current
        { current with link := current.link.checkTimeout environment }
  | readRawByte (reads : List ReadResult) (current : LinkState) :
      Step environment current
        { link := (current.link.readRawByte reads).2.1
          returned := current.returnedAfter reads }
  | consumeByte (raw : UInt8) (current : LinkState) :
      Step environment current
        { current with link := current.link.consumeByte environment raw }

def Reached (environment : Environment) (config : ProtocolConfig)
    (current : LinkState) : Prop :=
  ReflTransGen (Step environment) { link := Link.create config } current

/-- The invariant. -/
structure Bounded (current : LinkState) : Prop where
  parsing : current.link.Parsing
  stored :
    current.link.state = .readingChecksum →
      current.link.rxIndex = current.link.rxDataLength.toNat
  cache : current.link.readaheadCnt ≤ min current.returned Link.readaheadSize
  invocations :
    ∀ invocation ∈ current.link.invocations,
      invocation.data.length ≤ maxFrameDataLength
  slot : current.link.SlotFits

end LinkState

def Environment.SendsCreated (environment : Environment) : Prop :=
  ∀ calls, ∀ request ∈ environment.respond calls, request.Created

namespace Link

variable {environment : Environment}

theorem perform_fits {request : Request} (created : request.Created)
    {link : Link} (fits : link.SlotFits) : (link.perform request).SlotFits := by
  cases request with
  | send frame =>
      simp only [perform, Protocol.send]
      split
      · exact fits
      · split
        · exact fits
        · intro data pending
          cases pending
          exact Frame.Created.length_payload created
  | addHandler tag handler =>
      cases handler with
      | none =>
          exact fits
      | some handler =>
          simp only [perform, Protocol.addHandler]
          split
          · exact fits
          · split
            · exact fits
            · exact fits

theorem performAll_fits {requests : List Request}
    (created : ∀ request ∈ requests, request.Created) {link : Link}
    (fits : link.SlotFits) : (requests.foldl perform link).SlotFits := by
  induction requests generalizing link with
  | nil =>
      exact fits
  | cons request rest inductionHypothesis =>
      rw [List.forall_mem_cons] at created
      exact inductionHypothesis created.2 (perform_fits created.1 fits)

theorem invoke_fits (sends : environment.SendsCreated)
    (handler : FrameHandler) {data : List UInt8}
    (short : data.length ≤ maxFrameDataLength) {link : Link}
    (fits : link.SlotFits) :
    (link.invoke environment handler data).SlotFits := by
  cases handler with
  | loopback =>
      simp only [invoke, Protocol.loopbackImpl]
      split
      · exact fits
      · intro copied pending
        cases pending
        exact short
  | external id =>
      exact performAll_fits (sends _) fits

theorem dispatchFrame_fits (sends : environment.SendsCreated) {link : Link}
    (short : link.rxPayload.length ≤ maxFrameDataLength)
    (fits : link.SlotFits) :
    (link.dispatchFrame environment).SlotFits := by
  unfold dispatchFrame
  cases link.handlers.find? fun entry => entry.tag = link.rxTag with
  | none =>
      exact fits
  | some entry =>
      exact invoke_fits sends entry.handler short fits

end Link

/-! ### The invariant -/

namespace LinkState.Bounded

variable {environment : Environment}

theorem rxPayload {current : LinkState} (bounded : current.Bounded)
    (state : current.link.state = .readingChecksum) :
    current.link.rxPayload = current.link.storedPayload ∧
      current.link.rxPayload.length = current.link.rxIndex ∧
      current.link.rxPayload.length ≤ maxFrameDataLength := by
  have stored := bounded.stored state
  have framed := bounded.parsing
  rw [Protocol.Parsing, state] at framed
  have length : current.link.rxPayload.length = current.link.rxDataLength.toNat :=
    length_view _ _ _
  refine ⟨?_, length.trans stored.symm, length ▸ framed.short⟩
  rw [Protocol.storedPayload, stored]
  rfl

/-- A byte makes a handler call with the stored payload, or none. -/
theorem consumeByte_calls (sends : environment.SendsCreated) {current : LinkState}
    (bounded : current.Bounded) (raw : UInt8) :
    ∃ calls,
      (current.link.consumeByte environment raw).invocations =
          current.link.invocations ++ calls ∧
        (∀ call ∈ calls,
          call.data = current.link.storedPayload ∧
            call.data.length = current.link.rxIndex ∧
            call.data.length ≤ maxFrameDataLength) ∧
        (current.link.consumeByte environment raw).SlotFits := by
  cases Link.consumeByte_cases environment raw current.link with
  | inl quiet =>
      obtain ⟨_, _, _, _, _, _, _, same⟩ := quiet
      rw [same]
      exact
        ⟨[], (List.append_nil _).symm,
          fun _ member => absurd member List.not_mem_nil, bounded.slot⟩
  | inr complete =>
      obtain ⟨state, _, same⟩ := complete
      obtain ⟨stored, length, short⟩ := bounded.rxPayload state
      have fits := Link.dispatchFrame_fits sends short bounded.slot
      obtain ⟨_, _, _, calls, dispatched, payload⟩ :=
        Link.dispatchFrame_eq environment current.link
      refine ⟨calls, ?_, ?_, ?_⟩
      · rw [same, dispatched]
      · intro call member
        rw [payload call member]
        exact ⟨stored, length, short⟩
      · rw [same]
        exact fits

theorem cache_returnedAfter {current : LinkState} (bounded : current.Bounded)
    (reads : List ReadResult) :
    (current.link.readRawByte reads).2.1.readaheadCnt ≤
      min (current.returnedAfter reads) Link.readaheadSize := by
  have fetches := Link.readRawByte_fetches reads current.link
  have kept := bounded.cache
  generalize current.link.readRawByte reads = outcome at fetches ⊢
  unfold returnedAfter
  cases fetches with
  | cached waiting =>
      rw [if_pos waiting]
      exact kept
  | filled empty readable =>
      rw [if_neg (Nat.not_lt.mpr empty), if_pos readable]
  | nothing empty readable =>
      exact Nat.zero_le _
  | silent empty readable =>
      exact Nat.zero_le _
  | unset empty unreadable =>
      rw [if_neg (Nat.not_lt.mpr empty), if_neg unreadable]
      exact kept

/-- When the checksum comes next, the whole payload is stored. -/
theorem consumeByte_stored {current : LinkState} (bounded : current.Bounded)
    (raw : UInt8)
    (state :
      (current.link.consumeByte environment raw).state = .readingChecksum) :
    (current.link.consumeByte environment raw).rxIndex =
      (current.link.consumeByte environment raw).rxDataLength.toNat := by
  cases before : current.link.state with
  | waitingForSync =>
      simp only [Link.consumeByte, before] at state ⊢
      split at state
      · cases state
      · rw [before] at state
        cases state
  | readingHeader =>
      simp only [Link.consumeByte, before] at state ⊢
      split at state
      · rename_i complete
        rw [if_pos complete]
        split at state
        · cases state
        · rename_i small
          rw [if_neg small]
          simp only at state ⊢
          split at state
          · rename_i empty
            rw [empty]
            rfl
          · cases state
      · cases state
  | readingData =>
      have parsing := bounded.parsing
      rw [Protocol.Parsing, before] at parsing
      simp only [Link.consumeByte, before] at state ⊢
      split at state
      · rename_i complete
        rw [if_pos complete]
        simp only at complete ⊢
        omega
      · cases state
  | readingChecksum =>
      simp only [Link.consumeByte, before] at state
      split at state
      · cases state
      · cases state

theorem step (sends : environment.SendsCreated) {before after : LinkState}
    (bounded : before.Bounded) (step : Step environment before after) :
    after.Bounded := by
  cases step with
  | request request created =>
      have fits := Link.perform_fits created bounded.slot
      obtain ⟨_, _, _, same⟩ := Link.perform_eq before.link request
      rw [same] at fits ⊢
      exact
        ⟨bounded.parsing, bounded.stored, bounded.cache, bounded.invocations,
          fits⟩
  | txPhase =>
      obtain ⟨_, _, same, cleared⟩ := Link.txPhase_eq environment before.link
      rw [same]
      refine
        ⟨bounded.parsing, bounded.stored, bounded.cache, bounded.invocations,
          ?_⟩
      intro data pending
      cases cleared with
      | inl empty =>
          rw [empty] at pending
          cases pending
      | inr kept =>
          rw [kept] at pending
          exact bounded.slot data pending
  | checkTimeout =>
      unfold Link.checkTimeout
      split
      · simp only
        split
        · refine
            ⟨True.intro, ?_, bounded.cache, bounded.invocations, bounded.slot⟩
          intro reset
          cases reset
        · exact
            ⟨bounded.parsing, bounded.stored, bounded.cache,
              bounded.invocations, bounded.slot⟩
      · exact bounded
  | readRawByte reads =>
      have fetches := Link.readRawByte_fetches reads before.link
      have cached := bounded.cache_returnedAfter reads
      generalize before.link.readRawByte reads = outcome at fetches cached ⊢
      cases fetches with
      | cached | filled | nothing | silent | unset =>
          exact
            ⟨bounded.parsing, bounded.stored, cached, bounded.invocations,
              bounded.slot⟩
  | consumeByte raw =>
      have consumed :=
        Link.consumeByte_consumed environment raw bounded.parsing
      obtain ⟨calls, called, lengths, fits⟩ :=
        bounded.consumeByte_calls sends raw
      refine
        ⟨consumed.parsing, bounded.consumeByte_stored raw, ?_, ?_, fits⟩
      · rw [consumed.readaheadCnt]
        exact bounded.cache
      · intro invocation member
        rw [called] at member
        cases List.mem_append.mp member with
        | inl earlier =>
            exact bounded.invocations invocation earlier
        | inr new =>
            exact (lengths invocation new).2.2

theorem reached (sends : environment.SendsCreated) {config : ProtocolConfig}
    {current : LinkState} (reached : Reached environment config current) :
    current.Bounded := by
  induction reached with
  | refl =>
      refine ⟨True.intro, ?_, Nat.zero_le _, ?_, ?_⟩
      · intro state
        cases state
      · intro invocation member
        cases member
      · intro data pending
        cases pending
  | tail _ step inductionHypothesis =>
      exact inductionHypothesis.step sends step

end LinkState.Bounded

namespace LinkState.Reached

variable {environment : Environment} {config : ProtocolConfig}

theorem perform {current : LinkState} (reached : Reached environment config current)
    (request : Request) (created : request.Created) :
    Reached environment config
      { current with link := current.link.perform request } :=
  reached.tail (Step.request request created current)

/-- Every state between two bytes of a receive loop is reached: the loop with
less fuel stops there. -/
theorem receive {current : LinkState} (reached : Reached environment config current)
    (fuel : Nat) (reads : List ReadResult) :
    ∃ returned,
      Reached environment config
        ⟨Link.receive environment fuel reads current.link, returned⟩ := by
  induction fuel generalizing current reads with
  | zero =>
      exact ⟨current.returned, reached⟩
  | succ fuel inductionHypothesis =>
      have fetched := reached.tail (Step.readRawByte reads current)
      rw [Link.receive]
      split
      · rename_i raw filled rest result
        rw [result] at fetched
        exact
          inductionHypothesis (fetched.tail (Step.consumeByte raw _)) rest
      · rename_i filled rest result
        rw [result] at fetched
        exact ⟨_, fetched⟩

theorem run {current : LinkState} (reached : Reached environment config current)
    (reads : List ReadResult) :
    ∃ returned,
      Reached environment config
        ⟨current.link.run environment reads, returned⟩ := by
  have sent := reached.tail (Step.txPhase current)
  have checked := sent.tail (Step.checkTimeout _)
  obtain ⟨returned, received⟩ :=
    receive checked
      (((current.link.txPhase environment).checkTimeout environment).available
        reads) reads
  exact ⟨returned, received.tail (Step.txPhase _)⟩

theorem session (calls : List LinkCall)
    (created : ∀ frame, LinkCall.send frame ∈ calls → frame.Created) :
    ∃ returned,
      Reached environment config
        ⟨(Link.create config).session environment calls, returned⟩ := by
  induction calls using List.reverseRecOn with
  | nil =>
      exact ⟨0, ReflTransGen.refl⟩
  | append_singleton front call inductionHypothesis =>
      obtain ⟨returned, reached⟩ :=
        inductionHypothesis fun frame member =>
          created frame (List.mem_append_left _ member)
      have last :
          (Link.create config).session environment (front ++ [call]) =
            ((Link.create config).session environment front).call environment
              call := by
        rw [Link.session, List.foldl_append]
        rfl
      rw [last]
      cases call with
      | send frame =>
          have member : LinkCall.send frame ∈ front ++ [.send frame] :=
            List.mem_append_right front (List.mem_singleton_self _)
          exact ⟨returned, reached.perform (.send frame) (created frame member)⟩
      | addHandler tag handler =>
          exact ⟨returned, reached.perform (.addHandler tag handler) trivial⟩
      | run reads =>
          exact reached.run reads

end LinkState.Reached

/-- The buffers are never overrun.  In every state that an instance gets into,
whatever bytes it reads, however the read callback delivers them, whatever the
clock shows and whenever created frames are sent: the next byte goes into the
receive buffer, a payload being awaited has a legal length, a handler gets
exactly the payload bytes that were stored, `ReadRawByte` serves only bytes
that were returned, and the pending payload fits into the transmit buffer. -/
theorem buffers_not_overrun {environment : Environment}
    (sends : environment.SendsCreated) {config : ProtocolConfig}
    {current : LinkState} (reached : current.Reached environment config) :
    (∀ index, current.link.nextWrite = some index → index < rxBufferSize) ∧
      (current.link.state = .readingData ∨
          current.link.state = .readingChecksum →
        current.link.rxDataLength.toNat ≤ maxFrameDataLength) ∧
      (∀ raw, ∃ calls,
        (current.link.consumeByte environment raw).invocations =
            current.link.invocations ++ calls ∧
          ∀ call ∈ calls,
            call.data = current.link.storedPayload ∧
              call.data.length = current.link.rxIndex ∧
              call.data.length ≤ maxFrameDataLength) ∧
      (∀ invocation ∈ current.link.invocations,
        invocation.data.length ≤ maxFrameDataLength) ∧
      (∀ reads raw filled rest,
        current.link.readRawByte reads = (some raw, filled, rest) →
          ∃ index,
            raw = filled.readahead index ∧
              filled.readaheadIdx = index + 1 ∧
              index < current.returnedAfter reads ∧
              index < Link.readaheadSize) ∧
      current.link.SlotFits := by
  have bounded := LinkState.Bounded.reached sends reached
  have parsing := bounded.parsing
  rw [Protocol.Parsing] at parsing
  refine ⟨?_, ?_, ?_, bounded.invocations, ?_, bounded.slot⟩
  · intro index next
    unfold Protocol.nextWrite at next
    unfold rxBufferSize
    cases state : current.link.state with
    | waitingForSync | readingChecksum =>
        rw [state] at next
        cases next
    | readingHeader =>
        rw [state] at next parsing
        cases next
        exact Nat.lt_add_right _ parsing
    | readingData =>
        rw [state] at next parsing
        have short := parsing.2.short
        cases next
        have inside := parsing.1
        omega
  · intro awaited
    cases awaited with
    | inl state =>
        rw [state] at parsing
        exact parsing.2.short
    | inr state =>
        rw [state] at parsing
        exact parsing.short
  · intro raw
    obtain ⟨calls, called, payload, _⟩ := bounded.consumeByte_calls sends raw
    exact ⟨calls, called, payload⟩
  · intro reads raw filled rest result
    have cache := bounded.cache_returnedAfter reads
    have fetches := Link.readRawByte_fetches reads current.link
    rw [result] at fetches cache
    cases fetches with
    | cached waiting =>
        exact
          ⟨_, rfl, rfl,
            lt_of_lt_of_le waiting (le_trans cache (Nat.min_le_left _ _)),
            lt_of_lt_of_le waiting (le_trans cache (Nat.min_le_right _ _))⟩
    | filled empty readable first _ positive =>
        have one : 1 ≤ min first.count Link.readaheadSize := by
          unfold Link.readaheadSize
          omega
        have filled := le_trans one cache
        exact
          ⟨0, rfl, rfl, le_trans filled (Nat.min_le_left _ _),
            le_trans filled (Nat.min_le_right _ _)⟩

/-- The start of a frame that declares 256 bytes, from a callback that returns
more than it was asked for. -/
def longestCalls : List LinkCall :=
  [.run [⟨[0xAA, 0x05, 0x00, 0x00, 0x01], 99⟩]]

/-- The sixteen bytes that count leave eleven stored, and the next one goes
behind them. -/
theorem buffers_not_overrun_of_longestCalls :
    let link := (Link.create {}).session {} longestCalls
    link.nextWrite = some 15 ∧
      ∀ index, link.nextWrite = some index → index < rxBufferSize := by
  have sends : Environment.SendsCreated {} := by
    intro calls request member
    cases member
  have created :
      ∀ frame, LinkCall.send frame ∈ longestCalls → frame.Created := by
    intro frame member
    rw [longestCalls, List.mem_singleton] at member
    cases member
  have session :
      ∃ returned,
        LinkState.Reached {} {}
          ⟨(Link.create {}).session {} longestCalls, returned⟩ :=
    LinkState.Reached.session longestCalls created
  obtain ⟨returned, reached⟩ := session
  have next : ((Link.create {}).session {} longestCalls).nextWrite = some 15 := by
    decide +kernel
  have bound := (buffers_not_overrun sends reached).1
  exact ⟨next, bound⟩

end PrismKit
