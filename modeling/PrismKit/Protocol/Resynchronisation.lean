import PrismKit.Protocol.Transmit

/-!
# Resynchronisation

However the parser got into the middle of a frame, 261 bytes without a sync
byte bring it back to the start.  An unfinished frame grows with every byte,
and it never has more than 260 bytes behind its sync byte.
-/

namespace PrismKit

open Library Scanner

namespace Scanner

/-- Bytes that a frame can take behind its sync byte: header, the longest
payload, and the checksum. -/
def longestBody : Nat :=
  headerSize + maxFrameDataLength + 1

theorem Unfinished.length_lt {body : List UInt8}
    (unfinished : Unfinished body) : body.length < longestBody := by
  unfold Unfinished at unfinished
  unfold longestBody
  omega

/-- Without a sync byte the reader either gives up the frame or collects every
byte. -/
theorem feedAll_idle {body idle : List UInt8} (noSync : syncByte ∉ idle)
    (unfinished : Unfinished body) :
    (feedAll (some body) idle).1 = none ∨
      (feedAll (some body) idle).1 = some (body ++ idle) ∧
        Unfinished (body ++ idle) := by
  induction idle generalizing body with
  | nil =>
      rw [List.append_nil]
      exact Or.inr ⟨rfl, unfinished⟩
  | cons byte rest inductionHypothesis =>
      rw [List.mem_cons, not_or] at noSync
      have given :
          ∀ packets, feed (some body) byte = (none, packets) →
            (feedAll (some body) (byte :: rest)).1 = none := by
        intro packets dropped
        simp only [feedAll, dropped, feedAll_filler noSync.2]
      by_cases longer : Unfinished (body ++ [byte])
      · have collected :
            feed (some body) byte = (some (body ++ [byte]), []) := by
          rw [feed, if_pos longer]
        have later := inductionHypothesis noSync.2 longer
        rw [← List.append_cons] at later
        simp only [feedAll, collected]
        exact later
      · left
        by_cases large : declared (body ++ [byte]) > maxFrameDataLength
        · apply given []
          rw [feed, if_neg longer, if_pos large]
        · apply given (packet (body ++ [byte]))
          rw [feed, if_neg longer, if_neg large]

/-- What the reader holds is unfinished at all times. -/
theorem feedAll_keepsUnfinished {pending : Option (List UInt8)}
    {bytes body : List UInt8}
    (unfinished : ∀ held, pending = some held → Unfinished held)
    (reached : (feedAll pending bytes).1 = some body) : Unfinished body := by
  induction bytes generalizing pending with
  | nil =>
      exact unfinished body reached
  | cons byte rest inductionHypothesis =>
      have step :
          ∀ held, (feed pending byte).1 = some held → Unfinished held := by
        intro held fed
        cases pending with
        | none =>
            simp only [feed] at fed
            split at fed
            · cases fed
              exact Or.inl (by decide)
            · cases fed
        | some before =>
            simp only [feed] at fed
            split at fed
            · rename_i longer
              cases fed
              exact longer
            · split at fed
              · cases fed
              · cases fed
      exact inductionHypothesis step reached

/-- As many bytes as the longest frame has leave nothing unfinished. -/
theorem feedAll_long_idle {pending : Option (List UInt8)} {idle : List UInt8}
    (unfinished : ∀ body, pending = some body → Unfinished body)
    (noSync : syncByte ∉ idle) (long : longestBody ≤ idle.length) :
    (feedAll pending idle).1 = none := by
  cases pending with
  | none =>
      rw [feedAll_filler noSync]
  | some body =>
      cases feedAll_idle noSync (unfinished body rfl) with
      | inl dropped =>
          exact dropped
      | inr collected =>
          have short := collected.2.length_lt
          rw [List.length_append] at short
          omega

end Scanner

/-- What the parser has collected is unfinished. -/
theorem Protocol.Parsing.unfinished {protocol : Protocol}
    (parsing : protocol.Parsing) {body : List UInt8}
    (pending : protocol.pending = some body) : Unfinished body := by
  unfold Protocol.Parsing at parsing
  unfold Protocol.pending at pending
  cases state : protocol.state with
  | waitingForSync =>
      rw [state] at pending
      cases pending
  | readingHeader =>
      rw [state] at pending parsing
      cases pending
      left
      rw [length_view]
      exact parsing
  | readingData =>
      rw [state] at pending parsing
      obtain ⟨inside, framed⟩ := parsing
      cases pending
      right
      rw [framed.declared_view (Nat.le_add_right _ _), length_view]
      exact ⟨framed.short, by omega⟩
  | readingChecksum =>
      rw [state] at pending parsing
      cases pending
      right
      rw [parsing.declared_view (Nat.le_add_right _ _), length_view]
      exact ⟨parsing.short, by omega⟩

namespace Link

variable (environment : Environment)

theorem call_any {link : Link} (parsing : link.Parsing)
    (untimed : link.Untimed) (drained : link.cached = []) (call : LinkCall) :
    ∃ bytes,
      Received bytes link (link.call environment call) ∧
        (link.call environment call).cached = [] := by
  cases call with
  | send frame =>
      obtain ⟨received, same⟩ := perform_received parsing (.send frame)
      exact ⟨[], received, same.trans drained⟩
  | addHandler tag handler =>
      obtain ⟨received, same⟩ :=
        perform_received parsing (.addHandler tag handler)
      exact ⟨[], received, same.trans drained⟩
  | run reads =>
      obtain ⟨sent, _⟩ := txPhase_received environment parsing
      have checked :
          (link.txPhase environment).checkTimeout environment =
            link.txPhase environment := by
        apply Untimed.checkTimeout
        rw [Untimed, sent.frameTimeout, sent.timestamp]
        exact untimed
      obtain ⟨bytes, absorbs, empty, _⟩ :=
        receive_absorbs environment
          (Nat.le_refl ((link.txPhase environment).available reads))
      have received := absorbs.received environment sent.parsing
      obtain ⟨last, kept⟩ := txPhase_received environment received.parsing
      have whole := (sent.append received).append last
      unfold Link.call run
      simp only [checked]
      exact ⟨_, whole, kept.trans empty⟩

theorem session_any {link : Link} (parsing : link.Parsing)
    (untimed : link.Untimed) (drained : link.cached = [])
    (calls : List LinkCall) :
    ∃ bytes,
      Received bytes link (link.session environment calls) ∧
        (link.session environment calls).cached = [] := by
  induction calls generalizing link with
  | nil =>
      exact ⟨[], Received.of_caches parsing _ _ _ _ _, drained⟩
  | cons call rest inductionHypothesis =>
      obtain ⟨first, received, empty⟩ :=
        call_any environment parsing untimed drained call
      have untimed' : (link.call environment call).Untimed := by
        rw [Untimed, received.frameTimeout, received.timestamp]
        exact untimed
      obtain ⟨second, received', empty'⟩ :=
        inductionHypothesis received.parsing untimed' empty
      exact ⟨first ++ second, received.append received', empty'⟩

/-- The parser resynchronises.  Whatever calls and whatever bytes came before,
it waits for a sync byte after 261 or more bytes without one, and a valid frame
that follows them is dispatched. -/
theorem resynchronises (config : ProtocolConfig) (reads : config.read = true)
    (untimed : config.frameTimeout = 0 ∨ config.timestamp = false)
    (calls : List LinkCall) {noise idle : List UInt8}
    (noSync : syncByte ∉ idle) (long : 261 ≤ idle.length) :
    let before := (create config).session environment calls
    (∀ deliveries : List Delivery,
        deliveries.flatMap Delivery.bytes = noise ++ idle →
          (before.session environment
              (deliveries.map Delivery.call)).state = .waitingForSync) ∧
      ∀ (tag : Tag) (payload : List UInt8),
        payload.length ≤ maxFrameDataLength →
          ∀ deliveries : List Delivery,
            deliveries.flatMap Delivery.bytes =
                noise ++ idle ++ wire tag payload →
              (before.session environment
                  (deliveries.map Delivery.call)).packets =
                before.packets ++
                  (feedAll before.pending (noise ++ idle)).2 ++
                  [(tag, payload)] := by
  intro before
  have fresh : (create config).Parsing := True.intro
  obtain ⟨earlier, reached, drained⟩ :=
    session_any environment fresh untimed (view_zero _ _) calls
  have untimed' : before.Untimed := by
    rw [Untimed, reached.frameTimeout, reached.timestamp]
    exact untimed
  have delivered :
      ∀ deliveries : List Delivery,
        Received (deliveries.flatMap Delivery.bytes) before
          (before.session environment (deliveries.map Delivery.call)) :=
    fun deliveries =>
      session_received environment reached.parsing
        (reached.read.trans reads) untimed' drained
  -- the noise leads to some unfinished frame, the idle bytes end it
  have middle :
      ∀ body, (feedAll before.pending noise).1 = some body →
        Unfinished body := by
    intro body pending
    exact feedAll_keepsUnfinished (fun _ => reached.parsing.unfinished) pending
  have waiting : (feedAll before.pending (noise ++ idle)).1 = none := by
    rw [feedAll_append]
    exact feedAll_long_idle middle noSync long
  refine ⟨?_, ?_⟩
  · intro deliveries arrives
    have received := delivered deliveries
    rw [arrives] at received
    exact Protocol.waiting_of_pending (received.pending.trans waiting)
  · intro tag payload short deliveries arrives
    rw [(delivered deliveries).packets, arrives, feedAll_append, waiting,
      feedAll_wire tag short, List.append_assoc]

/-- Idle bytes in full chunks, and a frame behind them. -/
def idleDeliveries : List Delivery :=
  [.run (List.replicate 17 ⟨List.replicate 16 0x00, by decide, by decide⟩),
    .run
      [⟨[0xAA, 0x05, 0x00, 0x01, 0x00, 0x07, 0x03], by decide, by decide⟩]]

/-- An unfinished frame that declares 255 bytes, from a callback that claims to
have read more than it was asked for, does not hide the next frame. -/
theorem resynchronises_of_idleDeliveries :
    (5, [7]) ∈
      (((create {}).session {}
          [.run [⟨[0xAA, 0x05, 0x00, 0xFF, 0x00], 20⟩]]).session {}
        (idleDeliveries.map Delivery.call)).packets := by
  have noSync : syncByte ∉ List.replicate 272 (0x00 : UInt8) := by
    decide +kernel
  have long : 261 ≤ (List.replicate 272 (0x00 : UInt8)).length := by
    decide +kernel
  have arrives :
      idleDeliveries.flatMap Delivery.bytes =
        [] ++ List.replicate 272 0x00 ++ wire 5 [7] := by
    decide +kernel
  have dispatched :=
    (resynchronises {} {} rfl (Or.inl rfl)
      [.run [⟨[0xAA, 0x05, 0x00, 0xFF, 0x00], 20⟩]] noSync long).2 5 [7]
      (by decide) idleDeliveries arrives
  rw [dispatched]
  exact List.mem_append_right _ (List.mem_singleton_self _)

end Link

end PrismKit
