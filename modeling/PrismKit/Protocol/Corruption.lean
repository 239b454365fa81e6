import PrismKit.Protocol.Transmit

/-!
# Corruption

One byte of a frame arrives changed, but neither its sync byte nor a byte of
its length.  The checksum is an exclusive or of all bytes, so it notices, and
since the length is right the parser is back in step behind the frame.
-/

namespace PrismKit

open Scanner

namespace Scanner

private theorem foldl_xor (start : UInt8) (bytes : List UInt8) :
    bytes.foldl (fun parity byte => parity ^^^ byte) start =
      start ^^^ parity bytes := by
  induction bytes generalizing start with
  | nil =>
      exact UInt8.xor_zero.symm
  | cons byte rest inductionHypothesis =>
      rw [parity, List.foldl_cons, List.foldl_cons, inductionHypothesis,
        inductionHypothesis (0 ^^^ byte), UInt8.zero_xor, UInt8.xor_assoc]

theorem parity_cons (byte : UInt8) (rest : List UInt8) :
    parity (byte :: rest) = byte ^^^ parity rest := by
  rw [parity, List.foldl_cons, foldl_xor, UInt8.zero_xor]

theorem parity_append (left right : List UInt8) :
    parity (left ++ right) = parity left ^^^ parity right := by
  rw [parity, List.foldl_append, foldl_xor]
  rfl

/-- A changed byte changes the parity by its difference. -/
theorem parity_set {bytes : List UInt8} {position : Nat}
    (inside : position < bytes.length) (byte : UInt8) :
    parity (bytes.set position byte) =
      parity bytes ^^^ (bytes[position] ^^^ byte) := by
  induction bytes generalizing position with
  | nil =>
      simp at inside
  | cons first rest inductionHypothesis =>
      cases position with
      | zero =>
          rw [List.set_cons_zero, parity_cons, parity_cons,
            List.getElem_cons_zero, UInt8.xor_comm first, UInt8.xor_assoc,
            ← UInt8.xor_assoc first, UInt8.xor_self, UInt8.zero_xor,
            UInt8.xor_comm]
      | succ position =>
          have inside' : position < rest.length := by
            simpa using inside
          rw [List.set_cons_succ, parity_cons, parity_cons,
            List.getElem_cons_succ, inductionHypothesis inside',
            UInt8.xor_assoc]

theorem parity_wireBody (tag : Tag) (payload : List UInt8) :
    parity (wireBody tag payload) = 0 := by
  have checksum :
      computeChecksum (Link.txHeader tag (UInt16.ofNat payload.length))
          payload =
        parity
          (Link.txHeader tag (UInt16.ofNat payload.length) ++ payload) := by
    rw [parity, List.foldl_append]
    rfl
  rw [wireBody, ← List.append_assoc, parity_append, checksum, parity_cons]
  show _ ^^^ (_ ^^^ 0) = (0 : UInt8)
  rw [UInt8.xor_zero, UInt8.xor_self]

/-- The packet of a complete frame is dropped when its parity is not zero. -/
theorem packet_of_parity {body : List UInt8}
    (length : body.length = headerSize + declared body + 1)
    (odd : parity body ≠ 0) : packet body = [] := by
  have inside : headerSize + declared body < body.length := by omega
  have last :
      body.getD (headerSize + declared body) 0 =
        body[headerSize + declared body] := by
    rw [List.getD_eq_getElem?_getD, List.getElem?_eq_getElem inside]
    rfl
  rw [packet, if_neg]
  intro valid
  apply odd
  have split :
      body.take (headerSize + declared body + 1) =
        body.take (headerSize + declared body) ++
          body[headerSize + declared body]?.toList :=
    List.take_add_one
  rw [← length, List.take_length, List.getElem?_eq_getElem inside, ← last,
    valid] at split
  rw [split, parity_append]
  show _ ^^^ parity [_] = (0 : UInt8)
  rw [parity_cons]
  show _ ^^^ (_ ^^^ 0) = (0 : UInt8)
  rw [UInt8.xor_zero, UInt8.xor_self]

theorem declared_set {body : List UInt8} {position : Nat}
    (third : position ≠ 2) (fourth : position ≠ 3) (byte : UInt8) :
    declared (body.set position byte) = declared body := by
  simp only [declared, header, Frame.parseHeader, List.getD_eq_getElem?_getD]
  rw [List.getElem?_set_ne third, List.getElem?_set_ne fourth]

end Scanner

/-- One byte of a frame that arrives as another one: a byte of the tag, of the
payload, or the checksum. -/
structure Damage (tag : Tag) (payload : List UInt8) where
  position : Nat
  byte : UInt8
  inside : position < (wire tag payload).length
  covered : position ≠ 0 ∧ position ≠ 3 ∧ position ≠ 4
  differs : (wire tag payload)[position] ≠ byte

/-- A valid frame, and what happens to it on the way. -/
structure Arrival where
  tag : Tag
  payload : List UInt8
  short : payload.length ≤ maxFrameDataLength
  damage : Option (Damage tag payload)

namespace Arrival

def bytes (arrival : Arrival) : List UInt8 :=
  match arrival.damage with
  | none => wire arrival.tag arrival.payload
  | some damage =>
      (wire arrival.tag arrival.payload).set damage.position damage.byte

/-- The packet that should be dispatched. -/
def intact (arrival : Arrival) : Option Packet :=
  match arrival.damage with
  | none => some (arrival.tag, arrival.payload)
  | some _ => none

end Arrival

namespace Scanner

/-- A damaged frame is read to its end and dropped. -/
theorem feedAll_damaged {tag : Tag} {payload : List UInt8}
    (short : payload.length ≤ maxFrameDataLength)
    (damage : Damage tag payload) :
    feedAll none ((wire tag payload).set damage.position damage.byte) =
      (none, []) := by
  obtain ⟨position, byte, inside, ⟨behindSync, third, fourth⟩, differs⟩ :=
    damage
  cases position with
  | zero =>
      exact absurd rfl behindSync
  | succ position =>
      have declares := declared_wireBody tag short
      have length := length_wireBody tag payload
      have inside' : position < (wireBody tag payload).length := by
        rw [wire_eq_cons, List.length_cons] at inside
        exact Nat.lt_of_succ_lt_succ inside
      have differs' : (wireBody tag payload)[position] ≠ byte := by
        simpa only [wire_eq_cons, List.getElem_cons_succ] using differs
      let body := (wireBody tag payload).set position byte
      have declares' : declared body = payload.length := by
        rw [declared_set (by omega) (by omega), declares]
      have length' : body.length = headerSize + declared body + 1 := by
        rw [List.length_set, declares', length]
      have odd : parity body ≠ 0 := by
        rw [parity_set inside', parity_wireBody, UInt8.zero_xor]
        exact mt UInt8.xor_eq_zero_iff.mp differs'
      show feedAll none ((wire tag payload).set (position + 1) byte) = _
      rw [wire_eq_cons, List.set_cons_succ, feedAll, feed, if_pos rfl]
      simp only
      rw [feedAll_frame (by omega) length', packet_of_parity length' odd]
      rfl

theorem feedAll_arrivals (arrivals : List Arrival) :
    feedAll none (arrivals.flatMap Arrival.bytes) =
      (none, arrivals.filterMap Arrival.intact) := by
  induction arrivals with
  | nil =>
      rfl
  | cons arrival rest inductionHypothesis =>
      obtain ⟨tag, payload, short, damage⟩ := arrival
      rw [List.flatMap_cons, feedAll_append]
      cases damage with
      | none =>
          have alone : feedAll none (wire tag payload) = _ :=
            feedAll_wire tag short
          simp only [Arrival.bytes, alone, inductionHypothesis]
          rfl
      | some damage =>
          have alone := feedAll_damaged short damage
          simp only [Arrival.bytes, alone, inductionHypothesis]
          rfl

end Scanner

namespace Link

/-- A corrupted frame is lost alone: of frames that follow each other, some
with one byte changed, exactly the unchanged ones are dispatched, in order. -/
theorem corrupted_lost_alone (environment : Environment)
    (config : ProtocolConfig) (reads : config.read = true)
    (untimed : config.frameTimeout = 0 ∨ config.timestamp = false)
    (arrivals : List Arrival) (deliveries : List Delivery)
    (arrives :
      deliveries.flatMap Delivery.bytes = arrivals.flatMap Arrival.bytes) :
    let final :=
      (create config).session environment (deliveries.map Delivery.call)
    final.packets = arrivals.filterMap Arrival.intact ∧
      final.state = .waitingForSync := by
  intro final
  have received := session_fresh environment reads untimed deliveries
  rw [arrives] at received
  have read := feedAll_arrivals arrivals
  refine ⟨?_, ?_⟩
  · rw [received.packets]
    exact congrArg Prod.snd read
  · exact
      Protocol.waiting_of_pending
        (received.pending.trans (congrArg Prod.fst read))

/-- A frame whose tag becomes a sync byte, and an intact one behind it. -/
def noisyArrivals : List Arrival :=
  [⟨0x0001, [0xAA], by decide,
      some ⟨1, 0xAA, by decide, by decide, by decide⟩⟩,
    ⟨0x00AA, [0xAA], by decide, none⟩]

theorem corrupted_lost_alone_of_noisyArrivals :
    ((create {}).session {}
        ([Delivery.run
            [⟨[0xAA, 0xAA, 0x00, 0x01, 0x00], by decide, by decide⟩,
              ⟨[0xAA, 0xAA, 0xAA, 0xAA, 0x00, 0x01, 0x00, 0xAA, 0x01],
                by decide, by decide⟩]].map
          Delivery.call)).packets =
      [(0x00AA, [0xAA])] :=
  (corrupted_lost_alone {} {} rfl (Or.inl rfl) noisyArrivals
    [.run
      [⟨[0xAA, 0xAA, 0x00, 0x01, 0x00], by decide, by decide⟩,
        ⟨[0xAA, 0xAA, 0xAA, 0xAA, 0x00, 0x01, 0x00, 0xAA, 0x01],
          by decide, by decide⟩]]
    (by decide +kernel)).1

end Link

end PrismKit
