import PrismKit.Commands.Host
import PrismKit.Protocol.Transmit

/-!
# Host frames

A frame that `build_frame` makes is the wire format of its tag and payload, and
`parse_wire_frame` reads it back.  The parser looks for two more bytes than the
shortest frames have, so it needs something behind them.
-/

namespace PrismKit

open Library

/-- The two bytes of a 16-bit field. -/
def le16 (value : UInt16) : List UInt8 :=
  [UInt8.ofNat value.toNat, UInt8.ofNat (value.toNat / 256)]

@[simp]
theorem toBytes_16 (value : UInt16) :
    Host.toBytes value.toNat 2 = some (le16 value) := by
  have bound : value.toNat < 256 ^ 2 := value.toNat_lt
  rw [Host.toBytes, if_pos bound]
  simp [List.range_succ, le16]

/-- The host frame is the wire format of its tag and payload. -/
theorem buildFrame_eq_wire {number : Nat} {tag : UInt16}
    (same : number = tag.toNat) {payload : List UInt8}
    (short : payload.length ≤ 65535) :
    Host.buildFrame number payload = some (wire tag payload) := by
  have size : payload.length = (UInt16.ofNat payload.length).toNat := by
    rw [UInt16.toNat_ofNat']
    omega
  have sync : Host.bytes [Host.syncByte] = some [syncByte] :=
    rfl
  have header :
      le16 tag ++ le16 (UInt16.ofNat payload.length) =
        Link.txHeader tag (UInt16.ofNat payload.length) := by
    have split :
        ∀ value : UInt16,
          le16 value =
            [(value &&& 0xFF).toUInt8, ((value >>> 8) &&& 0xFF).toUInt8] := by
      intro value
      have bound := value.toNat_lt
      have low :
          UInt8.ofNat value.toNat = (value &&& 0xFF).toUInt8 := by
        rw [← UInt8.toNat_inj, toNat_low16, UInt8.toNat_ofNat']
      have high :
          UInt8.ofNat (value.toNat / 256) =
            ((value >>> 8) &&& 0xFF).toUInt8 := by
        rw [← UInt8.toNat_inj, toNat_high16, UInt8.toNat_ofNat']
        omega
      rw [le16, low, high]
    rw [split, split]
    rfl
  have length :
      Host.toBytes payload.length 2 =
        some (le16 (UInt16.ofNat payload.length)) := by
    rw [size, toBytes_16, ← size]
  simp only [Host.buildFrame, same, toBytes_16, length, sync,
    Option.bind_eq_bind, Option.bind_some, header]
  rfl

namespace Host

/-- The two header fields are read as they were written. -/
theorem fromBytes_low_high (value : UInt16) :
    fromBytes
        [(value &&& 0xFF).toUInt8, ((value >>> 8) &&& 0xFF).toUInt8] =
      value.toNat := by
  simp only [fromBytes, List.foldr_cons, List.foldr_nil]
  rw [toNat_high16, toNat_low16]
  omega

/-- What the parser makes of a header and enough bytes behind it. -/
theorem parseWireFrame_header (tag : Tag) (length : UInt16)
    {rest : List UInt8} (long : 3 ≤ rest.length) :
    parseWireFrame (PrismKit.syncByte :: (Link.txHeader tag length ++ rest)) =
      if rest.length < length.toNat + 1 then
        none
      else
        some
          { tag := tag.toNat
            payload := rest.take length.toNat
            checksumOk :=
              rest.getD length.toNat 0 ==
                computeChecksum (Link.txHeader tag length)
                  (rest.take length.toNat) } := by
  let data := PrismKit.syncByte :: (Link.txHeader tag length ++ rest)
  have size : data.length = rest.length + 5 := by
    simp only [data, Link.txHeader, List.length_append, List.length_cons,
      List.length_nil]
    omega
  have enough : ¬ data.length < 8 := by omega
  have sync : ¬ data[0] ≠ UInt8.ofNat syncByte := not_not.mpr rfl
  have tagRead : fromBytes (slice data 1 3) = tag.toNat :=
    fromBytes_low_high tag
  have lengthRead : fromBytes (slice data 3 5) = length.toNat :=
    fromBytes_low_high length
  have payloadRead :
      slice data 5 (5 + length.toNat) = rest.take length.toNat := by
    rw [slice, List.drop_take, Nat.add_sub_cancel_left]
    rfl
  have covered :
      slice data 1 (5 + length.toNat) =
        Link.txHeader tag length ++ rest.take length.toNat := by
    have front : (Link.txHeader tag length).length = 4 := rfl
    have shift : 5 + length.toNat - 1 = 4 + length.toNat := by omega
    rw [slice, List.drop_take, shift, List.drop_one]
    show List.take _ (Link.txHeader tag length ++ rest) = _
    rw [List.take_append, front, Nat.add_sub_cancel_left,
      List.take_of_length_le (by omega)]
  show parseWireFrame data = _
  unfold parseWireFrame
  rw [dif_neg enough]
  simp only [if_neg sync, tagRead, lengthRead, payloadRead, covered]
  by_cases truncated : rest.length < length.toNat + 1
  · rw [dif_pos (by omega), if_pos truncated]
  · have inside : length.toNat < rest.length := by omega
    have last : data[5 + length.toNat] = rest.getD length.toNat 0 := by
      rw [List.getD_eq_getElem?_getD, List.getElem?_eq_getElem inside]
      apply Option.some.inj
      rw [← List.getElem?_eq_getElem, Nat.add_comm]
      exact List.getElem?_eq_getElem inside
    rw [dif_neg (by omega), if_neg truncated, last, List.foldl_append]
    rfl

/-- A whole frame with two bytes more than the shortest one is read. -/
theorem parseWireFrame_wire (tag : Tag) {payload : List UInt8}
    (fits : payload.length ≤ 65535) {trailing : List UInt8}
    (long : 2 ≤ payload.length + trailing.length) :
    parseWireFrame (wire tag payload ++ trailing) =
      some { tag := tag.toNat, payload := payload, checksumOk := true } := by
  let checksum :=
    computeChecksum (Link.txHeader tag (UInt16.ofNat payload.length)) payload
  have whole :
      wire tag payload =
        PrismKit.syncByte ::
          (Link.txHeader tag (UInt16.ofNat payload.length) ++
            (payload ++ [checksum])) :=
    wire_eq_cons tag payload
  have size : (UInt16.ofNat payload.length).toNat = payload.length := by
    rw [UInt16.toNat_ofNat']
    omega
  have length :
      (payload ++ [checksum] ++ trailing).length =
        payload.length + 1 + trailing.length := by
    simp only [List.length_append, List.length_singleton]
  have front :
      (payload ++ [checksum] ++ trailing).take payload.length = payload := by
    rw [List.append_assoc, List.take_left]
  have last :
      (payload ++ [checksum] ++ trailing).getD payload.length 0 =
        checksum := by
    rw [List.append_assoc, List.getD_eq_getElem?_getD,
      List.getElem?_append_right (Nat.le_refl _), Nat.sub_self]
    rfl
  rw [whole, List.cons_append, List.append_assoc,
    parseWireFrame_header tag _ (by omega), size, if_neg (by omega), front,
    last]
  simp only [checksum, beq_self_eq_true]

/-- Nothing is read before a frame is whole. -/
theorem parseWireFrame_incomplete (tag : Tag) {payload : List UInt8}
    (fits : payload.length ≤ 65535) {front back : List UInt8}
    (split : wire tag payload = front ++ back) (proper : back ≠ []) :
    parseWireFrame front = none := by
  by_cases short : front.length < 8
  · unfold parseWireFrame
    rw [dif_pos short]
  · have size : (UInt16.ofNat payload.length).toNat = payload.length := by
      rw [UInt16.toNat_ofNat']
      omega
    have positive : 0 < back.length := List.length_pos_iff.mpr proper
    have total := length_wire tag payload
    rw [split, List.length_append] at total
    -- the front holds the sync byte and the header
    have head :
        front =
          PrismKit.syncByte ::
            (Link.txHeader tag (UInt16.ofNat payload.length) ++
              front.drop 5) := by
      have five : (wire tag payload).take 5 = front.take 5 := by
        rw [split, List.take_append_of_le_length (by omega)]
      conv =>
        lhs
        rw [← List.take_append_drop 5 front, ← five, wire_eq_cons]
      rfl
    have rest : (front.drop 5).length = front.length - 5 := List.length_drop
    rw [head, parseWireFrame_header tag _ (by omega), size,
      if_pos (by omega)]

/-- The host parser inverts the host encoder exactly when payload and trailing
bytes have at least two bytes together: its minimum of eight bytes is two more
than the shortest frame has. -/
theorem parse_build_iff (tag : UInt16) {payload : List UInt8}
    (fits : payload.length ≤ 65535) (trailing : List UInt8) :
    ∃ frame,
      buildFrame tag.toNat payload = some frame ∧
        ((parseWireFrame (frame ++ trailing) =
              some
                { tag := tag.toNat, payload := payload, checksumOk := true } ∧
            ∀ front, front <+: frame → front ≠ frame →
              parseWireFrame front = none) ↔
          2 ≤ payload.length + trailing.length) := by
  refine ⟨wire tag payload, buildFrame_eq_wire rfl fits, ?_, ?_⟩
  · rintro ⟨parsed, _⟩
    by_contra few
    have short : (wire tag payload ++ trailing).length < 8 := by
      rw [List.length_append, length_wire]
      omega
    unfold parseWireFrame at parsed
    rw [dif_pos short] at parsed
    cases parsed
  · intro long
    refine ⟨parseWireFrame_wire tag fits long, ?_⟩
    rintro front ⟨back, split⟩ proper
    apply parseWireFrame_incomplete tag fits split.symm
    intro nothing
    apply proper
    rw [← split, nothing, List.append_nil]

/-- A loopback frame with one byte is read when a byte follows it. -/
theorem parse_build_of_oneByte :
    ∃ frame,
      buildFrame 0 [0x2A] = some frame ∧
        parseWireFrame (frame ++ [0x00]) =
          some { tag := 0, payload := [0x2A], checksumOk := true } := by
  obtain ⟨frame, built, reads⟩ :=
    parse_build_iff 0 (by decide : [(0x2A : UInt8)].length ≤ 65535) [0x00]
  exact ⟨frame, built, (reads.mpr (by decide)).1⟩

/-- A loopback frame without payload is built and not read. -/
theorem not_parse_build_of_empty :
    buildFrame 0 [] = some [0xAA, 0x00, 0x00, 0x00, 0x00, 0x00] ∧
      ¬ ∀ (tag : UInt16) (payload trailing : List UInt8),
          payload.length ≤ 65535 →
            ∀ frame,
              buildFrame tag.toNat payload = some frame →
                parseWireFrame (frame ++ trailing) =
                  some
                    { tag := tag.toNat
                      payload := payload
                      checksumOk := true } := by
  refine ⟨rfl, ?_⟩
  intro inverts
  have read := inverts 0 [] [] (by decide) _ rfl
  cases read

end Host

end PrismKit
