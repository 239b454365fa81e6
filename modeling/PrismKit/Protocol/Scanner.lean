import PrismKit.Protocol.Frame
import Mathlib.Data.List.Basic

/-!
# The frame grammar

What a byte stream says, independent of how it is read.  `scan` is the
reference scanner on a whole string; `feed` is the incremental reader whose
state is the unfinished frame since its sync byte.  Reading a string byte by
byte finds the same frames as scanning it at once.
-/

namespace PrismKit

abbrev Packet := Tag × List UInt8

namespace Scanner

def parity (bytes : List UInt8) : UInt8 :=
  bytes.foldl (fun parity byte => parity ^^^ byte) 0

/-- The header at the front of the bytes after a sync byte. -/
def header (body : List UInt8) : FrameHeader :=
  Frame.parseHeader fun index => body.getD index 0

def declared (body : List UInt8) : Nat :=
  (header body).length.toNat

/-- The packet in the bytes of a complete frame after its sync byte, if the
checksum is right. -/
def packet (body : List UInt8) : List Packet :=
  if body.getD (headerSize + declared body) 0 =
      parity (body.take (headerSize + declared body)) then
    [((header body).tag, (body.take (headerSize + declared body)).drop
      headerSize)]
  else
    []

/-- The reference scanner: skip to the next sync byte and take a header; drop
it when the declared length is too large, otherwise take the payload and the
checksum.  An incomplete tail yields nothing. -/
def scan : List UInt8 → List Packet
  | [] => []
  | byte :: rest =>
      if byte ≠ syncByte then
        scan rest
      else if rest.length < headerSize then
        []
      else if declared rest > maxFrameDataLength then
        scan (rest.drop headerSize)
      else if rest.length < headerSize + declared rest + 1 then
        []
      else
        packet rest ++ scan (rest.drop (headerSize + declared rest + 1))
termination_by bytes => bytes.length
decreasing_by
  all_goals
    simp only [List.length_cons, List.length_drop]
    omega

/-- The bytes after a sync byte do not decide about the frame yet. -/
def Unfinished (body : List UInt8) : Prop :=
  body.length < headerSize ∨
    declared body ≤ maxFrameDataLength ∧
      body.length < headerSize + declared body + 1

instance (body : List UInt8) : Decidable (Unfinished body) :=
  inferInstanceAs (Decidable (_ ∨ _))

def feed (pending : Option (List UInt8)) (byte : UInt8) :
    Option (List UInt8) × List Packet :=
  match pending with
  | none => (if byte = syncByte then some [] else none, [])
  | some body =>
      if Unfinished (body ++ [byte]) then
        (some (body ++ [byte]), [])
      else if declared (body ++ [byte]) > maxFrameDataLength then
        (none, [])
      else
        (none, packet (body ++ [byte]))

/-- Read bytes one after the other. -/
def feedAll (pending : Option (List UInt8)) :
    List UInt8 → Option (List UInt8) × List Packet
  | [] => (pending, [])
  | byte :: rest =>
      ((feedAll (feed pending byte).1 rest).1,
        (feed pending byte).2 ++ (feedAll (feed pending byte).1 rest).2)

theorem feedAll_append (pending : Option (List UInt8))
    (left right : List UInt8) :
    feedAll pending (left ++ right) =
      ((feedAll (feedAll pending left).1 right).1,
        (feedAll pending left).2 ++
          (feedAll (feedAll pending left).1 right).2) := by
  induction left generalizing pending with
  | nil =>
      rfl
  | cons byte rest inductionHypothesis =>
      simp only [List.cons_append, feedAll, inductionHypothesis,
        List.append_assoc]

/-- The header is fixed by the first four bytes. -/
theorem header_append {body : List UInt8} (complete : headerSize ≤ body.length)
    (more : List UInt8) : header (body ++ more) = header body := by
  have same :
      ∀ index, index < headerSize →
        (body ++ more).getD index 0 = body.getD index 0 := by
    intro index below
    rw [List.getD_eq_getElem?_getD, List.getD_eq_getElem?_getD,
      List.getElem?_append_left (by omega)]
  simp only [header, Frame.parseHeader]
  rw [same 0 (by decide), same 1 (by decide), same 2 (by decide),
    same 3 (by decide)]

theorem declared_append {body : List UInt8}
    (complete : headerSize ≤ body.length) (more : List UInt8) :
    declared (body ++ more) = declared body := by
  rw [declared, header_append complete, declared]

theorem Unfinished.of_append {body more : List UInt8}
    (unfinished : Unfinished (body ++ more)) : Unfinished body := by
  unfold Unfinished at unfinished ⊢
  rw [List.length_append] at unfinished
  by_cases short : body.length < headerSize
  · exact Or.inl short
  · right
    rw [declared_append (by omega)] at unfinished
    omega

/-- Bytes that leave the frame unfinished are collected. -/
theorem feedAll_unfinished {body bytes : List UInt8}
    (unfinished : Unfinished (body ++ bytes)) :
    feedAll (some body) bytes = (some (body ++ bytes), []) := by
  induction bytes generalizing body with
  | nil =>
      rw [List.append_nil]
      rfl
  | cons byte rest inductionHypothesis =>
      rw [List.append_cons] at unfinished ⊢
      simp only [feedAll, feed, if_pos unfinished.of_append,
        inductionHypothesis unfinished, List.append_nil]

/-- What a complete frame says does not depend on what follows it. -/
theorem packet_append {body : List UInt8}
    (length : body.length = headerSize + declared body + 1)
    (more : List UInt8) : packet (body ++ more) = packet body := by
  have complete : headerSize ≤ body.length := by omega
  have last :
      (body ++ more).getD (headerSize + declared body) 0 =
        body.getD (headerSize + declared body) 0 := by
    rw [List.getD_eq_getElem?_getD, List.getD_eq_getElem?_getD,
      List.getElem?_append_left (by omega)]
  simp only [packet, declared_append complete, header_append complete, last]
  rw [List.take_append_of_le_length (by omega)]

/-- A complete frame is read and leaves nothing pending. -/
theorem feedAll_frame {body : List UInt8}
    (short : declared body ≤ maxFrameDataLength)
    (length : body.length = headerSize + declared body + 1) :
    feedAll (some []) body = (none, packet body) := by
  have nonempty : body ≠ [] := by
    rw [← List.length_pos_iff, length]
    omega
  have split : body = body.dropLast ++ [body.getLast nonempty] :=
    (List.dropLast_append_getLast nonempty).symm
  have front : body.dropLast.length = headerSize + declared body := by
    rw [List.length_dropLast]
    omega
  have sameLength : declared body.dropLast = declared body := by
    conv =>
      rhs
      rw [split]
    rw [declared_append (by omega)]
  have unfinished : Unfinished ([] ++ body.dropLast) := by
    right
    rw [List.nil_append, sameLength]
    omega
  have finished : ¬ Unfinished body := by
    unfold Unfinished
    omega
  have read := feedAll_append (some []) body.dropLast [body.getLast nonempty]
  rw [← split, feedAll_unfinished unfinished] at read
  rw [read]
  simp only [List.nil_append, feedAll, feed, ← split, if_neg finished,
    if_neg (Nat.not_lt.mpr short), List.append_nil]

/-- A header that declares too much is dropped. -/
theorem feedAll_oversized {body : List UInt8}
    (large : declared body > maxFrameDataLength)
    (length : body.length = headerSize) :
    feedAll (some []) body = (none, []) := by
  have nonempty : body ≠ [] := by
    rw [← List.length_pos_iff, length]
    decide
  have split : body = body.dropLast ++ [body.getLast nonempty] :=
    (List.dropLast_append_getLast nonempty).symm
  have unfinished : Unfinished ([] ++ body.dropLast) := by
    left
    rw [List.nil_append, List.length_dropLast, length]
    decide
  have finished : ¬ Unfinished body := by
    unfold Unfinished
    omega
  have read := feedAll_append (some []) body.dropLast [body.getLast nonempty]
  rw [← split, feedAll_unfinished unfinished] at read
  rw [read]
  simp only [List.nil_append, feedAll, feed, ← split, if_neg finished,
    if_pos large, List.append_nil]

/-- A header that declares too much is dropped with its sync byte. -/
theorem feedAll_dropped {byte : UInt8} {rest : List UInt8}
    (sync : byte = syncByte) (complete : headerSize ≤ rest.length)
    (large : declared rest > maxFrameDataLength) :
    feedAll none (byte :: rest.take headerSize) = (none, []) := by
  have front : (rest.take headerSize).length = headerSize := by
    rw [List.length_take]
    omega
  have large' : declared (rest.take headerSize) > maxFrameDataLength := by
    rw [← declared_append (by omega) (rest.drop headerSize),
      List.take_append_drop]
    exact large
  simp only [feedAll, feed, if_pos sync, feedAll_oversized large' front,
    List.append_nil]

theorem feedAll_taken {byte : UInt8} {rest : List UInt8}
    (sync : byte = syncByte) (small : declared rest ≤ maxFrameDataLength)
    (long : headerSize + declared rest + 1 ≤ rest.length) :
    feedAll none (byte :: rest.take (headerSize + declared rest + 1)) =
      (none, packet rest) := by
  have split := List.take_append_drop (headerSize + declared rest + 1) rest
  have front :
      (rest.take (headerSize + declared rest + 1)).length =
        headerSize + declared rest + 1 := by
    rw [List.length_take]
    omega
  have same :
      declared (rest.take (headerSize + declared rest + 1)) =
        declared rest := by
    rw [← declared_append (by omega)
      (rest.drop (headerSize + declared rest + 1)), split]
  have whole :
      feedAll (some []) (rest.take (headerSize + declared rest + 1)) =
        (none, packet rest) := by
    rw [feedAll_frame (by omega) (by omega),
      ← packet_append (by omega)
        (rest.drop (headerSize + declared rest + 1)), split]
  simp only [feedAll, feed, if_pos sync, whole, List.nil_append]

/-- Reading byte by byte finds what the reference scanner finds. -/
theorem feedAll_eq_scan (bytes : List UInt8) :
    (feedAll none bytes).2 = scan bytes := by
  induction bytes using scan.induct with
  | case1 =>
      rw [scan]
      rfl
  | case2 byte rest noise inductionHypothesis =>
      rw [scan, if_pos noise]
      simp only [feedAll, feed, if_neg noise, List.nil_append]
      exact inductionHypothesis
  | case3 byte rest sync short =>
      have unfinished : Unfinished ([] ++ rest) := Or.inl short
      rw [scan, if_neg sync, if_pos short]
      simp only [feedAll, feed, if_pos (not_not.mp sync),
        feedAll_unfinished unfinished, List.nil_append]
  | case4 byte rest sync complete large inductionHypothesis =>
      have read :=
        feedAll_append none (byte :: rest.take headerSize)
          (rest.drop headerSize)
      rw [List.cons_append, List.take_append_drop,
        feedAll_dropped (not_not.mp sync) (Nat.not_lt.mp complete) large]
        at read
      rw [scan, if_neg sync, if_neg complete, if_pos large, read,
        List.nil_append]
      exact inductionHypothesis
  | case5 byte rest sync complete small short =>
      have unfinished : Unfinished ([] ++ rest) := by
        right
        rw [List.nil_append]
        omega
      rw [scan, if_neg sync, if_neg complete, if_neg small, if_pos short]
      simp only [feedAll, feed, if_pos (not_not.mp sync),
        feedAll_unfinished unfinished, List.nil_append]
  | case6 byte rest sync complete small long inductionHypothesis =>
      have read :=
        feedAll_append none
          (byte :: rest.take (headerSize + declared rest + 1))
          (rest.drop (headerSize + declared rest + 1))
      rw [List.cons_append, List.take_append_drop,
        feedAll_taken (not_not.mp sync) (by omega) (by omega)] at read
      rw [scan, if_neg sync, if_neg complete, if_neg small, if_neg long, read]
      exact congrArg (packet rest ++ ·) inductionHypothesis

/-- Bytes without a sync byte are skipped between frames. -/
theorem feedAll_filler {filler : List UInt8} (noise : syncByte ∉ filler) :
    feedAll none filler = (none, []) := by
  induction filler with
  | nil =>
      rfl
  | cons byte rest inductionHypothesis =>
      rw [List.mem_cons, not_or] at noise
      have other : byte ≠ syncByte := Ne.symm noise.1
      simp only [feedAll, feed, if_neg other, inductionHypothesis noise.2,
        List.append_nil]

end Scanner

end PrismKit
