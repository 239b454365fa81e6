import PrismKit.Library.Bytes

/-!
# Frames

The wire constants and the frame class of `frame.hpp`.  A pointer with a length
is the list of bytes it points to, or `none` for the null pointer.
-/

namespace PrismKit

/-- Command tag of a frame. -/
abbrev Tag := UInt16

def Tag.loopback : Tag := 0x0000

/-- Sync byte that marks the start of every frame on the wire. -/
def syncByte : UInt8 := 0xAA

/-- Wire-level header size in bytes. -/
def headerSize : Nat := 4

/-- Maximum data payload length in bytes. -/
def maxFrameDataLength : Nat := 256

structure FrameHeader where
  tag : Tag := 0
  length : UInt16 := 0
  deriving DecidableEq, Repr

/-- `Frame`: a tag, a pointer to payload data, and the payload length. -/
structure Frame where
  tag : Tag := 0
  data : Option (List UInt8) := none
  length : UInt16 := 0
  deriving DecidableEq, Repr

namespace Frame

def create (tag : Tag) (data : Option (List UInt8)) (length : UInt16) :
    Frame :=
  if length.toNat > maxFrameDataLength then
    {}
  else if length > 0 ∧ data = none then
    {}
  else
    ⟨tag, data, length⟩

def isValid (frame : Frame) : Bool :=
  frame.length = 0 ∨ frame.data ≠ none

/-- The `Length()` bytes at `Data()`. -/
def payload (frame : Frame) : List UInt8 :=
  (frame.data.getD []).take frame.length.toNat

/-- `Frame::ParseHeader`: little-endian, the tag first. -/
def parseHeader (wireData : Nat → UInt8) : FrameHeader :=
  { tag := (wireData 0).toUInt16 ||| (wireData 1).toUInt16 <<< 8
    length := (wireData 2).toUInt16 ||| (wireData 3).toUInt16 <<< 8 }

end Frame

/-- `ComputeChecksum`: the bytes of header and data combined by exclusive
or. -/
def computeChecksum (header data : List UInt8) : UInt8 :=
  data.foldl (fun cs byte => cs ^^^ byte)
    (header.foldl (fun cs byte => cs ^^^ byte) 0)

theorem Frame.create_payload (tag : Tag) {payload : List UInt8}
    (short : payload.length ≤ maxFrameDataLength) :
    (create tag (some payload) (UInt16.ofNat payload.length)).isValid = true ∧
      (create tag (some payload) (UInt16.ofNat payload.length)).tag = tag ∧
      (create tag (some payload) (UInt16.ofNat payload.length)).payload =
        payload := by
  have length : (UInt16.ofNat payload.length).toNat = payload.length := by
    rw [UInt16.toNat_ofNat']
    unfold maxFrameDataLength at short
    omega
  have created :
      create tag (some payload) (UInt16.ofNat payload.length) =
        ⟨tag, some payload, UInt16.ofNat payload.length⟩ := by
    unfold create
    rw [length, if_neg (Nat.not_lt.mpr short), if_neg (by simp)]
  rw [created]
  refine ⟨?_, rfl, ?_⟩
  · simp [isValid]
  · simp only [Frame.payload, Option.getD_some, length]
    exact List.take_length

end PrismKit
