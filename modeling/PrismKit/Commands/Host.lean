import PrismKit.Protocol.Frame
import PrismKit.Library.Bytes

/-!
# Host encoders

The `build_*_frame` functions of `protocol.py`, and its parser.  Python
integers are natural numbers here, and `none` stands for the exception that a
value outside its field raises.
-/

namespace PrismKit.Host

/-- `value.to_bytes(length, "little")`. -/
def toBytes (value length : Nat) : Option (List UInt8) :=
  if value < 256 ^ length then
    some ((List.range length).map fun place =>
      UInt8.ofNat (value / 256 ^ place))
  else
    none

/-- `bytes(values)`. -/
def bytes : List Nat → Option (List UInt8)
  | [] => some []
  | value :: values =>
      if value < 256 then
        (bytes values).map fun rest => UInt8.ofNat value :: rest
      else
        none

def syncByte : Nat := 0xAA

def tagSetMultipleColor : Nat := 0x0100

def tagSetSingleColor : Nat := 0x0101

def tagResetInstructions : Nat := 0x0102

def tagRun : Nat := 0x0103

def tagSetSingleColorHsv : Nat := 0x0105

def tagSetMultipleColorHsv : Nat := 0x0106

def tagSetMultipleColorGrouped : Nat := 0x0107

def tagSetSingleColorGrouped : Nat := 0x0108

def tagRunGroup : Nat := 0x010B

def tagStart : Nat := 0x010C

def tagFade : Nat := 0x010D

def tagGradient : Nat := 0x010E

def buildFrame (tag : Nat) (payload : List UInt8) : Option (List UInt8) := do
  let length := payload.length
  let header := (← toBytes tag 2) ++ (← toBytes length 2)
  let cs := header.foldl (fun cs b => cs ^^^ b) 0
  let cs := payload.foldl (fun cs b => cs ^^^ b) cs
  return (← bytes [syncByte]) ++ header ++ payload ++ [cs]

def buildSetSingleColorFrame (r g b index mark : Nat) :
    Option (List UInt8) := do
  let markBytes ← toBytes mark 2
  buildFrame tagSetSingleColor (markBytes ++ (← bytes [r, g, b, index]))

def buildSetMultipleColorFrame (r g b start «end» mark : Nat) :
    Option (List UInt8) := do
  let markBytes ← toBytes mark 2
  buildFrame tagSetMultipleColor
    (markBytes ++ (← bytes [r, g, b, start, «end»]))

def buildSetMultipleColorGroupedFrame
    (r g b start «end» groupId mark : Nat) : Option (List UInt8) := do
  let payload :=
    (← toBytes mark 2) ++ (← bytes [r, g, b, start, «end»]) ++
      (← toBytes groupId 4)
  buildFrame tagSetMultipleColorGrouped payload

def buildSetSingleColorGroupedFrame (r g b index groupId mark : Nat) :
    Option (List UInt8) := do
  let payload :=
    (← toBytes mark 2) ++ (← bytes [r, g, b, index]) ++ (← toBytes groupId 4)
  buildFrame tagSetSingleColorGrouped payload

def buildRunGroupFrame
    (parentGroupId mark targetGroupId additionalRepeats : Nat) :
    Option (List UInt8) := do
  let payload :=
    (← toBytes parentGroupId 4) ++ (← toBytes mark 2) ++
      (← toBytes targetGroupId 4) ++ (← toBytes additionalRepeats 2)
  buildFrame tagRunGroup payload

def buildFadeGroupedFrame (mark percent durationMs index groupId : Nat) :
    Option (List UInt8) := do
  let payload :=
    (← toBytes mark 2) ++ (← toBytes percent 2) ++ (← toBytes durationMs 2) ++
      (← bytes [index]) ++ (← toBytes groupId 4)
  buildFrame tagFade payload

def buildGradientGroupedFrame (mark r g b durationMs index groupId : Nat) :
    Option (List UInt8) := do
  let payload :=
    (← toBytes mark 2) ++ (← bytes [r, g, b]) ++ (← toBytes durationMs 2) ++
      (← bytes [index]) ++ (← toBytes groupId 4)
  buildFrame tagGradient payload

def buildResetInstructionsFrame : Option (List UInt8) :=
  buildFrame tagResetInstructions []

def buildSetSingleColorHsvFrame (h s v index mark : Nat) :
    Option (List UInt8) := do
  let markBytes ← toBytes mark 2
  buildFrame tagSetSingleColorHsv (markBytes ++ (← bytes [h, s, v, index]))

def buildSetMultipleColorHsvFrame (h s v start «end» mark : Nat) :
    Option (List UInt8) := do
  let markBytes ← toBytes mark 2
  buildFrame tagSetMultipleColorHsv
    (markBytes ++ (← bytes [h, s, v, start, «end»]))

def buildRunFrame : Option (List UInt8) :=
  buildFrame tagRun []

def buildStartFrame (rootAdditionalRepeats : Nat) : Option (List UInt8) := do
  let payload ← toBytes rootAdditionalRepeats 2
  buildFrame tagStart payload

/-- `int.from_bytes(data, "little")`. -/
def fromBytes (data : List UInt8) : Nat :=
  data.foldr (fun byte value => byte.toNat + 256 * value) 0

/-- The slice `data[start:stop]`. -/
def slice (data : List UInt8) (start stop : Nat) : List UInt8 :=
  (data.take stop).drop start

/-- The dictionary that `parse_wire_frame` returns. -/
structure WireFrame where
  tag : Nat
  payload : List UInt8
  checksumOk : Bool
  deriving DecidableEq, Repr

def parseWireFrame (data : List UInt8) : Option WireFrame :=
  if short : data.length < 8 then
    none
  else if data[0] ≠ UInt8.ofNat syncByte then
    none
  else
    let tag := fromBytes (slice data 1 3)
    let length := fromBytes (slice data 3 5)
    let frameSize := 5 + length + 1
    if truncated : data.length < frameSize then
      none
    else
      let payload := slice data 5 (5 + length)
      let receivedCs := data[5 + length]
      let expectedCs :=
        (slice data 1 (5 + length)).foldl (fun cs b => cs ^^^ b) 0
      some
        { tag := tag
          payload := payload
          checksumOk := receivedCs == expectedCs }

end PrismKit.Host
