import PrismKit.Controller.Types
import PrismKit.Protocol.Link

/-!
# The command sink

`ControllerCommandMessage` and the protocol handlers of
`ControllerCommandSink` that decode a payload and send the message to the
mailbox of the application thread.  The mailbox belongs to the platform and is
a parameter.  `DebugLog` texts are left out.
-/

namespace PrismKit

inductive ControllerCommand where
  | setMultipleColor
  | setSingleColor
  | setMultipleColorHsv
  | setSingleColorHsv
  | resetInstructions
  | run
  | setMultipleColorGrouped
  | setSingleColorGrouped
  | setMultipleColorHsvGrouped
  | setSingleColorHsvGrouped
  | runGroup
  | start
  | fade
  | gradient
  deriving DecidableEq, Repr

structure SetMultipleColorPayload where
  mark : Mark
  r : UInt8
  g : UInt8
  b : UInt8
  range : Range
  deriving DecidableEq, Repr

structure SetSingleColorPayload where
  mark : Mark
  r : UInt8
  g : UInt8
  b : UInt8
  index : UInt8
  deriving DecidableEq, Repr

structure SetMultipleColorHsvPayload where
  mark : Mark
  h : UInt8
  s : UInt8
  v : UInt8
  range : Range
  deriving DecidableEq, Repr

structure SetSingleColorHsvPayload where
  mark : Mark
  h : UInt8
  s : UInt8
  v : UInt8
  index : UInt8
  deriving DecidableEq, Repr

structure FadePayload where
  mark : Mark
  percent : UInt16
  durationMs : UInt16
  index : UInt8
  groupId : GroupId
  deriving DecidableEq, Repr

structure GradientPayload where
  mark : Mark
  r : UInt8
  g : UInt8
  b : UInt8
  durationMs : UInt16
  index : UInt8
  groupId : GroupId
  deriving DecidableEq, Repr

structure GroupedSetMultipleColorPayload where
  mark : Mark
  r : UInt8
  g : UInt8
  b : UInt8
  range : Range
  groupId : GroupId
  deriving DecidableEq, Repr

structure GroupedSetSingleColorPayload where
  mark : Mark
  r : UInt8
  g : UInt8
  b : UInt8
  index : UInt8
  groupId : GroupId
  deriving DecidableEq, Repr

structure GroupedSetSingleColorHsvPayload where
  mark : Mark
  h : UInt8
  s : UInt8
  v : UInt8
  index : UInt8
  groupId : GroupId
  deriving DecidableEq, Repr

structure GroupedSetMultipleColorHsvPayload where
  mark : Mark
  h : UInt8
  s : UInt8
  v : UInt8
  range : Range
  groupId : GroupId
  deriving DecidableEq, Repr

structure RunGroupCommandPayload where
  parentGroupId : GroupId
  mark : Mark
  targetGroupId : GroupId
  additionalRepeats : LoopCount
  deriving DecidableEq, Repr

structure StartCommandPayload where
  rootAdditionalRepeats : LoopCount
  deriving DecidableEq, Repr

/-- The member of the union in `ControllerCommandMessage` that was written;
`unset` when none was. -/
inductive CommandPayload where
  | unset
  | setMultiple (payload : SetMultipleColorPayload)
  | setSingle (payload : SetSingleColorPayload)
  | setMultipleHsv (payload : SetMultipleColorHsvPayload)
  | setSingleHsv (payload : SetSingleColorHsvPayload)
  | groupedSetMultiple (payload : GroupedSetMultipleColorPayload)
  | groupedSetSingle (payload : GroupedSetSingleColorPayload)
  | groupedSetMultipleHsv (payload : GroupedSetMultipleColorHsvPayload)
  | groupedSetSingleHsv (payload : GroupedSetSingleColorHsvPayload)
  | runGroup (payload : RunGroupCommandPayload)
  | start (payload : StartCommandPayload)
  | fade (payload : FadePayload)
  | gradient (payload : GradientPayload)
  deriving DecidableEq, Repr

structure ControllerCommandMessage where
  cmd : ControllerCommand
  payload : CommandPayload := .unset
  deriving DecidableEq, Repr

/-! ### Mailbox -/

universe u

/-- The operation of the platform's mailbox that the sink uses, on mailbox
states `σ`; the status of `Send` only selects a diagnostic. -/
structure ControllerCommandMailbox (σ : Type u) where
  send : ControllerCommandMessage → σ → σ

/-- What the platform promises: a mailbox that is not full copies the message
behind those it holds. -/
structure ControllerCommandMailbox.Fifo {σ : Type u}
    (mailbox : ControllerCommandMailbox σ)
    (contents : σ → List ControllerCommandMessage) (capacity : Nat) :
    Prop where
  send :
    ∀ message box, (contents box).length < capacity →
      contents (mailbox.send message box) = contents box ++ [message]

/-- `mailbox_`: the null pointer, or the mailbox behind the pointer. -/
abbrev ControllerCommandSink (σ : Type u) := Option σ

namespace ControllerCommandSink

variable {σ : Type u} (mailbox : ControllerCommandMailbox σ)

/-- `ReadLe16` at an offset. -/
def readLe16 (data : List UInt8) (offset : Nat) : UInt16 :=
  (data.getD offset 0).toUInt16 ||| (data.getD (offset + 1) 0).toUInt16 <<< 8

/-- `ReadLe32` at an offset. -/
def readLe32 (data : List UInt8) (offset : Nat) : UInt32 :=
  (data.getD offset 0).toUInt32 |||
    (data.getD (offset + 1) 0).toUInt32 <<< 8 |||
    (data.getD (offset + 2) 0).toUInt32 <<< 16 |||
    (data.getD (offset + 3) 0).toUInt32 <<< 24

def queueCommand (message : ControllerCommandMessage)
    (self : ControllerCommandSink σ) : ControllerCommandSink σ :=
  match self with
  | none => none
  | some box => some (mailbox.send message box)

/-- `HasExactPayload`; the data of a frame is never the null pointer. -/
def hasExactPayload (data : List UInt8) (expectedLength : Nat) : Bool :=
  data.length = expectedLength

/-- The commands from before groups: without a mailbox or with too short a
payload nothing happens. -/
def handleLegacy (size : Nat)
    (decode : List UInt8 → ControllerCommandMessage) (data : List UInt8)
    (self : ControllerCommandSink σ) : ControllerCommandSink σ :=
  if self.isNone then
    self
  else if data.length < size then
    self
  else
    queueCommand mailbox (decode data) self

/-- The later commands: the payload has to have the exact size. -/
def handleExact (size : Nat)
    (decode : List UInt8 → ControllerCommandMessage) (data : List UInt8)
    (self : ControllerCommandSink σ) : ControllerCommandSink σ :=
  if ¬ hasExactPayload data size then
    self
  else
    queueCommand mailbox (decode data) self

def handleSetMultipleColor :
    List UInt8 → ControllerCommandSink σ → ControllerCommandSink σ :=
  handleLegacy mailbox 7 fun data =>
    { cmd := .setMultipleColor
      payload :=
        .setMultiple
          { mark := readLe16 data 0
            r := data.getD 2 0
            g := data.getD 3 0
            b := data.getD 4 0
            range := ⟨data.getD 5 0, data.getD 6 0⟩ } }

def handleSetSingleColor :
    List UInt8 → ControllerCommandSink σ → ControllerCommandSink σ :=
  handleLegacy mailbox 6 fun data =>
    { cmd := .setSingleColor
      payload :=
        .setSingle
          { mark := readLe16 data 0
            r := data.getD 2 0
            g := data.getD 3 0
            b := data.getD 4 0
            index := data.getD 5 0 } }

def handleSetSingleColorHsv :
    List UInt8 → ControllerCommandSink σ → ControllerCommandSink σ :=
  handleLegacy mailbox 6 fun data =>
    { cmd := .setSingleColorHsv
      payload :=
        .setSingleHsv
          { mark := readLe16 data 0
            h := data.getD 2 0
            s := data.getD 3 0
            v := data.getD 4 0
            index := data.getD 5 0 } }

def handleSetMultipleColorHsv :
    List UInt8 → ControllerCommandSink σ → ControllerCommandSink σ :=
  handleLegacy mailbox 7 fun data =>
    { cmd := .setMultipleColorHsv
      payload :=
        .setMultipleHsv
          { mark := readLe16 data 0
            h := data.getD 2 0
            s := data.getD 3 0
            v := data.getD 4 0
            range := ⟨data.getD 5 0, data.getD 6 0⟩ } }

/-- `HandleResetInstructions`; the payload is ignored. -/
def handleResetInstructions :
    List UInt8 → ControllerCommandSink σ → ControllerCommandSink σ :=
  handleLegacy mailbox 0 fun _ => { cmd := .resetInstructions }

/-- `HandleRun`; the payload is ignored. -/
def handleRun :
    List UInt8 → ControllerCommandSink σ → ControllerCommandSink σ :=
  handleLegacy mailbox 0 fun _ => { cmd := .run }

def handleSetMultipleColorGrouped :
    List UInt8 → ControllerCommandSink σ → ControllerCommandSink σ :=
  handleExact mailbox 11 fun data =>
    { cmd := .setMultipleColorGrouped
      payload :=
        .groupedSetMultiple
          { mark := readLe16 data 0
            r := data.getD 2 0
            g := data.getD 3 0
            b := data.getD 4 0
            range := ⟨data.getD 5 0, data.getD 6 0⟩
            groupId := readLe32 data 7 } }

def handleSetSingleColorGrouped :
    List UInt8 → ControllerCommandSink σ → ControllerCommandSink σ :=
  handleExact mailbox 10 fun data =>
    { cmd := .setSingleColorGrouped
      payload :=
        .groupedSetSingle
          { mark := readLe16 data 0
            r := data.getD 2 0
            g := data.getD 3 0
            b := data.getD 4 0
            index := data.getD 5 0
            groupId := readLe32 data 6 } }

def handleSetSingleColorHsvGrouped :
    List UInt8 → ControllerCommandSink σ → ControllerCommandSink σ :=
  handleExact mailbox 10 fun data =>
    { cmd := .setSingleColorHsvGrouped
      payload :=
        .groupedSetSingleHsv
          { mark := readLe16 data 0
            h := data.getD 2 0
            s := data.getD 3 0
            v := data.getD 4 0
            index := data.getD 5 0
            groupId := readLe32 data 6 } }

def handleSetMultipleColorHsvGrouped :
    List UInt8 → ControllerCommandSink σ → ControllerCommandSink σ :=
  handleExact mailbox 11 fun data =>
    { cmd := .setMultipleColorHsvGrouped
      payload :=
        .groupedSetMultipleHsv
          { mark := readLe16 data 0
            h := data.getD 2 0
            s := data.getD 3 0
            v := data.getD 4 0
            range := ⟨data.getD 5 0, data.getD 6 0⟩
            groupId := readLe32 data 7 } }

def handleRunGroup :
    List UInt8 → ControllerCommandSink σ → ControllerCommandSink σ :=
  handleExact mailbox 12 fun data =>
    { cmd := .runGroup
      payload :=
        .runGroup
          { parentGroupId := readLe32 data 0
            mark := readLe16 data 4
            targetGroupId := readLe32 data 6
            additionalRepeats := readLe16 data 10 } }

def handleStart :
    List UInt8 → ControllerCommandSink σ → ControllerCommandSink σ :=
  handleExact mailbox 2 fun data =>
    { cmd := .start
      payload := .start { rootAdditionalRepeats := readLe16 data 0 } }

def handleFade :
    List UInt8 → ControllerCommandSink σ → ControllerCommandSink σ :=
  handleExact mailbox 11 fun data =>
    { cmd := .fade
      payload :=
        .fade
          { mark := readLe16 data 0
            percent := readLe16 data 2
            durationMs := readLe16 data 4
            index := data.getD 6 0
            groupId := readLe32 data 7 } }

def handleGradient :
    List UInt8 → ControllerCommandSink σ → ControllerCommandSink σ :=
  handleExact mailbox 12 fun data =>
    { cmd := .gradient
      payload :=
        .gradient
          { mark := readLe16 data 0
            r := data.getD 2 0
            g := data.getD 3 0
            b := data.getD 4 0
            durationMs := readLe16 data 5
            index := data.getD 7 0
            groupId := readLe32 data 8 } }

/-- The handlers with their tags, in the order of `Register`. -/
def handlers :
    List
      (Tag × (List UInt8 → ControllerCommandSink σ →
        ControllerCommandSink σ)) :=
  [(0x0100, handleSetMultipleColor mailbox),
    (0x0101, handleSetSingleColor mailbox),
    (0x0102, handleResetInstructions mailbox),
    (0x0103, handleRun mailbox),
    (0x0105, handleSetSingleColorHsv mailbox),
    (0x0106, handleSetMultipleColorHsv mailbox),
    (0x0107, handleSetMultipleColorGrouped mailbox),
    (0x0108, handleSetSingleColorGrouped mailbox),
    (0x0109, handleSetSingleColorHsvGrouped mailbox),
    (0x010A, handleSetMultipleColorHsvGrouped mailbox),
    (0x010B, handleRunGroup mailbox),
    (0x010C, handleStart mailbox),
    (0x010D, handleFade mailbox),
    (0x010E, handleGradient mailbox)]

/-- The entries that `Register` adds; positions stand for function pointers. -/
def entries : List HandlerEntry :=
  (handlers mailbox).zipIdx.map fun handler =>
    ⟨handler.1.1, .external handler.2⟩

/-- `AddHandler` for one entry after the other, up to the first refusal. -/
def registerAll : List HandlerEntry → Protocol → Protocol × Bool
  | [], protocol => (protocol, true)
  | entry :: rest, protocol =>
      if (protocol.addHandler entry.tag (some entry.handler)).2 then
        registerAll rest
          (protocol.addHandler entry.tag (some entry.handler)).1
      else
        ((protocol.addHandler entry.tag (some entry.handler)).1, false)

def register (protocol : Protocol) : Protocol × Bool :=
  registerAll (entries mailbox) protocol

def receive (self : ControllerCommandSink σ) (invocation : Invocation) :
    ControllerCommandSink σ :=
  match invocation.handler with
  | .loopback => self
  | .external id =>
      match (handlers mailbox)[id]? with
      | none => self
      | some (_, handler) => handler invocation.data self

end ControllerCommandSink

end PrismKit
