import PrismKit.Protocol.Frame
import PrismKit.Library.InsertionSort
import Mathlib.Algebra.Ring.Nat

/-!
# The protocol engine

The data members and functions of `protocol::Protocol`, and around an instance
the calls it makes to the outside.  Diagnostics (`DebugLog`, `DebugVerbose`) do
not influence the engine and are left out.

The callbacks are an `Environment`: what the write callback answers, what the
clock shows, and which calls of the public interface a handler makes.  Answers
depend on how many calls came before, so every course of events is covered by
some environment.  The results of the read callback are given to each `Run`.
-/

namespace PrismKit

open Library

/-- Maximum number of registered frame handlers, including loopback. -/
def maxHandlers : Nat := 15

/-- `Protocol::State`. -/
inductive ParserState where
  | waitingForSync
  | readingHeader
  | readingData
  | readingChecksum
  deriving DecidableEq, Repr

/-- A non-null `FrameHandler`: the built-in one, or one of the application. -/
inductive FrameHandler where
  | loopback
  | external (id : Nat)
  deriving DecidableEq, Repr

/-- `HandlerEntry`; the context is always the instance itself. -/
structure HandlerEntry where
  tag : Tag
  handler : FrameHandler
  deriving DecidableEq, Repr

/-- The data members of `Protocol`.  `read`, `write` and `timestamp` tell
whether the callback is set, `handlers` is the used part of its table, and
`txData` is the pending payload (`tx_length_` bytes of the transmit buffer)
while `tx_data_` is not null. -/
structure Protocol where
  read : Bool := true
  write : Bool := true
  timestamp : Bool := false
  frameTimeout : UInt32 := 0
  handlers : List HandlerEntry := [⟨Tag.loopback, .loopback⟩]
  readahead : Nat → UInt8 := fun _ => 0
  readaheadIdx : Nat := 0
  readaheadCnt : Nat := 0
  state : ParserState := .waitingForSync
  frameStartTs : UInt32 := 0
  rxBuffer : Nat → UInt8 := fun _ => 0
  rxIndex : Nat := 0
  rxDataLength : UInt16 := 0
  rxTag : Tag := 0
  txData : Option (List UInt8) := none
  txTag : Tag := 0

/-- `ProtocolConfig`: which callbacks are set, and the frame timeout. -/
structure ProtocolConfig where
  read : Bool := true
  write : Bool := true
  timestamp : Bool := false
  frameTimeout : UInt32 := 0

namespace Protocol

/-- `Protocol::Protocol`. -/
def create (config : ProtocolConfig) : Protocol :=
  { read := config.read
    write := config.write
    timestamp := config.timestamp
    frameTimeout := config.frameTimeout }

def addHandler (tag : Tag) (handler : Option FrameHandler)
    (protocol : Protocol) : Protocol × Bool :=
  match handler with
  | none => (protocol, false)
  | some handler =>
      if protocol.handlers.length ≥ maxHandlers then
        (protocol, false)
      else if protocol.handlers.any fun entry => entry.tag = tag then
        (protocol, false)
      else
        ({ protocol with handlers := protocol.handlers ++ [⟨tag, handler⟩] },
          true)

def send (frame : Frame) (protocol : Protocol) : Protocol × Bool :=
  if ¬ frame.isValid then
    (protocol, false)
  else if protocol.txData ≠ none then
    (protocol, false)
  else
    ({ protocol with txTag := frame.tag, txData := some frame.payload }, true)

def resetParser (protocol : Protocol) : Protocol :=
  { protocol with
    state := .waitingForSync
    rxIndex := 0
    rxDataLength := 0
    rxTag := 0
    frameStartTs := 0 }

/-- The payload that `DispatchFrame` hands to a handler. -/
def rxPayload (protocol : Protocol) : List UInt8 :=
  view protocol.rxBuffer headerSize protocol.rxDataLength.toNat

def rxChecksum (protocol : Protocol) : UInt8 :=
  computeChecksum (view protocol.rxBuffer 0 headerSize) protocol.rxPayload

def loopbackImpl (data : List UInt8) (protocol : Protocol) : Protocol :=
  if protocol.txData ≠ none then
    protocol
  else
    { protocol with txTag := Tag.loopback, txData := some data }

end Protocol

/-- A handler was called with a payload. -/
structure Invocation where
  handler : FrameHandler
  data : List UInt8
  deriving DecidableEq, Repr

/-- A call that a handler makes back into the instance. -/
inductive Request where
  | send (frame : Frame)
  | addHandler (tag : Tag) (handler : Option FrameHandler)

/-- The callbacks of an instance.  `accepts` answers the write calls, `clock`
the timestamp calls, both by their number; `respond` lists the calls a handler
makes after it was invoked as the last of the given invocations. -/
structure Environment where
  accepts : Nat → Bool := fun _ => true
  clock : Nat → UInt32 := fun _ => 0
  respond : List Invocation → List Request := fun _ => []

/-- What the read callback did: the bytes it stored from the start of the
buffer on, and the number it returned. -/
structure ReadResult where
  data : List UInt8
  count : Nat
  deriving DecidableEq, Repr

/-- `DispatchFrame` ran for a tag and a payload while `table` was the handler
table. -/
structure Dispatch where
  tag : Tag
  payload : List UInt8
  table : List HandlerEntry
  deriving DecidableEq, Repr

/-- An instance with the calls it has made: the chunks given to the write
callback with its answers, the timestamp calls, and the handler invocations.
`dispatches` is a ghost field that records the runs of `DispatchFrame`. -/
structure Link extends Protocol where
  chunks : List (List UInt8 × Bool) := []
  clockReads : Nat := 0
  invocations : List Invocation := []
  dispatches : List Dispatch := []

namespace Link

/-- A fresh instance. -/
def create (config : ProtocolConfig) : Link :=
  { toProtocol := Protocol.create config }

/-- One call of the write callback. -/
def writeChunk (environment : Environment) (chunk : List UInt8) (link : Link) :
    Link × Bool :=
  let accepted := environment.accepts link.chunks.length
  ({ link with chunks := link.chunks ++ [(chunk, accepted)] }, accepted)

/-- Capacity of the local chunk of `WriteFrameWire`. -/
def chunkSize : Nat := 64

/-- The lambda `flush` of `WriteFrameWire`; it leaves the chunk empty. -/
def flush (environment : Environment) (chunk : List UInt8) (link : Link) :
    Link × Bool :=
  if chunk.length = 0 then (link, true) else link.writeChunk environment chunk

/-- The lambda `emit` of `WriteFrameWire`, for one byte after the other; the
second component is the chunk afterwards, or `none` when an `emit` returned
`false`. -/
def emit (environment : Environment) :
    List UInt8 → List UInt8 → Link → Link × Option (List UInt8)
  | [], chunk, link => (link, some chunk)
  | byte :: bytes, chunk, link =>
      if chunk.length + 1 > chunkSize then
        let (flushed, ok) := link.flush environment chunk
        if ok then emit environment bytes [byte] flushed else (flushed, none)
      else
        emit environment bytes (chunk ++ [byte]) link

/-- `WriteFrameWire`: sync byte, header, data and checksum. -/
def writeFrameWire (environment : Environment) (header data : List UInt8)
    (link : Link) : Link × Bool :=
  if ¬ link.write then
    (link, false)
  else
    match
        emit environment
          ([syncByte] ++ header ++ data ++ [computeChecksum header data]) []
          link with
    | (failed, none) => (failed, false)
    | (emitted, some chunk) => emitted.flush environment chunk

/-- The header bytes that `TxPhase` assembles. -/
def txHeader (tag : Tag) (length : UInt16) : List UInt8 :=
  [(tag &&& 0xFF).toUInt8, ((tag >>> 8) &&& 0xFF).toUInt8,
    (length &&& 0xFF).toUInt8, ((length >>> 8) &&& 0xFF).toUInt8]

def txPhase (environment : Environment) (link : Link) : Link :=
  match link.txData with
  | none => link
  | some data =>
      let (written, ok) :=
        link.writeFrameWire environment
          (txHeader link.txTag (UInt16.ofNat data.length)) data
      if ok then { written with txData := none } else written

/-- One call of a handler back into the instance. -/
def perform (link : Link) : Request → Link
  | .send frame => { link with toProtocol := (link.send frame).1 }
  | .addHandler tag handler =>
      { link with toProtocol := (link.addHandler tag handler).1 }

def invoke (environment : Environment) (handler : FrameHandler)
    (data : List UInt8) (link : Link) : Link :=
  let called : Link :=
    { link with invocations := link.invocations ++ [⟨handler, data⟩] }
  match handler with
  | .loopback => { called with toProtocol := called.loopbackImpl data }
  | .external _ => (environment.respond called.invocations).foldl perform called

def dispatchFrame (environment : Environment) (link : Link) : Link :=
  let recorded : Link :=
    { link with
      dispatches :=
        link.dispatches ++ [⟨link.rxTag, link.rxPayload, link.handlers⟩] }
  match link.handlers.find? fun entry => entry.tag = link.rxTag with
  | some entry => recorded.invoke environment entry.handler link.rxPayload
  | none => recorded

/-! ### Reception -/

/-- One call of the timestamp callback. -/
def readClock (environment : Environment) (link : Link) : Link × UInt32 :=
  ({ link with clockReads := link.clockReads + 1 },
    environment.clock link.clockReads)

/-- The `switch` of `Run` for one raw byte. -/
def consumeByte (environment : Environment) (raw : UInt8) (link : Link) :
    Link :=
  match link.state with
  | .waitingForSync =>
      if raw = syncByte then
        let reset : Link := { link with toProtocol := link.resetParser }
        let (stamped, start) :=
          if reset.timestamp then
            reset.readClock environment
          else
            (reset, reset.frameStartTs)
        { stamped with frameStartTs := start, state := .readingHeader }
      else
        link
  | .readingHeader =>
      let stored : Link :=
        { link with
          rxBuffer := Function.update link.rxBuffer link.rxIndex raw
          rxIndex := link.rxIndex + 1 }
      if stored.rxIndex ≥ headerSize then
        let header := Frame.parseHeader stored.rxBuffer
        if header.length.toNat > maxFrameDataLength then
          { stored with toProtocol := stored.resetParser }
        else
          { stored with
            rxTag := header.tag
            rxDataLength := header.length
            rxIndex := 0
            state :=
              if header.length = 0 then .readingChecksum else .readingData }
      else
        stored
  | .readingData =>
      let stored : Link :=
        { link with
          rxBuffer :=
            Function.update link.rxBuffer (headerSize + link.rxIndex) raw
          rxIndex := link.rxIndex + 1 }
      if stored.rxIndex ≥ stored.rxDataLength.toNat then
        { stored with state := .readingChecksum }
      else
        stored
  | .readingChecksum =>
      if raw = link.rxChecksum then
        let dispatched := link.dispatchFrame environment
        { dispatched with toProtocol := dispatched.resetParser }
      else
        { link with toProtocol := link.resetParser }

/-- Size of the read-ahead buffer. -/
def readaheadSize : Nat := 16

/-- The read-ahead buffer after the read callback has written to it. -/
def refilled (readahead : Nat → UInt8) (data : List UInt8) (index : Nat) :
    UInt8 :=
  if index < readaheadSize then data.getD index (readahead index)
  else readahead index

/-- `ReadRawByte`: the byte, if any, and the read results that are left. -/
def readRawByte (reads : List ReadResult) (link : Link) :
    Option UInt8 × Link × List ReadResult :=
  if link.readaheadIdx < link.readaheadCnt then
    (some (link.readahead link.readaheadIdx),
      { link with readaheadIdx := link.readaheadIdx + 1 }, reads)
  else if link.read then
    match reads with
    | [] => (none, { link with readaheadCnt := 0 }, [])
    | result :: rest =>
        let filled : Link :=
          { link with
            readahead := refilled link.readahead result.data
            readaheadCnt :=
              if result.count > readaheadSize then readaheadSize
              else result.count }
        if filled.readaheadCnt > 0 then
          (some (filled.readahead 0), { filled with readaheadIdx := 1 }, rest)
        else
          (none, filled, rest)
  else
    (none, link, reads)

/-- The receive loop of `Run`.  Every iteration takes a byte from the cache or
one read result, so their number is enough fuel. -/
def receive (environment : Environment) :
    Nat → List ReadResult → Link → Link
  | 0, _, link => link
  | fuel + 1, reads, link =>
      match link.readRawByte reads with
      | (some raw, filled, rest) =>
          receive environment fuel rest (filled.consumeByte environment raw)
      | (none, filled, _) => filled

/-- The number of iterations the receive loop can make. -/
def available (reads : List ReadResult) (link : Link) : Nat :=
  link.readaheadCnt - link.readaheadIdx +
    (reads.map fun result => result.count + 1).sum + 1

/-- The frame timeout check of `Run`. -/
def checkTimeout (environment : Environment) (link : Link) : Link :=
  if link.frameTimeout > 0 ∧ link.timestamp ∧ link.state ≠ .waitingForSync then
    let (read, now) := link.readClock environment
    if now - read.frameStartTs > read.frameTimeout then
      { read with toProtocol := read.resetParser }
    else
      read
  else
    link

/-- `Run`, with the results of the successive calls of the read callback; a
call beyond them returns zero. -/
def run (environment : Environment) (reads : List ReadResult) (link : Link) :
    Link :=
  let checked := (link.txPhase environment).checkTimeout environment
  (receive environment (checked.available reads) reads checked).txPhase
    environment

end Link

/-- A call of the public interface. -/
inductive LinkCall where
  | send (frame : Frame)
  | addHandler (tag : Tag) (handler : Option FrameHandler)
  | run (reads : List ReadResult)

/-- Carry out one call. -/
def Link.call (environment : Environment) (link : Link) : LinkCall → Link
  | .send frame => link.perform (.send frame)
  | .addHandler tag handler => link.perform (.addHandler tag handler)
  | .run reads => link.run environment reads

/-- Carry out calls one after the other. -/
def Link.session (environment : Environment) (calls : List LinkCall)
    (link : Link) : Link :=
  calls.foldl (Link.call environment) link

end PrismKit
