import PrismKit.Commands.Agreement
import PrismKit.Firmware.StripManager
import PrismKit.Timeline.Session

/-!
# The two tasks of the firmware

`AppTask` of `blink_app.cpp` and `HwTask` of `hw_task.cpp`, from the moment at
which the hardware task has configured its managers and waits for events.  A
task moves from one access of shared state to the next; everything between two
accesses is private to it, so that every interleaving of the threads is an
interleaving of these moves.

The mailboxes, the event bits, the one-shot timer, the serial port and the strip
driver belong to the platform.  The mailboxes, the timer and the driver are
parameters; the serial port may deliver at any time, and an armed timer may
expire at any moment.
-/

namespace PrismKit

open Library

universe u v w x

/-- The data members of `StatusLed`. -/
structure StatusLed where
  blinkHalfPeriodTicks : Nat
  blinkTick : Nat
  deriving DecidableEq, Repr

namespace StatusLed

def blinkHalfPeriodMs : Nat := 1000

def taskIdleSleepMs : Nat := 10

def configure (idleSleepMs : Nat) : StatusLed :=
  ⟨blinkHalfPeriodMs / idleSleepMs, 0⟩

/-- `Blink`; the second component says whether the LED is toggled. -/
def blink (led : StatusLed) : StatusLed × Bool :=
  if led.blinkTick + 1 < led.blinkHalfPeriodTicks then
    ({ led with blinkTick := led.blinkTick + 1 }, false)
  else
    ({ led with blinkTick := 0 }, true)

end StatusLed

def rainbowColors : List RgbColor :=
  [⟨255, 0, 0⟩, ⟨255, 40, 0⟩, ⟨180, 60, 0⟩, ⟨0, 80, 0⟩, ⟨0, 0, 255⟩,
    ⟨40, 0, 160⟩, ⟨140, 0, 255⟩]

/-- The instructions that `AppTask::Setup` adds for a strip of some length. -/
def defaultProgram (ledCount : UInt8) : List ControllerInstruction :=
  let count := if ledCount.toNat < rainbowColors.length then ledCount.toNat
    else rainbowColors.length
  (rainbowColors.take count).zipIdx.map fun (color, index) =>
    SetSingleColorPayload.instruction
      ⟨0, color.red, color.green, color.blue, UInt8.ofNat index⟩

def startMessage : ControllerCommandMessage :=
  { cmd := .start, payload := .start { rootAdditionalRepeats := 0 } }

/-- What the application task does with its controller between two waits:
binding it, the default program, one command, one progress tick.  The numbers
are the readings of the millisecond clock in `Start` and in `Run`. -/
inductive Call where
  | bind
  | begin (startTime runTime : Nat)
  | command (message : ControllerCommandMessage) (startTime runTime : Nat)
  | tick (now : Nat)

namespace Call

/-- `SetStrip`, `SetTimestampCallback` and `SetScheduleCallback` of
`AppTask::Setup`; the strip manager is strip zero. -/
def bound (machine : Machine) : Machine :=
  { machine with
    strip := some 0
    timestampCallback := true
    scheduleCallback := true }

/-- The loop of `AppTask::Setup` that adds the default program. -/
def loaded (machine : Machine) : Machine :=
  (defaultProgram (UInt8.ofNat (machine.strips 0).ledCount)).foldl
    (fun current instr => (current.addInstruction (some instr)).1) machine

/-- Carry out a call, with a bound on the iterations of `Run`. -/
def perform (fuel : Nat) (machine : Machine) : Call → Option Machine
  | bind => some (bound machine)
  | begin startTime runTime =>
      (dispatchControllerCommand fuel startTime runTime (loaded machine)
        startMessage).map Prod.fst
  | command message startTime runTime =>
      (dispatchControllerCommand fuel startTime runTime machine message).map
        Prod.fst
  | tick now => (machine.run fuel now).map Prod.fst

def message : Call → Option ControllerCommandMessage
  | command message _ _ => some message
  | _ => none

/-- The call reads the clock between the two instants. -/
def Within (first last : Nat) : Call → Prop
  | bind => first ≤ last
  | begin startTime runTime | command _ startTime runTime =>
      first ≤ startTime ∧ startTime ≤ runTime ∧ runTime ≤ last
  | tick now => first ≤ now ∧ now ≤ last

instance (first last : Nat) (call : Call) : Decidable (call.Within first last) :=
  match call with
  | bind => inferInstanceAs (Decidable (_ ≤ _))
  | begin _ _ | command _ _ _ => inferInstanceAs (Decidable (_ ∧ _ ∧ _))
  | tick _ => inferInstanceAs (Decidable (_ ∧ _))

end Call

/-- Where the application task stands.  In `draining` and `dispatching` the
flag tells whether the events of the last wait included the timeout. -/
inductive AppPoint where
  | setup
  | bound
  | waiting
  | draining (timeout : Bool)
  | dispatching (message : ControllerCommandMessage) (timeout : Bool)
  | ticking
  deriving DecidableEq

/-- Where the hardware task stands.  In `delivering`, the handlers of the frames
that arrived are called, and the flag tells whether the events of the last wait
included a committed frame. -/
inductive HwPoint where
  | waiting
  | delivering (rest : List Invocation) (frame : Bool)
  | draining
  | applying (frame : SharedFrame)
  | blinking
  | exited
  deriving DecidableEq

/-- The operations of a one-shot `TimedEvent` on states `τ`.  `due` observes the
instant for which it is armed, and `posted` its event bit.  It is started at an
instant for some delay; `expire` is what the platform does with an armed one,
and `consume` what a wait does that returns with the bit. -/
structure TimedEvent (τ : Type x) where
  due : τ → Option Nat
  posted : τ → Bool
  start : Nat → UInt32 → τ → τ
  expire : τ → τ
  consume : τ → τ

/-- What it promises: starting it replaces what it was armed for, expiry posts
the bit, and a wait clears nothing else. -/
structure TimedEvent.Lawful {τ : Type x} (timer : TimedEvent τ) : Prop where
  start :
    ∀ now delay state,
      timer.due (timer.start now delay state) = some (now + delay.toNat) ∧
        timer.posted (timer.start now delay state) = timer.posted state
  expire : ∀ state, timer.posted (timer.expire state) = true
  consume :
    ∀ state,
      timer.due (timer.consume state) = timer.due state ∧
        timer.posted (timer.consume state) = false

/-- The parts that the platform provides; `accepts` answers the write calls of
the serial port. -/
structure Platform (σ : Type u) (φ : Type v) (β : Type w) (τ : Type x) where
  commandBox : Mailbox σ ControllerCommandMessage
  frameBox : Mailbox φ SharedFrame
  driver : Ws2812Strip β
  timer : TimedEvent τ
  accepts : Nat → Bool

/-- The state of both tasks and of what they share.  The last three fields are
ghosts: the calls of the controller, the bytes that the serial port delivered,
and the frames that the strip shows or has shown. -/
structure Firmware (σ : Type u) (φ : Type v) (β : Type w) (τ : Type x) where
  clock : Nat := 0
  machine : Machine
  strip : StripManager φ
  commands : Channel σ ControllerCommandMessage
  wired : Bool := false
  timer : τ
  app : AppPoint := .setup
  link : Link
  hw : HwPoint := .waiting
  statusLed : StatusLed := .configure StatusLed.taskIdleSleepMs
  driver : β
  calls : List Call := []
  bytes : List UInt8 := []
  applied : List SharedFrame := []

namespace Firmware

variable {σ : Type u} {φ : Type v} {β : Type w} {τ : Type x}

def emit (box : Mailbox φ SharedFrame) (manager : StripManager φ) :
    Output → StripManager φ
  | .setColor write =>
      if write.strip = 0 then
        (manager.setLedColor write.index write.color).1
      else
        manager
  | .show strip => if strip = 0 then (manager.show box).1 else manager
  | .schedule _ => manager

/-- `OnScheduleNextRun`: the timer is started anew. -/
def rearm (timer : TimedEvent τ) (now : Nat) (state : τ) : Output → τ
  | .schedule delay => timer.start now delay state
  | _ => state

/-- Carry out a call that ends at `finish`, and go on at `next`. -/
def execute (platform : Platform σ φ β τ) (fuel finish : Nat) (call : Call)
    (next : AppPoint) (firmware : Firmware σ φ β τ) :
    Option (Firmware σ φ β τ) :=
  if call.Within firmware.clock finish then
    (call.perform fuel firmware.machine).map fun after =>
      let outputs := after.outputs.drop firmware.machine.outputs.length
      { firmware with
        clock := finish
        machine := after
        strip := outputs.foldl (emit platform.frameBox) firmware.strip
        timer := outputs.foldl (rearm platform.timer finish) firmware.timer
        app := next
        calls := firmware.calls ++ [call] }
  else
    none

/-! ### The moves -/

/-- A move of a task or of the platform.  Where the controller is called,
`finish` is the instant at which the call ends. -/
inductive Action where
  | elapse (now : Nat)
  | expire
  | bind (finish : Nat)
  | begin (fuel startTime runTime finish : Nat)
  | wake
  | receive
  | dispatch (fuel startTime runTime finish : Nat)
  | tick (fuel now finish : Nat)
  | listen (arrived : Option (List Chunk))
  | deliver
  | collect
  | apply
  | blink (toggled : Bool)

/-- After `UpdateInstructions`. -/
def drained (timeout : Bool) : AppPoint :=
  if timeout then .ticking else .waiting

/-- The environment of the protocol engine: command handlers call nothing back,
and `CommandManager` registers no clock. -/
def environment (platform : Platform σ φ β τ) : Environment :=
  { accepts := platform.accepts }

/-- The mailbox behind the sink, as far as the sink uses it. -/
def sinkMailbox (platform : Platform σ φ β τ) :
    ControllerCommandMailbox (Channel σ ControllerCommandMessage) where
  send := fun message channel => (channel.send platform.commandBox message).1

/-- The commands after a handler was called; without `SetMailbox` the pointer of
the sink is null. -/
def handled (platform : Platform σ φ β τ) (invocation : Invocation)
    (firmware : Firmware σ φ β τ) : Channel σ ControllerCommandMessage :=
  let sink := if firmware.wired then some firmware.commands else none
  (ControllerCommandSink.receive (sinkMailbox platform) sink invocation).getD
    firmware.commands

/-- The bytes that arrive with the reads of one `Protocol::Run`. -/
def arrivedBytes (arrived : Option (List Chunk)) : List UInt8 :=
  (arrived.getD []).flatMap Chunk.bytes

/-- One move, if it is possible. -/
def step (platform : Platform σ φ β τ) (firmware : Firmware σ φ β τ) :
    Action → Option (Firmware σ φ β τ)
  | .elapse now =>
      if firmware.clock ≤ now then some { firmware with clock := now }
      else none
  | .expire =>
      -- The instant is not compared with the clock.  So a timer that expires
      -- during a call, before the call starts it anew, expires before the call,
      -- whatever the clock shows in it.
      match platform.timer.due firmware.timer with
      | none => none
      | some _ =>
          some { firmware with timer := platform.timer.expire firmware.timer }
  | .bind finish =>
      match firmware.app with
      | .setup =>
          (execute platform 0 finish .bind .bound firmware).map fun bound =>
            { bound with wired := true }
      | _ => none
  | .begin fuel startTime runTime finish =>
      match firmware.app with
      | .bound =>
          execute platform fuel finish (.begin startTime runTime) .waiting
            firmware
      | _ => none
  | .wake =>
      match firmware.app with
      | .waiting =>
          -- `WaitAny` returns the posted bits and clears them.
          if platform.commandBox.posted firmware.commands.state then
            some
              { firmware with
                commands := firmware.commands.wake platform.commandBox
                timer := platform.timer.consume firmware.timer
                app := .draining (platform.timer.posted firmware.timer) }
          else if platform.timer.posted firmware.timer then
            some
              { firmware with
                timer := platform.timer.consume firmware.timer
                app := .ticking }
          else
            none
      | _ => none
  | .receive =>
      match firmware.app with
      | .draining timeout =>
          match firmware.commands.receive platform.commandBox with
          | (rest, some message) =>
              some
                { firmware with
                  commands := rest
                  app := .dispatching message timeout }
          | (rest, none) =>
              some { firmware with commands := rest, app := drained timeout }
      | _ => none
  | .dispatch fuel startTime runTime finish =>
      match firmware.app with
      | .dispatching message timeout =>
          execute platform fuel finish (.command message startTime runTime)
            (.draining timeout) firmware
      | _ => none
  | .tick fuel now finish =>
      match firmware.app with
      | .ticking => execute platform fuel finish (.tick now) .waiting firmware
      | _ => none
  | .listen arrived =>
      match firmware.hw with
      | .waiting =>
          let link :=
            match arrived with
            | none => firmware.link
            | some chunks =>
                firmware.link.run (environment platform)
                  (chunks.map Chunk.result)
          let called :=
            link.invocations.drop firmware.link.invocations.length
          let frame :=
            platform.frameBox.posted firmware.strip.mailbox.state
          some
            { firmware with
              link := link
              bytes := firmware.bytes ++ arrivedBytes arrived
              strip :=
                if frame then
                  { firmware.strip with
                    mailbox :=
                      firmware.strip.mailbox.wake platform.frameBox }
                else
                  firmware.strip
              hw := .delivering called frame }
      | _ => none
  | .deliver =>
      match firmware.hw with
      | .delivering (invocation :: rest) frame =>
          some
            { firmware with
              commands := firmware.handled platform invocation
              hw := .delivering rest frame }
      | .delivering [] frame =>
          some { firmware with hw := if frame then .draining else .blinking }
      | _ => none
  | .collect =>
      match firmware.hw with
      | .draining =>
          match firmware.strip.mailbox.receive platform.frameBox with
          | (rest, some frame) =>
              some
                { firmware with
                  strip := { firmware.strip with mailbox := rest }
                  hw := .applying frame }
          | (rest, none) =>
              some
                { firmware with
                  strip := { firmware.strip with mailbox := rest }
                  hw := .blinking }
      | _ => none
  | .apply =>
      match firmware.hw with
      | .applying frame =>
          match applyFrame platform.driver frame firmware.driver with
          | (driver, .ok) =>
              some
                { firmware with
                  driver := driver
                  applied := firmware.applied ++ [frame]
                  hw := .draining }
          | (driver, _) =>
              some { firmware with driver := driver, hw := .exited }
      | _ => none
  | .blink toggled =>
      match firmware.hw with
      | .blinking =>
          let (led, toggles) := firmware.statusLed.blink
          some
            { firmware with
              statusLed := led
              hw := if toggles && !toggled then .exited else .waiting }
      | _ => none

/-- `HwTask::Setup` has finished and `AppTask::Setup` has not gone on past the
start of the hardware task, an order that is assumed of the platform.  The
managers are configured and the command handlers registered, and nothing has
passed through the mailboxes. -/
structure Initial (contents : σ → List ControllerCommandMessage)
    (frames : φ → List SharedFrame) (platform : Platform σ φ β τ)
    (firmware : Firmware σ φ β τ) : Prop where
  calls : firmware.calls = []
  machine : firmware.machine = Machine.fresh firmware.machine.strips
  stages : firmware.strip.Stages (firmware.machine.strips 0)
  ready : firmware.strip.ready = true
  commands :
    contents firmware.commands.state = [] ∧ firmware.commands.accepted = [] ∧
      firmware.commands.received = [] ∧ firmware.commands.draining = false
  frames :
    frames firmware.strip.mailbox.state = [] ∧
      firmware.strip.mailbox.accepted = [] ∧
      firmware.strip.mailbox.received = [] ∧
      firmware.strip.mailbox.draining = false
  wired : firmware.wired = false
  timer :
    platform.timer.due firmware.timer = none ∧
      platform.timer.posted firmware.timer = false
  app : firmware.app = .setup
  hw : firmware.hw = .waiting
  link : firmware.link = commandLink (sinkMailbox platform) {}
  bytes : firmware.bytes = []
  applied : firmware.applied = []

/-- The states that the firmware can get into by the moves of its tasks, in any
order. -/
inductive Runs (platform : Platform σ φ β τ) (start : Firmware σ φ β τ) :
    Firmware σ φ β τ → Prop
  | start : Runs platform start start
  | step {before after : Firmware σ φ β τ} (action : Action)
      (earlier : Runs platform start before)
      (moves : before.step platform action = some after) :
      Runs platform start after

end Firmware

end PrismKit
