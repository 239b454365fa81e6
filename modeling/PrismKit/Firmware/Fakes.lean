import PrismKit.Firmware.Interleaving
import PrismKit.Library.RingBuffer

/-!
# The fake platform

The fakes of the tests: mailboxes that are rings in fixed arrays, with their bit
in an event group, and a strip whose pixels are all ready.  The timer is the
instant for which it is armed.  They keep what the firmware relies on.
-/

namespace PrismKit

open Library

structure FakeStrip where
  ledCount : Nat
  staged : Nat → RgbColor := fun _ => ⟨0, 0, 0⟩
  displayed : Nat → RgbColor := fun _ => ⟨0, 0, 0⟩

def FakeStrip.driver : Ws2812Strip FakeStrip where
  ledCount := ledCount
  pixelReady := fun _ _ => true
  setColor := fun index color strip =>
    ({ strip with staged := Function.update strip.staged index color }, .ok)
  «show» := fun strip => ({ strip with displayed := strip.staged }, .ok)

theorem FakeStrip.driver_lawful : driver.Lawful staged displayed where
  setColor_ok := fun _ _ _ _ => rfl
  show_ok := fun _ _ => rfl

/-- `FakeMailbox` behind an `EventMailbox`, for some messages and with some
capacity. -/
abbrev FakeMailbox (μ : Type) (capacity : Nat) := Ring μ capacity × Bool

/-- The instant for which a timer is armed, and its bit. -/
abbrev FakeTimer := Option Nat × Bool

def FakeTimer.timer : TimedEvent FakeTimer where
  due := Prod.fst
  posted := Prod.snd
  start := fun now delay state => (some (now + delay.toNat), state.2)
  expire := fun _ => (none, true)
  consume := fun state => (state.1, false)

theorem FakeTimer.timer_lawful : timer.Lawful where
  start := fun _ _ _ => ⟨rfl, rfl⟩
  expire := fun _ => rfl
  consume := fun _ => ⟨rfl, rfl⟩

/-- Command and frame mailboxes of the capacities that the firmware gives
them. -/
def fakePlatform :
    Platform (FakeMailbox ControllerCommandMessage 32)
      (FakeMailbox SharedFrame 1) FakeStrip FakeTimer where
  commandBox := Ring.mailbox
  frameBox := Ring.mailbox
  driver := FakeStrip.driver
  timer := FakeTimer.timer
  accepts := fun _ => true

theorem fakePlatform_lawful :
    fakePlatform.Lawful (fun box => box.1.contents)
      (fun box => box.1.contents) where
  commandBox := Ring.mailbox_lawful
  frameBox := Ring.mailbox_lawful
  timer := FakeTimer.timer_lawful

abbrev FakeFirmware :=
  Firmware (FakeMailbox ControllerCommandMessage 32)
    (FakeMailbox SharedFrame 1) FakeStrip FakeTimer

/-- The firmware before the first move, for a black strip of some length. -/
def fakeStart (ledCount : Nat) (fits : ledCount ≤ sharedFrameCapacity) :
    FakeFirmware where
  machine := Machine.fresh fun _ => ⟨ledCount, true, fun _ => ⟨0, 0, 0⟩⟩
  strip :=
    StripManager.configure ledCount fits
      { mailbox := { state := (Ring.empty {} (by decide), false) } }
  commands :=
    { state := (Ring.empty { cmd := .run } (by decide), false) }
  timer := (none, false)
  link := commandLink (Firmware.sinkMailbox fakePlatform) {}
  driver := { ledCount := ledCount }

theorem fakeStart_initial (ledCount : Nat)
    (fits : ledCount ≤ sharedFrameCapacity) :
    Firmware.Initial (fun box => box.1.contents) (fun box => box.1.contents)
      fakePlatform (fakeStart ledCount fits) where
  calls := rfl
  machine := rfl
  stages := by
    refine ⟨rfl, rfl, ?_⟩
    intro index below
    unfold SharedFrame.color
    split <;> rfl
  ready := rfl
  commands := ⟨rfl, rfl, rfl, rfl⟩
  frames := ⟨rfl, rfl, rfl, rfl⟩
  wired := rfl
  timer := ⟨rfl, rfl⟩
  app := rfl
  hw := rfl
  link := rfl
  bytes := rfl
  applied := rfl

/-- The result of some moves, if all of them are possible. -/
def Firmware.course {σ φ β τ : Type} (platform : Platform σ φ β τ) :
    List Firmware.Action → Firmware σ φ β τ → Option (Firmware σ φ β τ)
  | [], firmware => some firmware
  | action :: rest, firmware =>
      (firmware.step platform action).bind (course platform rest)

theorem Firmware.Runs.course {σ φ β τ : Type} {platform : Platform σ φ β τ}
    {start middle firmware : Firmware σ φ β τ} {actions : List Action}
    (runs : Runs platform start middle)
    (courses : middle.course platform actions = some firmware) :
    Runs platform start firmware := by
  induction actions generalizing middle with
  | nil =>
      cases courses
      exact runs
  | cons action rest inductionHypothesis =>
      obtain ⟨next, steps, courses'⟩ := Option.bind_eq_some_iff.mp courses
      exact inductionHypothesis (runs.step action steps) courses'

end PrismKit
