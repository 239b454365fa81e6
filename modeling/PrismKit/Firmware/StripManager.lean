import PrismKit.Controller.Strip
import PrismKit.Library.Loops
import PrismKit.Library.Mailbox
import Mathlib.Data.Fintype.Basic

/-!
# The strip manager

`strip_manager.cpp`: the frame that the application stages, the mailbox that
carries committed frames to the hardware task, and their translation into calls
of the strip driver.  The driver belongs to the board and is a parameter.
-/

namespace PrismKit

open Library

universe u v

/-- The statuses that are used of `oshal/status.h`; all but `ok` are
negative. -/
inductive Status where
  | ok
  | notReady
  | invalidArgument
  | deviceUnavailable
  | backend (code : Nat)
  deriving DecidableEq, Repr

def sharedFrameCapacity : Nat := 16

/-- `SharedFrame`; a frame never counts more pixels than it stores. -/
structure SharedFrame where
  ledCount : Nat := 0
  colors : Fin sharedFrameCapacity → RgbColor := fun _ => ⟨0, 0, 0⟩
  fits : ledCount ≤ sharedFrameCapacity := by decide
  deriving DecidableEq

/-- The color at an index of the array, and black behind its end. -/
def SharedFrame.color (frame : SharedFrame) (index : Nat) : RgbColor :=
  if below : index < sharedFrameCapacity then
    frame.colors ⟨index, below⟩
  else
    ⟨0, 0, 0⟩

/-- The data members of `StripManager` that its functions use, on mailbox
states `φ`.  `led_count` fits a frame: `Initialize` refuses a longer strip. -/
structure StripManager (φ : Type u) where
  ready : Bool := false
  ledCount : Nat := 0
  stagedFrame : SharedFrame := {}
  mailbox : Channel φ SharedFrame
  fits : ledCount ≤ sharedFrameCapacity := by decide

namespace StripManager

variable {φ : Type u}

def configure (ledCount : Nat) (fits : ledCount ≤ sharedFrameCapacity)
    (manager : StripManager φ) : StripManager φ :=
  { manager with ledCount := ledCount, ready := true, fits := fits }

/-- `Led`: the view of a pixel, or `none` for the null pointer. -/
def led (manager : StripManager φ) (index : Nat) :
    Option (Fin sharedFrameCapacity) :=
  if below : index < manager.ledCount then
    some ⟨index, Nat.lt_of_lt_of_le below manager.fits⟩
  else
    none

/-- `staged_frame_.colors[pixel] = color`. -/
def stage (pixel : Fin sharedFrameCapacity) (color : RgbColor)
    (manager : StripManager φ) : StripManager φ :=
  { manager with
    stagedFrame :=
      { manager.stagedFrame with
        colors := Function.update manager.stagedFrame.colors pixel color } }

def setLedColor (index : Nat) (color : RgbColor) (manager : StripManager φ) :
    StripManager φ × Status :=
  if ¬ manager.ready then
    (manager, .notReady)
  else
    match manager.led index with
    | none => (manager, .invalidArgument)
    | some pixel => (manager.stage pixel color, .ok)

def ledColor (index : Nat) (manager : StripManager φ) : RgbColor :=
  match manager.led index with
  | none => ⟨0, 0, 0⟩
  | some pixel => manager.stagedFrame.colors pixel

/-- The frame that `Show` commits. -/
def committed (manager : StripManager φ) : SharedFrame :=
  { manager.stagedFrame with
    ledCount := manager.ledCount
    fits := manager.fits }

def «show» (box : Mailbox φ SharedFrame) (manager : StripManager φ) :
    StripManager φ × Status :=
  if ¬ manager.ready then
    (manager, .notReady)
  else
    let (mailbox, accepted) := manager.mailbox.send box manager.committed
    ({ manager with
        stagedFrame := manager.committed
        mailbox := mailbox }, if accepted then .ok else .backend 0)

structure Stages (manager : StripManager φ) (strip : Strip) : Prop where
  ledCount : manager.ledCount = strip.ledCount
  ready : manager.ready = strip.ready
  colors :
    ∀ index, index < strip.ledCount →
      manager.stagedFrame.color index = strip.color index

theorem Stages.ledColor {manager : StripManager φ} {strip : Strip}
    (stages : manager.Stages strip) {index : Nat}
    (below : index < strip.ledCount) :
    manager.ledColor index = strip.color index := by
  have inside : index < manager.ledCount := by
    rw [stages.ledCount]
    exact below
  rw [← stages.colors index below]
  simp only [StripManager.ledColor, led, dif_pos inside, SharedFrame.color,
    dif_pos (Nat.lt_of_lt_of_le inside manager.fits)]

theorem color_stage {manager : StripManager φ} {color : RgbColor}
    {pixel : Fin sharedFrameCapacity} {index : Nat} :
    (manager.stage pixel color).stagedFrame.color index =
      if index = pixel then color else manager.stagedFrame.color index := by
  unfold SharedFrame.color stage
  by_cases below : index < sharedFrameCapacity
  · by_cases same : index = pixel
    · subst same
      simp
    · have apart : (⟨index, below⟩ : Fin sharedFrameCapacity) ≠ pixel := by
        intro equal
        exact same (congrArg Fin.val equal)
      simp [below, same, apart]
  · have apart : index ≠ pixel := by
      rintro rfl
      exact below pixel.isLt
    simp [below, apart]

/-- `SetColor` through a pixel view does what it does on the abstract strip,
also where the manager refuses it. -/
theorem Stages.setLedColor {manager : StripManager φ} {strip : Strip}
    (stages : manager.Stages strip) (index : Nat) (color : RgbColor) :
    (manager.setLedColor index color).1.Stages (strip.setColor index color) := by
  unfold StripManager.setLedColor
  split
  · rename_i unready
    have idle : strip.setColor index color = strip := by
      rw [stages.ready] at unready
      unfold Strip.setColor
      exact if_neg unready
    rw [idle]
    exact stages
  · rename_i ready
    rw [not_not, stages.ready] at ready
    have written :
        strip.setColor index color =
          { strip with colors := Function.update strip.colors index color } := by
      unfold Strip.setColor
      exact if_pos ready
    rw [written]
    by_cases inside : index < manager.ledCount
    · simp only [led, dif_pos inside]
      refine ⟨stages.ledCount, stages.ready, ?_⟩
      intro other below
      rw [color_stage]
      show _ = Function.update strip.colors index color other
      by_cases same : other = index
      · rw [if_pos same, same, Function.update_self]
      · rw [if_neg same, Function.update_of_ne same]
        exact stages.colors other below
    · simp only [led, dif_neg inside]
      refine ⟨stages.ledCount, stages.ready, ?_⟩
      intro other below
      have apart : other ≠ index := by
        rintro rfl
        rw [stages.ledCount] at inside
        exact inside below
      show _ = Function.update strip.colors index color other
      rw [Function.update_of_ne apart]
      exact stages.colors other below

theorem Stages.of_show {manager : StripManager φ} {strip : Strip}
    (stages : manager.Stages strip) (box : Mailbox φ SharedFrame) :
    (manager.show box).1.Stages strip := by
  unfold StripManager.show
  split
  · exact stages
  · exact ⟨stages.ledCount, stages.ready, stages.colors⟩

end StripManager

def SharedFrame.Carries (frame : SharedFrame) (strip : Strip) : Prop :=
  frame.ledCount = strip.ledCount ∧
    ∀ index, index < strip.ledCount → frame.color index = strip.color index

theorem StripManager.Stages.carries {φ : Type u} {manager : StripManager φ}
    {strip : Strip} (stages : manager.Stages strip) :
    manager.committed.Carries strip :=
  ⟨stages.ledCount, stages.colors⟩

/-- The functions of `bal::Ws2812Strip` and its pixels that `ApplyFrame` uses,
on driver states `β`. -/
structure Ws2812Strip (β : Type v) where
  ledCount : β → Nat
  pixelReady : Nat → β → Bool
  setColor : Nat → RgbColor → β → β × Status
  «show» : β → β × Status

/-- What the driver promises: a color that is set is kept for its pixel until it
is set again, and a successful `Show` latches all of them. -/
structure Ws2812Strip.Lawful {β : Type v} (driver : Ws2812Strip β)
    (staged displayed : β → Nat → RgbColor) : Prop where
  setColor_ok :
    ∀ index color state, (driver.setColor index color state).2 = .ok →
      staged (driver.setColor index color state).1 =
        Function.update (staged state) index color
  show_ok :
    ∀ state, (driver.show state).2 = .ok →
      displayed (driver.show state).1 = staged state

section Apply

variable {β : Type v} (driver : Ws2812Strip β)

/-- One iteration of the loop in `ApplyFrame`. -/
def applyPixel (frame : SharedFrame) (index : Nat) (state : β) :
    Except (β × Status) β :=
  if ¬ driver.pixelReady index state then
    .error (state, .deviceUnavailable)
  else
    match driver.setColor index (frame.color index) state with
    | (set, .ok) => .ok set
    | (set, status) => .error (set, status)

def applyFrame (frame : SharedFrame) (state : β) : β × Status :=
  if frame.ledCount > driver.ledCount state then
    (state, .invalidArgument)
  else
    match forUpToExcept (applyPixel driver frame) state frame.ledCount with
    | .error failure => failure
    | .ok set => driver.show set

variable {driver} {staged displayed : β → Nat → RgbColor}

def SharedFrame.Displayed (displayed : β → Nat → RgbColor)
    (frame : SharedFrame) (state : β) : Prop :=
  ∀ index, index < frame.ledCount →
    displayed state index = frame.color index

/-- A frame that is applied without a failure is displayed, pixel for
pixel. -/
theorem applyFrame_ok (lawful : driver.Lawful staged displayed)
    {frame : SharedFrame} {state applied : β}
    (applies : applyFrame driver frame state = (applied, .ok)) :
    frame.Displayed displayed applied := by
  unfold applyFrame at applies
  split at applies
  · cases applies
  · have loop :=
      @forUpToExcept_cases β (β × Status) (applyPixel driver frame) state
        (fun count current =>
          ∀ index, index < count → staged current index = frame.color index)
        (fun _ failure => failure.2 ≠ .ok)
        frame.ledCount (fun index below => absurd below (Nat.not_lt_zero index))
        (by
          intro index _ current set
          unfold applyPixel
          split
          · exact Or.inr ⟨_, rfl, Status.noConfusion⟩
          · have kept :=
              lawful.setColor_ok index (frame.color index) current
            cases result : driver.setColor index (frame.color index) current with
            | mk next status =>
                rw [result] at kept
                cases status with
                | ok =>
                    refine Or.inl ⟨next, rfl, ?_⟩
                    intro pixel below
                    rw [kept rfl]
                    by_cases same : pixel = index
                    · rw [same, Function.update_self]
                    · rw [Function.update_of_ne same]
                      apply set
                      omega
                | _ =>
                    exact Or.inr ⟨_, rfl, Status.noConfusion⟩)
    rcases loop with ⟨final, done, set⟩ | ⟨failure, index, -, failed, status⟩
    · rw [done] at applies
      have shown := lawful.show_ok final
      have ok : driver.show final = (applied, .ok) := applies
      rw [ok] at shown
      intro index below
      show displayed applied index = _
      rw [show displayed applied = staged final from shown rfl]
      exact set index below
    · rw [failed] at applies
      have same : failure = (applied, .ok) := applies
      rw [same] at status
      exact absurd rfl status

end Apply

end PrismKit
