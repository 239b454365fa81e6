import PrismKit.Controller.Configuration
import PrismKit.Library.Clock

/-!
# Instructions on a shifted clock

A started Gradient remembers when it started and reads the clock only through
the time since then, so shifting the clock and the remembered instant together
changes nothing it does.  A Fade has its updates on a grid of absolute
timestamps and is the one instruction that sees the shift.
-/

namespace PrismKit

open Library

/-- The gradient with its start time `offset` later. -/
def Gradient.shift (offset : UInt32) (gradient : Gradient) : Gradient :=
  if gradient.started then
    { gradient with startTime := gradient.startTime + offset }
  else
    gradient

namespace ControllerInstruction

/-- The instruction with its start time `offset` later. -/
def shift (offset : UInt32) (instr : ControllerInstruction) :
    ControllerInstruction :=
  match instr.kind with
  | .gradient gradient =>
      { instr with kind := .gradient (gradient.shift offset) }
  | _ => instr

/-- Whether the instruction is a `Fade`. -/
def isFade (instr : ControllerInstruction) : Bool :=
  match instr.kind with
  | .fade _ => true
  | _ => false

end ControllerInstruction

namespace InstructionMemorySlot

/-- The slot with the start time of its instruction `offset` later. -/
def shift (offset : UInt32) (slot : InstructionMemorySlot) :
    InstructionMemorySlot :=
  ⟨slot.active.map (ControllerInstruction.shift offset)⟩

/-- Whether the slot holds a `Fade`. -/
def isFade (slot : InstructionMemorySlot) : Bool :=
  match slot.active with
  | some instr => instr.isFade
  | none => false

end InstructionMemorySlot

theorem Gradient.resetForReplay_shift (offset : UInt32) (gradient : Gradient) :
    (gradient.shift offset).resetForReplay = gradient.resetForReplay := by
  unfold shift
  split <;> rfl

theorem Gradient.shift_zero (gradient : Gradient) :
    gradient.shift 0 = gradient := by
  unfold shift
  split
  · rw [UInt32.add_zero]
  · rfl

namespace InstructionMemorySlot

variable (offset : UInt32) (slot : InstructionMemorySlot)

/-- A reset instruction remembers no start time. -/
@[simp]
theorem shift_resetForReplay :
    slot.resetForReplay.shift offset = slot.resetForReplay := by
  rcases slot with ⟨_ | ⟨mark, strip, controller, groupId, kind⟩⟩
  · rfl
  · cases kind <;> rfl

theorem shift_sameConfiguration : SameConfiguration (slot.shift offset) slot := by
  rcases slot with ⟨_ | ⟨mark, strip, controller, groupId, kind⟩⟩
  · rfl
  · cases kind with
    | gradient gradient =>
        simp only [SameConfiguration, resetForReplay, shift, Option.map_some,
          ControllerInstruction.shift, ControllerInstruction.resetForReplay,
          Gradient.resetForReplay_shift]
    | _ =>
        rfl

@[simp]
theorem shift_zero : slot.shift 0 = slot := by
  rcases slot with ⟨_ | ⟨mark, strip, controller, groupId, kind⟩⟩
  · rfl
  · cases kind with
    | gradient gradient =>
        simp only [shift, Option.map_some, ControllerInstruction.shift,
          Gradient.shift_zero]
    | _ =>
        rfl

theorem isFade_resetForReplay : slot.resetForReplay.isFade = slot.isFade := by
  rcases slot with ⟨_ | ⟨mark, strip, controller, groupId, kind⟩⟩
  · rfl
  · cases kind <;> rfl

theorem SameConfiguration.isFade_eq {slot other : InstructionMemorySlot}
    (same : SameConfiguration slot other) : slot.isFade = other.isFade := by
  rw [← isFade_resetForReplay slot, same, isFade_resetForReplay]

end InstructionMemorySlot

theorem Gradient.execute_shift (strip : StripId) (staged : RgbColor)
    (refreshPeriodMs timestamp offset : UInt32) (gradient : Gradient) :
    ∃ next,
      (gradient.execute strip staged refreshPeriodMs timestamp).kind =
          .gradient next ∧
        (gradient.shift offset).execute strip staged refreshPeriodMs
            (timestamp + offset) =
          { gradient.execute strip staged refreshPeriodMs timestamp with
            kind := .gradient (next.shift offset) } := by
  by_cases started : gradient.started
  · refine ⟨gradient, ?_, ?_⟩
    · simp [execute, started]
    · have elapsed :
          timestamp + offset - (gradient.startTime + offset) =
            timestamp - gradient.startTime :=
        add_sub_add_right timestamp gradient.startTime offset
      simp only [shift, started, if_true, execute, not_true_eq_false, if_false,
        elapsed]
  · by_cases instant : gradient.durationMs = 0
    · refine ⟨{ gradient with startTime := timestamp, started := true }, ?_, ?_⟩
      · simp [execute, started, instant]
      · simp [shift, execute, started, instant]
    · refine
        ⟨{ gradient with
            startTime := timestamp
            started := true
            source := Oklab.toOklab staged
            targetLab := Oklab.toOklab gradient.target }, ?_, ?_⟩
      · simp [execute, started, instant]
      · simp [shift, execute, started, instant]

/-- Executing the shifted slot at the shifted instant has the same effects and
leaves the shifted slot behind. -/
theorem InstructionMemorySlot.execute_shift (strips : StripId → Strip)
    (refreshPeriodMs timestamp offset : UInt32) (slot : InstructionMemorySlot)
    (steady : offset = 0 ∨ slot.isFade = false) :
    (slot.shift offset).execute strips refreshPeriodMs (timestamp + offset) =
      ((slot.execute strips refreshPeriodMs timestamp).1.shift offset,
        (slot.execute strips refreshPeriodMs timestamp).2) := by
  rcases steady with rfl | notFade
  · rw [UInt32.add_zero, shift_zero, shift_zero]
  · rcases slot with ⟨_ | ⟨mark, strip, controller, groupId, kind⟩⟩
    · rfl
    · rcases controller with _ | _
      · cases kind <;> rfl
      · cases strip with
        | none =>
            cases kind <;> rfl
        | some id =>
            cases kind with
            | fade fade =>
                exact Bool.noConfusion notFade
            | gradient gradient =>
                have index :
                    (gradient.shift offset).index = gradient.index := by
                  unfold Gradient.shift
                  split <;> rfl
                obtain ⟨next, after, executes⟩ :=
                  gradient.execute_shift id
                    ((strips id).color gradient.index.toNat) refreshPeriodMs
                    timestamp offset
                by_cases outside :
                    gradient.index.toNat ≥ (strips id).ledCount
                · simp [shift, execute, ControllerInstruction.shift,
                    ControllerInstruction.execute,
                    ControllerInstruction.boundStrip, Strip.led, index,
                    outside]
                · simp [shift, execute, ControllerInstruction.shift,
                    ControllerInstruction.execute,
                    ControllerInstruction.boundStrip, Strip.led, index,
                    outside, executes, after]
            | _ =>
                rfl

end PrismKit
