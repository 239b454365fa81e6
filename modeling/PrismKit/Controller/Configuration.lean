import PrismKit.Controller.Instruction

/-!
# Configuration of a stored instruction

`ResetForReplay` keeps the configuration of an instruction and clears what its
executions have changed, so the reset slot stands for the configuration.  Every
accessor of a slot reads the configuration only, and executing a slot leaves it
alone.  The returned delays are bounded by the 16-bit durations.
-/

namespace PrismKit

namespace InstructionMemorySlot

/-! ### Accessors read the configuration -/

section Accessors

variable (slot : InstructionMemorySlot)

theorem resetForReplay_cases :
    slot.resetForReplay = slot ∨
      ∃ instr, slot.active = some instr ∧
        ((∃ fade, instr.kind = .fade fade ∧
            slot.resetForReplay =
              ⟨some { instr with kind := .fade fade.resetForReplay }⟩) ∨
          ∃ gradient, instr.kind = .gradient gradient ∧
            slot.resetForReplay =
              ⟨some
                { instr with kind := .gradient gradient.resetForReplay }⟩) := by
  rcases slot with ⟨active⟩
  cases active with
  | none =>
      exact Or.inl rfl
  | some instr =>
      rcases instr with ⟨mark, strip, controller, groupId, kind⟩
      cases kind with
      | fade fade =>
          exact Or.inr ⟨_, rfl, Or.inl ⟨fade, rfl, rfl⟩⟩
      | gradient gradient =>
          exact Or.inr ⟨_, rfl, Or.inr ⟨gradient, rfl, rfl⟩⟩
      | _ =>
          exact Or.inl rfl

@[simp]
theorem getMark_resetForReplay : slot.resetForReplay.getMark = slot.getMark := by
  rcases resetForReplay_cases slot with
    same | ⟨instr, active, ⟨_, _, reset⟩ | ⟨_, _, reset⟩⟩
  · rw [same]
  · rw [reset]
    simp [getMark, active]
  · rw [reset]
    simp [getMark, active]

@[simp]
theorem getGroupId_resetForReplay :
    slot.resetForReplay.getGroupId = slot.getGroupId := by
  rcases resetForReplay_cases slot with
    same | ⟨instr, active, ⟨_, _, reset⟩ | ⟨_, _, reset⟩⟩
  · rw [same]
  · rw [reset]
    simp [getGroupId, active]
  · rw [reset]
    simp [getGroupId, active]

@[simp]
theorem isRunGroup_resetForReplay :
    slot.resetForReplay.isRunGroup = slot.isRunGroup := by
  rcases resetForReplay_cases slot with
    same | ⟨instr, active, ⟨_, kind, reset⟩ | ⟨_, kind, reset⟩⟩
  · rw [same]
  · rw [reset]
    simp [isRunGroup, ControllerInstruction.isRunGroup, active, kind]
  · rw [reset]
    simp [isRunGroup, ControllerInstruction.isRunGroup, active, kind]

@[simp]
theorem getTargetGroupId_resetForReplay :
    slot.resetForReplay.getTargetGroupId = slot.getTargetGroupId := by
  rcases resetForReplay_cases slot with
    same | ⟨instr, active, ⟨_, kind, reset⟩ | ⟨_, kind, reset⟩⟩
  · rw [same]
  · rw [reset]
    simp [getTargetGroupId, ControllerInstruction.targetGroupId, active, kind]
  · rw [reset]
    simp [getTargetGroupId, ControllerInstruction.targetGroupId, active, kind]

@[simp]
theorem getAdditionalRepeats_resetForReplay :
    slot.resetForReplay.getAdditionalRepeats = slot.getAdditionalRepeats := by
  rcases resetForReplay_cases slot with
    same | ⟨instr, active, ⟨_, kind, reset⟩ | ⟨_, kind, reset⟩⟩
  · rw [same]
  · rw [reset]
    simp [getAdditionalRepeats, ControllerInstruction.additionalRepeats, active,
      kind]
  · rw [reset]
    simp [getAdditionalRepeats, ControllerInstruction.additionalRepeats, active,
      kind]

@[simp]
theorem hasPositiveSchedulingBoundary_resetForReplay :
    slot.resetForReplay.hasPositiveSchedulingBoundary =
      slot.hasPositiveSchedulingBoundary := by
  rcases resetForReplay_cases slot with
    same | ⟨instr, active, ⟨_, kind, reset⟩ | ⟨_, kind, reset⟩⟩
  · rw [same]
  · rw [reset]
    simp [hasPositiveSchedulingBoundary,
      ControllerInstruction.hasPositiveSchedulingBoundary, active, kind,
      Fade.resetForReplay]
  · rw [reset]
    simp [hasPositiveSchedulingBoundary,
      ControllerInstruction.hasPositiveSchedulingBoundary, active, kind,
      Gradient.resetForReplay]

@[simp]
theorem resetForReplay_resetForReplay :
    slot.resetForReplay.resetForReplay = slot.resetForReplay := by
  rcases resetForReplay_cases slot with
    same | ⟨instr, active, ⟨_, kind, reset⟩ | ⟨_, kind, reset⟩⟩
  · rw [same, same]
  · rw [reset]
    rfl
  · rw [reset]
    rfl

end Accessors

def SameConfiguration (slot other : InstructionMemorySlot) : Prop :=
  slot.resetForReplay = other.resetForReplay

namespace SameConfiguration

variable {slot other : InstructionMemorySlot}

theorem getMark_eq (same : SameConfiguration slot other) :
    slot.getMark = other.getMark := by
  rw [← getMark_resetForReplay slot, same, getMark_resetForReplay]

theorem getGroupId_eq (same : SameConfiguration slot other) :
    slot.getGroupId = other.getGroupId := by
  rw [← getGroupId_resetForReplay slot, same, getGroupId_resetForReplay]

theorem isRunGroup_eq (same : SameConfiguration slot other) :
    slot.isRunGroup = other.isRunGroup := by
  rw [← isRunGroup_resetForReplay slot, same, isRunGroup_resetForReplay]

theorem getTargetGroupId_eq (same : SameConfiguration slot other) :
    slot.getTargetGroupId = other.getTargetGroupId := by
  rw [← getTargetGroupId_resetForReplay slot, same,
    getTargetGroupId_resetForReplay]

theorem getAdditionalRepeats_eq (same : SameConfiguration slot other) :
    slot.getAdditionalRepeats = other.getAdditionalRepeats := by
  rw [← getAdditionalRepeats_resetForReplay slot, same,
    getAdditionalRepeats_resetForReplay]

theorem hasPositiveSchedulingBoundary_eq
    (same : SameConfiguration slot other) :
    slot.hasPositiveSchedulingBoundary =
      other.hasPositiveSchedulingBoundary := by
  rw [← hasPositiveSchedulingBoundary_resetForReplay slot, same,
    hasPositiveSchedulingBoundary_resetForReplay]

/-- The stored instructions behind two slots with one configuration. -/
theorem active_eq (same : SameConfiguration slot other)
    {instr : ControllerInstruction} (active : other.active = some instr) :
    ∃ instr', slot.active = some instr' ∧
      instr'.resetForReplay = instr.resetForReplay := by
  have mapped := congrArg InstructionMemorySlot.active same
  simp only [resetForReplay, active, Option.map_some,
    Option.map_eq_some_iff] at mapped
  exact mapped

end SameConfiguration

end InstructionMemorySlot

/-- The base-class fields belong to the configuration. -/
theorem ControllerInstruction.base_of_resetForReplay
    {instr other : ControllerInstruction}
    (same : instr.resetForReplay = other.resetForReplay) :
    instr.controller = other.controller ∧ instr.strip = other.strip := by
  have kept :
      ∀ instr : ControllerInstruction,
        instr.resetForReplay.controller = instr.controller ∧
          instr.resetForReplay.strip = instr.strip := by
    intro instr
    rcases instr with ⟨mark, strip, controller, groupId, kind⟩
    cases kind <;> exact ⟨rfl, rfl⟩
  rw [← (kept instr).1, ← (kept other).1, ← (kept instr).2, ← (kept other).2,
    same]
  exact ⟨rfl, rfl⟩

theorem Fade.execute_kind (strip : StripId) (staged : RgbColor)
    (refreshPeriodMs timestamp : UInt32) (fade : Fade) :
    ∃ next, (fade.execute strip staged refreshPeriodMs timestamp).kind =
        .fade next ∧
      next.resetForReplay = fade.resetForReplay := by
  unfold Fade.execute
  split
  · simp only
    split
    · exact ⟨_, rfl, rfl⟩
    · exact ⟨_, rfl, rfl⟩
  · exact ⟨fade, rfl, rfl⟩

theorem Gradient.execute_kind (strip : StripId) (staged : RgbColor)
    (refreshPeriodMs timestamp : UInt32) (gradient : Gradient) :
    ∃ next, (gradient.execute strip staged refreshPeriodMs timestamp).kind =
        .gradient next ∧
      next.resetForReplay = gradient.resetForReplay := by
  unfold Gradient.execute
  split
  · simp only
    split
    · exact ⟨_, rfl, rfl⟩
    · exact ⟨_, rfl, rfl⟩
  · exact ⟨gradient, rfl, rfl⟩

/-- What an execution does to the concrete type: nothing, or it replaces the
Fade or Gradient by one with the same configuration. -/
private theorem ControllerInstruction.execute_kind
    (strips : StripId → Strip) (refreshPeriodMs timestamp : UInt32)
    (instr : ControllerInstruction) :
    ({ instr with
        kind := (instr.execute strips refreshPeriodMs timestamp).kind } :
      ControllerInstruction).resetForReplay = instr.resetForReplay := by
  rcases instr with ⟨mark, stripOf, controller, groupId, kind⟩
  unfold ControllerInstruction.execute
  cases ControllerInstruction.boundStrip strips
      ⟨mark, stripOf, controller, groupId, kind⟩ with
  | none =>
      rfl
  | some bound =>
      rcases bound with ⟨id, strip⟩
      cases kind with
      | fade fade =>
          simp only
          cases strip.led fade.index.toNat with
          | none =>
              rfl
          | some led =>
              obtain ⟨next, kind, same⟩ :=
                Fade.execute_kind id (strip.color led) refreshPeriodMs
                  timestamp fade
              simp only [kind, ControllerInstruction.resetForReplay, same]
      | gradient gradient =>
          simp only
          cases strip.led gradient.index.toNat with
          | none =>
              rfl
          | some led =>
              obtain ⟨next, kind, same⟩ :=
                Gradient.execute_kind id (strip.color led) refreshPeriodMs
                  timestamp gradient
              simp only [kind, ControllerInstruction.resetForReplay, same]
      | _ =>
          rfl

theorem InstructionMemorySlot.execute_sameConfiguration
    (strips : StripId → Strip) (refreshPeriodMs timestamp : UInt32)
    (slot : InstructionMemorySlot) :
    SameConfiguration (slot.execute strips refreshPeriodMs timestamp).1 slot := by
  rcases slot with ⟨active⟩
  cases active with
  | none =>
      rfl
  | some instr =>
      have same :=
        ControllerInstruction.execute_kind strips refreshPeriodMs timestamp
          instr
      simp only [SameConfiguration, InstructionMemorySlot.execute,
        InstructionMemorySlot.resetForReplay, Option.map_some, same]

/-- A capped delay is at most its cap. -/
private theorem capped_le (remaining untilGrid : UInt32) :
    (if remaining < untilGrid then remaining else untilGrid) ≤ remaining := by
  split
  · exact UInt32.le_refl remaining
  · rename_i larger
    exact UInt32.not_lt.mp larger

theorem Fade.delayToFadeUpdate_le
    (timestamp remainingMs refreshPeriodMs : UInt32) :
    delayToFadeUpdate timestamp remainingMs refreshPeriodMs ≤ remainingMs :=
  capped_le _ _

theorem Gradient.delayToGradientUpdate_le
    (elapsedMs remainingMs refreshPeriodMs : UInt32) :
    delayToGradientUpdate elapsedMs remainingMs refreshPeriodMs ≤
      remainingMs :=
  capped_le _ _

private theorem sub_toNat_le {minuend subtrahend : UInt32}
    (ordered : subtrahend ≤ minuend) :
    (minuend - subtrahend).toNat ≤ minuend.toNat := by
  rw [UInt32.toNat_sub_of_le _ _ ordered]
  exact Nat.sub_le _ _

theorem elapsed_add_delay_le {elapsed delay : UInt32} {durationMs : UInt16}
    (unfinished : ¬ elapsed ≥ durationMs.toUInt32)
    (capped : delay ≤ durationMs.toUInt32 - elapsed) :
    elapsed.toNat + delay.toNat ≤ durationMs.toNat := by
  have earlier : elapsed ≤ durationMs.toUInt32 :=
    UInt32.le_of_lt (UInt32.not_le.mp unfinished)
  rw [UInt32.le_iff_toNat_le, UInt32.toNat_sub_of_le _ _ earlier] at capped
  rw [UInt32.le_iff_toNat_le] at earlier
  rw [UInt16.toNat_toUInt32] at capped earlier
  omega

theorem Fade.execute_delay (strip : StripId) (staged : RgbColor)
    (refreshPeriodMs timestamp : UInt32) (fade : Fade) :
    (fade.execute strip staged refreshPeriodMs timestamp).delay.toNat ≤
      fade.durationMs.toNat := by
  unfold Fade.execute
  split
  · simp only
    split
    · exact Nat.zero_le _
    · exact UInt32.le_iff_toNat_le.mp (Fade.delayToFadeUpdate_le _ _ _)
  · simp only
    split
    · exact Nat.zero_le _
    · rename_i running
      have earlier :
          timestamp - fade.startTime ≤ fade.durationMs.toUInt32 :=
        UInt32.le_of_lt (UInt32.not_le.mp running)
      exact
        Nat.le_trans
          (UInt32.le_iff_toNat_le.mp (Fade.delayToFadeUpdate_le _ _ _))
          (sub_toNat_le earlier)

theorem Gradient.execute_delay (strip : StripId) (staged : RgbColor)
    (refreshPeriodMs timestamp : UInt32) (gradient : Gradient) :
    (gradient.execute strip staged refreshPeriodMs timestamp).delay.toNat ≤
      gradient.durationMs.toNat := by
  unfold Gradient.execute
  split
  · simp only
    split
    · exact Nat.zero_le _
    · exact UInt32.le_iff_toNat_le.mp (Gradient.delayToGradientUpdate_le _ _ _)
  · simp only
    split
    · exact Nat.zero_le _
    · rename_i running
      have earlier :
          timestamp - gradient.startTime ≤ gradient.durationMs.toUInt32 :=
        UInt32.le_of_lt (UInt32.not_le.mp running)
      exact
        Nat.le_trans
          (UInt32.le_iff_toNat_le.mp (Gradient.delayToGradientUpdate_le _ _ _))
          (sub_toNat_le earlier)

/-- Every delay fits in 16 bits. -/
theorem InstructionMemorySlot.execute_delay
    (strips : StripId → Strip) (refreshPeriodMs timestamp : UInt32)
    (slot : InstructionMemorySlot) :
    (slot.execute strips refreshPeriodMs timestamp).2.1.toNat ≤ 65535 := by
  rcases slot with ⟨active⟩
  cases active with
  | none =>
      exact Nat.zero_le _
  | some instr =>
      rcases instr with ⟨mark, stripOf, controller, groupId, kind⟩
      simp only [InstructionMemorySlot.execute, ControllerInstruction.execute]
      cases ControllerInstruction.boundStrip strips
          ⟨mark, stripOf, controller, groupId, kind⟩ with
      | none =>
          exact Nat.zero_le _
      | some bound =>
          rcases bound with ⟨id, strip⟩
          cases kind with
          | fade fade =>
              simp only
              cases strip.led fade.index.toNat with
              | none =>
                  exact Nat.zero_le _
              | some led =>
                  exact
                    Nat.le_trans (Fade.execute_delay ..)
                      (Nat.le_of_lt_succ fade.durationMs.toNat_lt)
          | gradient gradient =>
              simp only
              cases strip.led gradient.index.toNat with
              | none =>
                  exact Nat.zero_le _
              | some led =>
                  exact
                    Nat.le_trans (Gradient.execute_delay ..)
                      (Nat.le_of_lt_succ gradient.durationMs.toNat_lt)
          | _ =>
              exact Nat.zero_le _

def InstructionMemorySlot.timedPixel (slot : InstructionMemorySlot) :
    Option (StripId × Nat) :=
  match slot.active with
  | none => none
  | some instr =>
      match instr.kind with
      | .fade fade => instr.strip.map fun id => (id, fade.index.toNat)
      | .gradient gradient =>
          instr.strip.map fun id => (id, gradient.index.toNat)
      | _ => none

theorem InstructionMemorySlot.timedPixel_resetForReplay
    (slot : InstructionMemorySlot) :
    slot.resetForReplay.timedPixel = slot.timedPixel := by
  rcases resetForReplay_cases slot with
    same | ⟨instr, active, ⟨_, kind, reset⟩ | ⟨_, kind, reset⟩⟩
  · rw [same]
  · rw [reset]
    simp [timedPixel, active, kind, Fade.resetForReplay]
  · rw [reset]
    simp [timedPixel, active, kind, Gradient.resetForReplay]

theorem InstructionMemorySlot.SameConfiguration.timedPixel_eq
    {slot other : InstructionMemorySlot}
    (same : SameConfiguration slot other) :
    slot.timedPixel = other.timedPixel := by
  rw [← timedPixel_resetForReplay slot, same, timedPixel_resetForReplay]

/-- A capped delay is positive when both of its bounds are. -/
private theorem capped_ne_zero {remaining untilGrid : UInt32}
    (remains : remaining ≠ 0) (ahead : untilGrid ≠ 0) :
    (if remaining < untilGrid then remaining else untilGrid) ≠ 0 := by
  split
  · exact remains
  · exact ahead

/-- The next grid point lies ahead. -/
private theorem untilGrid_ne_zero {time refreshPeriodMs : UInt32}
    (period : refreshPeriodMs ≠ 0) :
    (if time % refreshPeriodMs = 0 then
        refreshPeriodMs
      else
        refreshPeriodMs - time % refreshPeriodMs) ≠ 0 := by
  split
  · exact period
  · have phase : (time % refreshPeriodMs).toNat < refreshPeriodMs.toNat := by
      rw [UInt32.toNat_mod]
      apply Nat.mod_lt
      apply Nat.pos_of_ne_zero
      intro zero
      exact period (UInt32.toNat_inj.mp zero)
    have ordered : time % refreshPeriodMs ≤ refreshPeriodMs :=
      UInt32.le_iff_toNat_le.mpr (Nat.le_of_lt phase)
    intro zero
    have difference :=
      UInt32.toNat_sub_of_le refreshPeriodMs (time % refreshPeriodMs) ordered
    rw [zero] at difference
    simp only [UInt32.toNat_zero] at difference
    omega

theorem Fade.delayToFadeUpdate_ne_zero
    {timestamp remainingMs refreshPeriodMs : UInt32}
    (period : refreshPeriodMs ≠ 0) (remains : remainingMs ≠ 0) :
    delayToFadeUpdate timestamp remainingMs refreshPeriodMs ≠ 0 :=
  capped_ne_zero remains (untilGrid_ne_zero period)

theorem Gradient.delayToGradientUpdate_ne_zero
    {elapsedMs remainingMs refreshPeriodMs : UInt32}
    (period : refreshPeriodMs ≠ 0) (remains : remainingMs ≠ 0) :
    delayToGradientUpdate elapsedMs remainingMs refreshPeriodMs ≠ 0 :=
  capped_ne_zero remains (untilGrid_ne_zero period)

theorem duration_ne_zero {durationMs : UInt16}
    (positive : durationMs ≠ 0) : durationMs.toUInt32 ≠ 0 := by
  intro zero
  apply positive
  have value := congrArg UInt32.toNat zero
  rw [UInt16.toNat_toUInt32] at value
  exact UInt16.toNat_inj.mp value

private theorem Fade.execute_delay_ne_zero {strip : StripId}
    {staged : RgbColor} {refreshPeriodMs timestamp : UInt32} {fade : Fade}
    (period : refreshPeriodMs ≠ 0) (fresh : fade.resetForReplay = fade)
    (positive : fade.durationMs ≠ 0) :
    (fade.execute strip staged refreshPeriodMs timestamp).delay ≠ 0 := by
  have ready : fade.started = false := by
    rw [← fresh]
    rfl
  simp only [Fade.execute, ready, Bool.false_eq_true, not_false_eq_true,
    if_true, if_neg positive]
  exact Fade.delayToFadeUpdate_ne_zero period (duration_ne_zero positive)

private theorem Gradient.execute_delay_ne_zero {strip : StripId}
    {staged : RgbColor} {refreshPeriodMs timestamp : UInt32}
    {gradient : Gradient} (period : refreshPeriodMs ≠ 0)
    (fresh : gradient.resetForReplay = gradient)
    (positive : gradient.durationMs ≠ 0) :
    (gradient.execute strip staged refreshPeriodMs timestamp).delay ≠ 0 := by
  have ready : gradient.started = false := by
    rw [← fresh]
    rfl
  simp only [Gradient.execute, ready, Bool.false_eq_true, not_false_eq_true,
    if_true, if_neg positive]
  exact Gradient.delayToGradientUpdate_ne_zero period (duration_ne_zero positive)

/-- A Fade or Gradient of positive duration that was reset and whose pixel
exists does not finish at its first execution. -/
theorem InstructionMemorySlot.execute_delay_ne_zero
    {strips : StripId → Strip} {refreshPeriodMs timestamp : UInt32}
    {slot : InstructionMemorySlot} {instr : ControllerInstruction}
    {id : StripId} {pixel : Nat}
    (period : refreshPeriodMs ≠ 0) (fresh : slot.resetForReplay = slot)
    (active : slot.active = some instr) (bound : instr.controller = true)
    (timed : slot.hasPositiveSchedulingBoundary = true)
    (addresses : slot.timedPixel = some (id, pixel))
    (lit : pixel < (strips id).ledCount) :
    (slot.execute strips refreshPeriodMs timestamp).2.1 ≠ 0 := by
  rcases slot with ⟨stored⟩
  cases active
  rcases instr with ⟨mark, stripOf, controller, groupId, kind⟩
  cases bound
  have led : (strips id).led pixel = some pixel := if_neg (Nat.not_le.mpr lit)
  cases kind with
  | fade fade =>
      obtain ⟨_, rfl, same⟩ := Option.map_eq_some_iff.mp addresses
      cases same
      have reset : fade.resetForReplay = fade := by
        simpa [resetForReplay, ControllerInstruction.resetForReplay]
          using congrArg InstructionMemorySlot.active fresh
      have positive : fade.durationMs ≠ 0 := by
        intro zero
        simp [hasPositiveSchedulingBoundary,
          ControllerInstruction.hasPositiveSchedulingBoundary, zero] at timed
      simp only [execute, ControllerInstruction.execute,
        ControllerInstruction.boundStrip, if_true, Option.map_some, led]
      exact Fade.execute_delay_ne_zero period reset positive
  | gradient gradient =>
      obtain ⟨_, rfl, same⟩ := Option.map_eq_some_iff.mp addresses
      cases same
      have reset : gradient.resetForReplay = gradient := by
        simpa [resetForReplay, ControllerInstruction.resetForReplay]
          using congrArg InstructionMemorySlot.active fresh
      have positive : gradient.durationMs ≠ 0 := by
        intro zero
        simp [hasPositiveSchedulingBoundary,
          ControllerInstruction.hasPositiveSchedulingBoundary, zero] at timed
      simp only [execute, ControllerInstruction.execute,
        ControllerInstruction.boundStrip, if_true, Option.map_some, led]
      exact Gradient.execute_delay_ne_zero period reset positive
  | _ =>
      cases addresses

end PrismKit
