import PrismKit.Controller.Configuration

/-!
# Executing one stored instruction again and again

The scheduler executes an active Fade or Gradient at times of its own choice,
and other instructions write to the pixel in between.  A reset ends a pass, and
the next execution activates the instruction anew.
-/

namespace PrismKit

/-- One call of `Execute`: the staged frames and the timestamp that it sees. -/
structure ExecuteCall where
  strips : StripId → Strip
  timestamp : UInt32

namespace InstructionMemorySlot

variable (period : UInt32)

def afterCalls (slot : InstructionMemorySlot) (calls : List ExecuteCall) :
    InstructionMemorySlot :=
  calls.foldl
    (fun slot call => (slot.execute call.strips period call.timestamp).1) slot

/-- The slot after passes of calls, each of them ended by a reset. -/
def afterPasses (slot : InstructionMemorySlot)
    (passes : List (List ExecuteCall)) : InstructionMemorySlot :=
  passes.foldl
    (fun slot calls => (slot.afterCalls period calls).resetForReplay) slot

variable {period}

theorem afterCalls_sameConfiguration (slot : InstructionMemorySlot)
    (calls : List ExecuteCall) :
    SameConfiguration (slot.afterCalls period calls) slot := by
  induction calls generalizing slot with
  | nil =>
      rfl
  | cons call rest inductionHypothesis =>
      have first :=
        execute_sameConfiguration call.strips period call.timestamp slot
      have later :=
        inductionHypothesis (slot.execute call.strips period call.timestamp).1
      exact later.trans first

/-- Passes leave no trace in an instruction that starts out reset. -/
theorem afterPasses_eq {slot : InstructionMemorySlot}
    (fresh : slot.resetForReplay = slot) (passes : List (List ExecuteCall)) :
    slot.afterPasses period passes = slot := by
  induction passes with
  | nil =>
      rfl
  | cons calls rest inductionHypothesis =>
      have pass : (slot.afterCalls period calls).resetForReplay = slot :=
        (afterCalls_sameConfiguration slot calls).trans fresh
      unfold afterPasses at inductionHypothesis ⊢
      rw [List.foldl_cons, pass]
      exact inductionHypothesis

theorem afterCalls_eq {slot : InstructionMemorySlot}
    (kept :
      ∀ call : ExecuteCall,
        (slot.execute call.strips period call.timestamp).1 = slot)
    (calls : List ExecuteCall) : slot.afterCalls period calls = slot := by
  induction calls with
  | nil =>
      rfl
  | cons call rest inductionHypothesis =>
      unfold afterCalls at inductionHypothesis ⊢
      rw [List.foldl_cons, kept call]
      exact inductionHypothesis

/-- The calls that follow an activation find what it has stored. -/
theorem afterPasses_afterCalls {slot active : InstructionMemorySlot}
    {activation : ExecuteCall} (fresh : slot.resetForReplay = slot)
    (activates :
      (slot.execute activation.strips period activation.timestamp).1 = active)
    (kept :
      ∀ call : ExecuteCall,
        (active.execute call.strips period call.timestamp).1 = active)
    (passes : List (List ExecuteCall)) (resumes : List ExecuteCall) :
    (slot.afterPasses period passes).afterCalls period
      (activation :: resumes) = active := by
  rw [afterPasses_eq fresh]
  unfold afterCalls
  rw [List.foldl_cons, activates]
  exact afterCalls_eq kept resumes

section Bound

variable {instr : ControllerInstruction} {id : StripId}
  {strips : StripId → Strip} {timestamp : UInt32}

theorem store_execute_fade {fade : Fade}
    (lit : fade.index.toNat < (strips id).ledCount) :
    (store { instr with kind := .fade fade } (some id)).execute strips period
        timestamp =
      let execution :=
        fade.execute id ((strips id).color fade.index.toNat) period timestamp
      (store { instr with kind := execution.kind } (some id), execution.delay,
        execution.writes, execution.requestShow) := by
  have led : (strips id).led fade.index.toNat = some fade.index.toNat :=
    if_neg (Nat.not_le.mpr lit)
  simp only [execute, store, ControllerInstruction.execute,
    ControllerInstruction.boundStrip, if_true, Option.map_some, led]

theorem store_execute_gradient {gradient : Gradient}
    (lit : gradient.index.toNat < (strips id).ledCount) :
    (store { instr with kind := .gradient gradient } (some id)).execute strips
        period timestamp =
      let execution :=
        gradient.execute id ((strips id).color gradient.index.toNat) period
          timestamp
      (store { instr with kind := execution.kind } (some id), execution.delay,
        execution.writes, execution.requestShow) := by
  have led :
      (strips id).led gradient.index.toNat = some gradient.index.toNat :=
    if_neg (Nat.not_le.mpr lit)
  simp only [execute, store, ControllerInstruction.execute,
    ControllerInstruction.boundStrip, if_true, Option.map_some, led]

/-- A resumed Fade stays as it is, also where its pixel is missing. -/
theorem execute_fade_kept {fade : Fade} (started : fade.started = true)
    (call : ExecuteCall) :
    ((store { instr with kind := .fade fade } (some id)).execute call.strips
        period call.timestamp).1 =
      store { instr with kind := .fade fade } (some id) := by
  have kind :
      ∀ staged,
        (fade.execute id staged period call.timestamp).kind = .fade fade := by
    intro staged
    simp [Fade.execute, started]
  simp only [execute, store, ControllerInstruction.execute,
    ControllerInstruction.boundStrip, if_true, Option.map_some]
  cases (call.strips id).led fade.index.toNat with
  | none =>
      rfl
  | some led =>
      simp only [kind]

/-- A resumed Gradient stays as it is, also where its pixel is missing. -/
theorem execute_gradient_kept {gradient : Gradient}
    (started : gradient.started = true) (call : ExecuteCall) :
    ((store { instr with kind := .gradient gradient } (some id)).execute
        call.strips period call.timestamp).1 =
      store { instr with kind := .gradient gradient } (some id) := by
  have kind :
      ∀ staged,
        (gradient.execute id staged period call.timestamp).kind =
          .gradient gradient := by
    intro staged
    simp [Gradient.execute, started]
  simp only [execute, store, ControllerInstruction.execute,
    ControllerInstruction.boundStrip, if_true, Option.map_some]
  cases (call.strips id).led gradient.index.toNat with
  | none =>
      rfl
  | some led =>
      simp only [kind]

end Bound

end InstructionMemorySlot

end PrismKit
