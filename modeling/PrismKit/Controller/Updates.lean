import PrismKit.Controller.ExactExecution
import PrismKit.Controller.Transition

/-!
# Update times

When a transition is due.  A Fade is due at the multiples of the refresh period
that lie within its duration, a Gradient at whole periods after its activation,
and both are due at their end.  Every execution before the end asks for the
next of these times, whether it came on time or not.
-/

namespace PrismKit

open Library

namespace InstructionMemorySlot

/-- The times at which a transition that was activated at `start` is due. -/
def UpdateTime (period start : Nat) (slot : InstructionMemorySlot)
    (time : Nat) : Prop :=
  match slot.active with
  | none => False
  | some instr =>
      match instr.kind with
      | .fade fade =>
          time = start + fade.durationMs.toNat ∨
            start < time ∧ time < start + fade.durationMs.toNat ∧
              period ∣ time % 2 ^ 32
      | .gradient gradient =>
          time = start + gradient.durationMs.toNat ∨
            ∃ count, 1 ≤ count ∧
              count * period < gradient.durationMs.toNat ∧
              time = start + count * period
      | _ => False

/-- The time since the activation of the stored transition. -/
def elapsed (slot : InstructionMemorySlot) (now : UInt32) : Nat :=
  match slot.active with
  | none => 0
  | some instr =>
      match instr.kind with
      | .fade fade => fade.elapsed now
      | .gradient gradient => gradient.elapsed now
      | _ => 0

theorem updateTime_resetForReplay (period start : Nat)
    (slot : InstructionMemorySlot) (time : Nat) :
    slot.resetForReplay.UpdateTime period start time ↔
      slot.UpdateTime period start time := by
  rcases resetForReplay_cases slot with
    same | ⟨instr, active, ⟨_, kind, reset⟩ | ⟨_, kind, reset⟩⟩
  · rw [same]
  · rw [reset]
    simp [UpdateTime, active, kind, Fade.resetForReplay]
  · rw [reset]
    simp [UpdateTime, active, kind, Gradient.resetForReplay]

theorem SameConfiguration.updateTime_iff {slot other : InstructionMemorySlot}
    (same : SameConfiguration slot other) (period start time : Nat) :
    slot.UpdateTime period start time ↔ other.UpdateTime period start time := by
  rw [← updateTime_resetForReplay period start slot, same,
    updateTime_resetForReplay]

/-- A transition is due after its activation, and not after its end. -/
theorem UpdateTime.bounds {period start time : Nat}
    {slot : InstructionMemorySlot} {transition : Transition}
    (due : slot.UpdateTime period start time)
    (found : slot.transition = some transition)
    (timed : transition.durationMs ≠ 0) (positive : 0 < period) :
    start < time ∧ time ≤ start + transition.durationMs.toNat := by
  have lasts : 0 < transition.durationMs.toNat :=
    Nat.pos_of_ne_zero fun zero => timed (UInt16.toNat_inj.mp zero)
  rcases slot with ⟨active⟩
  cases active with
  | none =>
      cases found
  | some instr =>
      rcases instr with ⟨mark, strip, controller, groupId, kind⟩
      cases kind with
      | fade fade =>
          cases found
          rcases due with rfl | ⟨began, within, -⟩
          · exact ⟨Nat.lt_add_of_pos_right lasts, Nat.le_refl _⟩
          · exact ⟨began, Nat.le_of_lt within⟩
      | gradient gradient =>
          cases found
          rcases due with rfl | ⟨count, began, within, rfl⟩
          · exact ⟨Nat.lt_add_of_pos_right lasts, Nat.le_refl _⟩
          · exact
              ⟨Nat.lt_add_of_pos_right (Nat.mul_pos began positive),
                Nat.add_le_add_left (Nat.le_of_lt within) _⟩
      | _ =>
          cases found

theorem elapsed_of_reset {slot : InstructionMemorySlot}
    (fresh : slot.resetForReplay = slot) (now : UInt32) :
    slot.elapsed now = 0 := by
  rw [← fresh]
  rcases slot with ⟨active⟩
  cases active with
  | none =>
      rfl
  | some instr =>
      rcases instr with ⟨mark, strip, controller, groupId, kind⟩
      cases kind <;> rfl

theorem Running.elapsed_eq {slot : InstructionMemorySlot}
    {captured : RgbColor} {start now : Nat}
    (running : slot.Running captured (UInt32.ofNat start))
    (ordered : start ≤ now) (near : now < start + 2 ^ 32) :
    slot.elapsed (UInt32.ofNat now) = now - start := by
  rcases slot with ⟨active⟩
  obtain ⟨⟨mark, strip, controller, groupId, kind⟩, rfl, transition⟩ := running
  rw [← toNat_sub_ofNat ordered near]
  rcases transition with ⟨fade, rfl⟩ | ⟨gradient, rfl⟩
  · rfl
  · rfl

/-- The multiples of the period within a duration that does not wrap around,
as a grid that is based where the timestamps last wrapped around. -/
theorem fade_successor {period start duration now delay : Nat}
    (positive : 0 < period) (ordered : start ≤ now)
    (unfinished : now < start + duration)
    (unwrapped : start % 2 ^ 32 + duration < 2 ^ 32)
    (asked :
      delay = min (duration - (now - start)) (untilGrid period (now % 2 ^ 32))) :
    Successor
      {time |
        time = start + duration ∨
          start < time ∧ time < start + duration ∧ period ∣ time % 2 ^ 32}
      now (now + delay) := by
  have phase {time : Nat} (after : start ≤ time)
      (before : time < start + duration) :
      time % 2 ^ 32 = time - (start - start % 2 ^ 32) := by
    omega
  have based : start - start % 2 ^ 32 ≤ now := by
    omega
  have next := successor_gridUntil positive based unfinished
  rw [phase ordered unfinished] at asked
  have rest : duration - (now - start) = start + duration - now := by
    omega
  rw [rest] at asked
  rw [asked]
  obtain ⟨⟨point, after⟩, least⟩ := next
  refine ⟨⟨?_, after⟩, ?_⟩
  · rcases point with same | ⟨within, multiple⟩
    · exact Or.inl same
    · refine Or.inr ⟨Nat.lt_of_le_of_lt ordered after, within, ?_⟩
      rw [phase (by omega) within]
      exact multiple
  · rintro time ⟨due, later⟩
    apply least
    refine ⟨?_, later⟩
    rcases due with same | ⟨began, within, multiple⟩
    · exact Or.inl same
    · rw [phase (Nat.le_of_lt began) within] at multiple
      exact Or.inr ⟨within, multiple⟩

/-- The whole periods after an activation, as a grid that is based there. -/
theorem gradient_successor {period start duration now delay : Nat}
    (positive : 0 < period) (ordered : start ≤ now)
    (unfinished : now < start + duration)
    (asked :
      delay = min (duration - (now - start)) (untilGrid period (now - start))) :
    Successor
      {time |
        time = start + duration ∨
          ∃ count, 1 ≤ count ∧ count * period < duration ∧
            time = start + count * period}
      now (now + delay) := by
  have next := successor_gridUntil positive ordered unfinished
  have rest : duration - (now - start) = start + duration - now := by
    omega
  rw [rest] at asked
  rw [asked]
  obtain ⟨⟨point, after⟩, least⟩ := next
  refine ⟨⟨?_, after⟩, ?_⟩
  · rcases point with same | ⟨within, count, multiple⟩
    · exact Or.inl same
    · have sum := Nat.mul_comm period count
      refine Or.inr ⟨count, ?_, by omega, by omega⟩
      apply Nat.pos_of_ne_zero
      rintro rfl
      omega
  · rintro time ⟨due, later⟩
    apply least
    refine ⟨?_, later⟩
    rcases due with same | ⟨count, -, within, rfl⟩
    · exact Or.inl same
    · refine Or.inr ⟨by omega, count, ?_⟩
      rw [Nat.add_sub_cancel_left, Nat.mul_comm]

section Execute

variable {slot : InstructionMemorySlot} {instr : ControllerInstruction}
  {transition : Transition} {id : StripId} {pixel : Nat}
  {strips : StripId → Strip} {period : UInt32} {start now : Nat}

theorem execute_asks (active : slot.active = some instr)
    (bound : instr.controller = true) (covers : slot.Covers id pixel)
    (found : slot.transition = some transition)
    (lit : pixel < (strips id).ledCount) (refresh : period ≠ 0)
    (ordered : start ≤ now)
    (since : slot.elapsed (UInt32.ofNat now) = now - start) :
    ((slot.execute strips period (UInt32.ofNat now)).2.1 = 0 ↔
        start + transition.durationMs.toNat ≤ now) ∧
      (slot.execute strips period (UInt32.ofNat now)).2.1.toNat ≤
        start + transition.durationMs.toNat - now ∧
      (now < start + transition.durationMs.toNat →
        start % 2 ^ 32 + transition.durationMs.toNat < 2 ^ 32 →
          Successor {time | slot.UpdateTime period.toNat start time} now
            (now +
              (slot.execute strips period (UInt32.ofNat now)).2.1.toNat)) := by
  have positive := toNat_period_pos refresh
  rcases store_of_transition active bound covers found with
    ⟨fade, rfl, stored, duration, -⟩ | ⟨gradient, rfl, stored, duration, -⟩
  · have kept : fade.elapsed (UInt32.ofNat now) = now - start := by
      rw [stored] at since
      exact since
    rw [stored, store_execute_fade lit, duration]
    have delay :=
      @Fade.toNat_execute_delay fade id
        ((strips id).color fade.index.toNat) period (UInt32.ofNat now) refresh
    have completes :=
      @Fade.execute_delay_eq_zero_iff fade id
        ((strips id).color fade.index.toNat) period (UInt32.ofNat now) refresh
    rw [kept] at delay completes
    rw [UInt32.toNat_ofNat'] at delay
    refine
      ⟨completes.trans (by omega), Nat.le_trans (Nat.le_of_eq delay) (by omega),
        ?_⟩
    intro unfinished unwrapped
    exact fade_successor positive ordered unfinished unwrapped delay
  · have kept : gradient.elapsed (UInt32.ofNat now) = now - start := by
      rw [stored] at since
      exact since
    rw [stored, store_execute_gradient lit, duration]
    have delay :=
      @Gradient.toNat_execute_delay gradient id
        ((strips id).color gradient.index.toNat) period (UInt32.ofNat now)
        refresh
    have completes :=
      @Gradient.execute_delay_eq_zero_iff gradient id
        ((strips id).color gradient.index.toNat) period (UInt32.ofNat now)
        refresh
    rw [kept] at delay completes
    refine
      ⟨completes.trans (by omega), Nat.le_trans (Nat.le_of_eq delay) (by omega),
        ?_⟩
    intro unfinished _
    exact gradient_successor positive ordered unfinished delay

end Execute

end InstructionMemorySlot

end PrismKit
