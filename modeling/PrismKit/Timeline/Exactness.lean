import PrismKit.Controller.ExactExecution
import PrismKit.Timeline.Observation
import PrismKit.Timeline.Replay

/-!
# Exact timing arithmetic

The refresh period is checked where it is set, and a started Fade or Gradient
of an active group holds what its activation in the current pass stored.  Both
reach every execution of a run, so that its arithmetic is exact.
-/

namespace PrismKit

open Library Machine

namespace Controller

variable {rank : Nat → Nat} {controller next : Controller}
  {strips : StripId → Strip} {timestamp : UInt32} {event : Event}

/-- The refresh period is positive, and less than half the timestamp range. -/
def Paced (controller : Controller) : Prop :=
  0 < controller.refreshPeriodMs.toNat ∧
    controller.refreshPeriodMs.toNat < 2 ^ 31

def Consistent (controller : Controller) : Prop :=
  ∀ group, (controller.runtimes group).active = true →
    ∀ index ∈ controller.timeline group,
      (controller.instructions index).Consistent

/-- Every execution in an active group is exact, whatever is staged and
whatever the clock shows. -/
structure Exact (controller : Controller) : Prop where
  paced : controller.Paced
  slots :
    ∀ group, (controller.runtimes group).active = true →
      ∀ index ∈ controller.timeline group, ∀ strips timestamp,
        (controller.instructions index).Exact strips
          controller.refreshPeriodMs timestamp

theorem Consistent.exact (consistent : controller.Consistent)
    (paced : controller.Paced) : controller.Exact := by
  refine ⟨paced, ?_⟩
  intro group active index member strips timestamp
  apply (consistent group active index member).exact
  intro zero
  have positive := paced.1
  rw [zero] at positive
  exact Nat.not_lt_zero _ positive

/-- A pass resets its slots when it opens, and executions keep them
consistent. -/
theorem Consistent.step (consistent : controller.Consistent)
    (step : Step strips timestamp controller event next) :
    next.Consistent := by
  intro group active index member
  rw [step.sameProgram.timeline_eq] at member
  have running
      (before : (controller.runtimes group).active = true) :
      (next.instructions index).Consistent := by
    have slot := consistent group before index member
    rcases step.instruction index with
      kept | ⟨reset, -⟩ | ⟨owner, delay, executed⟩
    · rw [kept]
      exact slot
    · rw [reset]
      exact InstructionMemorySlot.consistent_resetForReplay _
    · obtain ⟨writes, shown, result⟩ := step.executes executed
      have after := slot.execute strips controller.refreshPeriodMs timestamp
      rw [result] at after
      exact after
  cases step.passStep group with
  | opened activation opens closes quiet after cursor startTime =>
      rw [step.reset_of_opens opens member]
      exact InstructionMemorySlot.consistent_resetForReplay _
  | ended event_eq after =>
      have inactive := GroupRuntime.activation_eq_none_iff.mp after
      rw [active] at inactive
      exact Bool.noConfusion inactive
  | dispatched activation due dispatches opens closes before after =>
      exact running due.active
  | untouched opens closes quiet after =>
      have now := GroupRuntime.activation_of_active active
      exact running (activation_eq_some (after.symm.trans now)).1

end Controller

namespace Machine

theorem Origin.consistent {repeats : LoopCount} {machine : Machine}
    (origin : Origin repeats machine) : machine.Consistent := by
  intro group active index member
  have found := origin.activation group
  by_cases isRoot : group = 0 ∧ machine.size 0 ≠ 0
  · obtain ⟨rfl, nonempty⟩ := isRoot
    obtain ⟨position, inRange, rfl⟩ := List.mem_map.mp member
    have fresh := origin.fresh nonempty position (List.mem_range.mp inRange)
    rw [← fresh]
    exact InstructionMemorySlot.consistent_resetForReplay _
  · rw [if_neg isRoot] at found
    have inactive := GroupRuntime.activation_eq_none_iff.mp found
    rw [active] at inactive
    exact Bool.noConfusion inactive

theorem Chronicle.consistent {inside : Bool} {machine : Machine}
    (chronicle : Chronicle inside machine) : machine.Consistent := by
  refine
    chronicle.invariant (fun machine => machine.Consistent) ?_ ?_ ?_
  · intro repeats machine origin
    exact origin.consistent
  · intro before after rests inductionHypothesis
    unfold Controller.Consistent
    rw [rests.runtimes, rests.instructions, rests.timeline_eq]
    exact inductionHypothesis
  · intro rank before after event earlier sound step logged
      inductionHypothesis
    exact inductionHypothesis.step step

theorem Stocked.paced {machine : Machine} (stocked : Stocked machine) :
    machine.Paced := by
  have valid := stocked.period
  rw [not_or, ← UInt32.toNat_inj, ge_iff_le, UInt32.le_iff_toNat_le] at valid
  obtain ⟨nonzero, below⟩ := valid
  exact ⟨Nat.pos_of_ne_zero nonzero, Nat.not_le.mp below⟩

/-- A `Run` does not change the refresh period, and records it. -/
theorem paced_of_run {before after : Machine} (legal : Legal before)
    {fuel now : Nat} {status : ControllerStatus}
    (runs : before.run fuel now = some (after, status))
    (paced : before.Paced)
    (recorded : ∀ moment ∈ before.history, moment.before.Paced) :
    ∀ moment ∈ after.history, moment.before.Paced := by
  by_cases active : before.state = .active
  · have loaded : before.state ≠ .editable := by
      rw [active]
      decide
    have chronicle := legal.chronicle loaded
    obtain ⟨settled, running, moves, same, quiescent, rfl, -⟩ :=
      chronicle.run active runs
    rw [(adjusted_conclusion _ settled).history]
    rw [← timestamp_beginRun] at moves
    refine
      (Chronicle.moves_invariant
        (fun machine =>
          machine.Paced ∧ ∀ moment ∈ machine.history, moment.before.Paced)
        (.began before now chronicle active) moves ⟨paced, recorded⟩ ?_).2
    intro rank current next event earlier stays sound step logged
    rintro ⟨currentPaced, currentRecorded⟩
    refine ⟨?_, ?_⟩
    · unfold Controller.Paced
      rw [step.sameProgram.refreshPeriodMs]
      exact currentPaced
    · intro moment member
      rw [logged.history] at member
      rcases List.mem_append.mp member with old | new
      · exact currentRecorded moment old
      · rw [List.mem_singleton.mp new]
        exact currentPaced
  · unfold Machine.run at runs
    rw [if_pos active] at runs
    cases runs
    exact recorded

/-- Every step was made with a refresh period in range. -/
theorem recorded_paced {machine : Machine} (reachable : Reachable machine) :
    ∀ moment ∈ machine.history, moment.before.Paced := by
  induction reachable with
  | fresh strips =>
      intro moment member
      exact absurd member List.not_mem_nil
  | @perform before after status operation earlier performs
      inductionHypothesis =>
      have legal := legal_of_reachable earlier
      have paced := (stocked_of_reachable earlier).paced
      cases operation with
      | addInstruction instr =>
          have performs' : before.addInstruction instr = (after, status) :=
            performs
          have kept : (before.addInstruction instr).1.history =
              before.history := by
            unfold Machine.addInstruction
            split
            · rfl
            · split
              · rfl
              · split <;> rfl
          rw [performs'] at kept
          rw [kept]
          exact inductionHypothesis
      | start repeats now =>
          have performs' : before.start repeats now = (after, status) :=
            performs
          rcases start_cases legal.loadable repeats now with
            ⟨-, refused⟩ | ⟨-, -, failure, -, refused⟩ |
              ⟨-, -, build, -, -, -, -, history, -⟩
          · rw [refused] at performs'
            cases performs'
            exact inductionHypothesis
          · rw [refused] at performs'
            cases performs'
            exact inductionHypothesis
          · rw [performs'] at history
            intro moment member
            rw [history] at member
            split at member
            · exact absurd member List.not_mem_nil
            · rw [List.mem_singleton.mp member]
              exact paced
      | run now =>
          obtain ⟨fuel, runs⟩ := performs
          exact paced_of_run legal runs paced inductionHypothesis
      | setRefreshPeriodMs periodMs =>
          have performs' :
              before.setRefreshPeriodMs periodMs = (after, status) :=
            performs
          unfold Machine.setRefreshPeriodMs at performs'
          split at performs'
          · cases performs'
            exact inductionHypothesis
          · split at performs'
            · cases performs'
              exact inductionHypothesis
            · cases performs'
              exact inductionHypothesis
      | resetInstructions =>
          obtain ⟨rfl, -⟩ := performs
          intro moment member
          exact absurd member List.not_mem_nil
      | _ =>
          obtain ⟨rfl, -⟩ := performs
          exact inductionHypothesis

end Machine

/-- The timing arithmetic is exact in every reachable state.  The refresh
period stays in range; whatever a slot of an active group finds staged, and
whatever the clock shows, its execution divides by no zero, and no sum, product
or narrowing cast in it changes a value; and the delays that Fade and Gradient
return are zero on completion and fit 16 bits otherwise.  This also holds where
a `Run` has executed an instruction. -/
theorem timing_exact {machine : Machine} (reachable : Reachable machine) :
    machine.Exact ∧
      (∀ moment ∈ machine.history, moment.before.Paced) ∧
      ∀ moment ∈ machine.history, ∀ group index delay,
        (moment.event = .resumed group index delay ∨
            moment.event = .executed group index delay) →
          moment.before.Exact ∧
            (moment.before.runtimes group).active = true ∧
            index ∈ moment.before.timeline group ∧
            delay.toNat ≤ 65535 ∧
            ∃ strips writes shown,
              let timestamp :=
                UInt32.ofNat (machine.clocks.getD moment.run 0)
              let slot := moment.before.instructions index
              InstructionMemorySlot.Checked.execute strips
                  moment.before.refreshPeriodMs timestamp slot =
                some
                  (moment.after.instructions index, delay, writes, shown) ∧
                (delay = 0 ↔ slot.Completes strips timestamp) := by
  have legal := legal_of_reachable reachable
  have recorded := recorded_paced reachable
  refine ⟨?_, recorded, ?_⟩
  · have consistent : machine.Consistent := by
      intro group active
      exact (legal.chronicle_of_active active).consistent group active
    exact consistent.exact (stocked_of_reachable reachable).paced
  · intro moment member group index delay executed
    obtain ⟨earlier, later, split⟩ := List.append_of_mem member
    have chronicle :=
      legal.chronicle_of_history (List.ne_nil_of_mem member)
    rcases chronicle.recorded earlier moment later split with
      ⟨-, -, repeats, started⟩ | ⟨before, snapshot⟩
    · rw [started] at executed
      rcases executed with impossible | impossible <;> cases impossible
    · have exactness := (snapshot.controller ▸ snapshot.chronicle.consistent :
        moment.before.Consistent).exact (recorded moment member)
      obtain ⟨rank, sound, step⟩ := snapshot.step
      obtain ⟨active, position, slotEq, inRange, -⟩ :=
        step.position_of_executed sound.work executed
      obtain ⟨writes, shown, result⟩ := step.executes executed
      rw [snapshot.timestamp_eq] at result
      rw [snapshot.controller] at active slotEq inRange result
      have stored : index ∈ moment.before.timeline group :=
        List.mem_map.mpr ⟨position, List.mem_range.mpr inRange, slotEq⟩
      obtain ⟨checked, bounded, completes⟩ :=
        exactness.slots group active index stored before.strips
          (UInt32.ofNat (machine.clocks.getD moment.run 0))
      rw [result] at checked bounded completes
      exact
        ⟨exactness, active, stored, bounded, before.strips, writes, shown,
          checked, completes⟩

namespace Machine

/-- A Fade that was resumed once, ten milliseconds before its end, and a
Gradient that stands at its second sample. -/
def blending : Machine :=
  hosted
    [{ kind := .fade { percent := 50, durationMs := 30 } },
      { kind :=
          .gradient { target := ⟨0, 0, 200⟩, durationMs := 50, index := 1 } }]
    [.start 0 0, .run 0, .run 20]

theorem timing_exact_of_blending :
    blending.Exact ∧ (blending.runtimes 0).active = true ∧
      ∃ moment ∈ blending.history,
        moment.event = .resumed 0 0 10 ∧ moment.before.Exact := by
  have reachable : Reachable blending := reachable_hosted _ _
  have active : (blending.runtimes 0).active = true := by
    decide +kernel
  have resumes :
      blending.history.any
          (fun moment => decide (moment.event = .resumed 0 0 10)) =
        true := by
    decide +kernel
  obtain ⟨now, -, recorded⟩ := timing_exact reachable
  obtain ⟨moment, member, found⟩ := List.any_eq_true.mp resumes
  have event : moment.event = .resumed 0 0 10 := of_decide_eq_true found
  obtain ⟨exactness, -⟩ :=
    recorded moment member 0 0 10 (Or.inl event)
  exact ⟨now, active, moment, member, event, exactness⟩

end Machine

end PrismKit
