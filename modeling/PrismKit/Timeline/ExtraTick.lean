import PrismKit.Timeline.Wakeup

/-!
# Extra ticks

A `Run` before the scheduled instant finds the machine as quiescent as the
last one left it: it changes nothing and asks for the same instant again.
-/

namespace PrismKit

open Library Relation

namespace Machine

variable {rank : Nat → Nat} {machine : Machine} {timestamp : UInt32}

theorem Quiescent.no_step (quiescent : Quiescent timestamp machine)
    (sound : machine.Sound rank) {event : Event} {next : Controller} :
    ¬ machine.toController.Step machine.strips timestamp event next := by
  intro step
  have enabled := step.enabled
  cases event with
  | launched parent slot child repeats =>
      exact quiescent.not_due sound parent enabled.1
  | rejected parent slot status =>
      exact quiescent.not_due sound parent enabled.1
  | executed group slot delay =>
      exact quiescent.not_due sound group enabled.1
  | resumed group slot delay =>
      obtain ⟨position, entry, resumable, -, -⟩ := enabled
      have waits :=
        quiescent.settled entry (List.mem_of_getElem? resumable.found)
      rw [resumable.reached] at waits
      exact Bool.noConfusion waits
  | restarted group =>
      exact quiescent.not_ready sound group enabled.1
  | ended group =>
      exact quiescent.not_ready sound group enabled.1
  | started repeats =>
      exact enabled
  | discarded group slot =>
      exact enabled

theorem runLoop_of_quiescent (quiescent : Quiescent timestamp machine)
    (sound : machine.Sound rank) (fuel : Nat) :
    runLoop timestamp (fuel + 1) machine = some machine := by
  have still :
      ∀ after, ¬ TransGen (Move timestamp) machine after := by
    intro after moves
    obtain ⟨next, move, -⟩ := TransGen.head'_iff.mp moves
    obtain ⟨event, step, -⟩ := move.step sound
    exact quiescent.no_step sound step
  have iteration := iteration_spec timestamp machine
  rw [runLoop]
  simp only at iteration ⊢
  split
  · rename_i progress
    rw [if_pos progress] at iteration
    exact absurd iteration (still _)
  · rename_i idle
    rw [if_neg idle] at iteration
    rw [iteration.1]

/-! ### Until the scheduled instant -/

/-- The remaining time shrinks by the time that passes. -/
private theorem remaining_later {due : UInt32} {now later : Nat}
    (ordered : now ≤ later)
    (before : later - now < (due - UInt32.ofNat now).toNat) :
    (due - UInt32.ofNat later).toNat =
      (due - UInt32.ofNat now).toNat - (later - now) := by
  have bound := (due - UInt32.ofNat now).toNat_lt
  have remaining := toNat_sub_later due ordered (by omega)
  rw [if_pos (by omega)] at remaining
  exact remaining

/-- A deadline that lies ahead and was not reached stays unreached until it
arrives. -/
private theorem not_reached_later {deadline : UInt32} {now later : Nat}
    (ordered : now ≤ later)
    (waits : deadlineReached (UInt32.ofNat now) deadline = false)
    (before : later - now < (deadline - UInt32.ofNat now).toNat) :
    deadlineReached (UInt32.ofNat later) deadline = false := by
  have remaining := remaining_later ordered before
  simp only [deadlineReached, decide_eq_false_iff_not,
    UInt32.lt_iff_toNat_lt] at waits ⊢
  have bound := deadline.toNat_lt
  rw [UInt32.toNat_sub] at waits remaining before ⊢
  rw [UInt32.toNat_sub] at remaining
  have half : (0x80000000 : UInt32).toNat = 2147483648 := rfl
  rw [half] at waits ⊢
  have nowBound := (UInt32.ofNat now).toNat_lt
  have laterBound := (UInt32.ofNat later).toNat_lt
  omega

theorem Quiescent.later {now later : Nat}
    (quiescent : Quiescent (UInt32.ofNat now) machine)
    (sound : machine.Sound rank) (ordered : now ≤ later)
    (before :
      ∀ due ∈ machine.dueTimes,
        later - now < (due - UInt32.ofNat now).toNat) :
    Quiescent (UInt32.ofNat later) machine := by
  constructor
  · intro entry member
    apply not_reached_later ordered (quiescent.settled entry member)
    apply before
    exact
      List.mem_append_left _ (List.mem_map.mpr ⟨entry, member, rfl⟩)
  · exact quiescent.unready
  · intro group below active deep
    by_contra due
    have due' :
        machine.cursorDue group
            (UInt32.ofNat later - (machine.runtimes group).startTime) =
          true := by
      simpa using due
    have record := sound.committed.record group
    simp only [cursorDue, cursorSlot_eq sound group, record,
      decide_eq_true_eq] at due'
    obtain ⟨remaining, reached⟩ := due'
    have awaits : machine.AwaitsMark group := ⟨active, remaining⟩
    obtain ⟨ahead, time, -⟩ := quiescent.nextDue_ahead sound awaits
    have awaited : machine.nextDue group ∈ machine.dueTimes := by
      apply List.mem_append_right
      exact
        List.mem_map.mpr
          ⟨group,
            List.mem_filter.mpr
              ⟨List.mem_range.mpr below, decide_eq_true awaits⟩, rfl⟩
    have left := remaining_later ordered (before _ awaited)
    have soon := before _ awaited
    rw [← time, UInt32.toNat_sub_of_le _ _ (UInt32.le_of_lt ahead)] at left soon
    -- The elapsed time is what the mark exceeds the remaining time by.
    have elapsed :
        UInt32.ofNat later - (machine.runtimes group).startTime =
          (machine.instructions (machine.nextSlot group)).getMark.toUInt32 -
            (machine.nextDue group - UInt32.ofNat later) := by
      unfold Controller.nextDue
      grind
    have within :
        machine.nextDue group - UInt32.ofNat later ≤
          (machine.instructions
            (machine.nextSlot group)).getMark.toUInt32 := by
      rw [UInt32.le_iff_toNat_le, left]
      omega
    rw [elapsed, UInt32.le_iff_toNat_le, UInt32.toNat_sub_of_le _ _ within,
      left] at reached
    omega

private theorem earliest_later {now later : Nat} {times : List UInt32}
    {timeout timeout' : UInt32} (ordered : now ≤ later)
    (earliest :
      Earliest 0 (times.map fun due => due - UInt32.ofNat now) timeout)
    (earliest' :
      Earliest 0 (times.map fun due => due - UInt32.ofNat later) timeout')
    (nonempty : times ≠ []) (before : later - now < timeout.toNat) :
    timeout'.toNat = timeout.toNat - (later - now) := by
  obtain ⟨-, member, lower⟩ :=
    earliest.of_ne_nil (by simpa using nonempty)
  obtain ⟨-, member', lower'⟩ :=
    earliest'.of_ne_nil (by simpa using nonempty)
  obtain ⟨due, among, same⟩ := List.mem_map.mp member
  obtain ⟨due', among', same'⟩ := List.mem_map.mp member'
  have least :=
    UInt32.le_iff_toNat_le.mp
      (lower _ (List.mem_map.mpr ⟨due', among', rfl⟩))
  have least' :=
    UInt32.le_iff_toNat_le.mp
      (lower' _ (List.mem_map.mpr ⟨due, among, rfl⟩))
  have left : (due - UInt32.ofNat later).toNat = _ :=
    remaining_later ordered (by rw [same]; exact before)
  have left' : (due' - UInt32.ofNat later).toNat = _ :=
    remaining_later ordered (by omega)
  rw [same] at left
  rw [same'] at left'
  omega

private theorem run_of_quiescent {later : Nat}
    (sound : machine.Sound rank) (active : machine.state = .active)
    (quiescent : Quiescent (machine.getTimestamp later) machine) :
    ∃ timeout,
      Earliest 0
          (machine.dueTimes.map fun due => due - machine.getTimestamp later)
          timeout ∧
        ∀ fuel,
          machine.run (fuel + 1) later =
            some
              ({ machine.beginRun later with
                  minScheduledTimeout := timeout
                  outputs :=
                    machine.outputs ++
                      if timeout > 0 ∧ machine.scheduleCallback then
                        [.schedule timeout]
                      else
                        [] }, .success) := by
  have rests := resting_beginRun machine later
  have quiescent' := rests.quiescent quiescent
  have sound' := beginRun_sound later sound
  obtain ⟨timeout, earliest, scheduled⟩ :=
    scheduleNextRun_eq sound' quiescent' rfl
  rw [rests.dueTimes_eq] at earliest
  refine ⟨timeout, earliest, ?_⟩
  intro fuel
  simp only [run, active, ne_eq, not_true_eq_false, if_false,
    runLoop_of_quiescent quiescent' sound' fuel, scheduled]
  rfl

/-- An extra tick: a `Run` at a clock reading from the one of the last `Run`
up to the instant that `Run` has scheduled, or at any reading if it has
scheduled none.  It does nothing but schedule that instant again. -/
theorem extra_tick {before machine : Machine} {now later : Nat}
    {status : ControllerStatus} (reachable : Reachable before)
    (left : Performs (.run now) before machine status)
    (ordered :
      machine.state = .active →
        before.clockReading now ≤ machine.clockReading later)
    (soon :
      machine.state = .active → machine.minScheduledTimeout ≠ 0 →
        machine.clockReading later <
          before.clockReading now + machine.minScheduledTimeout.toNat) :
    (machine.state = .active →
        ∃ appended,
          machine.outputs = before.outputs ++ appended ∧
            appended.filterMap Output.wakeup =
              if machine.scheduleCallback then
                [machine.minScheduledTimeout]
              else
                []) ∧
      ∃ after,
        (∀ fuel, machine.run (fuel + 1) later = some (after, .success)) ∧
          after.runtimes = machine.runtimes ∧
          after.executing = machine.executing ∧
          after.instructions = machine.instructions ∧
          after.state = machine.state ∧ after.strips = machine.strips ∧
          after.history = machine.history ∧
          (machine.state ≠ .active → after.outputs = machine.outputs) ∧
          (machine.state = .active →
            ∃ delay : UInt32,
              delay.toNat =
                  before.clockReading now +
                      machine.minScheduledTimeout.toNat -
                    machine.clockReading later ∧
                after.outputs =
                  machine.outputs ++
                    if machine.scheduleCallback then
                      [.schedule delay]
                    else
                      []) := by
  have legal := legal_of_reachable reachable
  by_cases active : machine.state = .active
  · have began : before.state = .active := by
      by_contra stopped
      obtain ⟨fuel, runs⟩ := left
      simp only [run, ne_eq, stopped, not_false_eq_true, if_true,
        Option.some.injEq, Prod.mk.injEq] at runs
      rw [← runs.1] at active
      exact stopped active
    have chronicle := legal.chronicle (by rw [began]; simp)
    have concluded := chronicle.concluded began left
    obtain ⟨rank, sound⟩ := concluded.chronicle.sound
    obtain ⟨present, -, lower⟩ := concluded.earliest_of_active active
    have positive : machine.minScheduledTimeout > 0 :=
      UInt32.pos_iff_ne_zero.mpr present
    have near := soon active present
    have ordered := ordered active
    have ahead :
        ∀ due ∈ machine.dueTimes,
          machine.clockReading later - before.clockReading now <
            (due - before.getTimestamp now).toNat := by
      intro due among
      have least :=
        UInt32.le_iff_toNat_le.mp
          (lower _ (List.mem_map.mpr ⟨due, among, rfl⟩))
      omega
    have quiescent : Quiescent (machine.getTimestamp later) machine :=
      concluded.quiescent.later sound ordered ahead
    obtain ⟨timeout, earliest, runs⟩ :=
      run_of_quiescent sound active quiescent
    have nonempty : machine.dueTimes ≠ [] := by
      intro empty
      have earliest := concluded.earliest
      rw [empty] at earliest
      cases earliest with
      | absent _ same =>
          exact present same
      | least _ member _ =>
          exact absurd member List.not_mem_nil
    have left :=
      earliest_later ordered concluded.earliest earliest nonempty (by omega)
    have pending : timeout > 0 := by
      rw [gt_iff_lt, UInt32.lt_iff_toNat_lt, left, UInt32.toNat_zero]
      omega
    constructor
    · intro _
      obtain ⟨appended, outputs, wakeups⟩ := concluded.outputs
      refine ⟨appended, outputs, ?_⟩
      rw [wakeups, concluded.callback]
      simp only [positive, true_and]
    · refine
        ⟨_, runs, rfl, rfl, rfl, rfl, rfl, rfl,
          fun stopped => absurd active stopped, ?_⟩
      intro _
      refine ⟨timeout, ?_, ?_⟩
      · omega
      · simp only [pending, true_and]
  · constructor
    · intro running
      exact absurd running active
    · refine
        ⟨machine, ?_, rfl, rfl, rfl, rfl, rfl, rfl, fun _ => rfl,
          fun running => absurd running active⟩
      intro fuel
      simp only [run, ne_eq, active, not_false_eq_true, if_true]

/-- The last tick of `waiting` scheduled the next one seventeen milliseconds
later; it may be repeated at once or made early. -/
theorem extra_tick_of_waiting :
    ∃ machine status,
      Performs (.run 3) waiting machine status ∧
        (∃ after, machine.run 1 3 = some (after, .success) ∧
          after.executing = machine.executing) ∧
        ∃ after, machine.run 1 19 = some (after, .success) ∧
          after.executing = machine.executing := by
  have returns : (waiting.run 40 3).isSome = true := by
    decide +kernel
  have facts :
      (waiting.run 40 3).all
          (fun result =>
            decide (result.1.minScheduledTimeout = 17) &&
              result.1.timestampCallback) =
        true := by
    decide +kernel
  obtain ⟨⟨machine, status⟩, runs⟩ := Option.isSome_iff_exists.mp returns
  rw [runs] at facts
  simp only [Option.all_some, Bool.and_eq_true, decide_eq_true_eq] at facts
  obtain ⟨timeout, clocked⟩ := facts
  have performs : Performs (.run 3) waiting machine status :=
    ⟨40, runs⟩
  have reachable : Reachable waiting :=
    reachable_hosted _ _
  have began : waiting.clockReading 3 = 3 := by
    decide +kernel
  have reading : ∀ later, machine.clockReading later = later := by
    intro later
    exact if_pos clocked
  have seventeen : (17 : UInt32).toNat = 17 := rfl
  obtain ⟨-, again, runsAgain, -, same, -⟩ :=
    extra_tick reachable performs
      (show _ → waiting.clockReading 3 ≤ machine.clockReading 3 by
        intro _
        rw [began, reading])
      (by rw [began, reading, timeout, seventeen]; omega)
  obtain ⟨-, early, runsEarly, -, kept, -⟩ :=
    extra_tick reachable performs
      (show _ → waiting.clockReading 3 ≤ machine.clockReading 19 by
        intro _
        rw [began, reading]
        omega)
      (by rw [began, reading, timeout, seventeen]; omega)
  exact
    ⟨machine, status, performs, ⟨again, runsAgain 0, same⟩, early,
      runsEarly 0, kept⟩

end Machine

end PrismKit
