import PrismKit.Library.Earliest
import PrismKit.Timeline.Completion
import PrismKit.Timeline.Session

/-!
# Wakeups

At the end of every `Run` that leaves the program active, something is still
to come: the deadline of a timed instruction or the mark of the next
instruction of an active group.  `ScheduleNextRun` asks to be woken up for the
earliest of them, which lies ahead and fits in sixteen bits.
-/

namespace PrismKit

open Library Relation

def Output.wakeup : Output → Option UInt32
  | .schedule delayMs => some delayMs
  | _ => none

namespace Controller

variable {rank : Nat → Nat} {controller next : Controller}
  {strips : StripId → Strip} {timestamp : UInt32} {event : Event}

/-- The instant at which the next instruction of a group becomes due. -/
def nextDue (controller : Controller) (group : Nat) : UInt32 :=
  (controller.runtimes group).startTime +
    (controller.instructions (controller.nextSlot group)).getMark.toUInt32

def AwaitsMark (controller : Controller) (group : Nat) : Prop :=
  (controller.runtimes group).active = true ∧
    (controller.runtimes group).cursor < controller.size group

instance (group : Nat) : Decidable (controller.AwaitsMark group) :=
  inferInstanceAs (Decidable (_ ∧ _))

/-- The instants the program waits for: the deadlines of its timed
instructions and the next marks of its active groups. -/
def dueTimes (controller : Controller) : List UInt32 :=
  controller.executing.map ExecutingInstruction.deadline ++
    ((List.range controller.groupCount).filter
      fun group => controller.AwaitsMark group).map controller.nextDue

theorem ahead_of_delay {instant delay : UInt32} {index : Nat}
    {slot : InstructionMemorySlot} {shown : Bool}
    (executes :
      controller.Executes strips instant index slot delay shown)
    (positive : delay ≠ 0) : Ahead instant (instant + delay) := by
  obtain ⟨writes, result⟩ := executes
  have bounded :=
    InstructionMemorySlot.execute_delay strips controller.refreshPeriodMs
      instant (controller.instructions index)
  rw [result] at bounded
  unfold Ahead
  rw [add_sub_self]
  exact ⟨positive, bounded⟩

theorem not_reached_of_ahead {deadline : UInt32}
    (ahead : Ahead timestamp deadline) :
    deadlineReached timestamp deadline = false := by
  have split : deadline = timestamp + (deadline - timestamp) := by
    rw [UInt32.add_comm, UInt32.sub_add_cancel]
  rw [split]
  exact deadlineReached_add ahead.1 ahead.2

/-- A step arms deadlines ahead of its timestamp and keeps the others. -/
theorem Step.armed (step : Step strips timestamp controller event next) :
    ∀ entry ∈ next.executing,
      entry ∈ controller.executing ∨ Ahead timestamp entry.deadline := by
  intro entry member
  cases step with
  | resumedAgain position resumed slot delay shown resumable executes
      positive =>
      rcases List.mem_or_eq_of_mem_set member with old | new
      · exact Or.inl old
      · rw [new]
        exact Or.inr (ahead_of_delay executes positive)
  | resumedLast position resumed slot shown resumable executes =>
      left
      have perm := swapRemove_perm resumable.found
      exact perm.mem_iff.mpr (List.mem_cons_of_mem _ member)
  | executedTimed group slot delay shown due settled notRun executes
      positive =>
      rcases List.mem_append.mp member with old | new
      · exact Or.inl old
      · rw [List.mem_singleton.mp new]
        exact Or.inr (ahead_of_delay executes positive)
  | restarted group ready again observed =>
      exact Or.inl member
  | endedRoot ready final =>
      exact Or.inl member
  | endedChild group notRoot ready final =>
      exact Or.inl member
  | launched group child due settled isRun target calls notRoot inactive =>
      left
      simpa [updateRuntime, activate] using member
  | rejected group child due settled isRun target calls notRoot busy =>
      left
      simpa using member
  | executedNow group slot shown due settled notRun executes =>
      left
      simpa [afterExecution] using member

/-- Steps neither record timeouts nor touch the callbacks. -/
theorem Step.callback (step : Step strips timestamp controller event next) :
    next.minScheduledTimeout = controller.minScheduledTimeout ∧
      next.scheduleCallback = controller.scheduleCallback ∧
        next.timestampCallback = controller.timestampCallback := by
  cases step with
  | launched group child due settled isRun target calls notRoot inactive =>
      rw [consume_eq]
      exact ⟨rfl, rfl, rfl⟩
  | rejected group child due settled isRun target calls notRoot busy =>
      rw [consume_eq]
      exact ⟨rfl, rfl, rfl⟩
  | executedNow group slot shown due settled notRun executes =>
      rw [consume_eq]
      exact ⟨rfl, rfl, rfl⟩
  | executedTimed group slot delay shown due settled notRun executes
      positive =>
      rw [consume_eq]
      exact ⟨rfl, rfl, rfl⟩
  | _ =>
      exact ⟨rfl, rfl, rfl⟩

/-- As long as the root is active and nothing is ready, the program waits for
something. -/
theorem Sound.dueTimes_ne_nil (sound : controller.Sound rank)
    (active : (controller.runtimes 0).active = true)
    (unready : ∀ group, ¬ controller.Ready group) :
    controller.dueTimes ≠ [] := by
  intro empty
  obtain ⟨noEntry, noMark⟩ := List.append_eq_nil_iff.mp empty
  have executing : controller.executing = [] := List.map_eq_nil_iff.mp noEntry
  have dispatched :
      ∀ group, (controller.runtimes group).active = true →
        controller.size group ≤ (controller.runtimes group).cursor := by
    intro group active
    apply Nat.le_of_not_lt
    intro remaining
    have member :
        group ∈ (List.range controller.groupCount).filter
          fun group => controller.AwaitsMark group :=
      List.mem_filter.mpr
        ⟨List.mem_range.mpr (sound.tree.inRange group active),
          decide_eq_true ⟨active, remaining⟩⟩
    rw [List.map_eq_nil_iff.mp noMark] at member
    exact absurd member List.not_mem_nil
  -- Every active group waits for a child of smaller rank.
  have inactive :
      ∀ bound group, rank group < bound →
        (controller.runtimes group).active = false := by
    intro bound
    induction bound with
    | zero =>
        intro group below
        exact absurd below (Nat.not_lt_zero _)
    | succ bound inductionHypothesis =>
        intro group below
        by_contra running
        have active : (controller.runtimes group).active = true := by
          simpa using running
        have resumed : (controller.runtimes group).activeCount = 0 := by
          rw [sound.work.counts, Controller.outstanding, executing]
          rfl
        have inRange := sound.tree.inRange group active
        have bounded := sound.committed.bounded
        have waits : (controller.runtimes group).childCount ≠ 0 := by
          intro ended
          exact
            unready group
              ⟨inRange, active, dispatched group active, resumed, ended⟩
        rw [sound.tree.children group (by omega), ne_eq,
          countBelow_eq_zero_iff] at waits
        simp only [not_forall, Bool.not_eq_false] at waits
        obtain ⟨child, -, isChild⟩ := waits
        simp only [Controller.isChild, Bool.and_eq_true, decide_eq_true_eq]
          at isChild
        have notRoot : child ≠ 0 := by
          intro root
          have sentinel := (sound.tree.root (root ▸ isChild.1)).1
          rw [← root, isChild.2] at sentinel
          omega
        have calls := (sound.tree.parent child isChild.1 notRoot).1
        rw [isChild.2] at calls
        have smaller := sound.committed.rank_lt group child calls
        have idle := inductionHypothesis child (by omega)
        rw [isChild.1] at idle
        exact Bool.noConfusion idle
  have idle := inactive (rank 0 + 1) 0 (Nat.lt_succ_self _)
  rw [active] at idle
  exact Bool.noConfusion idle

end Controller

namespace Machine

/-- The instant of the `Run` before the current one. -/
def previousTimestamp (machine : Machine) : UInt32 :=
  UInt32.ofNat (machine.clocks.getD (machine.clocks.length - 2) 0)

/-- Between two `Run`s every deadline lies ahead of the last one; inside a
`Run`, ahead of it or of the one before. -/
theorem Chronicle.armed {inside : Bool} {machine : Machine}
    (chronicle : Chronicle inside machine) (timely : Timely machine.clocks) :
    ∀ entry ∈ machine.executing,
      Ahead machine.timestamp entry.deadline ∨
        inside = true ∧ Ahead machine.previousTimestamp entry.deadline := by
  induction chronicle with
  | started before after repeats now loadable starts =>
      intro entry member
      rw [(origin_of_start loadable starts).executing] at member
      exact absurd member List.not_mem_nil
  | adjusted before after earlier adjusts inductionHypothesis =>
      intro entry member
      rw [adjusts.clocks] at timely
      rw [adjusts.executing] at member
      rcases inductionHypothesis timely entry member with ahead | ⟨flag, -⟩
      · left
        simpa only [timestamp, adjusts.clocks] using ahead
      · exact Bool.noConfusion flag
  | began before now earlier active inductionHypothesis =>
      intro entry member
      have rests := resting_beginRun before now
      rcases inductionHypothesis (timely.of_prefix rests.clocks) entry
        member with ahead | ⟨flag, -⟩
      · right
        refine ⟨rfl, ?_⟩
        have long := earlier.clocks_length.1
        have same :
            (before.beginRun now).previousTimestamp = before.timestamp := by
          have length :
              (before.beginRun now).clocks.length - 2 =
                before.clocks.length - 1 := by
            simp [beginRun]
          rw [previousTimestamp, length, timestamp_eq,
            rests.clock_eq (by omega)]
        rw [same]
        exact ahead
      · exact Bool.noConfusion flag
  | moved before after earlier move inductionHypothesis =>
      intro entry member
      obtain ⟨rank, sound⟩ := earlier.sound
      obtain ⟨event, step, logged⟩ := move.step sound
      have clocks := logged.around.clocks
      rw [clocks] at timely
      rw [logged.timestamp_eq, previousTimestamp, clocks]
      rcases step.armed entry member with old | ahead
      · exact inductionHypothesis timely entry old
      · exact Or.inl ahead
  | finished machine earlier quiescent inductionHypothesis =>
      intro entry member
      left
      rcases inductionHypothesis timely entry member with ahead | ⟨-, ahead⟩
      · exact ahead
      · -- The deadline was ahead of the last `Run` and has not arrived.
        have long := earlier.clocks_length.2 rfl
        have waits := quiescent.settled entry member
        have step := timely (machine.clocks.length - 2) (by omega)
        have index :
            machine.clocks.length - 2 + 1 = machine.clocks.length - 1 := by
          omega
        rw [index] at step
        rw [timestamp_eq] at waits ⊢
        apply ahead.later step.1 step.2
        simp only [deadlineReached, decide_eq_false_iff_not,
          UInt32.lt_iff_toNat_lt] at waits
        exact Nat.not_lt.mp waits

/-! ### `ScheduleNextRun` -/

private theorem scheduleTimeout_eq (ms : UInt32) (machine : Machine) :
    machine.scheduleTimeout ms =
      { machine with
        minScheduledTimeout :=
          keepEarlier 0 machine.minScheduledTimeout ms } := by
  unfold scheduleTimeout keepEarlier
  split <;> rfl

private theorem scheduleEntries_eq {timestamp : UInt32} (machine : Machine)
    (entries : List ExecutingInstruction) :
    ∀ (times : List UInt32) (timeout : UInt32),
      (∀ entry ∈ entries,
        deadlineReached timestamp entry.deadline = false) →
      Earliest 0 times timeout →
        ∃ earliest,
          entries.foldl (scheduleEntry timestamp)
              { machine with minScheduledTimeout := timeout } =
            { machine with minScheduledTimeout := earliest } ∧
          Earliest 0
            (times ++ entries.map fun entry => entry.deadline - timestamp)
            earliest := by
  induction entries with
  | nil =>
      intro times timeout _ earliest
      refine ⟨timeout, rfl, ?_⟩
      rw [List.map_nil, List.append_nil]
      exact earliest
  | cons entry rest inductionHypothesis =>
      intro times timeout waiting earliest
      have waits := waiting entry List.mem_cons_self
      have ahead : entry.deadline - timestamp ≠ 0 := by
        intro arrived
        rw [sub_eq_zero_iff.mp arrived, deadlineReached, UInt32.sub_self]
          at waits
        exact absurd waits (by decide)
      obtain ⟨result, scheduled, least⟩ :=
        inductionHypothesis (times ++ [entry.deadline - timestamp])
          (keepEarlier 0 timeout (entry.deadline - timestamp))
          (fun other member => waiting other (List.mem_cons_of_mem _ member))
          (earliest.snoc ahead)
      refine ⟨result, ?_, ?_⟩
      · rw [List.foldl_cons]
        simp only [scheduleEntry, waits, Bool.false_eq_true,
          not_false_eq_true, if_true, scheduleTimeout_eq]
        exact scheduled
      · rw [List.map_cons]
        rw [List.append_assoc, List.singleton_append] at least
        exact least

/-- In a quiescent machine the next mark of a group lies ahead. -/
theorem Quiescent.nextDue_ahead {rank : Nat → Nat}
    {timestamp : UInt32} {machine : Machine}
    (quiescent : Quiescent timestamp machine) (sound : machine.Sound rank)
    {group : Nat} (awaits : machine.AwaitsMark group) :
    timestamp - (machine.runtimes group).startTime <
        (machine.instructions (machine.nextSlot group)).getMark.toUInt32 ∧
      (machine.instructions (machine.nextSlot group)).getMark.toUInt32 -
          (timestamp - (machine.runtimes group).startTime) =
        machine.nextDue group - timestamp ∧
      Ahead timestamp (machine.nextDue group) := by
  obtain ⟨active, remaining⟩ := awaits
  have before :
      timestamp - (machine.runtimes group).startTime <
        (machine.instructions (machine.nextSlot group)).getMark.toUInt32 := by
    apply UInt32.not_le.mp
    intro reached
    exact
      quiescent.not_due sound group
        ⟨sound.tree.inRange group active, active, remaining, reached⟩
  have time :
      (machine.instructions (machine.nextSlot group)).getMark.toUInt32 -
          (timestamp - (machine.runtimes group).startTime) =
        machine.nextDue group - timestamp := by
    unfold Controller.nextDue
    grind
  refine ⟨before, time, ?_, ?_⟩
  · rw [← time]
    intro arrived
    rw [sub_eq_zero_iff.mp arrived] at before
    exact absurd before (UInt32.lt_irrefl _)
  · rw [← time, UInt32.toNat_sub_of_le _ _ (UInt32.le_of_lt before),
      UInt16.toNat_toUInt32]
    have short :=
      (machine.instructions (machine.nextSlot group)).getMark.toNat_lt
    omega

private theorem scheduleGroup_eq {rank : Nat → Nat} {timestamp : UInt32}
    {machine : Machine} (sound : machine.Sound rank)
    (quiescent : Quiescent timestamp machine) (timeout : UInt32)
    (group : Nat) :
    scheduleGroup timestamp group
        { machine with minScheduledTimeout := timeout } =
      { machine with
        minScheduledTimeout :=
          if machine.AwaitsMark group then
            keepEarlier 0 timeout (machine.nextDue group - timestamp)
          else
            timeout } ∧
      (machine.AwaitsMark group → machine.nextDue group - timestamp ≠ 0) := by
  have record := sound.committed.record group
  have slotEq :
      ({ machine with minScheduledTimeout := timeout } : Machine).cursorSlot
          group =
        machine.nextSlot group :=
    cursorSlot_eq sound group
  by_cases awaits : machine.AwaitsMark group
  · obtain ⟨active, remaining⟩ := awaits
    have known : machine.AwaitsMark group := ⟨active, remaining⟩
    obtain ⟨before, time, ahead⟩ := quiescent.nextDue_ahead sound known
    have left :
        ¬ (machine.groups group).instructionCount ≤
            (machine.runtimes group).cursor :=
      Nat.not_le.mpr remaining
    refine ⟨?_, fun _ => ahead.1⟩
    simp only [scheduleGroup, slotEq, record, active, left,
      not_true_eq_false, or_self, if_false, gt_iff_lt, before, if_true,
      known, time, scheduleTimeout_eq]
  · refine ⟨?_, fun known => absurd known awaits⟩
    have idle :
        ¬ (machine.runtimes group).active = true ∨
          (machine.groups group).instructionCount ≤
            (machine.runtimes group).cursor := by
      by_cases active : (machine.runtimes group).active = true
      · right
        apply Nat.le_of_not_lt
        intro remaining
        exact awaits ⟨active, remaining⟩
      · exact Or.inl active
    simp only [scheduleGroup, record, idle, if_true, awaits, if_false]

private theorem scheduleGroups_eq {rank : Nat → Nat} {timestamp : UInt32}
    {machine : Machine} (sound : machine.Sound rank)
    (quiescent : Quiescent timestamp machine) {times : List UInt32}
    {timeout : UInt32} (earliest : Earliest 0 times timeout) (count : Nat) :
    ∃ result,
      forUpTo (scheduleGroup timestamp)
          { machine with minScheduledTimeout := timeout } count =
        { machine with minScheduledTimeout := result } ∧
      Earliest 0
        (times ++
          ((List.range count).filter fun group =>
            machine.AwaitsMark group).map fun group =>
              machine.nextDue group - timestamp)
        result := by
  induction count with
  | zero =>
      refine ⟨timeout, rfl, ?_⟩
      simpa using earliest
  | succ count inductionHypothesis =>
      obtain ⟨result, scheduled, least⟩ := inductionHypothesis
      obtain ⟨step, ahead⟩ := scheduleGroup_eq sound quiescent result count
      rw [forUpTo_succ, scheduled, step]
      refine ⟨_, rfl, ?_⟩
      rw [List.range_succ, List.filter_append, List.map_append,
        ← List.append_assoc]
      by_cases awaits : machine.AwaitsMark count
      · simp only [List.filter_singleton, awaits, decide_true, cond_true,
          List.map_singleton]
        exact least.snoc (ahead awaits)
      · simp only [List.filter_singleton, awaits, decide_false, cond_false,
          List.map_nil, List.append_nil]
        exact least

theorem scheduleNextRun_eq {rank : Nat → Nat} {timestamp : UInt32}
    {machine : Machine} (sound : machine.Sound rank)
    (quiescent : Quiescent timestamp machine)
    (unset : machine.minScheduledTimeout = 0) :
    ∃ timeout,
      Earliest 0 (machine.dueTimes.map fun due => due - timestamp) timeout ∧
        machine.scheduleNextRun timestamp =
          { machine with
            minScheduledTimeout := timeout
            outputs :=
              machine.outputs ++
                if timeout > 0 ∧ machine.scheduleCallback then
                  [.schedule timeout]
                else
                  [] } := by
  obtain ⟨first, entries, earliest⟩ :=
    scheduleEntries_eq machine machine.executing [] 0 quiescent.settled
      (Earliest.nil 0)
  obtain ⟨timeout, groups, least⟩ :=
    scheduleGroups_eq sound quiescent earliest machine.groupCount
  have same :
      ({ machine with minScheduledTimeout := 0 } : Machine) = machine := by
    rw [← unset]
  rw [same] at entries
  refine ⟨timeout, ?_, ?_⟩
  · simpa [Controller.dueTimes, Function.comp_def] using least
  · unfold scheduleNextRun
    simp only [entries, groups]
    split
    · rfl
    · rw [List.append_nil]

/-! ### The end of a `Run` -/

theorem Resting.dueTimes_eq {before after : Machine}
    (rests : Resting before after) : after.dueTimes = before.dueTimes := by
  have nextDue : after.nextDue = before.nextDue := by
    funext group
    simp only [Controller.nextDue, Controller.nextSlot, rests.runtimes,
      rests.instructions, rests.slotAt_eq]
  have awaits :
      ∀ group, after.AwaitsMark group ↔ before.AwaitsMark group := by
    intro group
    unfold Controller.AwaitsMark
    rw [rests.runtimes, rests.size_eq]
  simp only [Controller.dueTimes, rests.executing, rests.groupCount, nextDue,
    awaits]

theorem Resting.quiescent {timestamp : UInt32} {before after : Machine}
    (rests : Resting before after) (quiescent : Quiescent timestamp before) :
    Quiescent timestamp after := by
  constructor
  · unfold Controller.Settled
    rw [rests.executing]
    exact quiescent.settled
  · unfold groupReady
    rw [rests.groupCount, rests.runtimes]
    exact quiescent.unready
  · unfold cursorDue cursorSlot
    rw [rests.groupCount, rests.runtimes, rests.instructions,
      rests.groupIndices]
    exact quiescent.undue

/-- What a `Run` has done before it schedules the next one. -/
private structure Unscheduled (start machine : Machine) : Prop where
  timeout : machine.minScheduledTimeout = 0
  callback : machine.scheduleCallback = start.scheduleCallback
  outputs :
    ∃ appended,
      machine.outputs = start.outputs ++ appended ∧
        appended.filterMap Output.wakeup = []

private theorem Unscheduled.step {start before after : Machine}
    {event : Event} (unscheduled : Unscheduled start before)
    (step :
      before.toController.Step before.strips before.timestamp event
        after.toController)
    (logged : Logged before after event) : Unscheduled start after := by
  obtain ⟨timeout, callback, -⟩ := step.callback
  obtain ⟨writes, written⟩ := logged.around.outputs
  obtain ⟨appended, outputs, silent⟩ := unscheduled.outputs
  constructor
  · rw [timeout]
    exact unscheduled.timeout
  · rw [callback]
    exact unscheduled.callback
  · refine ⟨appended ++ writes.map Output.setColor, ?_, ?_⟩
    · rw [written, outputs, List.append_assoc]
    · have none : (writes.map Output.setColor).filterMap Output.wakeup = [] := by
        simp [List.filterMap_map, Function.comp_def, Output.wakeup]
      rw [List.filterMap_append, silent, none, List.nil_append]

private theorem commitShow_silent (machine : Machine) :
    ∃ shown,
      machine.commitShow =
          { machine with outputs := machine.outputs ++ shown } ∧
        shown.filterMap Output.wakeup = [] := by
  refine ⟨_, commitShow_eq machine, ?_⟩
  split
  · rw [List.filterMap_map]
    exact List.filterMap_eq_nil_iff.mpr fun _ _ => rfl
  · rfl

/-- A machine at the end of a `Run` that began active. -/
structure Concluded (timestamp : UInt32) (before after : Machine) :
    Prop where
  chronicle : Chronicle false after
  timestamp_eq : after.timestamp = timestamp
  quiescent : Quiescent timestamp after
  earliest :
    Earliest 0 (after.dueTimes.map fun due => due - timestamp)
      after.minScheduledTimeout
  callback : after.scheduleCallback = before.scheduleCallback
  outputs :
    ∃ appended,
      after.outputs = before.outputs ++ appended ∧
        appended.filterMap Output.wakeup =
          if after.minScheduledTimeout > 0 ∧ before.scheduleCallback then
            [after.minScheduledTimeout]
          else
            []

theorem Chronicle.concluded {before after : Machine} {now : Nat}
    {status : ControllerStatus} (chronicle : Chronicle false before)
    (active : before.state = .active)
    (performs : Performs (.run now) before after status) :
    Concluded (before.getTimestamp now) before after := by
  obtain ⟨fuel, runs⟩ := performs
  have begun := Chronicle.began before now chronicle active
  obtain ⟨settled, running, moves, same, quiescent, rfl, -⟩ :=
    chronicle.run active runs
  obtain ⟨rank, sound⟩ := running.sound
  rw [← timestamp_beginRun] at moves
  have unscheduled : Unscheduled before settled :=
    begun.moves_invariant (Unscheduled before) moves
      ⟨rfl, rfl, [], (List.append_nil _).symm, rfl⟩
      fun rank current next event _ _ _ step logged unscheduled =>
        unscheduled.step step logged
  obtain ⟨written, outputs, silent⟩ := unscheduled.outputs
  have adjusts := adjusted_conclusion (before.getTimestamp now) settled
  obtain ⟨timeout, earliest, scheduled⟩ :=
    scheduleNextRun_eq sound quiescent unscheduled.timeout
  obtain ⟨shown, concluded, quiet⟩ :=
    commitShow_silent (settled.scheduleNextRun (before.getTimestamp now))
  have finished : Chronicle false settled :=
    .finished settled running (by rw [same]; exact quiescent)
  refine
    ⟨.adjusted settled _ finished adjusts, ?_,
      adjusts.resting.quiescent quiescent, ?_, ?_, ?_⟩
  · rw [timestamp, adjusts.clocks]
    exact same
  · rw [adjusts.resting.dueTimes_eq, concluded, scheduled]
    exact earliest
  · rw [concluded, scheduled]
    exact unscheduled.callback
  · rw [concluded, scheduled]
    refine
      ⟨written ++
        ((if timeout > 0 ∧ settled.scheduleCallback then
            [Output.schedule timeout]
          else
            []) ++ shown), ?_, ?_⟩
    · simp only [outputs, List.append_assoc]
    · rw [List.filterMap_append, List.filterMap_append, silent, quiet,
        unscheduled.callback]
      simp only [List.nil_append, List.append_nil]
      split <;> rfl

/-- An active machine at the end of a `Run` has recorded the time to its
earliest due time. -/
theorem Concluded.earliest_of_active {timestamp : UInt32}
    {before after : Machine} (concluded : Concluded timestamp before after)
    (active : after.state = .active) :
    after.minScheduledTimeout ≠ 0 ∧
      after.minScheduledTimeout ∈
          after.dueTimes.map (fun due => due - timestamp) ∧
        ∀ time ∈ after.dueTimes.map (fun due => due - timestamp),
          after.minScheduledTimeout ≤ time := by
  obtain ⟨rank, sound⟩ := concluded.chronicle.sound
  have root : (after.runtimes 0).active = true := by
    have lifecycle := sound.tree.lifecycle
    rw [active] at lifecycle
    by_contra inactive
    rw [if_neg inactive] at lifecycle
    cases lifecycle
  have waits :=
    sound.dueTimes_ne_nil root (concluded.quiescent.not_ready sound)
  apply concluded.earliest.of_ne_nil
  intro empty
  exact waits (List.map_eq_nil_iff.mp empty)

theorem Concluded.unset_of_not_active {timestamp : UInt32}
    {before after : Machine} (concluded : Concluded timestamp before after)
    (stopped : after.state ≠ .active) : after.minScheduledTimeout = 0 := by
  obtain ⟨rank, sound⟩ := concluded.chronicle.sound
  have root : (after.runtimes 0).active = false := by
    by_contra active
    have lifecycle := sound.tree.lifecycle
    rw [if_pos (by simpa using active)] at lifecycle
    exact stopped lifecycle
  obtain ⟨idle, executing⟩ := sound.idle_of_root_inactive root
  have nothing : after.dueTimes = [] := by
    unfold Controller.dueTimes
    rw [executing, List.map_nil, List.nil_append, List.map_eq_nil_iff,
      List.filter_eq_nil_iff]
    intro group _ awaits
    have active := (of_decide_eq_true awaits).1
    rw [idle] at active
    exact Bool.noConfusion active
  have earliest := concluded.earliest
  rw [nothing] at earliest
  cases earliest with
  | absent empty same =>
      exact same
  | least present member lower =>
      exact absurd member List.not_mem_nil

theorem Concluded.ahead {timestamp : UInt32} {before after : Machine}
    (concluded : Concluded timestamp before after)
    (timely : Timely after.clocks) :
    ∀ due ∈ after.dueTimes, Ahead timestamp due := by
  obtain ⟨rank, sound⟩ := concluded.chronicle.sound
  intro due awaited
  rcases List.mem_append.mp awaited with deadline | mark
  · obtain ⟨entry, member, rfl⟩ := List.mem_map.mp deadline
    rcases concluded.chronicle.armed timely entry member with
      ahead | ⟨inside, -⟩
    · rw [concluded.timestamp_eq] at ahead
      exact ahead
    · exact Bool.noConfusion inside
  · obtain ⟨group, member, rfl⟩ := List.mem_map.mp mark
    have awaits := of_decide_eq_true (List.mem_filter.mp member).2
    exact (concluded.quiescent.nextDue_ahead sound awaits).2.2

/-- A `Run` that leaves the program active calls the schedule callback exactly
once, with the time to the earliest due time; all due times lie ahead and fit
in sixteen bits.  Any other `Run` does not call it. -/
theorem run_schedules {machine after : Machine} {now : Nat}
    {status : ControllerStatus} (reachable : Reachable machine)
    (registered : machine.scheduleCallback = true)
    (performs : Performs (.run now) machine after status)
    (timely : Timely after.clocks) :
    ∃ appended,
      after.outputs = machine.outputs ++ appended ∧
        (after.state = .active →
          ∃ delay,
            appended.filterMap Output.wakeup = [delay] ∧
              1 ≤ delay.toNat ∧ delay.toNat ≤ 65535 ∧
              (∃ due ∈ after.dueTimes,
                delay = due - machine.getTimestamp now) ∧
              ∀ due ∈ after.dueTimes,
                delay.toNat ≤ (due - machine.getTimestamp now).toNat ∧
                  (due - machine.getTimestamp now).toNat ≤ 65535) ∧
        (after.state ≠ .active → appended.filterMap Output.wakeup = []) := by
  have legal := legal_of_reachable reachable
  by_cases active : machine.state = .active
  · have chronicle := legal.chronicle (by rw [active]; simp)
    have concluded := chronicle.concluded active performs
    obtain ⟨appended, outputs, wakeups⟩ := concluded.outputs
    obtain ⟨rank, sound⟩ := concluded.chronicle.sound
    refine ⟨appended, outputs, ?_, ?_⟩
    · intro running
      obtain ⟨present, member, lower⟩ :=
        concluded.earliest_of_active running
      have positive : after.minScheduledTimeout > 0 :=
        UInt32.pos_iff_ne_zero.mpr present
      rw [if_pos ⟨positive, registered⟩] at wakeups
      obtain ⟨due, awaited, same⟩ := List.mem_map.mp member
      have ahead := concluded.ahead timely
      refine ⟨after.minScheduledTimeout, wakeups, ?_, ?_, ?_, ?_⟩
      · exact UInt32.lt_iff_toNat_lt.mp positive
      · rw [← same]
        exact (ahead due awaited).2
      · exact ⟨due, awaited, same.symm⟩
      · intro other among
        exact
          ⟨UInt32.le_iff_toNat_le.mp
            (lower _ (List.mem_map.mpr ⟨other, among, rfl⟩)),
            (ahead other among).2⟩
    · intro stopped
      have none : after.minScheduledTimeout = 0 :=
        concluded.unset_of_not_active stopped
      rw [none] at wakeups
      simpa using wakeups
  · obtain ⟨fuel, runs⟩ := performs
    simp only [run, ne_eq, active, not_false_eq_true, if_true,
      Option.some.injEq, Prod.mk.injEq] at runs
    obtain ⟨rfl, -⟩ := runs
    exact
      ⟨[], (List.append_nil _).symm, fun running => absurd running active,
        fun _ => rfl⟩

/-- A Fade and a group mark, seventeen and forty milliseconds ahead. -/
def waiting : Machine :=
  hosted
    [{ kind := .fade { percent := 50, durationMs := 30 } },
      { mark := 40, kind := .setSingleColor ⟨1, 2, 3⟩ 0 }]
    [.start 0 0]

/-- The Fade is resumed at the next point of its grid. -/
theorem run_schedules_of_waiting :
    ∃ after status appended,
      Performs (.run 3) waiting after status ∧
        after.outputs = waiting.outputs ++ appended ∧
          ∃ delay,
            appended.filterMap Output.wakeup = [delay] ∧
              1 ≤ delay.toNat ∧ delay.toNat ≤ 65535 := by
  have returns : (waiting.run 40 3).isSome = true := by
    decide +kernel
  have facts :
      (waiting.run 40 3).all
          (fun result =>
            decide (Timely result.1.clocks) &&
              decide (result.1.state = .active)) =
        true := by
    decide +kernel
  obtain ⟨⟨after, status⟩, runs⟩ := Option.isSome_iff_exists.mp returns
  rw [runs] at facts
  simp only [Option.all_some, Bool.and_eq_true, decide_eq_true_eq] at facts
  have performs : Performs (.run 3) waiting after status :=
    ⟨40, runs⟩
  have reachable : Reachable waiting :=
    reachable_hosted _ _
  have registered : waiting.scheduleCallback = true := by
    decide +kernel
  obtain ⟨appended, outputs, active, -⟩ :=
    run_schedules reachable registered performs facts.1
  obtain ⟨delay, called, positive, bounded, -⟩ := active facts.2
  exact
    ⟨after, status, appended, performs, outputs, delay, called, positive,
      bounded⟩

end Machine

end PrismKit
