import PrismKit.Timeline.Start

/-!
# Chronicles

A chronicle is the life of a machine since its last successful `Start`, cut
into the pieces that proofs about whole runs go through: the start, the
beginning of a `Run`, one move of its loop, its end, and the calls between two
runs, which leave the program alone.  Every reachable machine is either
editable and blank, or has a chronicle.
-/

namespace PrismKit

open Library Relation

namespace Machine

def timestamp (machine : Machine) : UInt32 :=
  UInt32.ofNat (machine.clocks.getLast?.getD 0)

/-- What a call between two runs may change: the strip binding, callbacks,
requests, outputs and the latched status; the refresh period only while the
program is not active. -/
structure Adjusted (before after : Machine) : Prop where
  instructions : after.instructions = before.instructions
  instructionCount : after.instructionCount = before.instructionCount
  executing : after.executing = before.executing
  state : after.state = before.state
  groupIndices : after.groupIndices = before.groupIndices
  groups : after.groups = before.groups
  runtimes : after.runtimes = before.runtimes
  groupCount : after.groupCount = before.groupCount
  strips : after.strips = before.strips
  clocks : after.clocks = before.clocks
  history : after.history = before.history
  refreshPeriodMs :
    after.refreshPeriodMs = before.refreshPeriodMs ∨
      before.state ≠ .active ∧ after.refreshPeriodMs ≠ 0

/-- The life of a machine since its last successful `Start`; the index tells
whether it is inside a `Run`. -/
inductive Chronicle : Bool → Machine → Prop
  | started (before after : Machine) (repeats : LoopCount) (now : Nat)
      (loadable : before.Loadable)
      (starts : before.start repeats now = (after, .success)) :
      Chronicle false after
  | adjusted (before after : Machine) (earlier : Chronicle false before)
      (adjusts : Adjusted before after) : Chronicle false after
  | began (before : Machine) (now : Nat) (earlier : Chronicle false before)
      (active : before.state = .active) :
      Chronicle true (before.beginRun now)
  | moved (before after : Machine) (earlier : Chronicle true before)
      (move : Move before.timestamp before after) : Chronicle true after
  | finished (machine : Machine) (earlier : Chronicle true machine)
      (quiescent : Quiescent machine.timestamp machine) :
      Chronicle false machine

theorem Adjusted.sound {rank : Nat → Nat} {before after : Machine}
    (adjusts : Adjusted before after) (sound : before.Sound rank) :
    after.Sound rank := by
  have slotAt : after.slotAt = before.slotAt := by
    funext group position
    simp only [Controller.slotAt, adjusts.groupIndices, adjusts.groups]
  have size : after.size = before.size := by
    funext group
    simp only [Controller.size, adjusts.groups]
  have timeline : after.timeline = before.timeline := by
    funext group
    simp only [Controller.timeline, size, slotAt]
  have calls : after.CallsGroup = before.CallsGroup := by
    unfold Controller.CallsGroup
    rw [adjusts.instructions, adjusts.instructionCount, adjusts.groups,
      adjusts.groupCount]
  have reaches : after.ReachesMark = before.ReachesMark := by
    unfold Controller.ReachesMark
    rw [adjusts.instructions, adjusts.instructionCount, adjusts.groups,
      adjusts.groupCount]
  have outstanding : after.outstanding = before.outstanding := by
    unfold Controller.outstanding
    rw [adjusts.executing]
  have isChild : after.isChild = before.isChild := by
    funext group child
    simp only [Controller.isChild, adjusts.runtimes]
  obtain ⟨committed, tree, work⟩ := sound
  refine ⟨?_, ?_, ?_⟩
  · constructor
    · rw [adjusts.groupCount]
      exact committed.nonempty
    · rw [adjusts.groupCount]
      exact committed.bounded
    · rw [adjusts.instructionCount]
      exact committed.stored
    · rw [adjusts.runtimes, adjusts.groups]
      exact committed.record
    · rw [adjusts.groupCount, adjusts.groups]
      exact committed.unused
    · rw [adjusts.groups]
      exact committed.root
    · rw [adjusts.groupCount, adjusts.groups]
      exact committed.injective
    · rw [adjusts.groupCount, size]
      exact committed.populated
    · rw [adjusts.groupCount, timeline, adjusts.instructions,
        adjusts.instructionCount, adjusts.groups]
      exact committed.timelinePerm
    · rw [adjusts.groupCount, timeline, adjusts.instructions]
      exact committed.timelineOrdered
    · rw [adjusts.instructionCount, adjusts.instructions, adjusts.groupCount,
        adjusts.groups]
      exact committed.resolves
    · rw [adjusts.instructionCount, adjusts.instructions, reaches,
        adjusts.groupCount, adjusts.groups]
      exact committed.repeats
    · rw [calls]
      exact committed.rank_lt
    · rw [adjusts.groupCount]
      exact committed.rank_bounded
    · rcases adjusts.refreshPeriodMs with same | ⟨-, positive⟩
      · rw [same]
        exact committed.period_pos
      · exact positive
  · constructor
    · rw [adjusts.runtimes, adjusts.groupCount]
      exact tree.inRange
    · rw [adjusts.runtimes, isChild]
      exact tree.children
    · rw [adjusts.runtimes, calls]
      exact tree.parent
    · rw [adjusts.runtimes]
      exact tree.root
    · rw [adjusts.runtimes, adjusts.groupCount]
      exact tree.depth
    · rw [adjusts.state, adjusts.runtimes]
      exact tree.lifecycle
  · constructor
    · rw [adjusts.runtimes, size]
      exact work.cursor
    · rw [outstanding, adjusts.runtimes, slotAt]
      exact work.dispatched
    · rw [outstanding]
      exact work.distinct
    · rw [outstanding, adjusts.runtimes]
      exact work.counts

/-- Reading the clock is no step of the program. -/
theorem beginRun_sound {rank : Nat → Nat} {machine : Machine} (now : Nat)
    (sound : machine.Sound rank) : (machine.beginRun now).Sound rank :=
  ⟨sound.committed.of_same
      ⟨rfl, rfl, rfl, rfl, rfl, fun _ => rfl, fun _ => rfl⟩,
    sound.tree.of_same ⟨rfl, rfl, rfl, rfl, rfl, fun _ => rfl, fun _ => rfl⟩
      ⟨fun _ => ⟨rfl, rfl, rfl, rfl⟩, rfl⟩,
    ⟨sound.work.cursor, sound.work.dispatched, sound.work.distinct,
      sound.work.counts⟩⟩

theorem start_success {before after : Machine} {repeats : LoopCount}
    {now : Nat} (loadable : before.Loadable)
    (starts : before.start repeats now = (after, .success)) :
    ∃ rank build,
      (before.committedStart build).Committed rank ∧
        Validated before.instructions before.instructionCount repeats build ∧
        after.toController =
          before.afterStart build repeats (before.getTimestamp now) ∧
        after.clocks = [before.clockReading now] ∧
        after.history =
          (if (before.committedStart build).size 0 = 0 then
            []
          else
            [⟨0, .started repeats, before.committedStart build,
              after.toController⟩]) ∧
        after.strips = before.strips := by
  rcases start_cases loadable repeats now with
    ⟨-, refused⟩ | ⟨-, -, status, failure, refused⟩ |
      ⟨-, -, build, validated, -, controller, clocks, history, strips⟩
  · rw [refused] at starts
    cases starts
  · rw [refused] at starts
    cases starts
    exact absurd rfl failure
  · rw [starts] at controller clocks history strips
    obtain ⟨rank, committed⟩ :=
      Controller.committed_commitGroupBuild loadable.stored
        loadable.period_pos validated
    refine
      ⟨rank, build, Controller.committedStart_committed committed, validated,
        controller, clocks, ?_, strips⟩
    simp only at controller
    rw [controller]
    exact history

theorem start_sound {before after : Machine} {repeats : LoopCount}
    {now : Nat} (loadable : before.Loadable)
    (starts : before.start repeats now = (after, .success)) :
    ∃ rank, after.Sound rank := by
  obtain ⟨-, build, -, validated, controller, -⟩ :=
    start_success loadable starts
  obtain ⟨rank, committed⟩ :=
    Controller.committed_commitGroupBuild loadable.stored loadable.period_pos
      validated
  refine ⟨rank, ?_⟩
  rw [controller]
  exact Controller.afterStart_sound committed

theorem Chronicle.sound {inside : Bool} {machine : Machine}
    (chronicle : Chronicle inside machine) :
    ∃ rank, machine.Sound rank := by
  induction chronicle with
  | started before after repeats now loadable starts =>
      exact start_sound loadable starts
  | adjusted before after earlier adjusts inductionHypothesis =>
      obtain ⟨rank, sound⟩ := inductionHypothesis
      exact ⟨rank, adjusts.sound sound⟩
  | began before now earlier active inductionHypothesis =>
      obtain ⟨rank, sound⟩ := inductionHypothesis
      exact ⟨rank, beginRun_sound now sound⟩
  | moved before after earlier move inductionHypothesis =>
      obtain ⟨rank, sound⟩ := inductionHypothesis
      obtain ⟨event, step, -⟩ := move.step sound
      exact ⟨rank, sound.step step⟩
  | finished machine earlier quiescent inductionHypothesis =>
      exact inductionHypothesis

theorem Adjusted.loadable {before after : Machine}
    (adjusts : Adjusted before after) (loadable : before.Loadable) :
    after.Loadable := by
  constructor
  · rw [adjusts.instructionCount]
    exact loadable.stored
  · rw [adjusts.instructionCount, adjusts.instructions]
    exact loadable.bound
  · rcases adjusts.refreshPeriodMs with same | ⟨-, positive⟩
    · rw [same]
      exact loadable.period_pos
    · exact positive

theorem Chronicle.loadable {inside : Bool} {machine : Machine}
    (chronicle : Chronicle inside machine) : machine.Loadable := by
  induction chronicle with
  | started before after repeats now loadable starts =>
      obtain ⟨-, build, -, -, controller, -⟩ :=
        start_success loadable starts
      rw [controller]
      have committed : (before.committedStart build).Loadable :=
        ⟨loadable.stored, loadable.bound, loadable.period_pos⟩
      exact committed.of_same Controller.afterStart_sameProgram
  | adjusted before after earlier adjusts inductionHypothesis =>
      exact adjusts.loadable inductionHypothesis
  | began before now earlier active inductionHypothesis =>
      exact
        ⟨inductionHypothesis.stored, inductionHypothesis.bound,
          inductionHypothesis.period_pos⟩
  | moved before after earlier move inductionHypothesis =>
      obtain ⟨rank, sound⟩ := earlier.sound
      obtain ⟨event, step, -⟩ := move.step sound
      exact inductionHypothesis.of_same step.sameProgram
  | finished machine earlier quiescent inductionHypothesis =>
      exact inductionHypothesis

theorem timestamp_beginRun (machine : Machine) (now : Nat) :
    (machine.beginRun now).timestamp = machine.getTimestamp now := by
  simp [timestamp, beginRun, getTimestamp]

/-- A move reads no clock. -/
theorem Logged.timestamp_eq {before after : Machine} {event : Event}
    (logged : Logged before after event) :
    after.timestamp = before.timestamp := by
  simp only [timestamp, logged.around.clocks]

theorem Chronicle.moves {before after : Machine}
    (chronicle : Chronicle true before)
    (moves : ReflTransGen (Move before.timestamp) before after) :
    Chronicle true after ∧ after.timestamp = before.timestamp := by
  induction moves with
  | refl =>
      exact ⟨chronicle, rfl⟩
  | tail _ move inductionHypothesis =>
      obtain ⟨earlier, same⟩ := inductionHypothesis
      obtain ⟨rank, sound⟩ := earlier.sound
      obtain ⟨event, -, logged⟩ := move.step sound
      rw [← same] at move
      exact
        ⟨.moved _ _ earlier move, logged.timestamp_eq.trans same⟩

private theorem scheduleTimeout_frame (ms : UInt32) (machine : Machine) :
    ∃ timeout,
      machine.scheduleTimeout ms =
        { machine with minScheduledTimeout := timeout } := by
  unfold scheduleTimeout
  split
  · exact ⟨ms, rfl⟩
  · exact ⟨machine.minScheduledTimeout, rfl⟩

theorem scheduleNextRun_frame (timestamp : UInt32) (machine : Machine) :
    ∃ timeout calls,
      machine.scheduleNextRun timestamp =
          { machine with
            minScheduledTimeout := timeout
            outputs := machine.outputs ++ calls } ∧
        (calls = [] ∨ calls = [.schedule timeout]) := by
  have entries :
      ∀ (executing : List ExecutingInstruction) (current : Machine),
        (∃ timeout,
          current = { machine with minScheduledTimeout := timeout }) →
        ∃ timeout,
          executing.foldl (scheduleEntry timestamp) current =
            { machine with minScheduledTimeout := timeout } := by
    intro executing
    induction executing with
    | nil =>
        intro current same
        exact same
    | cons entry rest inductionHypothesis =>
        intro current same
        apply inductionHypothesis
        obtain ⟨timeout, rfl⟩ := same
        unfold scheduleEntry
        split
        · obtain ⟨timeout', equal⟩ :=
            scheduleTimeout_frame (entry.deadline - timestamp)
              { machine with minScheduledTimeout := timeout }
          exact ⟨timeout', equal⟩
        · exact ⟨timeout, rfl⟩
  obtain ⟨first, firstEq⟩ :=
    entries machine.executing machine ⟨machine.minScheduledTimeout, rfl⟩
  have groups :
      ∀ count,
        ∃ timeout,
          forUpTo (scheduleGroup timestamp)
              { machine with minScheduledTimeout := first } count =
            { machine with minScheduledTimeout := timeout } := by
    intro count
    induction count with
    | zero =>
        exact ⟨first, rfl⟩
    | succ count inductionHypothesis =>
        obtain ⟨timeout, equal⟩ := inductionHypothesis
        rw [forUpTo_succ, equal]
        unfold scheduleGroup
        simp only
        split
        · exact ⟨timeout, rfl⟩
        · split
          · exact scheduleTimeout_frame _ _
          · exact ⟨timeout, rfl⟩
  unfold scheduleNextRun
  simp only [firstEq]
  obtain ⟨second, secondEq⟩ := groups machine.groupCount
  rw [secondEq]
  split
  · exact ⟨second, _, rfl, Or.inr rfl⟩
  · refine ⟨second, [], ?_, Or.inl rfl⟩
    rw [List.append_nil]

theorem commitShow_eq (machine : Machine) :
    machine.commitShow =
      { machine with
        outputs :=
          machine.outputs ++
            if machine.showRequested then
              machine.strip.toList.map Output.show
            else
              [] } := by
  unfold commitShow
  split
  · rename_i strip requested bound
    rw [requested, bound]
    rfl
  · rename_i unbound
    cases requested : machine.showRequested with
    | false =>
        simp
    | true =>
        cases bound : machine.strip with
        | none =>
            simp
        | some strip =>
            exact absurd bound (unbound strip requested)

theorem adjusted_conclusion (timestamp : UInt32) (machine : Machine) :
    Adjusted machine (machine.scheduleNextRun timestamp).commitShow := by
  obtain ⟨timeout, calls, scheduled, -⟩ :=
    scheduleNextRun_frame timestamp machine
  rw [commitShow_eq, scheduled]
  exact ⟨rfl, rfl, rfl, rfl, rfl, rfl, rfl, rfl, rfl, rfl, rfl, Or.inl rfl⟩

theorem Chronicle.run {before after : Machine} {fuel now : Nat}
    {status : ControllerStatus} (chronicle : Chronicle false before)
    (active : before.state = .active)
    (runs : before.run fuel now = some (after, status)) :
    ∃ settled,
      Chronicle true settled ∧
        ReflTransGen (Move (before.getTimestamp now)) (before.beginRun now)
          settled ∧
        settled.timestamp = before.getTimestamp now ∧
        Quiescent (before.getTimestamp now) settled ∧
        after =
          (settled.scheduleNextRun (before.getTimestamp now)).commitShow ∧
        status = settled.runStatus := by
  unfold Machine.run at runs
  simp only [active, ne_eq, not_true_eq_false, if_false] at runs
  cases loop :
      runLoop (before.getTimestamp now) fuel (before.beginRun now) with
  | none =>
      rw [loop] at runs
      cases runs
  | some settled =>
      rw [loop] at runs
      simp only [Option.some.injEq, Prod.mk.injEq] at runs
      obtain ⟨rfl, rfl⟩ := runs
      obtain ⟨moves, quiescent⟩ := runLoop_spec loop
      have begun := Chronicle.began before now chronicle active
      rw [← timestamp_beginRun] at moves
      obtain ⟨running, same⟩ := begun.moves moves
      rw [timestamp_beginRun] at moves same
      refine ⟨settled, running, moves, same, quiescent, rfl, ?_⟩
      obtain ⟨timeout, calls, scheduled, -⟩ :=
        scheduleNextRun_frame (before.getTimestamp now) settled
      rw [commitShow_eq, scheduled]

/-! ### Reachable machines -/

/-- An editable machine has no trace of an earlier program. -/
structure Blank (machine : Machine) : Prop where
  groupCount : machine.groupCount = 0
  executing : machine.executing = []
  runtimes : ∀ group, machine.runtimes group = {}
  history : machine.history = []

/-- What is known about a machine between two calls. -/
structure Legal (machine : Machine) : Prop where
  loadable : machine.Loadable
  blank : machine.state = .editable → Blank machine
  chronicle : machine.state ≠ .editable → Chronicle false machine

private theorem Legal.adjust {before after : Machine} (legal : Legal before)
    (adjusts : Adjusted before after) : Legal after := by
  refine ⟨adjusts.loadable legal.loadable, ?_, ?_⟩
  · intro editable
    rw [adjusts.state] at editable
    obtain ⟨groupCount, executing, runtimes, history⟩ := legal.blank editable
    constructor
    · rw [adjusts.groupCount]
      exact groupCount
    · rw [adjusts.executing]
      exact executing
    · rw [adjusts.runtimes]
      exact runtimes
    · rw [adjusts.history]
      exact history
  · intro loaded
    rw [adjusts.state] at loaded
    exact .adjusted before after (legal.chronicle loaded) adjusts

private theorem Legal.addInstruction {before : Machine} (legal : Legal before)
    (instr : Option ControllerInstruction) :
    Legal (before.addInstruction instr).1 := by
  unfold Machine.addInstruction
  cases instr with
  | none =>
      exact legal
  | some instr =>
      simp only
      split
      · exact legal
      · rename_i editable
        have editable' : before.state = .editable := not_not.mp editable
        split
        · exact legal
        · rename_i room
          have below : before.instructionCount < maxInstructions :=
            Nat.not_le.mp room
          obtain ⟨groupCount, executing, runtimes, history⟩ :=
            legal.blank editable'
          refine ⟨⟨below, ?_, legal.loadable.period_pos⟩, ?_, ?_⟩
          · intro index indexBelow
            have indexBelow' : index < before.instructionCount + 1 :=
              indexBelow
            by_cases last : index = before.instructionCount
            · subst last
              refine ⟨{ instr with strip := before.strip, controller := true },
                ?_, rfl⟩
              simp [InstructionMemorySlot.store]
            · obtain ⟨stored, active, bound⟩ :=
                legal.loadable.bound index (by omega)
              refine ⟨stored, ?_, bound⟩
              simp only [Function.update_of_ne last]
              exact active
          · intro _
            exact ⟨groupCount, executing, runtimes, history⟩
          · intro loaded
            exact absurd editable' loaded

private theorem Legal.start {before after : Machine} (legal : Legal before)
    {repeats : LoopCount} {now : Nat} {status : ControllerStatus}
    (starts : before.start repeats now = (after, status)) : Legal after := by
  have chronicleOf :
      status = .success → after.state ≠ .editable ∧ Chronicle false after := by
    rintro rfl
    have chronicle :=
      Chronicle.started before after repeats now legal.loadable starts
    refine ⟨?_, chronicle⟩
    obtain ⟨rank, sound⟩ := chronicle.sound
    rw [sound.tree.lifecycle]
    split <;> decide
  rcases start_cases legal.loadable repeats now with
    ⟨-, refused⟩ | ⟨-, -, failure, -, refused⟩ | ⟨-, -, -, -, success, -⟩
  · rw [refused] at starts
    cases starts
    exact legal
  · rw [refused] at starts
    cases starts
    exact legal
  · rw [starts] at success
    obtain ⟨loaded, chronicle⟩ := chronicleOf success
    exact
      ⟨chronicle.loadable, fun editable => absurd editable loaded,
        fun _ => chronicle⟩

private theorem Legal.run {before after : Machine} (legal : Legal before)
    {fuel now : Nat} {status : ControllerStatus}
    (runs : before.run fuel now = some (after, status)) : Legal after := by
  by_cases active : before.state = .active
  · have loaded : before.state ≠ .editable := by
      rw [active]
      decide
    obtain ⟨settled, running, -, same, quiescent, rfl, -⟩ :=
      (legal.chronicle loaded).run active runs
    rw [← same] at quiescent
    have chronicle : Chronicle false _ :=
      .adjusted settled _ (.finished settled running quiescent)
        (adjusted_conclusion (before.getTimestamp now) settled)
    refine ⟨chronicle.loadable, ?_, fun _ => chronicle⟩
    intro editable
    obtain ⟨rank, sound⟩ := chronicle.sound
    rw [sound.tree.lifecycle] at editable
    split at editable <;> cases editable
  · unfold Machine.run at runs
    rw [if_pos active] at runs
    cases runs
    exact legal

theorem legal_of_reachable {machine : Machine}
    (reachable : Reachable machine) : Legal machine := by
  induction reachable with
  | fresh strips =>
      refine ⟨⟨Nat.zero_le _, ?_, (show (20 : UInt32) ≠ 0 by decide)⟩, ?_, ?_⟩
      · intro index below
        exact absurd below (Nat.not_lt_zero index)
      · intro _
        exact ⟨rfl, rfl, fun _ => rfl, rfl⟩
      · intro loaded
        exact absurd rfl loaded
  | @perform before after status operation reachable performs
      inductionHypothesis =>
      cases operation with
      | setStrip strip =>
          obtain ⟨rfl, -⟩ := performs
          exact
            inductionHypothesis.adjust
              ⟨rfl, rfl, rfl, rfl, rfl, rfl, rfl, rfl, rfl, rfl, rfl,
                Or.inl rfl⟩
      | addInstruction instr =>
          have added := inductionHypothesis.addInstruction instr
          have performs' : before.addInstruction instr = (after, status) :=
            performs
          rw [performs'] at added
          exact added
      | start repeats now =>
          exact inductionHypothesis.start performs
      | run now =>
          obtain ⟨fuel, runs⟩ := performs
          exact inductionHypothesis.run runs
      | resetInstructions =>
          obtain ⟨rfl, -⟩ := performs
          refine
            ⟨⟨Nat.zero_le _, ?_, inductionHypothesis.loadable.period_pos⟩, ?_,
              ?_⟩
          · intro index below
            exact absurd below (Nat.not_lt_zero index)
          · intro _
            exact ⟨rfl, rfl, fun _ => rfl, rfl⟩
          · intro loaded
            exact absurd rfl loaded
      | setRefreshPeriodMs periodMs =>
          have performs' :
              before.setRefreshPeriodMs periodMs = (after, status) :=
            performs
          unfold setRefreshPeriodMs at performs'
          split at performs'
          · cases performs'
            exact inductionHypothesis
          · rename_i valid
            split at performs'
            · cases performs'
              exact inductionHypothesis
            · rename_i inactive
              cases performs'
              have positive : periodMs ≠ 0 := fun zero => valid (Or.inl zero)
              exact
                inductionHypothesis.adjust
                  ⟨rfl, rfl, rfl, rfl, rfl, rfl, rfl, rfl, rfl, rfl, rfl,
                    Or.inr ⟨inactive, positive⟩⟩
      | setTimestampCallback registered =>
          obtain ⟨rfl, -⟩ := performs
          exact
            inductionHypothesis.adjust
              ⟨rfl, rfl, rfl, rfl, rfl, rfl, rfl, rfl, rfl, rfl, rfl,
                Or.inl rfl⟩
      | setScheduleCallback registered =>
          obtain ⟨rfl, -⟩ := performs
          exact
            inductionHypothesis.adjust
              ⟨rfl, rfl, rfl, rfl, rfl, rfl, rfl, rfl, rfl, rfl, rfl,
                Or.inl rfl⟩

end Machine

end PrismKit
