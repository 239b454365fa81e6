import PrismKit.Timeline.Chronicle
import PrismKit.Library.Since

/-!
# The recorded history

The history of a chronicle lists the steps of the program since its start.
This module has the two rules by which facts about histories are proved: what
holds at the start, survives the calls between steps and is kept by every step
holds along a chronicle; and every recorded moment is a step of an earlier
machine of the chronicle.
-/

namespace PrismKit

open Library Relation

namespace Machine

/-- A machine whose program was just started. -/
structure Origin (repeats : LoopCount) (machine : Machine) : Prop where
  sound : ∃ rank, machine.Sound rank
  clocks : machine.clocks.length = 1
  activation :
    ∀ group,
      machine.activation group =
        if group = 0 ∧ machine.size 0 ≠ 0 then
          some ⟨0, machine.timestamp, repeats, maxGroups⟩
        else
          none
  executing : machine.executing = []
  unobserved :
    ∀ group, (machine.runtimes group).positiveBoundaryObserved = false
  repeated : repeats ≠ 0 → machine.ReachesMark 0
  fresh :
    machine.size 0 ≠ 0 →
      ∀ position, position < machine.size 0 →
        (machine.instructions (machine.slotAt 0 position)).resetForReplay =
          machine.instructions (machine.slotAt 0 position)
  history :
    ∃ before,
      machine.history =
        if machine.size 0 = 0 then
          []
        else
          [⟨0, .started repeats, before, machine.toController⟩]

theorem origin_of_start {before after : Machine} {repeats : LoopCount}
    {now : Nat} (loadable : before.Loadable)
    (starts : before.start repeats now = (after, .success)) :
    Origin repeats after := by
  obtain ⟨rank, build, committed, validated, controller, clocks, history, -⟩ :=
    start_success loadable starts
  have timestamp : after.timestamp = before.getTimestamp now := by
    simp [Machine.timestamp, clocks, getTimestamp]
  have same :
      (before.committedStart build).SameProgram after.toController := by
    rw [controller]
    exact Controller.afterStart_sameProgram
  have runtime :
      ∀ group,
        after.runtimes group =
          if group = 0 ∧ after.size 0 ≠ 0 then
            { record := (before.committedStart build).groups 0
              startTime := after.timestamp
              repeatsRemaining := repeats
              active := true }
          else
            { record := (before.committedStart build).groups group } := by
    intro group
    rw [same.size_eq, timestamp, controller]
    exact Controller.afterStart_runtime group
  constructor
  · exact start_sound loadable starts
  · rw [clocks]
    rfl
  · intro group
    unfold Controller.activation
    rw [runtime]
    split <;> rfl
  · rw [controller]
    unfold Controller.afterStart
    split <;> rfl
  · intro group
    rw [runtime]
    split <;> rfl
  · intro repeated
    rw [same.reachesMark_iff]
    have groups : (before.committedStart build).groups = build.groups :=
      Controller.commitGroupBuild_groups validated
    have reaches := validated.acceptable.root repeated
    rw [← groups] at reaches
    exact reaches
  · intro nonempty position inRange
    rw [same.size_eq] at nonempty inRange
    have member :
        (before.committedStart build).slotAt 0 position ∈
          (before.committedStart build).timeline 0 :=
      List.mem_map.mpr ⟨position, List.mem_range.mpr inRange, rfl⟩
    rw [same.slotAt_eq, controller]
    unfold Controller.afterStart
    rw [if_neg nonempty]
    simp only [Controller.activate, if_pos member]
    exact InstructionMemorySlot.resetForReplay_resetForReplay _
  · refine ⟨before.committedStart build, ?_⟩
    rw [history, same.size_eq]

/-- The only interval of the history after a start is opened by the start. -/
theorem Origin.of_since {repeats : LoopCount} {machine : Machine}
    (origin : Origin repeats machine) {opens closes : Moment → Prop}
    {start : Moment} {rest : List Moment}
    (since : Since opens closes machine.history start rest) :
    machine.size 0 ≠ 0 ∧ start.run = 0 ∧ start.event = .started repeats ∧
      rest = [] ∧ opens start := by
  obtain ⟨before, history⟩ := origin.history
  by_cases empty : machine.size 0 = 0
  · rw [history, if_pos empty] at since
    exact absurd since (not_since_nil start rest)
  · rw [history, if_neg empty, ← List.nil_append [_]] at since
    rcases since_append_singleton.mp since with
      ⟨starts, rfl, rfl⟩ | ⟨-, shorter, -, earlier⟩
    · exact ⟨empty, rfl, rfl, rfl, starts⟩
    · exact absurd earlier (not_since_nil start shorter)

/-- The later machine differs by calls that are no steps of the program. -/
structure Resting (before after : Machine) : Prop where
  instructions : after.instructions = before.instructions
  instructionCount : after.instructionCount = before.instructionCount
  executing : after.executing = before.executing
  state : after.state = before.state
  groupIndices : after.groupIndices = before.groupIndices
  groups : after.groups = before.groups
  runtimes : after.runtimes = before.runtimes
  groupCount : after.groupCount = before.groupCount
  strips : after.strips = before.strips
  history : after.history = before.history
  clocks : before.clocks <+: after.clocks

theorem Adjusted.resting {before after : Machine}
    (adjusts : Adjusted before after) : Resting before after :=
  ⟨adjusts.instructions, adjusts.instructionCount, adjusts.executing,
    adjusts.state, adjusts.groupIndices, adjusts.groups, adjusts.runtimes,
    adjusts.groupCount, adjusts.strips, adjusts.history,
    adjusts.clocks ▸ List.prefix_rfl⟩

theorem resting_beginRun (machine : Machine) (now : Nat) :
    Resting machine (machine.beginRun now) :=
  ⟨rfl, rfl, rfl, rfl, rfl, rfl, rfl, rfl, rfl, rfl, List.prefix_append ..⟩

namespace Resting

variable {before after : Machine}

theorem slotAt_eq (rests : Resting before after) :
    after.slotAt = before.slotAt := by
  funext group position
  simp only [Controller.slotAt, rests.groupIndices, rests.groups]

theorem size_eq (rests : Resting before after) :
    after.size = before.size := by
  funext group
  simp only [Controller.size, rests.groups]

theorem timeline_eq (rests : Resting before after) :
    after.timeline = before.timeline := by
  funext group
  simp only [Controller.timeline, rests.size_eq, rests.slotAt_eq]

theorem outstanding_eq (rests : Resting before after) :
    after.outstanding = before.outstanding := by
  unfold Controller.outstanding
  rw [rests.executing]

theorem isChild_eq (rests : Resting before after) :
    after.isChild = before.isChild := by
  funext group child
  simp only [Controller.isChild, rests.runtimes]

theorem activation_eq (rests : Resting before after) :
    after.activation = before.activation := by
  funext group
  simp only [Controller.activation, rests.runtimes]

/-- Clock readings that were made stay. -/
theorem clock_eq (rests : Resting before after) {run : Nat}
    (read : run < before.clocks.length) :
    after.clocks.getD run 0 = before.clocks.getD run 0 :=
  getD_of_isPrefix rests.clocks read

end Resting

theorem timestamp_eq (machine : Machine) :
    machine.timestamp =
      UInt32.ofNat (machine.clocks.getD (machine.clocks.length - 1) 0) := by
  rw [timestamp, List.getLast?_eq_getElem?, List.getD_eq_getElem?_getD]

/-! ### Induction along a chronicle -/

/-- What holds after the start, does not depend on the calls between moves and
is kept by every move holds along a chronicle. -/
theorem Chronicle.move_invariant (property : Machine → Prop)
    (origin :
      ∀ repeats machine, Chronicle false machine → Origin repeats machine →
        property machine)
    (resting :
      ∀ before after, Resting before after → property before →
        property after)
    (move :
      ∀ before after, Chronicle true before →
        Move before.timestamp before after → property before →
          property after)
    {inside : Bool} {machine : Machine}
    (chronicle : Chronicle inside machine) : property machine := by
  induction chronicle with
  | started before after repeats now loadable starts =>
      exact
        origin repeats after (.started before after repeats now loadable starts)
          (origin_of_start loadable starts)
  | adjusted before after earlier adjusts inductionHypothesis =>
      exact resting before after adjusts.resting inductionHypothesis
  | began before now earlier active inductionHypothesis =>
      exact
        resting before (before.beginRun now) (resting_beginRun before now)
          inductionHypothesis
  | moved before after earlier moves inductionHypothesis =>
      exact move before after earlier moves inductionHypothesis
  | finished machine earlier quiescent inductionHypothesis =>
      exact inductionHypothesis

/-- What holds after the start, does not depend on the calls between steps and
is kept by every step holds along a chronicle. -/
theorem Chronicle.invariant (property : Machine → Prop)
    (origin : ∀ repeats machine, Origin repeats machine → property machine)
    (resting :
      ∀ before after, Resting before after → property before →
        property after)
    (step :
      ∀ rank before after event, Chronicle true before → before.Sound rank →
        before.toController.Step before.strips before.timestamp event
            after.toController →
          Logged before after event → property before → property after)
    {inside : Bool} {machine : Machine}
    (chronicle : Chronicle inside machine) : property machine := by
  apply chronicle.move_invariant property
  · intro repeats machine _ start
    exact origin repeats machine start
  · exact resting
  · intro before after earlier move kept
    obtain ⟨rank, sound⟩ := earlier.sound
    obtain ⟨event, steps, logged⟩ := move.step sound
    exact step rank before after event earlier sound steps logged kept

/-- What every step keeps is kept by the moves of a `Run`. -/
theorem Chronicle.moves_invariant {before after : Machine}
    (property : Machine → Prop) (chronicle : Chronicle true before)
    (moves : ReflTransGen (Move before.timestamp) before after)
    (initial : property before)
    (step :
      ∀ rank current next event, Chronicle true current →
        current.timestamp = before.timestamp → current.Sound rank →
          current.toController.Step current.strips current.timestamp event
              next.toController →
            Logged current next event → property current → property next) :
    property after := by
  induction moves with
  | refl =>
      exact initial
  | tail earlier move inductionHypothesis =>
      obtain ⟨running, same⟩ := chronicle.moves earlier
      obtain ⟨rank, sound⟩ := running.sound
      obtain ⟨event, steps, logged⟩ := move.step sound
      rw [← same] at steps
      exact
        step rank _ _ event running same sound steps logged inductionHypothesis

/-- A returning `Run` of an active machine ends with a quiescent one and calls
that are no steps. -/
theorem Chronicle.after_run {before after : Machine} {now : Nat}
    {status : ControllerStatus} (chronicle : Chronicle false before)
    (active : before.state = .active)
    (performs : Performs (.run now) before after status) :
    ∃ settled, Chronicle true settled ∧
      Quiescent (before.getTimestamp now) settled ∧
      Resting settled after ∧ Chronicle false after := by
  obtain ⟨fuel, runs⟩ := performs
  obtain ⟨settled, running, -, same, quiescent, rfl, -⟩ :=
    chronicle.run active runs
  have adjusts := adjusted_conclusion (before.getTimestamp now) settled
  refine ⟨settled, running, quiescent, adjusts.resting, ?_⟩
  rw [← same] at quiescent
  exact .adjusted settled _ (.finished settled running quiescent) adjusts

theorem Legal.chronicle_of_history {machine : Machine}
    (legal : Legal machine) (lived : machine.history ≠ []) :
    Chronicle false machine := by
  apply legal.chronicle
  intro editable
  exact lived (legal.blank editable).history

theorem Legal.chronicle_of_active {machine : Machine} (legal : Legal machine)
    {group : Nat} (active : (machine.runtimes group).active = true) :
    Chronicle false machine := by
  apply legal.chronicle
  intro editable
  rw [(legal.blank editable).runtimes] at active
  exact Bool.noConfusion active

/-- The clock was read by the start and once for every `Run`. -/
theorem Chronicle.clocks_length {inside : Bool} {machine : Machine}
    (chronicle : Chronicle inside machine) :
    0 < machine.clocks.length ∧
      (inside = true → 1 < machine.clocks.length) := by
  induction chronicle with
  | started before after repeats now loadable starts =>
      have origin := origin_of_start loadable starts
      rw [origin.clocks]
      exact ⟨Nat.one_pos, fun inside => Bool.noConfusion inside⟩
  | adjusted before after earlier adjusts inductionHypothesis =>
      rw [adjusts.clocks]
      exact inductionHypothesis
  | began before now earlier active inductionHypothesis =>
      have length :
          (before.beginRun now).clocks.length = before.clocks.length + 1 :=
        List.length_append
      rw [length]
      exact ⟨Nat.succ_pos _, fun _ => Nat.succ_lt_succ inductionHypothesis.1⟩
  | moved before after earlier move inductionHypothesis =>
      obtain ⟨rank, sound⟩ := earlier.sound
      obtain ⟨event, -, logged⟩ := move.step sound
      rw [logged.around.clocks]
      exact inductionHypothesis
  | finished machine earlier quiescent inductionHypothesis =>
      exact
        ⟨inductionHypothesis.1, fun inside => Bool.noConfusion inside⟩

/-- The machine right before a recorded step, and what the step did. -/
structure Snapshot (machine before : Machine) (earlier : List Moment)
    (moment : Moment) : Prop where
  chronicle : Chronicle true before
  history : before.history = earlier
  controller : before.toController = moment.before
  run : moment.run + 1 = before.clocks.length
  clocks : before.clocks <+: machine.clocks
  leds :
    ∀ id, (before.strips id).ledCount = (machine.strips id).ledCount
  ready : ∀ id, (before.strips id).ready = (machine.strips id).ready
  step :
    ∃ rank, before.Sound rank ∧
      before.toController.Step before.strips before.timestamp moment.event
        moment.after

theorem Snapshot.later {machine later before : Machine}
    {earlier : List Moment} {moment : Moment}
    (snapshot : Snapshot machine before earlier moment)
    (clocks : machine.clocks <+: later.clocks)
    (leds :
      ∀ id, (machine.strips id).ledCount = (later.strips id).ledCount)
    (ready : ∀ id, (machine.strips id).ready = (later.strips id).ready) :
    Snapshot later before earlier moment :=
  ⟨snapshot.chronicle, snapshot.history, snapshot.controller, snapshot.run,
    snapshot.clocks.trans clocks,
    fun id => (snapshot.leds id).trans (leds id),
    fun id => (snapshot.ready id).trans (ready id), snapshot.step⟩

/-- A step happens at the clock reading of its `Run`. -/
theorem Snapshot.timestamp_eq {machine before : Machine}
    {earlier : List Moment} {moment : Moment}
    (snapshot : Snapshot machine before earlier moment) :
    before.timestamp = UInt32.ofNat (machine.clocks.getD moment.run 0) := by
  have run := snapshot.run
  have read : moment.run < before.clocks.length := by omega
  have last : before.clocks.length - 1 = moment.run := by omega
  rw [Machine.timestamp_eq, last, getD_of_isPrefix snapshot.clocks read]

/-- The moment stands at the front of a history and records the start. -/
def Initial (earlier : List Moment) (moment : Moment) : Prop :=
  earlier = [] ∧ moment.run = 0 ∧ ∃ repeats, moment.event = .started repeats

/-- Every moment of a history is a step of an earlier machine, except the
start at the front. -/
theorem Chronicle.recorded {inside : Bool} {machine : Machine}
    (chronicle : Chronicle inside machine) :
    ∀ earlier moment later,
      machine.history = earlier ++ moment :: later →
        Initial earlier moment ∨
          ∃ before, Snapshot machine before earlier moment := by
  refine
    chronicle.invariant
      (fun machine =>
        ∀ earlier moment later,
          machine.history = earlier ++ moment :: later →
            Initial earlier moment ∨
              ∃ before, Snapshot machine before earlier moment)
      ?_ ?_ ?_
  · intro repeats machine origin earlier moment later split
    obtain ⟨before, history⟩ := origin.history
    rw [history] at split
    by_cases empty : machine.size 0 = 0
    · rw [if_pos empty] at split
      simp at split
    · rw [if_neg empty, eq_comm, List.append_eq_singleton_iff] at split
      rcases split with ⟨rfl, same⟩ | ⟨-, impossible⟩
      · cases same
        exact Or.inl ⟨rfl, rfl, repeats, rfl⟩
      · cases impossible
  · intro before after rests inductionHypothesis earlier moment later split
    rw [rests.history] at split
    rcases inductionHypothesis earlier moment later split with
      initial | ⟨snapshot, found⟩
    · exact Or.inl initial
    · refine Or.inr ⟨snapshot, found.later rests.clocks ?_ ?_⟩
      · intro id
        rw [rests.strips]
      · intro id
        rw [rests.strips]
  · intro rank before after event earlierChronicle sound steps logged
      inductionHypothesis earlier moment later split
    rw [logged.history] at split
    have clocks : before.clocks <+: after.clocks := by
      rw [logged.around.clocks]
    have leds := fun id => (logged.around.leds id).symm
    have ready := fun id => (logged.around.ready id).symm
    rcases List.eq_nil_or_concat later with empty | ⟨shorter, last, grown⟩
    · subst empty
      obtain ⟨front, same⟩ := List.append_inj' split rfl
      cases same
      right
      refine
        ⟨before, earlierChronicle, front, rfl, ?_, clocks, leds, ready, rank,
          sound, steps⟩
      have positive := earlierChronicle.clocks_length.1
      show before.clocks.length - 1 + 1 = before.clocks.length
      omega
    · rw [List.concat_eq_append] at grown
      subst grown
      have regrouped :
          before.history ++
              [⟨before.clocks.length - 1, event, before.toController,
                after.toController⟩] =
            (earlier ++ moment :: shorter) ++ [last] := by
        simpa using split
      obtain ⟨front, -⟩ := List.append_inj' regrouped rfl
      rcases inductionHypothesis earlier moment shorter front with
        initial | ⟨snapshot, found⟩
      · exact Or.inl initial
      · exact Or.inr ⟨snapshot, found.later clocks leds ready⟩

/-- Two controllers that store the same instructions in the same groups. -/
structure SameStored (before after : Controller) : Prop where
  groups : after.groups = before.groups
  instructionCount : after.instructionCount = before.instructionCount
  configuration :
    ∀ index,
      (after.instructions index).SameConfiguration (before.instructions index)

theorem SameStored.trans {before middle after : Controller}
    (first : SameStored before middle) (second : SameStored middle after) :
    SameStored before after :=
  ⟨second.groups.trans first.groups,
    second.instructionCount.trans first.instructionCount,
    fun index =>
      (second.configuration index).trans (first.configuration index)⟩

theorem sameStored_of_step {before after : Controller}
    {strips : StripId → Strip} {timestamp : UInt32} {event : Event}
    (step : before.Step strips timestamp event after) :
    SameStored before after :=
  ⟨step.sameProgram.groups, step.sameProgram.instructionCount,
    step.sameProgram.configuration⟩

theorem Resting.sameStored {before after : Machine}
    (rests : Resting before after) :
    SameStored before.toController after.toController := by
  refine ⟨rests.groups, rests.instructionCount, ?_⟩
  intro index
  rw [rests.instructions]
  rfl

theorem Chronicle.sameStored {inside : Bool} {machine : Machine}
    (chronicle : Chronicle inside machine) :
    ∀ moment ∈ machine.history,
      SameStored moment.after machine.toController := by
  refine
    chronicle.invariant
      (fun machine =>
        ∀ moment ∈ machine.history,
          SameStored moment.after machine.toController)
      ?_ ?_ ?_
  · intro repeats machine origin moment member
    obtain ⟨before, history⟩ := origin.history
    rw [history] at member
    split at member
    · exact absurd member List.not_mem_nil
    · rw [List.mem_singleton.mp member]
      exact ⟨rfl, rfl, fun _ => rfl⟩
  · intro before after rests inductionHypothesis moment member
    rw [rests.history] at member
    exact (inductionHypothesis moment member).trans rests.sameStored
  · intro rank before after event _ _ step logged inductionHypothesis moment
      member
    rw [logged.history] at member
    rcases List.mem_append.mp member with old | new
    · exact (inductionHypothesis moment old).trans (sameStored_of_step step)
    · rw [List.mem_singleton.mp new]
      exact ⟨rfl, rfl, fun _ => rfl⟩

theorem Snapshot.sameStored {machine before : Machine}
    {earlier later : List Moment} {moment : Moment} {inside : Bool}
    (snapshot : Snapshot machine before earlier moment)
    (chronicle : Chronicle inside machine)
    (split : machine.history = earlier ++ moment :: later) :
    SameStored before.toController machine.toController := by
  obtain ⟨rank, -, step⟩ := snapshot.step
  have member : moment ∈ machine.history := by
    rw [split]
    simp
  exact (sameStored_of_step step).trans (chronicle.sameStored moment member)

end Machine

end PrismKit
