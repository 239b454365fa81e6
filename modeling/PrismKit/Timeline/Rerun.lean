import PrismKit.Timeline.Lockstep
import PrismKit.Timeline.Wakeup

/-!
# Calls on twin machines

`Start` makes twins of two machines that hold the same program, whatever is
left in them of earlier runs, and `Run` keeps them.  `Plays` is what the caller
of a machine gets to see of a sequence of calls.
-/

namespace PrismKit

open Library

/-- The preflight gives programs of the same configuration the same answer. -/
theorem validateGroups_congr {instructions other : Nat → InstructionMemorySlot}
    (same : ∀ index, (other index).SameConfiguration (instructions index))
    (instructionCount : Nat) (repeats : LoopCount) :
    validateGroups other instructionCount repeats =
      validateGroups instructions instructionCount repeats := by
  have table : tableInstruction other = tableInstruction instructions := by
    funext index build
    simp only [tableInstruction, (same index).getGroupId_eq]
  have fill : fillInstruction other = fillInstruction instructions := by
    funext index build
    simp only [fillInstruction, (same index).getGroupId_eq]
  have sort : sortGroup other = sortGroup instructions := by
    funext index build
    simp only [sortGroup, (same _).getMark_eq]
  have link : linkInstruction other = linkInstruction instructions := by
    funext index build
    simp only [linkInstruction, (same index).isRunGroup_eq,
      (same index).getTargetGroupId_eq, (same index).getGroupId_eq]
  have mark : markBoundary other = markBoundary instructions := by
    funext index build
    simp only [markBoundary, (same index).getMark_eq,
      (same index).hasPositiveSchedulingBoundary_eq,
      (same index).getGroupId_eq]
  have repeated :
      repeatsWithoutBoundary other = repeatsWithoutBoundary instructions := by
    funext build index
    simp only [repeatsWithoutBoundary, (same index).isRunGroup_eq,
      (same index).getAdditionalRepeats_eq, (same index).getTargetGroupId_eq]
  unfold validateGroups buildGroupTable buildGroupIndexPool
    buildGroupCallGraph validateRepeatBoundaries
  rw [table, fill, sort, link, mark, repeated]

namespace Machine

variable {offset : UInt32} {lead lead' : List Output} {machine other : Machine}

/-- What both machines have done since they were compared. -/
theorem Alike.emitted_eq (alike : Alike offset lead lead' machine other) :
    other.outputs.drop lead'.length = machine.outputs.drop lead.length := by
  obtain ⟨emitted, outputs, outputs'⟩ := alike.outputs
  rw [outputs, outputs', List.drop_left, List.drop_left]

/-- Compare the machines from here on. -/
theorem Alike.rebase (alike : Alike offset lead lead' machine other) :
    Alike offset machine.outputs other.outputs machine other :=
  { alike with outputs := ⟨[], by simp, by simp⟩ }

theorem Twin.rebase {inside : Bool}
    (twin : Twin offset lead lead' inside machine other) :
    Twin offset machine.outputs other.outputs inside machine other :=
  { twin with outputs := ⟨[], by simp, by simp⟩ }

private def committed (build : GroupBuildState) (machine : Machine) :
    Machine :=
  { machine with
    toController :=
      { machine.committedStart build with state := .completed } }

private theorem startGroupRuntime_committed {build : GroupBuildState}
    {repeats : LoopCount} (loadable : machine.Loadable)
    (validated :
      Validated machine.instructions machine.instructionCount repeats build)
    (timestamp : UInt32) :
    (machine.committed build).startGroupRuntime 0 timestamp repeats
        maxGroups =
      some
        { machine.committed build with
          toController :=
            (machine.committed build).toController.activate 0 timestamp
              repeats maxGroups } := by
  obtain ⟨rank, built⟩ :=
    Controller.committed_commitGroupBuild loadable.stored
      loadable.period_pos validated
  have committed := Controller.committedStart_committed built
  exact
    startGroupRuntime_eq timestamp repeats (committed.record 0)
      committed.nonempty (by decide) (Or.inl rfl)

/-- The commit of a build forgets everything about earlier runs. -/
private theorem Alike.committed
    (alike : Alike offset lead lead' machine other) (build : GroupBuildState) :
    Twin offset lead lead' false (machine.committed build)
      (other.committed build) := by
  have inactive :
      ∀ controller : Controller, ∀ group,
        ((controller.committedStart build).runtimes group).active = false := by
    intro controller group
    rw [Controller.committedStart_runtime]
  refine
    { alike with
      state := rfl
      showRequested := rfl
      minScheduledTimeout := rfl
      groupCount := rfl
      groups := rfl
      groupIndices := rfl
      runtimes := ?_
      executing := rfl
      timelines := ?_
      entries := ?_
      runStatus := ?_ }
  · intro group
    exact
      (GroupRuntime.shift_of_inactive offset _
        (inactive machine.toController group)).symm
  · intro group active
    have idle :
        ((machine.committed build).runtimes group).active = false :=
      inactive machine.toController group
    rw [idle] at active
    exact Bool.noConfusion active
  · intro entry member
    exact absurd member List.not_mem_nil
  · intro impossible
    exact Bool.noConfusion impossible

/-- Either both machines refuse a program and stay what they are, or both start
it as twins. -/
theorem Alike.start (alike : Alike offset lead lead' machine other)
    (loadable : machine.Loadable) (loadable' : other.Loadable)
    (idle : machine.state ≠ .active) (idle' : other.state ≠ .active)
    (repeats : LoopCount) {now now' : Nat}
    (clock : other.getTimestamp now' = machine.getTimestamp now + offset) :
    (∃ status,
        machine.start repeats now = (machine, status) ∧
          other.start repeats now' = (other, status)) ∨
      ∃ after after',
        machine.start repeats now = (after, .success) ∧
          other.start repeats now' = (after', .success) ∧
            Twin offset lead lead' false after after' := by
  have same :
      validateGroups other.instructions other.instructionCount repeats =
        validateGroups machine.instructions machine.instructionCount
          repeats := by
    rw [alike.instructionCount]
    exact validateGroups_congr alike.configuration _ repeats
  rcases validateGroups_cases repeats loadable.stored with
    ⟨build, validates, validated⟩ | ⟨status, _, fails, -⟩
  · right
    rcases validateGroups_cases repeats loadable'.stored with
      ⟨build', validates', validated'⟩ | ⟨_, _, fails', -⟩
    · have sameBuild : build' = build := by
        rw [same, validates] at validates'
        exact (Except.ok.inj validates').symm
      subst sameBuild
      refine
        ⟨_, _, start_eq loadable idle validates validated now,
          start_eq loadable' idle' validates' validated' now', ?_⟩
      have committed := alike.committed build'
      unfold Controller.afterStart
      by_cases empty : (machine.committedStart build').size 0 = 0
      · have empty' : (other.committedStart build').size 0 = 0 := empty
        rw [if_pos empty, if_pos empty']
        exact { committed with }
      · have empty' : ¬ (other.committedStart build').size 0 = 0 := empty
        rw [if_neg empty, if_neg empty', clock]
        have starts :=
          startGroupRuntime_committed loadable validated
            (machine.getTimestamp now)
        have starts' :=
          startGroupRuntime_committed loadable' validated'
            (machine.getTimestamp now + offset)
        rcases
          committed.startGroupRuntime 0 (machine.getTimestamp now) repeats
            maxGroups with
          ⟨refused, -⟩ | ⟨next, next', started, started', agree⟩
        · rw [starts] at refused
          cases refused
        · rw [starts] at started
          rw [starts'] at started'
          cases started
          cases started'
          exact { agree with state := rfl }
    · rw [same, validates] at fails'
      cases fails'
  · left
    have fails' :
        validateGroups other.instructions other.instructionCount repeats =
          .error status :=
      same.trans fails
    refine ⟨status, ?_, ?_⟩
    · unfold Machine.start
      simp only [if_neg idle, buildAndValidateGroups, fails]
    · unfold Machine.start
      simp only [if_neg idle', buildAndValidateGroups, fails']

/-- Both machines return from `Run` with the same status, or neither does. -/
theorem Twin.run (twin : Twin offset lead lead' false machine other)
    (fuel : Nat) {now now' : Nat}
    (clock : other.getTimestamp now' = machine.getTimestamp now + offset) :
    (machine.run fuel now = none ∧ other.run fuel now' = none) ∨
      ∃ after after' status,
        machine.run fuel now = some (after, status) ∧
          other.run fuel now' = some (after', status) ∧
            Twin offset lead lead' false after after' := by
  unfold Machine.run
  rw [twin.state, clock]
  by_cases idle : machine.state ≠ .active
  · rw [if_pos idle, if_pos idle]
    exact Or.inr ⟨machine, other, .success, rfl, rfl, twin⟩
  · rw [if_neg idle, if_neg idle]
    have begun :
        Twin offset lead lead' true (machine.beginRun now)
          (other.beginRun now') :=
      { twin with
        showRequested := rfl
        minScheduledTimeout := rfl
        runStatus := fun _ => rfl }
    rcases begun.runLoop (machine.getTimestamp now) fuel with
      ⟨loops, loops'⟩ | ⟨settled, settled', loops, loops', agree⟩
    · left
      simp only [loops, loops', and_self]
    · right
      have final :=
        (agree.scheduleNextRun (machine.getTimestamp now)).commitShow
      simp only [loops, loops', final.runStatus]
      exact
        ⟨_, _, _, rfl, rfl,
          { final with runStatus := fun impossible => nomatch impossible }⟩

/-- The stored program and the settings of the caller stay. -/
structure Keeps (before after : Machine) : Prop where
  instructionCount : after.instructionCount = before.instructionCount
  configuration :
    ∀ index,
      (after.instructions index).SameConfiguration (before.instructions index)
  refreshPeriodMs : after.refreshPeriodMs = before.refreshPeriodMs
  timestampCallback : after.timestampCallback = before.timestampCallback

theorem Keeps.refl (machine : Machine) : Keeps machine machine :=
  ⟨rfl, fun _ => rfl, rfl, rfl⟩

theorem Keeps.trans {before middle after : Machine}
    (first : Keeps before middle) (second : Keeps middle after) :
    Keeps before after :=
  ⟨second.instructionCount.trans first.instructionCount,
    fun index =>
      (second.configuration index).trans (first.configuration index),
    second.refreshPeriodMs.trans first.refreshPeriodMs,
    second.timestampCallback.trans first.timestampCallback⟩

theorem Keeps.step {before after : Machine} {strips : StripId → Strip}
    {timestamp : UInt32} {event : Event}
    (step :
      before.toController.Step strips timestamp event after.toController) :
    Keeps before after :=
  ⟨step.sameProgram.instructionCount, step.sameProgram.configuration,
    step.sameProgram.refreshPeriodMs, step.callback.2.2⟩

theorem keeps_of_run {before after : Machine} (legal : Legal before)
    {fuel now : Nat} {status : ControllerStatus}
    (runs : before.run fuel now = some (after, status)) :
    Keeps before after := by
  by_cases active : before.state = .active
  · have loaded : before.state ≠ .editable := by
      rw [active]
      decide
    have chronicle := legal.chronicle loaded
    obtain ⟨settled, -, moves, -, -, rfl, -⟩ := chronicle.run active runs
    have begun := Chronicle.began before now chronicle active
    have kept : Keeps before settled := by
      rw [← timestamp_beginRun] at moves
      apply begun.moves_invariant (Keeps before) moves
      · exact ⟨rfl, fun _ => rfl, rfl, rfl⟩
      · intro rank current next event _ _ _ step _ earlier
        exact earlier.trans (.step step)
    obtain ⟨timeout, calls, scheduled, -⟩ :=
      scheduleNextRun_frame (before.getTimestamp now) settled
    rw [commitShow_eq, scheduled]
    exact
      ⟨kept.instructionCount, kept.configuration, kept.refreshPeriodMs,
        kept.timestampCallback⟩
  · unfold Machine.run at runs
    rw [if_pos active] at runs
    cases runs
    exact .refl before

theorem keeps_of_start {before after : Machine} (loadable : before.Loadable)
    {repeats : LoopCount} {now : Nat} {status : ControllerStatus}
    (starts : before.start repeats now = (after, status)) :
    Keeps before after := by
  rcases start_cases loadable repeats now with
    ⟨-, refused⟩ | ⟨-, -, failure, -, refused⟩ |
      ⟨-, -, build, -, -, controller, -⟩
  · rw [refused] at starts
    cases starts
    exact .refl before
  · rw [refused] at starts
    cases starts
    exact .refl before
  · rw [starts] at controller
    have same :=
      @Controller.afterStart_sameProgram build repeats
        (before.getTimestamp now) before.toController
    have callback :
        (before.afterStart build repeats
            (before.getTimestamp now)).timestampCallback =
          before.timestampCallback := by
      unfold Controller.afterStart
      split <;> rfl
    simp only at controller
    rw [← controller] at same callback
    exact
      ⟨same.instructionCount, same.configuration, same.refreshPeriodMs,
        callback⟩

/-! ### What a caller sees -/

/-- Making the calls in order returns these statuses and makes these calls to
the outside, call by call. -/
inductive Plays :
    List Operation → Machine → List (ControllerStatus × List Output) →
      Machine → Prop
  | done (machine : Machine) : Plays [] machine [] machine
  | call {operation : Operation} {operations : List Operation}
      {before middle after : Machine} {status : ControllerStatus}
      {observations : List (ControllerStatus × List Output)}
      (performs : Performs operation before middle status)
      (rest : Plays operations middle observations after) :
      Plays (operation :: operations) before
        ((status, middle.outputs.drop before.outputs.length) :: observations)
        after

/-- What one can see of a machine by making calls. -/
def Shows (operations : List Operation) (machine : Machine)
    (observations : List (ControllerStatus × List Output)) : Prop :=
  ∃ after, Plays operations machine observations after

theorem performs_iff_call {operation : Operation} {before after : Machine}
    {status : ControllerStatus} :
    Performs operation before after status ↔
      ∃ fuel, operation.call fuel before = some (after, status) := by
  constructor
  · intro performs
    cases operation with
    | run now =>
        exact performs
    | setStrip strip =>
        obtain ⟨rfl, rfl⟩ := performs
        exact ⟨0, rfl⟩
    | addInstruction instr =>
        exact ⟨0, congrArg some performs⟩
    | start repeats now =>
        exact ⟨0, congrArg some performs⟩
    | resetInstructions =>
        obtain ⟨rfl, rfl⟩ := performs
        exact ⟨0, rfl⟩
    | setRefreshPeriodMs periodMs =>
        exact ⟨0, congrArg some performs⟩
    | setTimestampCallback registered =>
        obtain ⟨rfl, rfl⟩ := performs
        exact ⟨0, rfl⟩
    | setScheduleCallback registered =>
        obtain ⟨rfl, rfl⟩ := performs
        exact ⟨0, rfl⟩
  · rintro ⟨fuel, called⟩
    exact Operation.performs_of_call called

theorem shows_nil_iff {machine : Machine}
    {observations : List (ControllerStatus × List Output)} :
    Shows [] machine observations ↔ observations = [] := by
  constructor
  · rintro ⟨after, plays⟩
    cases plays
    rfl
  · rintro rfl
    exact ⟨machine, .done machine⟩

/-- The first call and then the others. -/
theorem shows_cons_iff {operation : Operation} {operations : List Operation}
    {machine : Machine}
    {observations : List (ControllerStatus × List Output)} :
    Shows (operation :: operations) machine observations ↔
      ∃ fuel next status rest,
        operation.call fuel machine = some (next, status) ∧
          observations =
            (status, next.outputs.drop machine.outputs.length) :: rest ∧
          Shows operations next rest := by
  constructor
  · rintro ⟨after, plays⟩
    cases plays with
    | call performs rest =>
        obtain ⟨fuel, called⟩ := performs_iff_call.mp performs
        exact ⟨fuel, _, _, _, called, rfl, after, rest⟩
  · rintro ⟨fuel, next, status, rest, called, rfl, after, plays⟩
    exact ⟨after, .call (performs_iff_call.mpr ⟨fuel, called⟩) plays⟩

/-- Machines whose first calls make twins of them show the same when what
remains shows the same. -/
theorem shows_cons_congr {operation operation' : Operation}
    {operations operations' : List Operation}
    {observations : List (ControllerStatus × List Output)}
    (called :
      ∀ fuel,
        (operation.call fuel machine = none ∧
            operation'.call fuel other = none) ∨
          ∃ after after' status,
            operation.call fuel machine = some (after, status) ∧
              operation'.call fuel other = some (after', status) ∧
                Alike offset machine.outputs other.outputs after after' ∧
                ∀ rest,
                  Shows operations after rest ↔ Shows operations' after' rest) :
    Shows (operation :: operations) machine observations ↔
      Shows (operation' :: operations') other observations := by
  rw [shows_cons_iff, shows_cons_iff]
  constructor
  · rintro ⟨fuel, next, status, rest, returns, rfl, shows⟩
    rcases called fuel with
      ⟨stuck, -⟩ |
        ⟨after, after', status', returned, returned', alike, agree⟩
    · rw [stuck] at returns
      cases returns
    · rw [returned] at returns
      cases returns
      refine ⟨fuel, after', status, rest, returned', ?_, ?_⟩
      · rw [alike.emitted_eq]
      · exact (agree rest).mp shows
  · rintro ⟨fuel, next, status, rest, returns, rfl, shows⟩
    rcases called fuel with
      ⟨-, stuck⟩ |
        ⟨after, after', status', returned, returned', alike, agree⟩
    · rw [stuck] at returns
      cases returns
    · rw [returned'] at returns
      cases returns
      refine ⟨fuel, after, status, rest, returned, ?_, ?_⟩
      · rw [alike.emitted_eq]
      · exact (agree rest).mpr shows

/-- What the calls show, if `fuel` bounds the loops of every `Run`. -/
def observe (fuel : Nat) :
    List Operation → Machine → Option (List (ControllerStatus × List Output))
  | [], _ => some []
  | operation :: rest, machine =>
      match operation.call fuel machine with
      | none => none
      | some (next, status) =>
          (observe fuel rest next).map fun later =>
            (status, next.outputs.drop machine.outputs.length) :: later

theorem shows_of_observe {fuel : Nat} {operations : List Operation}
    {observations : List (ControllerStatus × List Output)}
    (observed : observe fuel operations machine = some observations) :
    Shows operations machine observations := by
  induction operations generalizing machine observations with
  | nil =>
      cases observed
      exact ⟨machine, .done machine⟩
  | cons operation rest inductionHypothesis =>
      unfold observe at observed
      cases called : operation.call fuel machine with
      | none =>
          rw [called] at observed
          cases observed
      | some result =>
          obtain ⟨next, status⟩ := result
          rw [called] at observed
          obtain ⟨later, observedLater, rfl⟩ :=
            Option.map_eq_some_iff.mp observed
          exact
            shows_cons_iff.mpr
              ⟨fuel, next, status, later, called, rfl,
                inductionHypothesis observedLater⟩

end Machine

end PrismKit
