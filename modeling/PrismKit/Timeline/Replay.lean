import PrismKit.Timeline.Rerun

/-!
# Replaying a stored program

A program that was run before, to its end or into an error, starts and runs as
it would on a fresh controller: whatever earlier runs left behind is reset by
`Start` or by the activation that first reads it.
-/

namespace PrismKit

open Library

namespace Machine

/-- The slots behind the stored program are empty, and the refresh period is
one that `SetRefreshPeriodMs` accepts. -/
structure Stocked (machine : Machine) : Prop where
  unused :
    ∀ index, machine.instructionCount ≤ index →
      (machine.instructions index).SameConfiguration {}
  period : ¬ (machine.refreshPeriodMs = 0 ∨
    machine.refreshPeriodMs ≥ 0x80000000)

private theorem Keeps.stocked {before after : Machine}
    (keeps : Keeps before after) (stocked : Stocked before) :
    Stocked after := by
  constructor
  · intro index beyond
    rw [keeps.instructionCount] at beyond
    exact (keeps.configuration index).trans (stocked.unused index beyond)
  · rw [keeps.refreshPeriodMs]
    exact stocked.period

private theorem Stocked.addInstruction {machine : Machine}
    (stocked : Stocked machine) (instr : Option ControllerInstruction) :
    Stocked (machine.addInstruction instr).1 := by
  unfold Machine.addInstruction
  cases instr with
  | none =>
      exact stocked
  | some instr =>
      simp only
      split
      · exact stocked
      · split
        · exact stocked
        · refine ⟨?_, stocked.period⟩
          intro index beyond
          have beyond' : machine.instructionCount + 1 ≤ index := beyond
          have different : index ≠ machine.instructionCount := by omega
          simp only [Function.update_of_ne different]
          exact stocked.unused index (by omega)

theorem stocked_of_reachable {machine : Machine}
    (reachable : Reachable machine) : Stocked machine := by
  induction reachable with
  | fresh strips =>
      refine ⟨fun _ _ => rfl, ?_⟩
      show ¬ ((20 : UInt32) = 0 ∨ (20 : UInt32) ≥ 0x80000000)
      decide
  | @perform before after status operation earlier performs
      inductionHypothesis =>
      have legal := legal_of_reachable earlier
      cases operation with
      | addInstruction instr =>
          have added := inductionHypothesis.addInstruction instr
          have performs' : before.addInstruction instr = (after, status) :=
            performs
          rw [performs'] at added
          exact added
      | start repeats now =>
          exact
            (keeps_of_start legal.loadable performs).stocked
              inductionHypothesis
      | run now =>
          obtain ⟨fuel, runs⟩ := performs
          exact (keeps_of_run legal runs).stocked inductionHypothesis
      | resetInstructions =>
          obtain ⟨rfl, -⟩ := performs
          exact ⟨fun _ _ => rfl, inductionHypothesis.period⟩
      | setRefreshPeriodMs periodMs =>
          have performs' :
              before.setRefreshPeriodMs periodMs = (after, status) :=
            performs
          unfold Machine.setRefreshPeriodMs at performs'
          split at performs'
          · cases performs'
            exact inductionHypothesis
          · rename_i valid
            split at performs'
            · cases performs'
              exact inductionHypothesis
            · cases performs'
              exact ⟨inductionHypothesis.unused, valid⟩
      | _ =>
          obtain ⟨rfl, -⟩ := performs
          exact ⟨inductionHypothesis.unused, inductionHypothesis.period⟩

/-! ### Loading a program into a fresh controller -/

/-- Instructions in the order of their addition, each with the strip that was
set at that time. -/
abbrev Program :=
  List (ControllerInstruction × Option StripId)

/-- The machine stores the program; its executions may have changed what
`ResetForReplay` clears. -/
structure Holds (program : Program) (machine : Machine) : Prop where
  length : program.length = machine.instructionCount
  stored :
    ∀ index (below : index < program.length),
      (machine.instructions index).SameConfiguration
        (.store program[index].1 program[index].2)

def additions (program : Program) : List Operation :=
  program.flatMap fun entry =>
    [.setStrip entry.2, .addInstruction (some entry.1)]

/-- The calls that bring a fresh controller to the settings of a machine and
add its program. -/
def reload (program : Program) (machine : Machine) : List Operation :=
  [.setRefreshPeriodMs machine.refreshPeriodMs,
      .setTimestampCallback machine.timestampCallback,
      .setScheduleCallback machine.scheduleCallback] ++
    additions program ++ [.setStrip machine.strip]

/-- A fresh controller with the settings of `source` into which a program was
added. -/
private structure Loaded (source : Machine) (program : Program)
    (machine : Machine) : Prop where
  state : machine.state = .editable
  instructionCount : machine.instructionCount = program.length
  stored :
    ∀ index (below : index < program.length),
      machine.instructions index = .store program[index].1 program[index].2
  unused :
    ∀ index, program.length ≤ index → machine.instructions index = {}
  refreshPeriodMs : machine.refreshPeriodMs = source.refreshPeriodMs
  timestampCallback : machine.timestampCallback = source.timestampCallback
  scheduleCallback : machine.scheduleCallback = source.scheduleCallback
  strips : machine.strips = source.strips
  outputs : machine.outputs = []

/-- The calls succeed one by one and nothing is sent. -/
private def Silently (operations : List Operation) (before after : Machine) :
    Prop :=
  ∃ observations,
    Plays operations before observations after ∧
      ∀ observation ∈ observations, observation = (.success, [])

private theorem Silently.nil (machine : Machine) :
    Silently [] machine machine :=
  ⟨[], .done machine, fun _ member => absurd member List.not_mem_nil⟩

private theorem Silently.cons {operation : Operation}
    {operations : List Operation} {before middle after : Machine}
    (performs : Performs operation before middle .success)
    (outputs : middle.outputs = before.outputs)
    (rest : Silently operations middle after) :
    Silently (operation :: operations) before after := by
  obtain ⟨observations, plays, quiet⟩ := rest
  refine ⟨_, .call performs plays, ?_⟩
  intro observation member
  rcases List.mem_cons.mp member with first | later
  · rw [first, outputs, List.drop_length]
  · exact quiet observation later

private theorem Silently.append {first second : List Operation}
    {before middle after : Machine} (former : Silently first before middle)
    (latter : Silently second middle after) :
    Silently (first ++ second) before after := by
  obtain ⟨observations, plays, quiet⟩ := former
  induction plays with
  | done machine =>
      exact latter
  | @call operation operations before middle' _ status observations performs
      rest inductionHypothesis =>
      have head := quiet _ List.mem_cons_self
      have tail :=
        inductionHypothesis latter fun observation member =>
          quiet observation (List.mem_cons_of_mem _ member)
      obtain ⟨later, plays, quietLater⟩ := tail
      refine ⟨_, .call performs plays, ?_⟩
      intro observation member
      rcases List.mem_cons.mp member with rfl | remaining
      · exact head
      · exact quietLater observation remaining

private theorem Loaded.add {source machine : Machine} {program : Program}
    (loaded : Loaded source program machine)
    (room : program.length < maxInstructions)
    (entry : ControllerInstruction × Option StripId) :
    ∃ next,
      Silently [.setStrip entry.2, .addInstruction (some entry.1)] machine
          next ∧
        Loaded source (program ++ [entry]) next := by
  obtain ⟨instr, strip⟩ := entry
  have accepts :
      ({ machine with strip := strip } : Machine).addInstruction
          (some instr) =
        ({ machine with
            strip := strip
            instructions :=
              Function.update machine.instructions machine.instructionCount
                (.store instr strip)
            instructionCount := machine.instructionCount + 1 },
          .success) := by
    have editable : ¬ machine.state ≠ .editable := not_not.mpr loaded.state
    have fits : ¬ machine.instructionCount ≥ maxInstructions := by
      rw [loaded.instructionCount]
      omega
    simp only [Machine.addInstruction, if_neg editable, if_neg fits]
  refine
    ⟨_, .cons ⟨rfl, rfl⟩ rfl (.cons accepts rfl (.nil _)), ?_⟩
  constructor
  · exact loaded.state
  · show machine.instructionCount + 1 = _
    rw [loaded.instructionCount, List.length_append, List.length_singleton]
  · intro index below
    rw [List.length_append, List.length_singleton] at below
    by_cases last : index = program.length
    · subst last
      simp only [loaded.instructionCount, Function.update_self,
        List.getElem_concat_length]
    · have earlier : index < program.length := by omega
      simp only [loaded.instructionCount, Function.update_of_ne last,
        List.getElem_append_left earlier]
      exact loaded.stored index earlier
  · intro index beyond
    rw [List.length_append, List.length_singleton] at beyond
    have last : index ≠ program.length := by omega
    simp only [loaded.instructionCount, Function.update_of_ne last]
    exact loaded.unused index (by omega)
  · exact loaded.refreshPeriodMs
  · exact loaded.timestampCallback
  · exact loaded.scheduleCallback
  · exact loaded.strips
  · exact loaded.outputs

private theorem Loaded.additions {source machine : Machine}
    {program : Program} (loaded : Loaded source program machine)
    (rest : Program)
    (room : program.length + rest.length ≤ maxInstructions) :
    ∃ next,
      Silently (Machine.additions rest) machine next ∧
        Loaded source (program ++ rest) next := by
  induction rest generalizing program machine with
  | nil =>
      rw [List.append_nil]
      exact ⟨machine, .nil machine, loaded⟩
  | cons entry rest inductionHypothesis =>
      rw [List.length_cons] at room
      obtain ⟨middle, first, grown⟩ := loaded.add (by omega) entry
      obtain ⟨next, later, complete⟩ :=
        inductionHypothesis grown (by simp; omega)
      refine ⟨next, first.append later, ?_⟩
      rw [List.append_assoc, List.singleton_append] at complete
      exact complete

/-- A program that a reachable machine holds can be added to a fresh
controller. -/
private theorem loaded_reload {machine : Machine} (legal : Legal machine)
    (stocked : Stocked machine) {program : Program}
    (holds : Holds program machine) :
    ∃ loaded,
      Silently (reload program machine) (fresh machine.strips) loaded ∧
        Loaded machine program loaded ∧ loaded.strip = machine.strip := by
  have settings :
      Silently
        [.setRefreshPeriodMs machine.refreshPeriodMs,
          .setTimestampCallback machine.timestampCallback,
          .setScheduleCallback machine.scheduleCallback]
        (fresh machine.strips)
        { fresh machine.strips with
          refreshPeriodMs := machine.refreshPeriodMs
          timestampCallback := machine.timestampCallback
          scheduleCallback := machine.scheduleCallback } := by
    have accepts :
        (fresh machine.strips).setRefreshPeriodMs machine.refreshPeriodMs =
          ({ fresh machine.strips with
              refreshPeriodMs := machine.refreshPeriodMs }, .success) := by
      unfold Machine.setRefreshPeriodMs
      rw [if_neg stocked.period]
      rfl
    exact
      .cons accepts rfl
        (.cons ⟨rfl, rfl⟩ rfl (.cons ⟨rfl, rfl⟩ rfl (.nil _)))
  have start :
      Loaded machine []
        { fresh machine.strips with
          refreshPeriodMs := machine.refreshPeriodMs
          timestampCallback := machine.timestampCallback
          scheduleCallback := machine.scheduleCallback } := by
    refine ⟨rfl, rfl, ?_, fun _ _ => rfl, rfl, rfl, rfl, rfl, rfl⟩
    intro index below
    exact absurd below (Nat.not_lt_zero index)
  have room : program.length ≤ maxInstructions := by
    rw [holds.length]
    exact legal.loadable.stored
  obtain ⟨full, added, complete⟩ := start.additions program (by simpa using room)
  refine
    ⟨{ full with strip := machine.strip },
      (settings.append added).append
        (.cons ⟨rfl, rfl⟩ rfl (.nil _)), ?_, rfl⟩
  rw [List.nil_append] at complete
  exact { complete with }

variable {lead lead' : List Output} {machine other : Machine}

theorem reachable_of_plays {operations : List Operation}
    {observations : List (ControllerStatus × List Output)} {after : Machine}
    (reachable : Reachable machine)
    (plays : Plays operations machine observations after) :
    Reachable after := by
  induction plays with
  | done machine =>
      exact reachable
  | call performs rest inductionHypothesis =>
      exact inductionHypothesis (.perform _ reachable performs)

/-- A machine and a fresh one with the same program agree on all that `Start`
reads. -/
private theorem alike_of_loaded {loaded : Machine} {program : Program}
    (stocked : Stocked machine) (holds : Holds program machine)
    (fresh : Loaded machine program loaded)
    (strip : loaded.strip = machine.strip) :
    Alike 0 machine.outputs loaded.outputs machine loaded := by
  refine
    { strip := strip
      strips := fresh.strips
      instructionCount := fresh.instructionCount.trans holds.length
      refreshPeriodMs := fresh.refreshPeriodMs
      timestampCallback := fresh.timestampCallback
      scheduleCallback := fresh.scheduleCallback
      configuration := ?_
      steady := Or.inl rfl
      outputs := ⟨[], by simp, by simp⟩ }
  intro index
  by_cases below : index < program.length
  · rw [fresh.stored index below]
    exact (holds.stored index below).symm
  · have beyond : program.length ≤ index := Nat.le_of_not_lt below
    rw [fresh.unused index beyond]
    rw [holds.length] at beyond
    exact (stocked.unused index beyond).symm

/-- Both machines read the same clock. -/
theorem Alike.getTimestamp_eq (alike : Alike 0 lead lead' machine other)
    (now : Nat) :
    other.getTimestamp now = machine.getTimestamp now + 0 := by
  simp only [getTimestamp, clockReading, alike.timestampCallback,
    UInt32.add_zero]

private theorem Alike.shows_idle (alike : Alike 0 lead lead' machine other)
    (idle : machine.state ≠ .active) (idle' : other.state ≠ .active)
    (ticks : List Nat)
    (observations : List (ControllerStatus × List Output)) :
    Shows (ticks.map .run) machine observations ↔
      Shows (ticks.map .run) other observations := by
  induction ticks generalizing observations with
  | nil =>
      rw [List.map_nil, shows_nil_iff, shows_nil_iff]
  | cons now rest inductionHypothesis =>
      rw [List.map_cons]
      apply shows_cons_congr
      intro fuel
      right
      refine
        ⟨machine, other, .success, ?_, ?_, alike.rebase, inductionHypothesis⟩
      · simp only [Operation.call, Machine.run, if_pos idle]
      · simp only [Operation.call, Machine.run, if_pos idle']

/-- Ticks of twins show the same. -/
private theorem Twin.shows_ticks
    (twin : Twin 0 lead lead' false machine other) (ticks : List Nat)
    (observations : List (ControllerStatus × List Output)) :
    Shows (ticks.map .run) machine observations ↔
      Shows (ticks.map .run) other observations := by
  induction ticks generalizing machine other lead lead' observations with
  | nil =>
      rw [List.map_nil, shows_nil_iff, shows_nil_iff]
  | cons now rest inductionHypothesis =>
      rw [List.map_cons]
      apply shows_cons_congr
      intro fuel
      rcases twin.rebase.run fuel (twin.toAlike.getTimestamp_eq now) with
        stuck | ⟨after, after', status, runs, runs', agree⟩
      · exact Or.inl stuck
      · right
        exact
          ⟨after, after', status, runs, runs', agree.toAlike,
            inductionHypothesis agree⟩

/-- Machines that agree on all that `Start` reads show the same from the start
of their program on. -/
private theorem Alike.shows_start (alike : Alike 0 lead lead' machine other)
    (loadable : machine.Loadable) (loadable' : other.Loadable)
    (idle : machine.state ≠ .active) (idle' : other.state ≠ .active)
    (repeats : LoopCount) (now : Nat) (ticks : List Nat)
    (observations : List (ControllerStatus × List Output)) :
    Shows (.start repeats now :: ticks.map .run) machine observations ↔
      Shows (.start repeats now :: ticks.map .run) other observations := by
  apply shows_cons_congr
  intro fuel
  right
  rcases
    alike.rebase.start loadable loadable' idle idle' repeats
      (alike.getTimestamp_eq now) with
    ⟨status, refused, refused'⟩ | ⟨after, after', starts, starts', agree⟩
  · exact
      ⟨machine, other, status, congrArg some refused, congrArg some refused',
        alike.rebase, alike.shows_idle idle idle' ticks⟩
  · exact
      ⟨after, after', .success, congrArg some starts, congrArg some starts',
        agree.toAlike, agree.shows_ticks ticks⟩

/-- A reachable machine that is not active and holds a program shows, from the
next start of the program on, what a fresh controller with the same settings
and the same staged colors shows into which the program was added. -/
theorem replay_fresh (reachable : Reachable machine)
    (idle : machine.state ≠ .active) {program : Program}
    (holds : Holds program machine) :
    ∃ loaded,
      (∃ observations,
          Plays (reload program machine) (fresh machine.strips) observations
              loaded ∧
            ∀ observation ∈ observations, observation = (.success, [])) ∧
        ∀ repeats now (ticks : List Nat) observations,
          Shows (.start repeats now :: ticks.map .run) machine
              observations ↔
            Shows (.start repeats now :: ticks.map .run) loaded
              observations := by
  have legal := legal_of_reachable reachable
  have stocked := stocked_of_reachable reachable
  obtain ⟨loaded, ⟨replies, plays, quiet⟩, complete, strip⟩ :=
    loaded_reload legal stocked holds
  have legal' : Legal loaded :=
    legal_of_reachable (reachable_of_plays (.fresh machine.strips) plays)
  have idle' : loaded.state ≠ .active := by
    rw [complete.state]
    decide
  have alike := alike_of_loaded stocked holds complete strip
  exact
    ⟨loaded, ⟨replies, plays, quiet⟩,
      alike.shows_start legal.loadable legal'.loadable idle idle'⟩

/-- The instruction at a position of the slot array and its strip. -/
def storedAt (machine : Machine) (index : Nat) :
    ControllerInstruction × Option StripId :=
  match (machine.instructions index).active with
  | some instr => (instr, instr.strip)
  | none => ({ kind := .runGroup 0 0 }, none)

theorem exists_holds (reachable : Reachable machine) :
    ∃ program, Holds program machine := by
  have loadable := (legal_of_reachable reachable).loadable
  refine ⟨(List.range machine.instructionCount).map machine.storedAt, ?_⟩
  constructor
  · rw [List.length_map, List.length_range]
  · intro index below
    rw [List.length_map, List.length_range] at below
    obtain ⟨instr, active, bound⟩ := loadable.bound index below
    have slot :
        machine.instructions index =
          .store (machine.storedAt index).1 (machine.storedAt index).2 := by
      unfold storedAt
      rw [active]
      simp only [InstructionMemorySlot.store, ← bound]
      rw [← active]
    rw [List.getElem_map, List.getElem_range, ← slot]
    rfl

/-- A repeated Fade that ran to its end and is started again. -/
theorem replay_fresh_of_repeatedFade :
    ∃ program loaded,
      Holds program repeatedFade ∧
        ∀ repeats now (ticks : List Nat) observations,
          Shows (.start repeats now :: ticks.map .run) repeatedFade
              observations ↔
            Shows (.start repeats now :: ticks.map .run) loaded
              observations := by
  have reachable : Reachable repeatedFade := reachable_hosted _ _
  have idle : repeatedFade.state ≠ .active := by
    decide +kernel
  obtain ⟨program, holds⟩ := exists_holds reachable
  obtain ⟨loaded, -, same⟩ := replay_fresh reachable idle holds
  exact ⟨program, loaded, holds, same⟩

end Machine

end PrismKit
