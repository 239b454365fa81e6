import PrismKit.Controller.Staging
import PrismKit.Timeline.History
import PrismKit.Timeline.Session

/-!
# The commit at the end of `Run`

An instruction stages its colors on the strip that was bound when it was added,
and `Run` calls `Show` on the strip that is bound now.  What a `Run` stages is
committed as long as the two are the same.
-/

namespace PrismKit

open Library Relation

def Event.execution : Event → Option Nat
  | .executed _ slot _ => some slot
  | .resumed _ slot _ => some slot
  | _ => none

/-- The recorded transition is an execution that stages a color on a strip. -/
def Moment.Stages (strips : StripId → Strip) (moment : Moment)
    (id : StripId) : Prop :=
  ∃ slot instr,
    moment.event.execution = some slot ∧
      (moment.before.instructions slot).active = some instr ∧
        instr.Stages strips id

/-- The `SetColor` calls of the execution that a transition records. -/
def Moment.writes (strips : StripId → Strip) (timestamp : UInt32)
    (moment : Moment) : List PixelWrite :=
  match moment.event.execution with
  | none => []
  | some slot =>
      ((moment.before.instructions slot).execute strips
        moment.before.refreshPeriodMs timestamp).2.2.1

theorem Moment.writes_of_idle {moment : Moment}
    (idle : moment.event.execution = none) (strips : StripId → Strip)
    (timestamp : UInt32) : moment.writes strips timestamp = [] := by
  unfold writes
  rw [idle]

namespace Machine

/-- The calls to the environment between two machines. -/
def emitted (before after : Machine) : List Output :=
  after.outputs.drop before.outputs.length

def recorded (before after : Machine) : List Moment :=
  after.history.drop before.history.length

/-- No staged write is left uncommitted: a strip on which a color was staged
gets one `Show`, behind the last write, and no strip gets two. -/
structure Commits (before after : Machine) : Prop where
  shown :
    ∀ write, .setColor write ∈ before.emitted after →
      (before.strips write.strip).ready = true →
        (before.emitted after).count (.show write.strip) = 1 ∧
          ∃ front back,
            before.emitted after = front ++ .show write.strip :: back ∧
              ∀ later, Output.setColor later ∉ back
  single : ∀ id, (before.emitted after).count (.show id) ≤ 1

/-- Every stored instruction is bound to the strip that is bound now. -/
def Aligned (machine : Machine) : Prop :=
  ∀ index instr id, (machine.instructions index).active = some instr →
    instr.strip = some id → machine.strip = some id

/-! ### What the scheduler emits -/

/-- The strips, the calls and the records of a machine. -/
structure Surface where
  strip : Option StripId
  strips : StripId → Strip
  showRequested : Bool
  outputs : List Output
  history : List Moment

def surface (machine : Machine) : Surface :=
  ⟨machine.strip, machine.strips, machine.showRequested, machine.outputs,
    machine.history⟩

/-- Between two surfaces the scheduler made `writes` and recorded `moments`;
the moments say on which strips colors were staged, and a write requested a
show. -/
structure Emits (start final : Surface) (moments : List Moment)
    (writes : List PixelWrite) : Prop where
  strip : final.strip = start.strip
  lengths : ∀ id, (final.strips id).ledCount = (start.strips id).ledCount
  ready : ∀ id, (final.strips id).ready = (start.strips id).ready
  history : final.history = start.history ++ moments
  outputs : final.outputs = start.outputs ++ writes.map Output.setColor
  painted : final.strips = paint start.strips writes
  kept : start.showRequested = true → final.showRequested = true
  requested : writes ≠ [] → final.showRequested = true
  staged :
    ∀ id,
      ((start.strips id).ready = true ∧
          ∃ write ∈ writes, write.strip = id) ↔
        ∃ moment ∈ moments, moment.Stages start.strips id

namespace Emits

variable {start middle final : Surface} {moments later : List Moment}
  {writes others : List PixelWrite}

theorem refl (start : Surface) : Emits start start [] [] where
  strip := rfl
  lengths := fun _ => rfl
  ready := fun _ => rfl
  history := (List.append_nil _).symm
  outputs := (List.append_nil _).symm
  painted := rfl
  kept := id
  requested := fun wrote => absurd rfl wrote
  staged := by simp

/-- A transition that executes nothing. -/
theorem quiet {moment : Moment} (idle : moment.event.execution = none) :
    Emits start { start with history := start.history ++ [moment] } [moment]
      [] where
  strip := rfl
  lengths := fun _ => rfl
  ready := fun _ => rfl
  history := rfl
  outputs := (List.append_nil _).symm
  painted := rfl
  kept := id
  requested := fun wrote => absurd rfl wrote
  staged := by simp [Moment.Stages, idle]

/-- Readiness and staging mean the same on both sides. -/
theorem stages_iff (emits : Emits start middle moments writes)
    (moment : Moment) (id : StripId) :
    moment.Stages middle.strips id ↔ moment.Stages start.strips id := by
  constructor
  · rintro ⟨slot, instr, execution, active, stages⟩
    exact
      ⟨slot, instr, execution, active,
        stages.congr (fun id => (emits.lengths id).symm)
          fun id => (emits.ready id).symm⟩
  · rintro ⟨slot, instr, execution, active, stages⟩
    exact
      ⟨slot, instr, execution, active,
        stages.congr emits.lengths emits.ready⟩

theorem trans (first : Emits start middle moments writes)
    (second : Emits middle final later others) :
    Emits start final (moments ++ later) (writes ++ others) where
  strip := second.strip.trans first.strip
  lengths := fun id => (second.lengths id).trans (first.lengths id)
  ready := fun id => (second.ready id).trans (first.ready id)
  history := by
    rw [second.history, first.history, List.append_assoc]
  outputs := by
    rw [second.outputs, first.outputs, List.map_append, List.append_assoc]
  painted := by
    rw [second.painted, first.painted, paint_append]
  kept := fun asked => second.kept (first.kept asked)
  requested := by
    intro wrote
    by_cases before : writes = []
    · rw [before, List.nil_append] at wrote
      exact second.requested wrote
    · exact second.kept (first.requested before)
  staged := by
    intro id
    have here := first.staged id
    have there := second.staged id
    simp only [first.ready, first.stages_iff] at there
    simp only [List.mem_append, or_and_right, exists_or, and_or_left, here,
      there]

end Emits

theorem executeSlot_emits {machine : Machine} {index : Nat}
    {moment : Moment} (timestamp : UInt32)
    (execution : moment.event.execution = some index)
    (instructions : moment.before.instructions = machine.instructions)
    (period : moment.before.refreshPeriodMs = machine.refreshPeriodMs) :
    Emits machine.surface
      { (machine.executeSlot index timestamp).1.surface with
        history := machine.history ++ [moment] }
      [moment] (moment.writes machine.strips timestamp) := by
  rcases result :
      (machine.instructions index).execute machine.strips
        machine.refreshPeriodMs timestamp with
    ⟨slot, delay, writes, shown⟩
  obtain ⟨controller, -, -, -, outputs, strips⟩ :=
    foldl_applyWrite writes
      { machine with
        instructions := Function.update machine.instructions index slot
        showRequested := machine.showRequested || shown }
  have executed :
      (machine.executeSlot index timestamp).1 =
        writes.foldl applyWrite
          { machine with
            instructions := Function.update machine.instructions index slot
            showRequested := machine.showRequested || shown } := by
    unfold executeSlot
    rw [result]
  have requested :
      (machine.executeSlot index timestamp).1.showRequested =
        (machine.showRequested || shown) := by
    rw [executed]
    exact congrArg Controller.showRequested controller
  obtain ⟨stages, shows⟩ :=
    @InstructionMemorySlot.execute_stages machine.strips
      machine.refreshPeriodMs timestamp (machine.instructions index)
  rw [result] at stages shows
  have asks : writes ≠ [] → shown = true := shows
  have bound := congrArg Controller.strip controller
  have same : moment.writes machine.strips timestamp = writes := by
    unfold Moment.writes
    simp only [execution, instructions, period, result]
  rw [same]
  refine ⟨?_, ?_, ?_, rfl, ?_, ?_, ?_, ?_, ?_⟩
  · rw [executed]
    exact bound
  · intro id
    rw [executed]
    exact (strips id).1
  · intro id
    rw [executed]
    exact (strips id).2
  · rw [executed]
    exact outputs
  · rw [executed]
    exact foldl_applyWrite_strips writes _
  · intro asked
    have asked' : machine.showRequested = true := asked
    exact requested.trans (by rw [asked', Bool.true_or])
  · intro wrote
    exact requested.trans (by rw [asks wrote, Bool.or_true])
  · intro id
    rw [← instructions] at stages
    refine (stages id).trans ?_
    simp [Moment.Stages, execution]
    rfl

/-! ### Moves -/

/-- Activating a group emits nothing. -/
theorem startGroupRuntime_surface {machine started : Machine}
    {group parent : Nat} {timestamp : UInt32} {repeats : LoopCount}
    (starts :
      machine.startGroupRuntime group timestamp repeats parent =
        some started) :
    started.surface = machine.surface := by
  unfold startGroupRuntime at starts
  split at starts
  · cases starts
  · cases starts
    rw [resetGroupInstructionReplayState_instructions]
    rfl

theorem observePositiveBoundary_surface (machine : Machine) (group : Nat) :
    (machine.observePositiveBoundary group).surface = machine.surface := by
  rw [observePositiveBoundary_eq]
  rfl

variable {timestamp : UInt32} {machine : Machine}

/-- A recorded transition that leaves the surface alone and executes
nothing. -/
theorem emits_record {prepared : Machine} {event : Event}
    {before : Controller} (idle : event.execution = none)
    (same : prepared.surface = machine.surface) :
    ∃ moment,
      Emits machine.surface (prepared.record event before).surface [moment]
        (moment.writes machine.strips timestamp) := by
  refine
    ⟨⟨prepared.clocks.length - 1, event, before, prepared.toController⟩, ?_⟩
  have recorded :
      (prepared.record event before).surface =
        { prepared.surface with
          history :=
            prepared.surface.history ++
              [⟨prepared.clocks.length - 1, event, before,
                prepared.toController⟩] } :=
    rfl
  rw [recorded, same, Moment.writes_of_idle idle]
  exact .quiet idle

theorem completeGroup_emits (group : Nat) :
    ∃ moment,
      Emits machine.surface (machine.completeGroup timestamp group).surface
        [moment] (moment.writes machine.strips timestamp) := by
  unfold completeGroup
  simp only
  split
  · split
    · rename_i started starts
      exact emits_record rfl (startGroupRuntime_surface starts)
    · exact emits_record rfl rfl
  · unfold endGroup
    apply emits_record rfl
    split
    · split <;> rfl
    · split <;> split <;> rfl

/-- A recorded transition whose machine shows what an execution left. -/
theorem emits_execution {observed executed prepared : Machine}
    {event : Event} {index : Nat} {delay : UInt32}
    (execution : event.execution = some index)
    (result : observed.executeSlot index timestamp = (executed, delay))
    (instructions : observed.instructions = machine.instructions)
    (period : observed.refreshPeriodMs = machine.refreshPeriodMs)
    (before : observed.surface = machine.surface)
    (after : prepared.surface = executed.surface) :
    ∃ moment,
      Emits machine.surface
        (prepared.record event machine.toController).surface [moment]
        (moment.writes machine.strips timestamp) := by
  let moment : Moment :=
    ⟨prepared.clocks.length - 1, event, machine.toController,
      prepared.toController⟩
  have emits :=
    @executeSlot_emits observed index moment timestamp execution
      instructions.symm period.symm
  have strips : observed.strips = machine.strips :=
    congrArg Surface.strips before
  rw [result, before, strips] at emits
  have history : executed.history = observed.history := by
    obtain ⟨-, -, -, -, -, history, -⟩ :=
      executeSlot_spec index timestamp observed
    rw [result] at history
    exact history
  have recorded :
      (prepared.record event machine.toController).surface =
        { executed.surface with
          history := observed.history ++ [moment] } := by
    rw [← history, ← after]
    have same := congrArg Surface.history after
    show _ = { prepared.surface with
      history := executed.surface.history ++ [moment] }
    rw [← same]
    rfl
  refine ⟨moment, ?_⟩
  rw [recorded]
  exact emits

theorem resumeEntry_emits (position : Nat) (entry : ExecutingInstruction) :
    ∃ moment,
      Emits machine.surface
        (machine.resumeEntry timestamp position entry).1.surface [moment]
        (moment.writes machine.strips timestamp) := by
  have before :=
    observePositiveBoundary_surface machine entry.runtimeIndex
  have instructions :
      (machine.observePositiveBoundary entry.runtimeIndex).instructions =
        machine.instructions := by
    rw [observePositiveBoundary_eq]
    rfl
  have period :
      (machine.observePositiveBoundary entry.runtimeIndex).refreshPeriodMs =
        machine.refreshPeriodMs := by
    rw [observePositiveBoundary_eq]
    rfl
  unfold resumeEntry
  rcases result :
      (machine.observePositiveBoundary entry.runtimeIndex).executeSlot
        entry.instructionIndex timestamp with
    ⟨executed, delay⟩
  simp only
  split
  · exact emits_execution rfl result instructions period before rfl
  · apply emits_execution rfl result instructions period before
    split <;> rfl

theorem dispatchDueInstruction_emits {moved : Machine}
    (group slotIndex : Nat)
    (instructions : moved.instructions = machine.instructions)
    (period : moved.refreshPeriodMs = machine.refreshPeriodMs)
    (same : moved.surface = machine.surface) :
    ∃ moment,
      Emits machine.surface
        (moved.dispatchDueInstruction machine.toController group slotIndex
          timestamp).1.surface
        [moment] (moment.writes machine.strips timestamp) := by
  unfold dispatchDueInstruction
  simp only
  split
  · split
    · exact emits_record rfl same
    · split
      · exact emits_record rfl same
      · split
        · exact emits_record rfl same
        · rename_i started starts
          exact
            emits_record rfl ((startGroupRuntime_surface starts).trans same)
  · rcases result : moved.executeSlot slotIndex timestamp with
      ⟨executed, delay⟩
    simp only
    split
    · exact emits_execution rfl result instructions period same rfl
    · split
      · exact emits_execution rfl result instructions period same rfl
      · exact emits_execution rfl result instructions period same rfl

theorem pickInstruction_emits (group : Nat) :
    ∃ moment,
      Emits machine.surface
        (machine.pickInstruction group timestamp).1.surface [moment]
        (moment.writes machine.strips timestamp) := by
  unfold pickInstruction
  apply dispatchDueInstruction_emits
  · show (ite _ _ _ : Machine).instructions = machine.instructions
    split
    · rw [observePositiveBoundary_eq]
      rfl
    · rfl
  · show (ite _ _ _ : Machine).refreshPeriodMs = machine.refreshPeriodMs
    split
    · rw [observePositiveBoundary_eq]
      rfl
    · rfl
  · show (ite _ _ _ : Machine).surface = machine.surface
    split
    · exact observePositiveBoundary_surface machine group
    · rfl

/-- Every move of the scheduler emits the writes of the execution that it
records. -/
theorem Move.emits {before after : Machine}
    (move : Move timestamp before after) :
    ∃ moment,
      Emits before.surface after.surface [moment]
        (moment.writes before.strips timestamp) := by
  cases move with
  | discard position entry found invalid =>
      exact emits_record rfl rfl
  | resume position entry resumable =>
      exact resumeEntry_emits position entry
  | complete group settled below ready =>
      exact completeGroup_emits group
  | pick group settled below active due deepest =>
      exact pickInstruction_emits group

/-- The strips after a move are painted by the execution that it records. -/
theorem Move.painted {before after : Machine} {event : Event}
    (move : Move timestamp before after) (logged : Logged before after event) :
    after.strips =
      paint before.strips
        (Moment.writes before.strips timestamp
          ⟨before.clocks.length - 1, event, before.toController,
            after.toController⟩) := by
  obtain ⟨moment, emits⟩ := move.emits
  have history : after.history = before.history ++ [moment] := emits.history
  rw [logged.history, List.append_cancel_left_eq, List.cons.injEq] at history
  rw [history.1]
  exact emits.painted

theorem moves_emit {before after : Machine}
    (moves : ReflTransGen (Move timestamp) before after) :
    ∃ moments writes,
      Emits before.surface after.surface moments writes := by
  induction moves with
  | refl =>
      exact ⟨[], [], .refl _⟩
  | tail earlier move inductionHypothesis =>
      obtain ⟨moments, writes, emits⟩ := inductionHypothesis
      obtain ⟨moment, step⟩ := move.emits
      exact ⟨_, _, emits.trans step⟩

/-- What a returning `Run` emits and records. -/
structure Emitted (before after : Machine) (moments : List Moment)
    (writes : List PixelWrite) : Prop where
  recorded : before.recorded after = moments
  staged :
    ∀ id,
      ((before.strips id).ready = true ∧
          ∃ write ∈ writes, write.strip = id) ↔
        ∃ moment ∈ moments, moment.Stages before.strips id
  emitted :
    ∃ calls shown,
      before.emitted after = writes.map Output.setColor ++ calls ++ shown ∧
        (∀ id, Output.show id ∉ calls) ∧
        (∀ write, Output.setColor write ∉ calls) ∧
        (shown = [] ∧ (writes = [] ∨ before.strip = none) ∨
          ∃ id, before.strip = some id ∧ shown = [.show id])

theorem emitted_of_run {before after : Machine} {fuel now : Nat}
    {status : ControllerStatus}
    (runs : before.run fuel now = some (after, status)) :
    ∃ moments writes, Emitted before after moments writes := by
  unfold Machine.run at runs
  split at runs
  · cases runs
    refine ⟨[], [], ?_, by simp, [], [], ?_, by simp, by simp, ?_⟩
    · exact List.drop_length
    · exact List.drop_length
    · exact Or.inl ⟨rfl, Or.inl rfl⟩
  · cases loop :
        runLoop (before.getTimestamp now) fuel (before.beginRun now) with
    | none =>
        simp only [loop] at runs
        cases runs
    | some settled =>
        simp only [loop, Option.some.injEq, Prod.mk.injEq] at runs
        obtain ⟨rfl, -⟩ := runs
        obtain ⟨moments, writes, emits⟩ := moves_emit (runLoop_spec loop).1
        obtain ⟨timeout, calls, scheduled, wakeup⟩ :=
          scheduleNextRun_frame (before.getTimestamp now) settled
        have outputs : settled.outputs = before.outputs ++ _ := emits.outputs
        have history : settled.history = before.history ++ moments :=
          emits.history
        rw [commitShow_eq, scheduled]
        refine
          ⟨moments, writes, ?_, emits.staged, calls,
            if settled.showRequested then
              settled.strip.toList.map Output.show
            else
              [], ?_, ?_, ?_, ?_⟩
        · unfold recorded
          rw [history]
          exact List.drop_left
        · unfold emitted
          simp only [outputs, List.append_assoc]
          exact List.drop_left
        · rcases wakeup with rfl | rfl <;> simp
        · rcases wakeup with rfl | rfl <;> simp
        · have strip : settled.strip = before.strip := emits.strip
          simp only [strip]
          cases bound : before.strip with
          | none =>
              exact Or.inl ⟨by simp, Or.inr rfl⟩
          | some id =>
              cases asked : settled.showRequested with
              | false =>
                  refine Or.inl ⟨rfl, Or.inl ?_⟩
                  by_contra wrote
                  have requested : settled.showRequested = true :=
                    emits.requested wrote
                  rw [asked] at requested
                  exact Bool.noConfusion requested
              | true =>
                  exact Or.inr ⟨id, rfl, rfl⟩

section Emitted

variable {before after : Machine} {moments : List Moment}
  {writes : List PixelWrite}

theorem Emitted.bound_of_show (emits : Emitted before after moments writes)
    {id : StripId} (member : Output.show id ∈ before.emitted after) :
    before.strip = some id := by
  obtain ⟨calls, shown, emitted, noShow, -, commit⟩ := emits.emitted
  rw [emitted] at member
  simp only [List.mem_append, List.mem_map, reduceCtorEq, and_false,
    exists_false, noShow, false_or] at member
  rcases commit with ⟨rfl, -⟩ | ⟨bound, strip, rfl⟩
  · cases member
  · cases List.mem_singleton.mp member
    exact strip

theorem Emitted.count_le (emits : Emitted before after moments writes)
    (id : StripId) : (before.emitted after).count (.show id) ≤ 1 := by
  obtain ⟨calls, shown, emitted, noShow, -, commit⟩ := emits.emitted
  have noWrite : (writes.map Output.setColor).count (.show id) = 0 := by
    simp [List.count_eq_zero]
  rw [emitted, List.count_append, List.count_append, noWrite,
    List.count_eq_zero.mpr (noShow id), Nat.zero_add]
  rcases commit with ⟨rfl, -⟩ | ⟨bound, -, rfl⟩
  · exact Nat.zero_le 1
  · exact List.count_le_length

theorem Emitted.write_mem (emits : Emitted before after moments writes)
    {write : PixelWrite} :
    Output.setColor write ∈ before.emitted after ↔ write ∈ writes := by
  obtain ⟨calls, shown, emitted, -, noWrite, commit⟩ := emits.emitted
  have shownOnly : Output.setColor write ∉ shown := by
    rcases commit with ⟨rfl, -⟩ | ⟨bound, -, rfl⟩ <;> simp
  rw [emitted]
  simp [noWrite, shownOnly]

/-- What was written is committed at the end, if a strip is bound. -/
theorem Emitted.show_last (emits : Emitted before after moments writes)
    {id : StripId} (wrote : writes ≠ []) (strip : before.strip = some id) :
    ∃ front, before.emitted after = front ++ [.show id] := by
  obtain ⟨calls, shown, emitted, -, -, commit⟩ := emits.emitted
  rcases commit with ⟨-, nothing | unbound⟩ | ⟨bound, same, rfl⟩
  · exact absurd nothing wrote
  · rw [unbound] at strip
    cases strip
  · rw [strip] at same
    cases same
    exact ⟨_, emitted⟩

/-- The commit reaches every staged write if and only if every execution that
stages a color does so on the bound strip. -/
theorem Emitted.commits_iff (emits : Emitted before after moments writes) :
    Commits before after ↔
      ∀ moment ∈ before.recorded after, ∀ id,
        moment.Stages before.strips id → before.strip = some id := by
  rw [emits.recorded]
  constructor
  · intro commits moment member id stages
    obtain ⟨ready, write, written, rfl⟩ :=
      (emits.staged id).mpr ⟨moment, member, stages⟩
    obtain ⟨-, front, back, split, -⟩ :=
      commits.shown write (emits.write_mem.mpr written) ready
    apply emits.bound_of_show
    rw [split]
    exact List.mem_append_right _ List.mem_cons_self
  · intro bound
    refine ⟨?_, emits.count_le⟩
    intro write member ready
    have written := emits.write_mem.mp member
    obtain ⟨moment, recorded, stages⟩ :=
      (emits.staged write.strip).mp ⟨ready, write, written, rfl⟩
    have strip := bound moment recorded write.strip stages
    obtain ⟨front, split⟩ :=
      emits.show_last (List.ne_nil_of_mem written) strip
    refine ⟨?_, front, [], split, fun _ => List.not_mem_nil⟩
    apply Nat.le_antisymm (emits.count_le _)
    rw [split]
    exact
      List.count_pos_iff.mpr
        (List.mem_append_right _ List.mem_cons_self)

end Emitted

/-- The instructions that a `Run` executes are configured as they were stored
when it began. -/
theorem recorded_sameProgram {before after : Machine} {now : Nat}
    {status : ControllerStatus} (reachable : Reachable before)
    (performs : Performs (.run now) before after status) :
    ∀ moment ∈ before.recorded after, before.SameProgram moment.before := by
  obtain ⟨fuel, runs⟩ := performs
  by_cases active : before.state = .active
  · have chronicle :=
      (legal_of_reachable reachable).chronicle (by rw [active]; simp)
    obtain ⟨settled, -, moves, -, -, rfl, -⟩ := chronicle.run active runs
    rw [← timestamp_beginRun] at moves
    have kept :
        before.SameProgram settled.toController ∧
          ∃ moments,
            settled.history = before.history ++ moments ∧
              ∀ moment ∈ moments, before.SameProgram moment.before := by
      apply
        (Chronicle.began before now chronicle active).moves_invariant
          (fun current =>
            before.SameProgram current.toController ∧
              ∃ moments,
                current.history = before.history ++ moments ∧
                  ∀ moment ∈ moments, before.SameProgram moment.before)
          moves
      · have begun : before.SameProgram (before.beginRun now).toController :=
          ⟨rfl, rfl, rfl, rfl, rfl, fun _ => rfl, fun _ => rfl⟩
        exact ⟨begun, [], (List.append_nil _).symm, by simp⟩
      · rintro rank current next event - - - step logged
          ⟨same, moments, history, recorded⟩
        have grown := logged.history
        rw [history, List.append_assoc] at grown
        refine ⟨same.trans step.sameProgram, _, grown, ?_⟩
        intro moment member
        rcases List.mem_append.mp member with earlier | last
        · exact recorded moment earlier
        · rw [List.mem_singleton.mp last]
          exact same
    obtain ⟨-, moments, history, recorded⟩ := kept
    have conclusion :=
      adjusted_conclusion (before.getTimestamp now) settled
    intro moment member
    unfold Machine.recorded at member
    rw [conclusion.history, history, List.drop_left] at member
    exact recorded moment member
  · unfold Machine.run at runs
    rw [if_pos active] at runs
    cases runs
    unfold Machine.recorded
    rw [List.drop_length]
    simp

/-- With every stored instruction bound to the bound strip, every execution
stages there. -/
theorem Aligned.bound {before : Machine} {moment : Moment} {id : StripId}
    {strips : StripId → Strip} (aligned : Aligned before)
    (same : before.SameProgram moment.before)
    (stages : moment.Stages strips id) : before.strip = some id := by
  obtain ⟨slot, instr, -, active, staged⟩ := stages
  obtain ⟨stored, storedActive, configuration⟩ :=
    InstructionMemorySlot.SameConfiguration.active_eq
      (same.configuration slot).symm active
  have bound :=
    (ControllerInstruction.base_of_resetForReplay configuration).2
  exact
    aligned slot stored id storedActive (bound.trans staged.strip)

/-- When a `Run` commits what it stages.  In every reachable state, it does so
if and only if no instruction that it executes stages a color on a strip other
than the one that is bound at this `Run`; in particular if every stored
instruction is bound to that strip, as it is unless `SetStrip` is called after
the instructions were added. -/
theorem run_commits_iff {before after : Machine} {now : Nat}
    {status : ControllerStatus} (reachable : Reachable before)
    (performs : Performs (.run now) before after status) :
    (Commits before after ↔
      ∀ moment ∈ before.recorded after, ∀ id,
        moment.Stages before.strips id → before.strip = some id) ∧
      (Aligned before → Commits before after) := by
  obtain ⟨fuel, runs⟩ := performs
  obtain ⟨moments, writes, emits⟩ := emitted_of_run runs
  have same := recorded_sameProgram reachable ⟨fuel, runs⟩
  refine ⟨emits.commits_iff, ?_⟩
  intro aligned
  apply emits.commits_iff.mpr
  intro moment member id stages
  exact aligned.bound (same moment member) stages

/-- One color for the first pixel, and calls before its `Run`. -/
def singleColor (calls : List Operation) : Machine :=
  hosted [{ kind := .setSingleColor ⟨1, 2, 3⟩ 0 }] calls

/-- Every execution in a `Run` is of an instruction on the given strip. -/
def executesOn (id : StripId) (moments : List Moment) : Bool :=
  moments.all fun moment =>
    match moment.event.execution with
    | none => true
    | some slot =>
        (moment.before.instructions slot).active.all fun instr =>
          instr.strip = some id

theorem run_commits_iff_of_singleColor :
    ∃ after status,
      Performs (.run 0) (singleColor [.start 0 0]) after status ∧
        (singleColor [.start 0 0]).emitted after =
          [.setColor ⟨0, 0, ⟨1, 2, 3⟩⟩, .show 0] ∧
        Commits (singleColor [.start 0 0]) after := by
  have facts :
      ((singleColor [.start 0 0]).run 40 0).any
          (fun result =>
            executesOn 0 ((singleColor [.start 0 0]).recorded result.1) &&
              decide
                ((singleColor [.start 0 0]).emitted result.1 =
                  [.setColor ⟨0, 0, ⟨1, 2, 3⟩⟩, .show 0])) =
        true := by
    decide +kernel
  obtain ⟨⟨after, status⟩, runs, found⟩ := Option.any_eq_true _ _ |>.mp facts
  simp only [Bool.and_eq_true, decide_eq_true_eq] at found
  have performs :
      Performs (.run 0) (singleColor [.start 0 0]) after status :=
    ⟨40, runs⟩
  refine ⟨after, status, performs, found.2, ?_⟩
  apply (run_commits_iff (reachable_hosted _ _) performs).1.mpr
  rintro moment member id ⟨slot, instr, execution, active, stages⟩
  have onStrip := List.all_eq_true.mp found.1 moment member
  simp only [execution, active, Option.all_some, decide_eq_true_eq,
    stages.strip, Option.some.injEq] at onStrip
  rw [onStrip]
  decide +kernel

/-- Binding another strip after the instruction was added sends the `Show` to
the strip on which nothing was staged. -/
theorem not_every_run_commits :
    ¬ ∀ (before after : Machine) (now : Nat) (status : ControllerStatus),
        Reachable before → Performs (.run now) before after status →
          Commits before after := by
  intro commits
  have facts :
      ((singleColor [.setStrip (some 1), .start 0 0]).run 40 0).any
          (fun result =>
            decide
              ((singleColor [.setStrip (some 1), .start 0 0]).emitted
                  result.1 =
                [.setColor ⟨0, 0, ⟨1, 2, 3⟩⟩, .show 1])) =
        true := by
    decide +kernel
  obtain ⟨⟨after, status⟩, runs, found⟩ := Option.any_eq_true _ _ |>.mp facts
  have emits :
      (singleColor [.setStrip (some 1), .start 0 0]).emitted after =
        [.setColor ⟨0, 0, ⟨1, 2, 3⟩⟩, .show 1] :=
    of_decide_eq_true found
  have committed :
      Commits (singleColor [.setStrip (some 1), .start 0 0]) after :=
    commits _ after 0 status (reachable_hosted _ _) ⟨40, runs⟩
  have once :=
    (committed.shown ⟨0, 0, ⟨1, 2, 3⟩⟩ (by rw [emits]; simp)
      (by decide +kernel)).1
  rw [emits] at once
  exact absurd once (by decide)

end Machine

end PrismKit
