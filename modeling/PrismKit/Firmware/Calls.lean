import PrismKit.Firmware.Tasks
import PrismKit.Timeline.Commit
import PrismKit.Timeline.Wakeup

/-!
# Calls of the controller

What the calls of the application task do to the controller and what they let
out: the colors they write, the wake-up they ask for and the frame they show.
After binding, every call is a sequence of public operations on a controller
with one strip and both callbacks.
-/

namespace PrismKit

open Library Relation

namespace Machine

/-- The strip and the callbacks of the application task are registered. -/
structure Hosted (machine : Machine) : Prop where
  reachable : Reachable machine
  strip : machine.strip = some 0
  timestampCallback : machine.timestampCallback = true
  scheduleCallback : machine.scheduleCallback = true

/-- What a machine lets out on the way to another one. -/
structure Lets (before after : Machine) (writes : List PixelWrite)
    (wakeup : Option UInt32) (shown : Bool) : Prop where
  outputs :
    after.outputs =
      before.outputs ++
        (writes.map Output.setColor ++
          (wakeup.toList.map Output.schedule ++
            if shown then [.show 0] else []))
  painted : after.strips = paint before.strips writes
  shows : writes ≠ [] → shown = true

/-- The delay from a reading of the clock to the earliest instant that the
program waits for. -/
structure NextDelay (now : Nat) (machine : Machine) (delay : UInt32) :
    Prop where
  timestamp : machine.timestamp = UInt32.ofNat now
  positive : delay ≠ 0
  due : delay ∈ machine.dueTimes.map fun due => due - machine.timestamp
  earliest :
    ∀ other ∈ machine.dueTimes.map fun due => due - machine.timestamp,
      delay ≤ other

/-- A machine on the way to another one keeps its bindings, and if the program
is active afterwards, it has asked for the next wake-up or did nothing. -/
structure Leads (now : Nat) (before after : Machine)
    (writes : List PixelWrite) (wakeup : Option UInt32) (shown : Bool) :
    Prop where
  hosted : Hosted after
  lets : Lets before after writes wakeup shown
  armed :
    after.state = .active →
      (∃ delay, wakeup = some delay ∧ NextDelay now after delay) ∨
        wakeup = none ∧ after = before

theorem Lets.quiet {before after : Machine}
    (outputs : after.outputs = before.outputs)
    (strips : after.strips = before.strips) : Lets before after [] none false where
  outputs := by
    rw [outputs]
    exact (List.append_nil _).symm
  painted := strips
  shows := fun wrote => absurd rfl wrote

theorem Leads.refl {machine : Machine} (now : Nat) (hosted : Hosted machine) :
    Leads now machine machine [] none false :=
  ⟨hosted, .quiet rfl rfl, fun _ => Or.inr ⟨rfl, rfl⟩⟩

/-! ### Operations -/

theorem addInstruction_surface (machine : Machine)
    (instr : Option ControllerInstruction) :
    (machine.addInstruction instr).1.surface = machine.surface := by
  unfold addInstruction
  split
  · rfl
  · split
    · rfl
    · split <;> rfl

theorem addInstruction_bindings (machine : Machine)
    (instr : Option ControllerInstruction) :
    (machine.addInstruction instr).1.timestampCallback =
        machine.timestampCallback ∧
      (machine.addInstruction instr).1.scheduleCallback =
        machine.scheduleCallback ∧
      (machine.addInstruction instr).1.state = machine.state := by
  unfold addInstruction
  split
  · exact ⟨rfl, rfl, rfl⟩
  · split
    · exact ⟨rfl, rfl, rfl⟩
    · split <;> exact ⟨rfl, rfl, rfl⟩

/-- Adding an instruction lets nothing out, and does nothing at all to an
active program. -/
theorem Hosted.addInstruction {machine : Machine} (now : Nat)
    (hosted : Hosted machine) (instr : Option ControllerInstruction) :
    Leads now machine (machine.addInstruction instr).1 [] none false := by
  have surface := addInstruction_surface machine instr
  obtain ⟨timestamps, schedules, state⟩ :=
    addInstruction_bindings machine instr
  refine ⟨⟨?_, ?_, ?_, ?_⟩, ?_, ?_⟩
  · exact .perform (.addInstruction instr) hosted.reachable rfl
  · exact (congrArg Surface.strip surface).trans hosted.strip
  · exact timestamps.trans hosted.timestampCallback
  · exact schedules.trans hosted.scheduleCallback
  · exact
      .quiet (congrArg Surface.outputs surface)
        (congrArg Surface.strips surface)
  · intro active
    rw [state] at active
    refine Or.inr ⟨rfl, ?_⟩
    unfold Machine.addInstruction
    split
    · rfl
    · rw [if_pos (by rw [active]; decide)]

theorem Hosted.resetInstructions {machine : Machine} (now : Nat)
    (hosted : Hosted machine) :
    Leads now machine machine.resetInstructions [] none false where
  hosted :=
    ⟨@Reachable.perform _ _ .success .resetInstructions hosted.reachable
        ⟨rfl, rfl⟩,
      hosted.strip, hosted.timestampCallback, hosted.scheduleCallback⟩
  lets := .quiet rfl rfl
  armed := fun active => ProgramState.noConfusion active

theorem afterStart_bindings (build : GroupBuildState) (repeats : LoopCount)
    (timestamp : UInt32) (controller : Controller) :
    let started := controller.afterStart build repeats timestamp
    started.strip = controller.strip ∧
      started.timestampCallback = controller.timestampCallback ∧
      started.scheduleCallback = controller.scheduleCallback := by
  unfold Controller.afterStart
  split <;> exact ⟨rfl, rfl, rfl⟩

/-- A refused `Start` does nothing; a successful one lets nothing out. -/
theorem Hosted.start {machine : Machine} (hosted : Hosted machine)
    (repeats : LoopCount) (now : Nat) :
    ((machine.start repeats now).2 ≠ .success ∧
        (machine.start repeats now).1 = machine) ∨
      (machine.start repeats now).2 = .success ∧
        Hosted (machine.start repeats now).1 ∧
        (machine.start repeats now).1.outputs = machine.outputs ∧
        (machine.start repeats now).1.strips = machine.strips := by
  have loadable := (legal_of_reachable hosted.reachable).loadable
  by_cases busy : machine.state = .active
  · left
    have refused : machine.start repeats now = (machine, .busy) := by
      unfold Machine.start
      exact if_pos busy
    rw [refused]
    exact ⟨ControllerStatus.noConfusion, rfl⟩
  · rcases validateGroups_cases repeats loadable.stored with
      ⟨build, validates, validated⟩ | ⟨status, build, fails, failure, -⟩
    · right
      have reachable : Reachable (machine.start repeats now).1 :=
        .perform (.start repeats now) hosted.reachable rfl
      rw [start_eq loadable busy validates validated] at reachable ⊢
      obtain ⟨strip, timestamps, schedules⟩ :=
        afterStart_bindings build repeats (machine.getTimestamp now)
          machine.toController
      exact
        ⟨rfl,
          ⟨reachable, strip.trans hosted.strip,
            timestamps.trans hosted.timestampCallback,
            schedules.trans hosted.scheduleCallback⟩,
          rfl, rfl⟩
    · left
      have refused : machine.start repeats now = (machine, status) := by
        unfold Machine.start
        rw [if_neg busy]
        simp only [buildAndValidateGroups, fails]
      rw [refused]
      exact ⟨failure, rfl⟩

/-- The callbacks stay registered during a `Run`. -/
theorem moves_callbacks {before after : Machine}
    (chronicle : Chronicle true before)
    (moves : ReflTransGen (Move before.timestamp) before after) :
    after.timestampCallback = before.timestampCallback ∧
      after.scheduleCallback = before.scheduleCallback := by
  apply
    chronicle.moves_invariant
      (fun current =>
        current.timestampCallback = before.timestampCallback ∧
          current.scheduleCallback = before.scheduleCallback)
      moves ⟨rfl, rfl⟩
  rintro rank current next event - - - step - ⟨timestamps, schedules⟩
  obtain ⟨-, scheduled, stamped⟩ := step.callback
  exact ⟨stamped.trans timestamps, scheduled.trans schedules⟩

/-- A `Run` of an active program lets out the colors it writes, then the next
wake-up, then the frame. -/
theorem Hosted.run_active {machine after : Machine} {fuel now : Nat}
    {status : ControllerStatus} (hosted : Hosted machine)
    (active : machine.state = .active)
    (runs : machine.run fuel now = some (after, status)) :
    ∃ writes wakeup shown,
      Hosted after ∧ Lets machine after writes wakeup shown ∧
        (after.state = .active →
          ∃ delay, wakeup = some delay ∧ NextDelay now after delay) := by
  have performs : Performs (.run now) machine after status := ⟨fuel, runs⟩
  have reachable : Reachable after :=
    .perform (.run now) hosted.reachable performs
  have chronicle :=
    (legal_of_reachable hosted.reachable).chronicle (by rw [active]; simp)
  have concluded := chronicle.concluded active performs
  have begun := Chronicle.began machine now chronicle active
  obtain ⟨settled, running, moves, -, -, ended, -⟩ :=
    chronicle.run active runs
  obtain ⟨moments, writes, emits⟩ := moves_emit moves
  rw [← timestamp_beginRun] at moves
  obtain ⟨timestamps, schedules⟩ := moves_callbacks begun moves
  obtain ⟨timeout, calls, scheduled, wakeup⟩ :=
    scheduleNextRun_frame (machine.getTimestamp now) settled
  have strip : settled.strip = some 0 := emits.strip.trans hosted.strip
  have outputs :
      settled.outputs = machine.outputs ++ writes.map Output.setColor :=
    emits.outputs
  have commit :
      (if settled.showRequested then settled.strip.toList.map Output.show
        else []) =
        if settled.showRequested then [.show 0] else [] := by
    rw [strip]
    rfl
  have wakeups :
      ∃ asked : Option UInt32, calls = asked.toList.map Output.schedule := by
    rcases wakeup with rfl | rfl
    · exact ⟨none, rfl⟩
    · exact ⟨some timeout, rfl⟩
  obtain ⟨asked, rfl⟩ := wakeups
  have lets : Lets machine after writes asked settled.showRequested := by
    refine ⟨?_, ?_, emits.requested⟩
    · rw [ended, commitShow_eq, scheduled]
      simp only [outputs, commit, List.append_assoc]
    · rw [ended, commitShow_eq, scheduled]
      exact emits.painted
  refine
    ⟨writes, asked, settled.showRequested, ⟨reachable, ?_, ?_, ?_⟩, lets, ?_⟩
  · rw [ended, commitShow_eq, scheduled]
    exact strip
  · rw [ended, commitShow_eq, scheduled]
    exact timestamps.trans hosted.timestampCallback
  · exact concluded.callback.trans hosted.scheduleCallback
  · intro stillActive
    obtain ⟨present, member, lower⟩ :=
      concluded.earliest_of_active stillActive
    obtain ⟨appended, grown, woken⟩ := concluded.outputs
    rw [lets.outputs, List.append_cancel_left_eq] at grown
    have asks :
        after.minScheduledTimeout > 0 ∧ machine.scheduleCallback = true :=
      ⟨UInt32.pos_iff_ne_zero.mpr present, hosted.scheduleCallback⟩
    have registered :
        (if after.minScheduledTimeout > 0 ∧ machine.scheduleCallback = true then
          [after.minScheduledTimeout]
        else
          []) = [after.minScheduledTimeout] :=
      if_pos asks
    rw [← grown, registered] at woken
    have same : asked.toList = [after.minScheduledTimeout] := by
      rw [← woken]
      cases settled.showRequested <;> cases asked <;>
        simp [List.filterMap_map, Function.comp_def, Output.wakeup]
    refine ⟨after.minScheduledTimeout, Option.toList_eq_singleton_iff.mp same,
      ?_⟩
    have read : machine.getTimestamp now = UInt32.ofNat now := by
      simp only [getTimestamp, clockReading, hosted.timestampCallback, if_true]
    refine ⟨concluded.timestamp_eq.trans read, present, ?_, ?_⟩
    · rw [concluded.timestamp_eq]
      exact member
    · rw [concluded.timestamp_eq]
      exact lower

theorem Hosted.run {machine after : Machine} {fuel now : Nat}
    {status : ControllerStatus} (hosted : Hosted machine)
    (runs : machine.run fuel now = some (after, status)) :
    ∃ writes wakeup shown, Leads now machine after writes wakeup shown := by
  by_cases active : machine.state = .active
  · obtain ⟨writes, wakeup, shown, after', lets, armed⟩ :=
      hosted.run_active active runs
    exact
      ⟨writes, wakeup, shown, after', lets, fun running =>
        Or.inl (armed running)⟩
  · unfold Machine.run at runs
    rw [if_pos active] at runs
    cases runs
    exact ⟨[], none, false, .refl now hosted⟩

theorem Hosted.startAndTick {machine after : Machine}
    {fuel startTime runTime : Nat} {repeats : LoopCount}
    {result : ControllerCommandResult} (hosted : Hosted machine)
    (performs :
      startAndTick fuel startTime runTime machine repeats =
        some (after, result)) :
    ∃ writes wakeup shown,
      Leads runTime machine after writes wakeup shown := by
  unfold PrismKit.startAndTick at performs
  rcases hosted.start repeats startTime with
    ⟨failed, same⟩ | ⟨success, started, outputs, strips⟩
  · simp only [if_pos failed, same] at performs
    cases performs
    exact ⟨[], none, false, .refl runTime hosted⟩
  · simp only [success, not_true_eq_false, ne_eq, if_false,
      Option.map_eq_some_iff] at performs
    obtain ⟨⟨ran, status⟩, runs, same⟩ := performs
    cases same
    by_cases active : (machine.start repeats startTime).1.state = .active
    · obtain ⟨writes, wakeup, shown, after', lets, armed⟩ :=
        started.run_active active runs
      refine
        ⟨writes, wakeup, shown, after', ⟨?_, ?_, lets.shows⟩, fun running =>
          Or.inl (armed running)⟩
      · rw [lets.outputs, outputs]
      · rw [lets.painted, strips]
    · unfold Machine.run at runs
      rw [if_pos active] at runs
      cases runs
      exact
        ⟨[], none, false, started, .quiet outputs strips, fun running =>
          absurd running active⟩

end Machine

open Machine

/-- What a dispatched message comes to: an instruction is added, the program is
reset, or it is started with its first tick. -/
theorem dispatchControllerCommand_cases {fuel startTime runTime : Nat}
    {controller after : Machine} {message : ControllerCommandMessage}
    {result : ControllerCommandResult}
    (dispatches :
      dispatchControllerCommand fuel startTime runTime controller message =
        some (after, result)) :
    (∃ instr, after = (controller.addInstruction (some instr)).1) ∨
      after = controller.resetInstructions ∨
      ∃ repeats,
        startAndTick fuel startTime runTime controller repeats =
          some (after, result) := by
  unfold dispatchControllerCommand at dispatches
  split at dispatches
  case h_10 =>
    have same := congrArg Prod.fst (Option.some.inj dispatches)
    exact Or.inr (Or.inl same.symm)
  case h_11 => exact Or.inr (Or.inr ⟨_, dispatches⟩)
  case h_12 => exact Or.inr (Or.inr ⟨_, dispatches⟩)
  case h_15 => cases dispatches
  all_goals
    exact Or.inl ⟨_, (congrArg Prod.fst (Option.some.inj dispatches)).symm⟩

/-- Every command keeps the bindings and asks for the next wake-up. -/
theorem Machine.Hosted.dispatch {fuel startTime runTime : Nat}
    {machine after : Machine} {message : ControllerCommandMessage}
    {result : ControllerCommandResult} (hosted : Hosted machine)
    (dispatches :
      dispatchControllerCommand fuel startTime runTime machine message =
        some (after, result)) :
    ∃ writes wakeup shown,
      Leads runTime machine after writes wakeup shown := by
  rcases dispatchControllerCommand_cases dispatches with
    ⟨instr, rfl⟩ | rfl | ⟨repeats, starts⟩
  · exact ⟨[], none, false, hosted.addInstruction runTime (some instr)⟩
  · exact ⟨[], none, false, hosted.resetInstructions runTime⟩
  · exact hosted.startAndTick starts

namespace Call

/-- The default program is added to an idle controller; nothing is let out. -/
theorem hosted_loaded {machine : Machine} (hosted : Hosted machine) :
    Hosted (loaded machine) ∧ (loaded machine).outputs = machine.outputs ∧
      (loaded machine).strips = machine.strips ∧
      ((loaded machine).state = .active → loaded machine = machine) := by
  unfold loaded
  generalize defaultProgram (UInt8.ofNat (machine.strips 0).ledCount) =
    program
  have added :
      ∀ current, Hosted current →
        let last :=
          program.foldl
            (fun current instr => (current.addInstruction (some instr)).1)
            current
        Hosted last ∧ last.outputs = current.outputs ∧
          last.strips = current.strips ∧ last.state = current.state ∧
          (current.state = .active → last = current) := by
    induction program with
    | nil =>
        intro current hosted
        exact ⟨hosted, rfl, rfl, rfl, fun _ => rfl⟩
    | cons instr rest inductionHypothesis =>
        intro current hosted
        have leads := hosted.addInstruction 0 (some instr)
        have surface := addInstruction_surface current (some instr)
        have state := (addInstruction_bindings current (some instr)).2.2
        obtain ⟨hosted', outputs, strips, state', idle⟩ :=
          inductionHypothesis _ leads.hosted
        refine
          ⟨hosted', outputs.trans (congrArg Surface.outputs surface),
            strips.trans (congrArg Surface.strips surface),
            state'.trans state, ?_⟩
        intro active
        rcases leads.armed (state.trans active) with ⟨_, asked, -⟩ | ⟨-, same⟩
        · cases asked
        · exact (idle (state.trans active)).trans same
  obtain ⟨hosted', outputs, strips, state, idle⟩ := added machine hosted
  exact
    ⟨hosted', outputs, strips, fun active => idle (state.symm.trans active)⟩

/-- The reading of the clock with which a call goes through the program. -/
def runTime : Call → Nat
  | bind => 0
  | begin _ runTime | command _ _ runTime => runTime
  | tick now => now

theorem leads {fuel : Nat} {machine after : Machine} {call : Call}
    (hosted : Hosted machine) (started : call ≠ .bind)
    (performs : call.perform fuel machine = some after) :
    ∃ writes wakeup shown,
      Leads call.runTime machine after writes wakeup shown := by
  cases call with
  | bind =>
      exact absurd rfl started
  | begin startTime runTime =>
      obtain ⟨⟨_, result⟩, dispatches, rfl⟩ :=
        Option.map_eq_some_iff.mp performs
      obtain ⟨hosted', outputs, strips, idle⟩ := hosted_loaded hosted
      obtain ⟨writes, wakeup, shown, leads⟩ := hosted'.dispatch dispatches
      refine
        ⟨writes, wakeup, shown, leads.hosted, ⟨?_, ?_, leads.lets.shows⟩, ?_⟩
      · rw [leads.lets.outputs, outputs]
      · rw [leads.lets.painted, strips]
      · intro active
        rcases leads.armed active with armed | ⟨silent, same⟩
        · exact Or.inl armed
        · right
          rw [same] at active ⊢
          exact ⟨silent, idle active⟩
  | command message startTime runTime =>
      obtain ⟨⟨_, result⟩, dispatches, rfl⟩ :=
        Option.map_eq_some_iff.mp performs
      exact hosted.dispatch dispatches
  | tick now =>
      obtain ⟨⟨_, status⟩, runs, rfl⟩ := Option.map_eq_some_iff.mp performs
      exact hosted.run runs

end Call

end PrismKit
