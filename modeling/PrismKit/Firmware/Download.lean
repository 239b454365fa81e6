import PrismKit.Commands.Scripts
import PrismKit.Firmware.System

/-!
# Downloading a program

A program that the host sends ends up in the controller as it was sent, in every
interleaving of the tasks and whatever the controller did before.  A download
that breaks off runs no part of the program.
-/

namespace PrismKit

open Library Machine Scanner

universe u v w x

/-! ### Sessions -/

/-- A call of the application task after `Setup`. -/
def Call.Serves : Call → Prop
  | .bind | .begin _ _ => False
  | .command _ _ _ | .tick _ => True

theorem Call.Serves.ne_bind {call : Call} (serves : call.Serves) :
    call ≠ .bind := by
  rintro rfl
  exact serves

section Sessions

variable {initial machine final : Machine} {calls earlier later : List Call}
  {shows : List Strip} {call : Call}

theorem Session.last (session : Session initial (calls ++ [call]) final shows) :
    ∃ fuel machine shows,
      Session initial calls machine shows ∧
        call.perform fuel machine = some final := by
  generalize whole : calls ++ [call] = all at session
  cases session with
  | nil =>
      exact absurd whole (List.append_ne_nil_of_right_ne_nil _ (by simp))
  | snoc session fuel performs =>
      obtain ⟨rfl, same⟩ := List.append_inj' whole rfl
      cases same
      exact ⟨fuel, _, _, session, performs⟩

theorem Session.single (session : Session initial [call] final shows) :
    ∃ fuel, call.perform fuel initial = some final := by
  obtain ⟨fuel, machine, _, start, performs⟩ := @Session.last _ _ [] _ _ session
  generalize none : [] = calls at start
  cases start with
  | nil => exact ⟨fuel, performs⟩
  | snoc earlier fuel performs =>
      exact absurd none.symm (List.append_ne_nil_of_right_ne_nil _ (by simp))

theorem Call.perform_command {fuel startTime runTime : Nat}
    {message : ControllerCommandMessage}
    (performs :
      (Call.command message startTime runTime).perform fuel initial =
        some final) :
    ∃ result,
      dispatchControllerCommand fuel startTime runTime initial message =
        some (final, result) := by
  obtain ⟨⟨_, result⟩, dispatches, rfl⟩ := Option.map_eq_some_iff.mp performs
  exact ⟨result, dispatches⟩

theorem Session.split
    (session : Session initial (earlier ++ later) final shows) :
    ∃ machine first rest,
      Session initial earlier machine first ∧
        Session machine later final rest := by
  induction later using List.reverseRecOn generalizing final shows with
  | nil =>
      rw [List.append_nil] at session
      exact ⟨final, shows, [], session, .nil⟩
  | append_singleton rest call inductionHypothesis =>
      rw [← List.append_assoc] at session
      obtain ⟨fuel, machine, shows', session', performs⟩ := session.last
      obtain ⟨middle, first, more, start, goesOn⟩ :=
        inductionHypothesis session'
      exact ⟨middle, first, _, start, goesOn.snoc fuel performs⟩

theorem Session.hosted (session : Session initial calls final shows)
    (hosted : Hosted initial) (started : ∀ call ∈ calls, call ≠ .bind) :
    Hosted final := by
  induction session with
  | nil =>
      exact hosted
  | snoc earlier fuel performs inductionHypothesis =>
      have before :=
        inductionHypothesis fun call member =>
          started call (List.mem_append_left _ member)
      obtain ⟨writes, wakeup, shown, leads⟩ :=
        Call.leads before
          (started _ (List.mem_append_right _ (List.mem_singleton_self _)))
          performs
      exact leads.hosted

/-- The instructions of a program go into the controller one by one; the ticks
between them do nothing. -/
theorem Session.contains {instructions added : List ControllerInstruction}
    {stores : List HostCommand}
    (session : Session initial calls final shows)
    (contains : initial.Contains instructions)
    (serves : ∀ call ∈ calls, call.Serves)
    (sends : calls.filterMap Call.message = stores.map HostCommand.message)
    (asks : stores.map HostCommand.intent = added.map Intent.store)
    (fits : (instructions ++ added).length ≤ maxInstructions) :
    final.Contains (instructions ++ added) := by
  induction session generalizing stores added with
  | nil =>
      cases List.map_eq_nil_iff.mp sends.symm
      cases List.map_eq_nil_iff.mp asks.symm
      rw [List.append_nil]
      exact contains
  | @snoc calls machine after shows call earlier fuel performs
      inductionHypothesis =>
      have before : ∀ call ∈ calls, call.Serves := fun call member =>
        serves call (List.mem_append_left _ member)
      rw [List.filterMap_append] at sends
      cases call with
      | bind | begin startTime runTime =>
          exact
            (serves _
              (List.mem_append_right _ (List.mem_singleton_self _))).elim
      | tick now =>
          obtain ⟨⟨_, status⟩, runs, rfl⟩ := Option.map_eq_some_iff.mp performs
          exact
            contains_tick
              (inductionHypothesis before
                ((List.append_nil _).symm.trans sends) asks fits)
              runs
      | command message startTime runTime =>
          obtain ⟨result, dispatches⟩ := Call.perform_command performs
          obtain ⟨front, back, rfl, sends', last⟩ :=
            List.map_eq_append_iff.mp sends.symm
          obtain ⟨store, rfl, same⟩ := List.map_eq_singleton_iff.mp last
          cases same
          rw [List.map_append] at asks
          obtain ⟨added', rest, rfl, asks', asked⟩ :=
            List.map_eq_append_iff.mp asks.symm
          obtain ⟨instr, rfl, stores⟩ := List.map_eq_singleton_iff.mp asked
          rw [← List.append_assoc] at fits ⊢
          rw [List.length_append, List.length_singleton] at fits
          exact
            contains_store
              (inductionHypothesis before sends'.symm asks'.symm
                (Nat.le_of_succ_le fits))
              fits stores.symm dispatches

/-- After a reset the controller contains the instructions that were sent since,
whatever it did before. -/
theorem Session.loads {added : List ControllerInstruction}
    {stores : List HostCommand} {accepted : List ControllerCommandMessage}
    (session : Session initial calls final shows)
    (serves : ∀ call ∈ calls, call.Serves)
    (sends :
      calls.filterMap Call.message =
        accepted ++
          HostCommand.resetInstructions.message ::
            stores.map HostCommand.message)
    (asks : stores.map HostCommand.intent = added.map Intent.store)
    (fits : added.length ≤ maxInstructions) : final.Contains added := by
  obtain ⟨others, rest, rfl, -, sent⟩ := List.filterMap_eq_append_iff.mp sends
  obtain ⟨ticks, reset, later, rfl, -, resets, stored⟩ :=
    List.filterMap_eq_cons_iff.mp sent
  have split :
      others ++ (ticks ++ reset :: later) =
        (others ++ ticks) ++ ([reset] ++ later) := by
    simp only [List.append_assoc, List.singleton_append]
  rw [split] at session serves
  obtain ⟨before, _, _, -, after⟩ := session.split
  obtain ⟨cleared, _, _, first, loading⟩ := after.split
  obtain ⟨fuel, performs⟩ := first.single
  cases reset with
  | bind | begin startTime runTime | tick now => cases resets
  | command message startTime runTime =>
      cases resets
      obtain ⟨result, dispatches⟩ := Call.perform_command performs
      refine loading.contains (contains_reset dispatches) ?_ stored asks fits
      intro call member
      exact
        serves call
          (List.mem_append_right _ (List.mem_append_right _ member))

theorem Session.boots {strips : StripId → Strip} {startTime runTime : Nat}
    (session :
      Session (Machine.fresh strips) [.bind, .begin startTime runTime] final
        shows) :
    Hosted final := by
  obtain ⟨bound, _, _, first, second⟩ :=
    @Session.split _ _ [.bind] [.begin startTime runTime] _ session
  obtain ⟨fuel, performs⟩ := first.single
  cases Option.some.inj performs
  apply second.hosted (Firmware.hosted_bound strips)
  intro call member
  cases List.mem_singleton.mp member
  exact Call.noConfusion

end Sessions

/-- How a program got started: the calls before, the controller that the start
found and left, its report, and the calls afterwards. -/
structure Launch where
  earlier : List Call
  loaded : Machine
  fuel : Nat
  startTime : Nat
  runTime : Nat
  launched : Machine
  result : ControllerCommandResult
  ticks : List Call

/-- The calls of a session end with the start of a program, which finds exactly
this program in the controller, and with ticks. -/
structure Launch.Ends (launch : Launch) (program : HostProgram)
    (initial : Machine) (calls : List Call) (final : Machine) : Prop where
  calls :
    calls =
      launch.earlier ++
        .command program.launch.message launch.startTime launch.runTime ::
          launch.ticks
  found : ∃ shows, Session initial launch.earlier launch.loaded shows
  hosted : Hosted launch.loaded
  contains : launch.loaded.Contains program.instructions
  dispatches :
    dispatchControllerCommand launch.fuel launch.startTime launch.runTime
        launch.loaded program.launch.message =
      some (launch.launched, launch.result)
  ticks : ∀ call ∈ launch.ticks, ∃ now, call = .tick now
  goesOn : ∃ shows, Session launch.launched launch.ticks final shows

theorem Session.launch {strips : StripId → Strip} {program : HostProgram}
    {accepted : List ControllerCommandMessage} {startTime runTime : Nat}
    {later : List Call} {final : Machine} {shows : List Strip}
    (session :
      Session (Machine.fresh strips)
        (.bind :: .begin startTime runTime :: later) final shows)
    (serves : ∀ call ∈ later, call.Serves)
    (sends :
      later.filterMap Call.message =
        accepted ++ program.commands.map HostCommand.message) :
    ∃ launch : Launch,
      launch.Ends program (Machine.fresh strips)
        (.bind :: .begin startTime runTime :: later) final := by
  rw [HostProgram.commands, List.map_cons, List.map_append,
    ← List.cons_append, ← List.append_assoc] at sends
  obtain ⟨stores, rest, rfl, loads, launches⟩ :=
    List.filterMap_eq_append_iff.mp sends
  obtain ⟨quiet, start, ticks, rfl, silent, starts, ended⟩ :=
    List.filterMap_eq_cons_iff.mp launches
  have split :
      .bind :: .begin startTime runTime :: (stores ++ (quiet ++ start :: ticks)) =
        ([.bind, .begin startTime runTime] ++ (stores ++ quiet)) ++
          ([start] ++ ticks) := by
    simp only [List.cons_append, List.nil_append, List.append_assoc]
  have member :
      ∀ call, call ∈ stores ++ quiet ∨ call ∈ ticks → call.Serves := by
    intro call among
    apply serves call
    simp only [List.mem_append, List.mem_cons] at among ⊢
    tauto
  rw [split] at session
  obtain ⟨loaded, _, _, found, session⟩ := session.split
  obtain ⟨booted, _, _, boots, loading⟩ := found.split
  obtain ⟨launched, _, _, first, goesOn⟩ := session.split
  obtain ⟨fuel, performs⟩ := first.single
  have serving : ∀ call ∈ stores ++ quiet, call.Serves := fun call among =>
    member call (Or.inl among)
  have sent :
      (stores ++ quiet).filterMap Call.message =
        accepted ++
          HostCommand.resetInstructions.message ::
            program.stores.map HostCommand.message := by
    rw [List.filterMap_append, loads, List.filterMap_eq_nil_iff.mpr silent,
      List.append_nil]
  cases start with
  | bind | begin _ _ | tick _ => cases starts
  | command message started ran =>
      cases starts
      obtain ⟨result, dispatches⟩ := Call.perform_command performs
      refine
        ⟨⟨_, loaded, fuel, started, ran, launched, result, ticks⟩, split,
          ⟨_, found⟩,
          loading.hosted boots.boots fun call among =>
            (serving call among).ne_bind,
          loading.loads serving sent program.asks program.fits, dispatches, ?_,
          ⟨_, goesOn⟩⟩
      intro call among
      have silent := List.filterMap_eq_nil_iff.mp ended call among
      have late := member call (Or.inr among)
      cases call with
      | bind | begin _ _ => exact late.elim
      | command _ _ _ => cases silent
      | tick now => exact ⟨now, rfl⟩

variable {σ : Type u} {φ : Type v} {β : Type w} {τ : Type x}
  {platform : Platform σ φ β τ}
  {contents : σ → List ControllerCommandMessage}
  {frames : φ → List SharedFrame}
  {start before after middle firmware : Firmware σ φ β τ}

namespace Firmware

/-- Calls of a task that has been set up: commands and ticks follow. -/
def Served (calls : List Call) : Prop :=
  ∃ startTime runTime later,
    calls = .bind :: .begin startTime runTime :: later ∧
      ∀ call ∈ later, call.Serves

/-- The calls begin with those of `Setup`. -/
def Booted (firmware : Firmware σ φ β τ) : Prop :=
  match firmware.app with
  | .setup => firmware.calls = []
  | .bound => firmware.calls = [.bind]
  | _ => Served firmware.calls

theorem Served.snoc {calls : List Call} {call : Call} (served : Served calls)
    (serves : call.Serves) : Served (calls ++ [call]) := by
  obtain ⟨startTime, runTime, later, rfl, all⟩ := served
  refine ⟨startTime, runTime, later ++ [call], rfl, ?_⟩
  intro other member
  rcases List.mem_append.mp member with earlier | last
  · exact all other earlier
  · cases List.mem_singleton.mp last
    exact serves

theorem Booted.served (booted : firmware.Booted)
    (started : firmware.app ≠ .setup) (begun : firmware.app ≠ .bound) :
    Served firmware.calls := by
  unfold Booted at booted
  split at booted
  · contradiction
  · contradiction
  · exact booted

theorem Served.booted (served : Served firmware.calls)
    (started : firmware.app ≠ .setup) (begun : firmware.app ≠ .bound) :
    firmware.Booted := by
  unfold Booted
  split
  · contradiction
  · contradiction
  · exact served

theorem Booted.of_same (booted : before.Booted)
    (app : after.app = before.app) (calls : after.calls = before.calls) :
    after.Booted := by
  unfold Booted at booted ⊢
  rw [app, calls]
  exact booted

theorem Booted.moves (moves : Moves platform before after)
    (booted : before.Booted) : after.Booted := by
  cases moves with
  | elapse | expire | idle | listen | deliver | delivered | collect
  | collected | apply | failed | blink =>
      exact booted.of_same rfl rfl
  | bind finish point executes =>
      unfold Booted at booted ⊢
      rw [point] at booted
      rw [(executed executes).eq]
      show _ ++ [Call.bind] = _
      rw [booted]
      rfl
  | begin fuel startTime runTime finish point executes =>
      unfold Booted at booted
      rw [point] at booted
      rw [(executed executes).eq]
      refine ⟨startTime, runTime, [], ?_, fun _ member => nomatch member⟩
      show _ ++ [Call.begin startTime runTime] = _
      rw [booted]
      rfl
  | dispatch fuel startTime runTime finish message timeout point executes =>
      have served := booted.served (by simp [point]) (by simp [point])
      rw [(executed executes).eq]
      exact
        Served.booted (served.snoc True.intro) AppPoint.noConfusion
          AppPoint.noConfusion
  | tick fuel now finish point executes =>
      have served := booted.served (by simp [point]) (by simp [point])
      rw [(executed executes).eq]
      exact
        Served.booted (served.snoc True.intro) AppPoint.noConfusion
          AppPoint.noConfusion
  | wakeCommands point | wakeTimeout point | receive timeout message point =>
      have served := booted.served (by simp [point]) (by simp [point])
      exact
        Served.booted served AppPoint.noConfusion AppPoint.noConfusion
  | drained timeout point =>
      have served := booted.served (by simp [point]) (by simp [point])
      cases timeout <;>
        exact
          Served.booted served AppPoint.noConfusion AppPoint.noConfusion

theorem Runs.served (initial : Initial contents frames platform start)
    (runs : Runs platform start firmware) (sleeps : firmware.app = .waiting) :
    Served firmware.calls := by
  have first : start.Booted := by
    unfold Booted
    rw [initial.app]
    exact initial.calls
  have booted :=
    runs.invariant Booted first fun _ _ moves booted => booted.moves moves
  exact booted.served (by simp [sleeps]) (by simp [sleeps])

/-! ### Transmissions -/

/-- From a moment on at which the reader waits for a frame and no handler is
left to be called, some bytes arrive; afterwards the application task sleeps. -/
structure Transmission (platform : Platform σ φ β τ)
    (start middle firmware : Firmware σ φ β τ) (bytes : List UInt8) : Prop where
  runs : Runs platform start middle
  bound : middle.app ≠ .setup
  settled : middle.hw.pending = []
  aligned : (feedAll none middle.bytes).1 = none
  later : Runs platform middle firmware
  arrived : firmware.bytes = middle.bytes ++ bytes
  delivered : firmware.hw.pending = []
  sleeps : firmware.app = .waiting
  silent : platform.commandBox.posted firmware.commands.state = false

variable {bytes : List UInt8} {program : HostProgram}

/-- Commands that fit into the mailbox are dispatched behind the earlier
ones. -/
theorem Transmission.dispatched (lawful : platform.Lawful contents frames)
    (initial : Initial contents frames platform start)
    (sent : Transmission platform start middle firmware bytes)
    {burst : List ControllerCommandMessage}
    (reads : messagesOf (feedAll none bytes).2 = burst)
    (space :
      (contents middle.commands.state).length + burst.length ≤ 32) :
    firmware.calls.filterMap Call.message =
      middle.commands.accepted ++ burst := by
  have consistent := (sent.runs.trans sent.later).consistent lawful initial
  rw [consistent.dispatched_all sent.sleeps sent.silent]
  refine
    sent.runs.burst_accepted lawful initial sent.bound sent.settled sent.later
      ?_ space sent.delivered
  rw [sent.arrived, commandsIn_append sent.aligned, reads]

theorem Transmission.session (lawful : platform.Lawful contents frames)
    (initial : Initial contents frames platform start)
    (sent : Transmission platform start middle firmware bytes) :
    ∃ startTime runTime later shows,
      firmware.calls = .bind :: .begin startTime runTime :: later ∧
        (∀ call ∈ later, call.Serves) ∧
        Session (Machine.fresh start.machine.strips) firmware.calls
          firmware.machine shows := by
  have runs := sent.runs.trans sent.later
  obtain ⟨startTime, runTime, later, calls, serves⟩ :=
    runs.served initial sent.sleeps
  obtain ⟨shows, kept, replay⟩ := (runs.consistent lawful initial).replayed
  have session := replay.session
  rw [initial.machine] at session
  exact ⟨startTime, runTime, later, shows, calls, serves, session⟩

theorem Transmission.launch (lawful : platform.Lawful contents frames)
    (initial : Initial contents frames platform start)
    (sent :
      Transmission platform start middle firmware (stream program.commands))
    (space :
      (contents middle.commands.state).length + program.commands.length ≤
        32) :
    ∃ launch : Launch,
      launch.Ends program start.machine firmware.calls firmware.machine := by
  have dispatched :=
    sent.dispatched lawful initial (stream_read program.commands).2
      (by rw [List.length_map]; exact space)
  obtain ⟨startTime, runTime, later, shows, calls, serves, session⟩ :=
    sent.session lawful initial
  rw [calls] at session dispatched
  rw [calls, initial.machine]
  exact session.launch serves dispatched

/-- A program that arrives whole is in the controller, instruction by
instruction, when its start is dispatched as the last command; whatever the
controller did before, this start succeeds exactly if the program is
acceptable. -/
theorem download (lawful : platform.Lawful contents frames)
    (initial : Initial contents frames platform start)
    (sent :
      Transmission platform start middle firmware (stream program.commands))
    (space :
      (contents middle.commands.state).length + program.commands.length ≤
        32) :
    ∃ launch : Launch,
      launch.Ends program start.machine firmware.calls firmware.machine ∧
        launch.result.startAttempted = true ∧
        (launch.result.startStatus = .success ↔
          launch.loaded.Acceptable program.repeats) := by
  obtain ⟨launch, ends⟩ := sent.launch lawful initial space
  have loadable := (legal_of_reachable ends.hosted.reachable).loadable
  exact
    ⟨launch, ends,
      contains_start loadable ends.contains program.launches ends.dispatches⟩

/-- One `Fade` of the first pixel. -/
def fadeProgram : HostProgram where
  stores := [.fadeGrouped 0 50 1000 0 0]
  instructions :=
    [{ kind := .fade { percent := 50, durationMs := 1000, index := 0 } }]
  asks := rfl
  launch := .start 0
  repeats := 0
  launches := rfl
  fits := by decide

theorem fadeProgram_accepted : fadeProgram.Accepted := by
  apply HostProgram.accepted
  refine ⟨?_, fun repeated => absurd rfl repeated⟩
  intro instr member isRun
  cases List.mem_singleton.mp member
  cases isRun

/-- The bytes that arrive between two points of a course, and what else is seen
at its end. -/
theorem transmission_of_course {ledCount : Nat}
    {fits : ledCount ≤ sharedFrameCapacity} {first rest : List Action}
    {bytes : List UInt8}
    {ends : FakeFirmware → Bool}
    (courses :
      ((fakeStart ledCount fits).course fakePlatform first).any
          (fun middle =>
            decide
                (middle.app = .bound ∧ middle.hw = .waiting ∧
                  middle.bytes = [] ∧ middle.commands.state.1.count = 0) &&
              (middle.course fakePlatform rest).any fun firmware =>
                decide
                    (firmware.bytes = bytes ∧ firmware.hw.pending = [] ∧
                      firmware.app = .waiting ∧
                      fakePlatform.commandBox.posted firmware.commands.state =
                        false) &&
                  ends firmware) =
        true) :
    ∃ middle firmware,
      Transmission fakePlatform (fakeStart ledCount fits) middle firmware
          bytes ∧
        middle.commands.state.1.contents.length = 0 ∧
        ends firmware = true := by
  obtain ⟨middle, begins, holds⟩ := (Option.any_eq_true _ _).mp courses
  obtain ⟨holds, rests⟩ := Bool.and_eq_true_iff.mp holds
  obtain ⟨bound, settled, silence, empty⟩ := of_decide_eq_true holds
  obtain ⟨firmware, goesOn, holds⟩ := (Option.any_eq_true _ _).mp rests
  obtain ⟨holds, ended⟩ := Bool.and_eq_true_iff.mp holds
  obtain ⟨arrived, delivered, sleeps, silent⟩ := of_decide_eq_true holds
  refine ⟨middle, firmware, ?_, ?_, ended⟩
  · refine
      ⟨Runs.start.course begins, by simp [bound], by rw [settled]; rfl,
        by rw [silence]; rfl, Runs.start.course goesOn, ?_, delivered, sleeps,
        silent⟩
    rw [arrived, silence, List.nil_append]
  · rw [Ring.contents_length]
    exact empty

theorem download_of_fadeProgram :
    ∃ firmware, ∃ launch : Launch,
      Runs fakePlatform (fakeStart 7 (by decide)) firmware ∧
        launch.Ends fadeProgram (fakeStart 7 (by decide)).machine
          firmware.calls firmware.machine ∧
        launch.result.startStatus = .success := by
  obtain ⟨middle, firmware, sent, empty, -⟩ :=
    @transmission_of_course 7 (by decide) [.bind 0] (fadeActions.drop 1)
      (stream fadeProgram.commands) (fun _ => true) (by decide +kernel)
  obtain ⟨launch, ends, -, starts⟩ :=
    download fakePlatform_lawful (fakeStart_initial 7 (by decide)) sent
      (by rw [empty]; decide)
  exact
    ⟨firmware, launch, sent.runs.trans sent.later, ends,
      starts.mpr (fadeProgram_accepted _ ends.contains)⟩

/-- The start of the program arrives only in part. -/
def cutActions : List Action :=
  [.begin 40 1 1 2,
    .listen
      (some
        [⟨[0xAA, 0x02, 0x01, 0x00], by decide, by decide⟩,
          ⟨[0x00, 0x03, 0xAA, 0x0D, 0x01, 0x0B, 0x00, 0x00, 0x00, 0x32, 0x00,
              0xE8, 0x03, 0x00, 0x00, 0x00], by decide, by decide⟩,
          ⟨[0x00, 0x00, 0xDE, 0xAA, 0x0C, 0x01], by decide, by decide⟩]),
    .deliver, .deliver, .wake, .receive, .dispatch 0 3 3 3, .receive,
    .dispatch 0 4 4 4, .receive]

/-- A `Gradient` of the first pixel to red arrives and is started. -/
def gradientActions : List Action :=
  [.begin 40 1 1 2,
    .listen
      (some
        [⟨[0xAA, 0x02, 0x01, 0x00, 0x00, 0x03, 0xAA, 0x0E, 0x01, 0x0C, 0x00,
              0x00, 0x00, 0xFF, 0x00, 0x00], by decide, by decide⟩,
          ⟨[0xE8, 0x03, 0x00, 0x00, 0x00, 0x00, 0x00, 0x17, 0xAA, 0x0C, 0x01,
              0x02, 0x00, 0x00, 0x00, 0x0F], by decide, by decide⟩]),
    .deliver, .deliver, .deliver, .wake, .receive, .dispatch 0 3 3 3, .receive,
    .dispatch 0 4 4 4, .receive, .dispatch 60 5 6 7, .receive]

end Firmware

end PrismKit
