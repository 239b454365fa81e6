import PrismKit.Firmware.System
import PrismKit.Timeline.Termination

/-!
# Progress

The tasks do not block each other.  Every call of the controller returns, and
from every state of every run the tasks can finish what they have begun, without
a new event from outside.
-/

namespace PrismKit

open Library Machine

universe u v w x

namespace Machine

/-- Some number of iterations is enough for a `Run`. -/
theorem Hosted.run_ends {machine : Machine} (hosted : Hosted machine)
    (now : Nat) : ∃ fuel result, machine.run fuel now = some result := by
  by_cases active : machine.state = .active
  · obtain ⟨rank, sound⟩ :=
      ((legal_of_reachable hosted.reachable).chronicle
        (by rw [active]; exact ProgramState.noConfusion)).sound
    have begun : (machine.beginRun now).Begun (machine.getTimestamp now)
        fun _ => false :=
      ⟨fun _ begun => Bool.noConfusion begun,
        fun _ begun => Bool.noConfusion begun,
        fun _ _ begun => Bool.noConfusion begun,
        fun _ _ begun => Bool.noConfusion begun⟩
    have stops :
        ∃ fuel settled,
          (machine.beginRun now).runLoop (machine.getTimestamp now) fuel =
            some settled :=
      ⟨_,
        runLoop_returns _ (beginRun_sound now sound) begun
          (Nat.lt_succ_self _)⟩
    obtain ⟨fuel, settled, ends⟩ := stops
    have runs : ∃ result, machine.run fuel now = some result := by
      unfold Machine.run
      rw [if_neg (not_not.mpr active)]
      simp only [ends]
      exact ⟨_, rfl⟩
    exact ⟨fuel, runs⟩
  · refine ⟨0, (machine, .success), ?_⟩
    unfold Machine.run
    exact if_pos active

theorem Hosted.startAndTick_ends {machine : Machine} (hosted : Hosted machine)
    (repeats : LoopCount) (startTime runTime : Nat) :
    ∃ fuel result,
      PrismKit.startAndTick fuel startTime runTime machine repeats =
        some result := by
  unfold PrismKit.startAndTick
  rcases hosted.start repeats startTime with
    ⟨failed, -⟩ | ⟨success, started, -⟩
  · exact ⟨0, _, if_pos failed⟩
  · obtain ⟨fuel, result, ends⟩ := started.run_ends runTime
    refine ⟨fuel, ?_⟩
    simp only [success, not_true_eq_false, ne_eq, if_false, ends]
    exact ⟨_, rfl⟩

/-- A command that reads the member of the union that was written is carried
out. -/
theorem Hosted.dispatch_ends {machine : Machine} (hosted : Hosted machine)
    {message : ControllerCommandMessage} (wellFormed : message.WellFormed)
    (startTime runTime : Nat) :
    ∃ fuel result,
      dispatchControllerCommand fuel startTime runTime machine message =
        some result := by
  unfold dispatchControllerCommand
  unfold ControllerCommandMessage.WellFormed at wellFormed
  split
  case h_11 => exact hosted.startAndTick_ends 0 startTime runTime
  case h_12 payload _ _ =>
      exact
        hosted.startAndTick_ends payload.rootAdditionalRepeats startTime
          runTime
  case h_15 =>
      -- The commands and their payloads match.
      split at wellFormed <;> simp_all
  all_goals exact ⟨0, _, rfl⟩

end Machine

namespace Call

theorem ends {machine : Machine} {call : Call} (hosted : Hosted machine)
    (wellFormed : ∀ message ∈ call.message, message.WellFormed) :
    ∃ fuel after, call.perform fuel machine = some after := by
  cases call with
  | bind => exact ⟨0, _, rfl⟩
  | begin startTime runTime =>
      obtain ⟨fuel, result, returns⟩ :=
        (hosted_loaded hosted).1.startAndTick_ends 0 startTime runTime
      exact ⟨fuel, result.1, Option.map_eq_some_iff.mpr ⟨result, returns, rfl⟩⟩
  | command message startTime runTime =>
      obtain ⟨fuel, result, returns⟩ :=
        hosted.dispatch_ends (wellFormed message rfl) startTime runTime
      exact ⟨fuel, result.1, Option.map_eq_some_iff.mpr ⟨result, returns, rfl⟩⟩
  | tick now =>
      obtain ⟨fuel, result, returns⟩ := hosted.run_ends now
      exact ⟨fuel, result.1, Option.map_eq_some_iff.mpr ⟨result, returns, rfl⟩⟩

end Call

variable {σ : Type u} {φ : Type v} {β : Type w} {τ : Type x}
  {platform : Platform σ φ β τ}
  {contents : σ → List ControllerCommandMessage}
  {frames : φ → List SharedFrame} {initial : Machine}
  {start before after firmware : Firmware σ φ β τ}

namespace Firmware

/-- A move of one of the tasks: no time passes, the timer does not expire and
nothing arrives at the serial port. -/
def Action.OfTask : Action → Prop
  | .elapse _ | .expire | .listen (some _) => False
  | _ => True

/-- The states that the tasks can get into by moves of their own. -/
inductive Works (platform : Platform σ φ β τ) (start : Firmware σ φ β τ) :
    Firmware σ φ β τ → Prop
  | start : Works platform start start
  | step {before after : Firmware σ φ β τ} (action : Action)
      (own : action.OfTask) (earlier : Works platform start before)
      (moves : before.step platform action = some after) :
      Works platform start after

theorem Works.runs (works : Works platform start firmware) :
    Runs platform start firmware := by
  induction works with
  | start => exact .start
  | step action own earlier moves inductionHypothesis =>
      exact inductionHypothesis.step action moves

theorem Works.first {action : Action}
    (steps : before.step platform action = some after)
    (own : action.OfTask) :
    Works platform before after :=
  .step action own .start steps

theorem Works.trans {middle : Firmware σ φ β τ}
    (works : Works platform start middle)
    (later : Works platform middle firmware) :
    Works platform start firmware := by
  induction later with
  | start => exact works
  | step action own earlier moves inductionHypothesis =>
      exact inductionHypothesis.step action own moves

/-- The command in hand reads the member of the union that was written. -/
theorem Consistent.wellFormed {message : ControllerCommandMessage}
    {timeout : Bool}
    (consistent : firmware.Consistent platform contents frames initial)
    (point : firmware.app = .dispatching message timeout) :
    message.WellFormed := by
  have received := consistent.tended.commands.received_prefix
  have inHand : message ∈ firmware.commands.received := by
    rw [consistent.dispatched, point]
    exact List.mem_append_right _ (List.mem_singleton_self message)
  obtain ⟨called, -, sublist⟩ := consistent.handled
  obtain ⟨invocation, -, sent⟩ :=
    List.mem_flatMap.mp (sublist.subset (received.subset inHand))
  exact
    (ControllerCommandSink.receive_spec listMailbox invocation).2.2 message
      sent

/-- A call of the application task can be carried out at once. -/
theorem Consistent.executes {call : Call} (next : AppPoint)
    (consistent : firmware.Consistent platform contents frames initial)
    (point : firmware.app ≠ .setup)
    (within : call.Within firmware.clock firmware.clock)
    (wellFormed : ∀ message ∈ call.message, message.WellFormed) :
    ∃ fuel after,
      execute platform fuel firmware.clock call next firmware =
          some after ∧
        Executed platform fuel firmware.clock call next firmware after := by
  obtain ⟨fuel, machine, performs⟩ :=
    call.ends (consistent.staging.hosted point) wellFormed
  have executes :
      ∃ after,
        execute platform fuel firmware.clock call next firmware =
          some after := by
    unfold execute
    rw [if_pos within, performs]
    exact ⟨_, rfl⟩
  obtain ⟨after, executes⟩ := executes
  exact ⟨fuel, after, executes, executed executes⟩

/-! ### The hardware task -/

/-- Only the hardware task has moved, and no commands were sent. -/
structure Waited (before after : Firmware σ φ β τ) : Prop where
  app : after.app = before.app
  timer : after.timer = before.timer
  commands : after.commands = before.commands
  bytes : after.bytes = before.bytes

theorem Waited.trans {middle : Firmware σ φ β τ}
    (first : Waited before middle) (second : Waited middle after) :
    Waited before after :=
  ⟨second.app.trans first.app, second.timer.trans first.timer,
    second.commands.trans first.commands, second.bytes.trans first.bytes⟩

/-- The hardware task sleeps and no frame is waiting, or it has exited: the
strip failed, or the status LED did not toggle. -/
def HwRests (frames : φ → List SharedFrame) (firmware : Firmware σ φ β τ) :
    Prop :=
  firmware.hw = .waiting ∧ frames firmware.strip.mailbox.state = [] ∨
    firmware.hw = .exited

/-- The hardware task can get there on its own. -/
def HwCanRest (platform : Platform σ φ β τ) (frames : φ → List SharedFrame)
    (before : Firmware σ φ β τ) : Prop :=
  ∃ after,
    Works platform before after ∧ Waited before after ∧ after.HwRests frames

theorem HwCanRest.of_step {action : Action}
    (rests : after.HwCanRest platform frames)
    (steps : before.step platform action = some after)
    (own : action.OfTask)
    (waited : Waited before after) : before.HwCanRest platform frames := by
  obtain ⟨last, works, waited', rests⟩ := rests
  exact
    ⟨last, (Works.first steps own).trans works, waited.trans waited',
      rests⟩

/-- From the end of an iteration, with an LED that toggles. -/
theorem rests_of_blinking (blinking : before.hw = .blinking)
    (empty : frames before.strip.mailbox.state = []) :
    before.HwCanRest platform frames := by
  have steps :
      before.step platform (.blink true) =
        some
          { before with
            statusLed := before.statusLed.blink.1
            hw := .waiting } := by
    simp only [step, blinking, Bool.not_true, Bool.and_false,
      Bool.false_eq_true, if_false]
  exact
    ⟨_, Works.first steps trivial, ⟨rfl, rfl, rfl, rfl⟩, Or.inl ⟨rfl, empty⟩⟩

/-- A frame in hand is applied, or the task exits. -/
theorem rests_of_applying {frame : SharedFrame}
    (applying : before.hw = .applying frame)
    (goes :
      ∀ driver applied,
        HwCanRest platform frames
          { before with driver := driver, applied := applied, hw := .draining }) :
    before.HwCanRest platform frames := by
  cases result : applyFrame platform.driver frame before.driver with
  | mk driver status =>
      by_cases ok : status = .ok
      · have steps :
            before.step platform .apply =
              some
                { before with
                  driver := driver
                  applied := before.applied ++ [frame]
                  hw := .draining } := by
          simp only [step, applying, result, ok]
        exact (goes _ _).of_step steps trivial ⟨rfl, rfl, rfl, rfl⟩
      · have steps :
            before.step platform .apply =
              some { before with driver := driver, hw := .exited } := by
          simp only [step, applying, result]
        exact
          ⟨_, Works.first steps trivial, ⟨rfl, rfl, rfl, rfl⟩, Or.inr rfl⟩

/-- From the loop that receives frames; the induction is on their number. -/
theorem rests_of_draining (lawful : platform.Lawful contents frames)
    (draining : before.hw = .draining) :
    before.HwCanRest platform frames := by
  generalize waiting : frames before.strip.mailbox.state = queue
  induction queue generalizing before with
  | nil =>
      rcases Channel.receive_cases lawful.frameBox before.strip.mailbox with
        ⟨-, state, empty, result⟩ | ⟨_, _, _, held, -⟩
      · have steps :
            before.step platform .collect =
              some
                { before with
                  strip :=
                    { before.strip with
                      mailbox :=
                        { before.strip.mailbox with
                          state := state
                          draining := false } }
                  hw := .blinking } := by
          simp only [step, draining, result]
        exact
          HwCanRest.of_step (rests_of_blinking rfl empty) steps trivial
            ⟨rfl, rfl, rfl, rfl⟩
      · rw [waiting] at held
        cases held
  | cons first queue inductionHypothesis =>
      rcases Channel.receive_cases lawful.frameBox before.strip.mailbox with
        ⟨held, -⟩ | ⟨frame, rest, state, held, left, result⟩
      · rw [waiting] at held
        cases held
      · rw [waiting] at held
        cases held
        have steps :
            before.step platform .collect =
              some
                { before with
                  strip :=
                    { before.strip with
                      mailbox :=
                        { before.strip.mailbox with
                          state := state
                          received :=
                            before.strip.mailbox.received ++ [first] } }
                  hw := .applying first } := by
          simp only [step, draining, result]
        refine HwCanRest.of_step ?_ steps trivial ⟨rfl, rfl, rfl, rfl⟩
        apply rests_of_applying rfl
        intro driver applied
        exact inductionHypothesis rfl left

/-- From the end of the calls of handlers. -/
theorem rests_of_delivered {frame : Bool}
    (lawful : platform.Lawful contents frames)
    (delivering : before.hw = .delivering [] frame)
    (empty : frame = false → frames before.strip.mailbox.state = []) :
    before.HwCanRest platform frames := by
  have steps :
      before.step platform .deliver =
        some
          { before with hw := if frame then .draining else .blinking } := by
    simp only [step, delivering]
  refine HwCanRest.of_step ?_ steps trivial ⟨rfl, rfl, rfl, rfl⟩
  cases frame with
  | true => exact rests_of_draining lawful rfl
  | false => exact rests_of_blinking rfl (empty rfl)

/-- From its wait, without an event of the serial port: what the bit tells is
what the mailbox holds. -/
theorem rests_of_waiting (lawful : platform.Lawful contents frames)
    (consistent : before.Consistent platform contents frames initial)
    (sleeps : before.hw = .waiting) : before.HwCanRest platform frames := by
  have asleep : before.strip.mailbox.draining = false :=
    (consistent.tended.hw (by simp [sleeps])).trans (by rw [sleeps]; rfl)
  have tended := consistent.tended.frames.tended asleep
  cases posted : platform.frameBox.posted before.strip.mailbox.state with
  | true =>
      have steps :
          before.step platform (.listen none) =
            some
              { before with
                bytes := before.bytes ++ arrivedBytes none
                strip :=
                  { before.strip with
                    mailbox :=
                      before.strip.mailbox.wake platform.frameBox }
                hw := .delivering [] true } := by
        simp only [step, sleeps, posted, if_true, List.drop_length]
      refine HwCanRest.of_step ?_ steps trivial ⟨rfl, rfl, rfl, List.append_nil _⟩
      exact rests_of_delivered lawful rfl Bool.noConfusion
  | false =>
      have empty : frames before.strip.mailbox.state = [] := by
        by_contra occupied
        rw [tended occupied] at posted
        cases posted
      exact ⟨before, .start, ⟨rfl, rfl, rfl, rfl⟩, Or.inl ⟨sleeps, empty⟩⟩

/-- The remaining handlers are called. -/
theorem delivers {rest : List Invocation} {frame : Bool}
    (delivering : before.hw = .delivering rest frame) :
    ∃ after,
      Works platform before after ∧ after.hw = .delivering [] frame ∧
        after.app = before.app ∧ after.bytes = before.bytes := by
  induction rest generalizing before with
  | nil =>
      exact ⟨before, .start, delivering, rfl, rfl⟩
  | cons invocation rest inductionHypothesis =>
      have steps :
          before.step platform .deliver =
            some
              { before with
                commands := before.handled platform invocation
                hw := .delivering rest frame } := by
        simp only [step, delivering]
      obtain ⟨after, works, delivered, app, bytes⟩ :=
        @inductionHypothesis
          { before with
            commands := before.handled platform invocation
            hw := .delivering rest frame } rfl
      exact
        ⟨after, (Works.first steps trivial).trans works, delivered, app, bytes⟩

/-- The hardware task ends its iteration. -/
theorem hw_stops (lawful : platform.Lawful contents frames)
    (before : Firmware σ φ β τ) :
    ∃ after,
      Works platform before after ∧
        (after.hw = .waiting ∨ after.hw = .exited) ∧
        after.bytes = before.bytes := by
  have blinks :
      ∀ current : Firmware σ φ β τ, current.hw = .blinking →
        ∃ after,
          Works platform current after ∧
            (after.hw = .waiting ∨ after.hw = .exited) ∧
            after.bytes = current.bytes := by
    intro current blinking
    refine
      ⟨{ current with statusLed := current.statusLed.blink.1, hw := .waiting },
        Works.step (.blink true) trivial .start ?_, Or.inl rfl, rfl⟩
    simp only [step, blinking, Bool.not_true, Bool.and_false,
      Bool.false_eq_true, if_false]
  have rests :
      ∀ current : Firmware σ φ β τ, current.HwCanRest platform frames →
        ∃ after,
          Works platform current after ∧
            (after.hw = .waiting ∨ after.hw = .exited) ∧
            after.bytes = current.bytes := by
    rintro current ⟨after, works, waited, rests⟩
    exact ⟨after, works, rests.imp And.left id, waited.bytes⟩
  cases point : before.hw with
  | waiting => exact ⟨before, .start, Or.inl point, rfl⟩
  | exited => exact ⟨before, .start, Or.inr point, rfl⟩
  | blinking => exact blinks before point
  | draining => exact rests before (rests_of_draining lawful point)
  | applying frame =>
      exact
        rests before
          (rests_of_applying point fun _ _ => rests_of_draining lawful rfl)
  | delivering rest frame =>
      obtain ⟨delivered, works, point', -, bytes⟩ :=
        @delivers _ _ _ _ platform _ _ _ point
      cases frame with
      | true =>
          obtain ⟨after, works', stops, bytes'⟩ :=
            rests delivered (rests_of_delivered lawful point' Bool.noConfusion)
          exact ⟨after, works.trans works', stops, bytes'.trans bytes⟩
      | false =>
          have steps :
              delivered.step platform .deliver =
                some { delivered with hw := .blinking } := by
            simp only [step, point', Bool.false_eq_true, if_false]
          obtain ⟨after, works', stops, bytes'⟩ :=
            blinks { delivered with hw := .blinking } rfl
          exact
            ⟨after, (works.step .deliver trivial steps).trans works', stops,
              bytes'.trans bytes⟩

/-! ### The application task -/

structure Serves (platform : Platform σ φ β τ)
    (contents : σ → List ControllerCommandMessage)
    (before after : Firmware σ φ β τ) : Prop where
  app : after.app = .waiting
  empty : contents after.commands.state = []
  posted :
    platform.timer.posted after.timer = platform.timer.posted before.timer
  hw : after.hw = before.hw
  bytes : after.bytes = before.bytes

/-- The application task can get there on its own. -/
def CanServe (platform : Platform σ φ β τ)
    (contents : σ → List ControllerCommandMessage) (before : Firmware σ φ β τ) :
    Prop :=
  ∃ after, Works platform before after ∧ Serves platform contents before after

theorem CanServe.of_step {action : Action}
    (serves : after.CanServe platform contents)
    (steps : before.step platform action = some after)
    (own : action.OfTask)
    (posted :
      platform.timer.posted after.timer = platform.timer.posted before.timer)
    (hw : after.hw = before.hw)
    (bytes : after.bytes = before.bytes) :
    before.CanServe platform contents := by
  obtain ⟨last, works, app, empty, posted', hw', bytes'⟩ := serves
  exact
    ⟨last, (Works.first steps own).trans works, app, empty,
      posted'.trans posted, hw'.trans hw, bytes'.trans bytes⟩

theorem serves_of_ticking (lawful : platform.timer.Lawful)
    (consistent : before.Consistent platform contents frames initial)
    (ticking : before.app = .ticking)
    (empty : contents before.commands.state = []) :
    before.CanServe platform contents := by
  obtain ⟨fuel, after, executes, executed⟩ :=
    @Consistent.executes _ _ _ _ _ _ _ _ _ (.tick before.clock) .waiting
      consistent (by simp [ticking]) ⟨Nat.le_refl _, Nat.le_refl _⟩
      (by simp [Call.message])
  have steps :
      before.step platform (.tick fuel before.clock before.clock) =
        some after := by
    simp only [step, ticking]
    exact executes
  have posted := executed.posted lawful
  refine ⟨after, Works.first steps trivial, ?_⟩
  rw [executed.eq]
  exact ⟨rfl, empty, posted, rfl, rfl⟩

/-- From the loop that receives commands; the induction is on their number. -/
theorem serves_of_draining {timeout : Bool}
    (lawful : platform.Lawful contents frames)
    (consistent : before.Consistent platform contents frames initial)
    (draining : before.app = .draining timeout) :
    before.CanServe platform contents := by
  generalize waiting : contents before.commands.state = queue
  induction queue generalizing before with
  | nil =>
      rcases Channel.receive_cases lawful.commandBox before.commands with
        ⟨-, state, empty, result⟩ | ⟨_, _, _, held, -⟩
      · have steps :
            before.step platform .receive =
              some
                { before with
                  commands :=
                    { before.commands with
                      state := state
                      draining := false }
                  app := drained timeout } := by
          simp only [step, draining, result]
        have consistent' := consistent.moves lawful (moves_of_step steps)
        cases timeout with
        | true =>
            exact
              (serves_of_ticking lawful.timer consistent' rfl empty).of_step
                steps trivial rfl rfl rfl
        | false =>
            exact
              ⟨_, Works.first steps trivial, ⟨rfl, empty, rfl, rfl, rfl⟩⟩
      · rw [waiting] at held
        cases held
  | cons first queue inductionHypothesis =>
      rcases Channel.receive_cases lawful.commandBox before.commands with
        ⟨held, -⟩ | ⟨message, rest, state, held, left, result⟩
      · rw [waiting] at held
        cases held
      · rw [waiting] at held
        cases held
        have steps :
            before.step platform .receive =
              some
                { before with
                  commands :=
                    { before.commands with
                      state := state
                      received := before.commands.received ++ [first] }
                  app := .dispatching first timeout } := by
          simp only [step, draining, result]
        have consistent' := consistent.moves lawful (moves_of_step steps)
        have wellFormed := consistent'.wellFormed rfl
        obtain ⟨fuel, after, executes, executed⟩ :=
          @Consistent.executes _ _ _ _ _ _ _ _ _
            (.command first before.clock before.clock) (.draining timeout)
            consistent' AppPoint.noConfusion
            ⟨Nat.le_refl _, Nat.le_refl _, Nat.le_refl _⟩
            (fun message same => by cases same; exact wellFormed)
        have steps' :
            Firmware.step platform
                { before with
                  commands :=
                    { before.commands with
                      state := state
                      received := before.commands.received ++ [first] }
                  app := .dispatching first timeout }
                (.dispatch fuel before.clock before.clock before.clock) =
              some after := by
          simp only [step]
          exact executes
        have consistent'' := consistent'.moves lawful (moves_of_step steps')
        have serves : after.CanServe platform contents := by
          apply inductionHypothesis consistent''
          · rw [executed.eq]
          · rw [executed.eq]
            exact left
        have goes :
            CanServe platform contents
              { before with
                commands :=
                  { before.commands with
                    state := state
                    received := before.commands.received ++ [first] }
                app := .dispatching first timeout } := by
          apply serves.of_step steps' trivial
          · exact executed.posted lawful.timer
          · rw [executed.eq]
          · rw [executed.eq]
        exact goes.of_step steps trivial rfl rfl rfl

/-- From the wait, the posted events are taken. -/
theorem serves_of_waiting (lawful : platform.Lawful contents frames)
    (consistent : before.Consistent platform contents frames initial)
    (sleeps : before.app = .waiting) :
    ∃ after,
      Works platform before after ∧ after.app = .waiting ∧
        contents after.commands.state = [] ∧
        platform.timer.posted after.timer = false ∧
        after.hw = before.hw ∧ after.bytes = before.bytes := by
  have asleep : before.commands.draining = false :=
    consistent.tended.app.trans (by rw [sleeps]; rfl)
  have tended := consistent.tended.commands.tended asleep
  cases posted : platform.commandBox.posted before.commands.state with
  | true =>
      have steps :
          before.step platform .wake =
            some
              { before with
                commands := before.commands.wake platform.commandBox
                timer := platform.timer.consume before.timer
                app := .draining (platform.timer.posted before.timer) } := by
        simp only [step, sleeps, posted, if_true]
      obtain ⟨after, works, app, empty, quiet, hw, bytes⟩ :=
        serves_of_draining lawful
          (consistent.moves lawful (moves_of_step steps)) rfl
      exact
        ⟨after, (Works.first steps trivial).trans works, app, empty,
          quiet.trans (lawful.timer.consume before.timer).2, hw, bytes⟩
  | false =>
      have empty : contents before.commands.state = [] := by
        by_contra occupied
        rw [tended occupied] at posted
        cases posted
      cases expired : platform.timer.posted before.timer with
      | false =>
          exact ⟨before, .start, sleeps, empty, expired, rfl, rfl⟩
      | true =>
          have steps :
              before.step platform .wake =
                some
                  { before with
                    timer := platform.timer.consume before.timer
                    app := .ticking } := by
            simp only [step, sleeps, posted, expired, Bool.false_eq_true,
              if_false, if_true]
          obtain ⟨after, works, app, empty, quiet, hw, bytes⟩ :=
            serves_of_ticking lawful.timer
              (consistent.moves lawful (moves_of_step steps)) rfl empty
          exact
            ⟨after, (Works.first steps trivial).trans works, app, empty,
              quiet.trans (lawful.timer.consume before.timer).2, hw, bytes⟩

/-- The application task can get to a point while the hardware task stays where
it is. -/
def Gets (platform : Platform σ φ β τ) (point : AppPoint)
    (before : Firmware σ φ β τ) : Prop :=
  ∃ after,
    Works platform before after ∧ after.app = point ∧ after.hw = before.hw ∧
      after.bytes = before.bytes

theorem Gets.andThen {first last : AppPoint}
    (gets : before.Gets platform first)
    (goes :
      ∀ middle : Firmware σ φ β τ,
        Works platform before middle → middle.app = first →
          middle.Gets platform last) :
    before.Gets platform last := by
  obtain ⟨middle, works, point, hw, bytes⟩ := gets
  obtain ⟨after, works', point', hw', bytes'⟩ := goes middle works point
  exact
    ⟨after, works.trans works', point', hw'.trans hw, bytes'.trans bytes⟩

theorem gets_of_call (call : Call) {next : AppPoint}
    (consistent : before.Consistent platform contents frames initial)
    (point : before.app ≠ .setup)
    (within : call.Within before.clock before.clock)
    (wellFormed : ∀ message ∈ call.message, message.WellFormed)
    (enabled :
      ∀ fuel, ∃ action : Action,
        action.OfTask ∧ before.step platform action =
          execute platform fuel before.clock call next before) :
    before.Gets platform next := by
  obtain ⟨fuel, after, executes, executed⟩ :=
    consistent.executes next point within wellFormed
  obtain ⟨action, own, steps⟩ := enabled fuel
  refine ⟨after, Works.first (steps.trans executes) own, ?_, ?_, ?_⟩
  · rw [executed.eq]
  · rw [executed.eq]
  · rw [executed.eq]

theorem CanServe.gets (serves : before.CanServe platform contents) :
    before.Gets platform .waiting := by
  obtain ⟨after, works, app, -, -, hw, bytes⟩ := serves
  exact ⟨after, works, app, hw, bytes⟩

/-- From every point the application task gets to its wait. -/
theorem gets_waiting (lawful : platform.Lawful contents frames)
    (consistent : before.Consistent platform contents frames initial) :
    before.Gets platform .waiting := by
  have begins :
      ∀ current : Firmware σ φ β τ,
        current.Consistent platform contents frames initial →
          current.app = .bound → current.Gets platform .waiting := by
    intro current consistent point
    apply
      gets_of_call (.begin current.clock current.clock) consistent
        (by simp [point]) ⟨Nat.le_refl _, Nat.le_refl _, Nat.le_refl _⟩
        (by simp [Call.message])
    intro fuel
    exact
      ⟨.begin fuel current.clock current.clock current.clock, trivial, by
        simp only [step, point]⟩
  cases point : before.app with
  | setup =>
      have binds : before.Gets platform .bound := by
        have steps :
            ∃ after,
              before.step platform (.bind before.clock) = some after ∧
                after.app = .bound ∧ after.hw = before.hw ∧
                after.bytes = before.bytes := by
          simp only [step, point, execute, Call.Within, Nat.le_refl, if_true,
            Call.perform, Option.map_some]
          exact ⟨_, rfl, rfl, rfl, rfl⟩
        obtain ⟨after, steps, bound, hw, bytes⟩ := steps
        exact ⟨after, Works.first steps trivial, bound, hw, bytes⟩
      apply binds.andThen
      intro middle works bound
      exact begins middle (consistent.runs lawful works.runs) bound
  | bound => exact begins before consistent point
  | waiting => exact ⟨before, .start, point, rfl, rfl⟩
  | draining timeout =>
      exact (serves_of_draining lawful consistent point).gets
  | dispatching message timeout =>
      have wellFormed := consistent.wellFormed point
      have dispatches : before.Gets platform (.draining timeout) := by
        apply
          gets_of_call (.command message before.clock before.clock) consistent
            (by simp [point]) ⟨Nat.le_refl _, Nat.le_refl _, Nat.le_refl _⟩
            (fun other same => by cases same; exact wellFormed)
        intro fuel
        exact
          ⟨.dispatch fuel before.clock before.clock before.clock, trivial, by
            simp only [step, point]⟩
      apply dispatches.andThen
      intro middle works draining
      exact
        (serves_of_draining lawful (consistent.runs lawful works.runs)
          draining).gets
  | ticking =>
      apply
        gets_of_call (.tick before.clock) consistent (by simp [point])
          ⟨Nat.le_refl _, Nat.le_refl _⟩ (by simp [Call.message])
      intro fuel
      exact
        ⟨.tick fuel before.clock before.clock, trivial, by
          simp only [step, point]⟩

/-- Everything that has arrived is done: both tasks sleep with nothing left for
them, or the hardware task has exited. -/
structure AtRest (platform : Platform σ φ β τ)
    (contents : σ → List ControllerCommandMessage)
    (frames : φ → List SharedFrame) (firmware : Firmware σ φ β τ) : Prop where
  app : firmware.app = .waiting
  commands : contents firmware.commands.state = []
  timer : platform.timer.posted firmware.timer = false
  hw : firmware.HwRests frames

/-- The tasks cannot get stuck.  From every state of every run they come to rest
by moves of their own alone; the controller has then got every command that the
mailbox accepted and, unless the hardware task has exited, the strip every
frame. -/
theorem comes_to_rest (lawful : platform.Lawful contents frames)
    (initial : Initial contents frames platform start)
    (runs : Runs platform start firmware) :
    ∃ rest,
      Works platform firmware rest ∧ rest.bytes = firmware.bytes ∧
        rest.AtRest platform contents frames ∧
        rest.calls.filterMap Call.message = rest.commands.accepted ∧
        (rest.hw = .waiting → rest.applied = rest.strip.mailbox.accepted) := by
  have consistent := runs.consistent lawful initial
  -- The hardware task ends its iteration, then the application task serves
  -- everything, then the hardware task shows what came of it.
  obtain ⟨stopped, works₁, stops, bytes₁⟩ := hw_stops lawful firmware
  obtain ⟨waiting, works₂, sleeps, hw₂, bytes₂⟩ :=
    gets_waiting lawful (consistent.runs lawful works₁.runs)
  have consistent₂ := consistent.runs lawful (works₁.trans works₂).runs
  obtain ⟨served, works₃, app, empty, quiet, hw₃, bytes₃⟩ :=
    serves_of_waiting lawful consistent₂ sleeps
  have consistent₃ := consistent₂.runs lawful works₃.runs
  have shows : served.HwCanRest platform frames := by
    rw [← hw₂, ← hw₃] at stops
    rcases stops with point | gone
    · exact rests_of_waiting lawful consistent₃ point
    · exact ⟨served, .start, ⟨rfl, rfl, rfl, rfl⟩, Or.inr gone⟩
  obtain ⟨rest, works₄, waited, rests⟩ := shows
  have whole := ((works₁.trans works₂).trans works₃).trans works₄
  have consistent₄ := consistent.runs lawful whole.runs
  have app' : rest.app = .waiting := waited.app.trans app
  have empty' : contents rest.commands.state = [] := by
    rw [waited.commands]
    exact empty
  refine ⟨rest, whole, ?_, ⟨app', empty', ?_, rests⟩, ?_, ?_⟩
  · rw [waited.bytes, bytes₃, bytes₂, bytes₁]
  · rw [waited.timer]
    exact quiet
  · have conserved := consistent₄.tended.commands.conserved
    rw [empty', List.append_nil, consistent₄.dispatched, app'] at conserved
    exact (List.append_nil _).symm.trans conserved
  · intro sleeps'
    have none : frames rest.strip.mailbox.state = [] := by
      rcases rests with ⟨-, none⟩ | gone
      · exact none
      · rw [sleeps'] at gone
        cases gone
    obtain ⟨lost, received, kept⟩ := consistent₄.applied
    have conserved := consistent₄.tended.frames.conserved
    rw [none, List.append_nil, received, sleeps',
      kept (by simp [sleeps'])] at conserved
    exact (List.append_nil _).symm.trans conserved

theorem comes_to_rest_of_fadeActions :
    ∃ firmware rest,
      (fakeStart 7 (by decide)).course fakePlatform (fadeActions.take 8) =
          some firmware ∧
        Works fakePlatform firmware rest ∧
        rest.calls.filterMap Call.message = rest.commands.accepted := by
  have goes :
      ((fakeStart 7 (by decide)).course fakePlatform
          (fadeActions.take 8)).isSome =
        true := by
    decide +kernel
  obtain ⟨firmware, courses⟩ := Option.isSome_iff_exists.mp goes
  obtain ⟨rest, works, -, -, dispatched, -⟩ :=
    comes_to_rest fakePlatform_lawful (fakeStart_initial 7 (by decide))
      (Runs.start.course courses)
  exact ⟨firmware, rest, courses, works, dispatched⟩

end Firmware

end PrismKit
