import PrismKit.Firmware.Arrivals
import PrismKit.Firmware.Fakes
import PrismKit.Firmware.Schedule
import PrismKit.Firmware.Traces

/-!
# The firmware as a whole

The invariants of the tasks together, and what they say about every run: which
commands the controller gets, which frames get onto the strip, and that neither
task sleeps while there is something for it to do.
-/

namespace PrismKit

open Library Machine

universe u v w x

variable {σ : Type u} {φ : Type v} {β : Type w} {τ : Type x}
  {platform : Platform σ φ β τ}
  {contents : σ → List ControllerCommandMessage}
  {frames : φ → List SharedFrame}
  {start before after firmware : Firmware σ φ β τ}

namespace Firmware

/-- What holds in every state of every run. -/
structure Consistent (platform : Platform σ φ β τ)
    (contents : σ → List ControllerCommandMessage)
    (frames : φ → List SharedFrame) (initial : Machine)
    (firmware : Firmware σ φ β τ) : Prop where
  staging : firmware.Staging
  tended : firmware.Tended platform contents frames
  armed : firmware.Armed platform
  fed : firmware.Fed platform
  handled : firmware.Handled
  dispatched : firmware.Dispatched
  applied : firmware.Applied
  replayed : firmware.Replayed initial

theorem Consistent.initial (starts : Initial contents frames platform start) :
    Consistent platform contents frames start.machine start where
  staging := ⟨Or.inl ⟨starts.app, starts.machine⟩, starts.stages⟩
  tended := by
    obtain ⟨empty, accepted, received, draining⟩ := starts.commands
    obtain ⟨empty', accepted', received', draining'⟩ := starts.frames
    refine ⟨⟨?_, ?_, ?_⟩, ⟨?_, ?_, ?_⟩, ?_, ?_⟩
    · rw [empty, accepted, received, List.append_nil]
    · rw [empty]
      exact Nat.zero_le 32
    · exact fun _ occupied => absurd empty occupied
    · rw [empty', accepted', received', List.append_nil]
    · rw [empty']
      exact Nat.zero_le 1
    · exact fun _ occupied => absurd empty' occupied
    · rw [draining, starts.app]
      rfl
    · rw [draining', starts.hw]
      exact fun _ => rfl
  armed := by
    intro active
    rw [starts.machine] at active
    cases active
  fed := .initial starts
  handled := by
    refine ⟨[], ?_, ?_⟩
    · rw [starts.bytes, starts.hw, invocationsIn_nil]
      rfl
    · rw [starts.commands.2.1]
      exact .refl _
  dispatched := by
    unfold Dispatched
    rw [starts.commands.2.2.1, starts.calls, starts.app]
    rfl
  applied := by
    refine ⟨[], ?_, fun _ => rfl⟩
    rw [starts.frames.2.2.1, starts.applied, starts.hw]
    rfl
  replayed := by
    refine ⟨[], [], ?_, .refl _, ?_, rfl⟩
    · rw [starts.calls]
      exact .nil
    · rw [starts.frames.2.1]
      exact .nil

theorem Consistent.moves {initial : Machine}
    (lawful : platform.Lawful contents frames)
    (moves : Moves platform before after)
    (consistent : before.Consistent platform contents frames initial) :
    after.Consistent platform contents frames initial where
  staging := consistent.staging.moves moves
  tended := consistent.tended.moves lawful moves consistent.staging
  armed := consistent.armed.moves lawful.timer moves consistent.staging
  fed := consistent.fed.moves moves
  handled := consistent.handled.moves moves consistent.fed
  dispatched := consistent.dispatched.moves moves
  applied := consistent.applied.moves moves consistent.staging
  replayed := consistent.replayed.moves moves consistent.staging

theorem Consistent.runs {initial : Machine}
    (lawful : platform.Lawful contents frames)
    (consistent : before.Consistent platform contents frames initial)
    (runs : Runs platform before after) :
    after.Consistent platform contents frames initial :=
  runs.invariant (Consistent platform contents frames initial) consistent
    fun _ _ moves consistent => consistent.moves lawful moves

theorem Runs.consistent (lawful : platform.Lawful contents frames)
    (initial : Initial contents frames platform start)
    (runs : Runs platform start firmware) :
    firmware.Consistent platform contents frames start.machine :=
  Consistent.runs lawful (.initial initial) runs

theorem Consistent.dispatched_all {initial : Machine}
    (consistent : firmware.Consistent platform contents frames initial)
    (sleeps : firmware.app = .waiting)
    (silent :
      platform.commandBox.posted firmware.commands.state = false) :
    firmware.calls.filterMap Call.message = firmware.commands.accepted := by
  have asleep : firmware.commands.draining = false :=
    consistent.tended.app.trans (by rw [sleeps]; rfl)
  rw [← consistent.tended.commands.received_all asleep silent,
    consistent.dispatched, sleeps]
  exact (List.append_nil _).symm

/-- In every interleaving, the commands that the controller gets are the first
ones that the mailbox accepted, each once and in their order, and the accepted
ones are found in the bytes of the serial port in this order.  A sleeping
application task has dispatched all of them. -/
theorem commands_in_order (lawful : platform.Lawful contents frames)
    (initial : Initial contents frames platform start)
    (runs : Runs platform start firmware) :
    firmware.calls.filterMap Call.message <+: firmware.commands.accepted ∧
      firmware.commands.accepted.Sublist (commandsIn firmware.bytes) ∧
      (firmware.app = .waiting →
        platform.commandBox.posted firmware.commands.state = false →
          firmware.calls.filterMap Call.message =
            firmware.commands.accepted) := by
  have consistent := runs.consistent lawful initial
  obtain ⟨called, asked, sublist⟩ := consistent.handled
  refine ⟨?_, ?_, consistent.dispatched_all⟩
  · have received := consistent.tended.commands.received_prefix
    rw [consistent.dispatched] at received
    exact (List.prefix_append _ _).trans received
  · apply sublist.trans
    rw [commandsIn, asked, List.flatMap_append]
    exact List.sublist_append_left _ _

/-- The default program is shown, and a new program with one `Fade` arrives and
is started while the frame is put on the strip. -/
def fadeActions : List Action :=
  [.bind 0, .begin 40 1 1 2,
    .listen
      (some
        [⟨[0xAA, 0x02, 0x01, 0x00, 0x00, 0x03], by decide, by decide⟩,
          ⟨[0xAA, 0x0D, 0x01, 0x0B, 0x00, 0x00, 0x00, 0x32, 0x00, 0xE8, 0x03,
              0x00, 0x00, 0x00, 0x00, 0x00], by decide, by decide⟩,
          ⟨[0xDE, 0xAA, 0x0C, 0x01, 0x02, 0x00, 0x00, 0x00, 0x0F],
            by decide, by decide⟩]),
    .deliver, .wake, .receive, .deliver, .dispatch 0 3 3 3, .deliver,
    .receive, .deliver, .dispatch 0 4 4 4, .collect, .receive, .apply,
    .dispatch 60 5 6 7, .receive, .collect, .blink true]

/-- Both tasks sleep afterwards. -/
def Asleep (firmware : FakeFirmware) : Prop :=
  (firmware.app = .waiting ∧
      fakePlatform.commandBox.posted firmware.commands.state = false) ∧
    fakePlatform.timer.posted firmware.timer = false ∧
    firmware.hw = .waiting ∧
    fakePlatform.frameBox.posted firmware.strip.mailbox.state = false

instance (firmware : FakeFirmware) : Decidable firmware.Asleep :=
  inferInstanceAs (Decidable ((_ ∧ _) ∧ _))

theorem fadeActions_course :
    ∃ firmware,
      Runs fakePlatform (fakeStart 7 (by decide)) firmware ∧
        firmware.Asleep ∧ firmware.machine.state = .active ∧
        (firmware.calls.filterMap Call.message).map
            ControllerCommandMessage.cmd =
          [.resetInstructions, .fade, .start] ∧
        firmware.driver.displayed 0 = ⟨255, 0, 0⟩ := by
  have ends :
      ((fakeStart 7 (by decide)).course fakePlatform fadeActions).any
          (fun firmware =>
            decide
              (firmware.Asleep ∧ firmware.machine.state = .active ∧
                (firmware.calls.filterMap Call.message).map
                    ControllerCommandMessage.cmd =
                  [.resetInstructions, .fade, .start] ∧
                firmware.driver.displayed 0 = ⟨255, 0, 0⟩)) =
        true := by
    decide +kernel
  obtain ⟨firmware, courses, holds⟩ := (Option.any_eq_true _ _).mp ends
  exact ⟨firmware, Runs.start.course courses, of_decide_eq_true holds⟩

theorem commands_in_order_of_fadeActions :
    ∃ firmware,
      Runs fakePlatform (fakeStart 7 (by decide)) firmware ∧
        firmware.commands.accepted.map ControllerCommandMessage.cmd =
          [.resetInstructions, .fade, .start] := by
  obtain ⟨firmware, runs, ⟨⟨sleeps, silent⟩, -⟩, -, commands, -⟩ :=
    fadeActions_course
  have ordered :=
    commands_in_order fakePlatform_lawful (fakeStart_initial 7 (by decide))
      runs
  rw [ordered.2.2 sleeps silent] at commands
  exact ⟨firmware, runs, commands⟩

/-! ### Frames -/

/-- A sleeping hardware task has put all accepted frames on the strip. -/
theorem Consistent.applied_all {initial : Machine}
    (consistent : firmware.Consistent platform contents frames initial)
    (sleeps : firmware.hw = .waiting)
    (silent :
      platform.frameBox.posted firmware.strip.mailbox.state = false) :
    firmware.applied = firmware.strip.mailbox.accepted := by
  have tended := consistent.tended
  obtain ⟨lost, received, none⟩ := consistent.applied
  have running : firmware.hw ≠ .exited := by simp [sleeps]
  have asleep : firmware.strip.mailbox.draining = false :=
    (tended.hw running).trans (by rw [sleeps]; rfl)
  rw [← tended.frames.received_all asleep silent, received, sleeps,
    none running]
  exact (List.append_nil _).symm

theorem Runs.displays {staged displayed : β → Nat → RgbColor}
    (driver : platform.driver.Lawful staged displayed)
    (initial : Initial contents frames platform start)
    (runs : Runs platform start firmware) : firmware.Displays displayed :=
  runs.invariant (Displays displayed)
    (fun _ frame last => by rw [initial.applied] at last; cases last)
    fun _ _ moves displays => displays.moves driver moves

/-- In every interleaving, the frames on the strip are the first ones that the
mailbox accepted, each once and in their order, and each of them carries the
whole strip of the controller at one of its `Show` calls, in the order of these
calls.  A sleeping hardware task has put all of them on the strip. -/
theorem frames_in_order (lawful : platform.Lawful contents frames)
    (initial : Initial contents frames platform start)
    (runs : Runs platform start firmware) :
    ∃ shows kept,
      Session start.machine firmware.calls firmware.machine shows ∧
        kept.Sublist shows ∧
        List.Forall₂ SharedFrame.Carries firmware.strip.mailbox.accepted
          kept ∧
        firmware.applied <+: firmware.strip.mailbox.accepted ∧
        (firmware.hw = .waiting →
          platform.frameBox.posted firmware.strip.mailbox.state = false →
            firmware.applied = firmware.strip.mailbox.accepted) := by
  have consistent := runs.consistent lawful initial
  obtain ⟨shows, kept, replay⟩ := consistent.replayed
  refine
    ⟨shows, kept, replay.session, replay.sublist, replay.carries, ?_,
      consistent.applied_all⟩
  obtain ⟨lost, received, -⟩ := consistent.applied
  have first := consistent.tended.frames.received_prefix
  rw [received] at first
  exact (List.prefix_append _ _).trans first

theorem frames_in_order_of_fadeActions :
    ∃ firmware shows,
      Runs fakePlatform (fakeStart 7 (by decide)) firmware ∧
        Session (fakeStart 7 (by decide)).machine firmware.calls
          firmware.machine shows ∧
        firmware.applied = firmware.strip.mailbox.accepted := by
  obtain ⟨firmware, runs, ⟨-, -, sleeps, silent⟩, -⟩ := fadeActions_course
  obtain ⟨shows, kept, session, -, -, -, all⟩ :=
    frames_in_order fakePlatform_lawful (fakeStart_initial 7 (by decide)) runs
  exact ⟨firmware, shows, runs, session, all sleeps silent⟩

theorem Runs.displayed_last {staged displayed : β → Nat → RgbColor}
    (lawful : platform.Lawful contents frames)
    (driver : platform.driver.Lawful staged displayed)
    (initial : Initial contents frames platform start)
    (runs : Runs platform start firmware) (sleeps : firmware.hw = .waiting)
    (silent :
      platform.frameBox.posted firmware.strip.mailbox.state = false)
    {frame : SharedFrame}
    (latest : firmware.strip.mailbox.accepted.getLast? = some frame) :
    frame.Displayed displayed firmware.driver := by
  have consistent := runs.consistent lawful initial
  rw [← consistent.applied_all sleeps silent] at latest
  exact
    runs.displays driver initial (by rw [sleeps]; exact HwPoint.noConfusion)
      frame latest

/-- When the hardware task sleeps and the frame of the last `Show` was accepted,
the strip displays what the controller has staged, pixel for pixel, whatever
was refused before.  The last `Show` is of what is staged, so its frame was
accepted when the frame accepted last carries that. -/
theorem display_current {staged displayed : β → Nat → RgbColor}
    (lawful : platform.Lawful contents frames)
    (driver : platform.driver.Lawful staged displayed)
    (initial : Initial contents frames platform start)
    (runs : Runs platform start firmware) (sleeps : firmware.hw = .waiting)
    (silent :
      platform.frameBox.posted firmware.strip.mailbox.state = false) :
    ∃ shows kept,
      Session start.machine firmware.calls firmware.machine shows ∧
        kept.Sublist shows ∧
        List.Forall₂ SharedFrame.Carries firmware.strip.mailbox.accepted
          kept ∧
        (shows ≠ [] →
          shows.getLast? = some (firmware.machine.strips 0)) ∧
        ∀ frame, firmware.strip.mailbox.accepted.getLast? = some frame →
          frame.Carries (firmware.machine.strips 0) →
            ∀ index, index < (firmware.machine.strips 0).ledCount →
              displayed firmware.driver index =
                (firmware.machine.strips 0).color index := by
  have consistent := runs.consistent lawful initial
  obtain ⟨shows, kept, replay⟩ := consistent.replayed
  refine
    ⟨shows, kept, replay.session, replay.sublist, replay.carries, ?_, ?_⟩
  · intro shown
    rw [replay.current, List.getLast?_eq_some_getLast shown,
      List.getLastD_eq_getLast?, List.getLast?_eq_some_getLast shown]
    rfl
  · intro frame latest carries index below
    have displays :=
      runs.displayed_last lawful driver initial sleeps silent latest
    rw [displays index (by rw [carries.1]; exact below),
      carries.2 index below]

/-- The hardware task sleeps, and the last frame carries what is staged. -/
def Latched (firmware : FakeFirmware) : Prop :=
  (firmware.hw = .waiting ∧
      fakePlatform.frameBox.posted firmware.strip.mailbox.state = false) ∧
    ∃ frame ∈ firmware.strip.mailbox.accepted.getLast?,
      frame.ledCount = (firmware.machine.strips 0).ledCount ∧
        ∀ index, index < (firmware.machine.strips 0).ledCount →
          frame.color index = (firmware.machine.strips 0).color index

instance (firmware : FakeFirmware) : Decidable firmware.Latched :=
  inferInstanceAs (Decidable ((_ ∧ _) ∧ _))

theorem display_current_of_fadeActions :
    ∃ firmware, ∃ shows : List Strip,
      Runs fakePlatform (fakeStart 7 (by decide)) firmware ∧
        Session (fakeStart 7 (by decide)).machine firmware.calls
          firmware.machine shows ∧
        shows.getLast? = some (firmware.machine.strips 0) ∧
        firmware.driver.displayed 0 = (firmware.machine.strips 0).color 0 ∧
        (firmware.machine.strips 0).color 0 = ⟨255, 0, 0⟩ := by
  have ends :
      ((fakeStart 7 (by decide)).course fakePlatform fadeActions).any
          (fun firmware =>
            decide
              (firmware.Latched ∧ (firmware.machine.strips 0).ledCount = 7 ∧
                (firmware.machine.strips 0).color 0 = ⟨255, 0, 0⟩)) =
        true := by
    decide +kernel
  obtain ⟨firmware, courses, holds⟩ := (Option.any_eq_true _ _).mp ends
  obtain ⟨⟨⟨sleeps, silent⟩, frame, latest, frameCarries⟩, length, color⟩ :=
    of_decide_eq_true holds
  have runs := Runs.start.course courses
  obtain ⟨shows, kept, session, sublist, carries, current, displays⟩ :=
    display_current fakePlatform_lawful FakeStrip.driver_lawful
      (fakeStart_initial 7 (by decide)) runs sleeps silent
  have shown : shows ≠ [] := by
    rintro rfl
    rw [List.sublist_nil.mp sublist] at carries
    rw [List.forall₂_nil_right_iff.mp carries] at latest
    cases latest
  exact
    ⟨firmware, shows, runs, session, current shown,
      displays frame latest frameCarries 0 (by rw [length]; decide), color⟩

/-- The sink has its mailbox from binding on. -/
def Wired (firmware : Firmware σ φ β τ) : Prop :=
  firmware.app ≠ .setup → firmware.wired = true

theorem Wired.moves (moves : Moves platform before after)
    (wired : before.Wired) : after.Wired := by
  cases moves with
  | elapse | expire | idle | listen | deliver | delivered | collect
  | collected | apply | failed | blink =>
      exact wired
  | bind => exact fun _ => rfl
  | begin fuel startTime runTime finish point executes =>
      rw [(executed executes).eq]
      exact fun _ => wired (by simp [point])
  | dispatch fuel startTime runTime finish message timeout point executes =>
      rw [(executed executes).eq]
      exact fun _ => wired (by simp [point])
  | tick fuel now finish point executes =>
      rw [(executed executes).eq]
      exact fun _ => wired (by simp [point])
  | wakeCommands point | wakeTimeout point | receive timeout message point
  | drained timeout point =>
      exact fun _ => wired (by simp [point])

theorem Runs.trans {middle : Firmware σ φ β τ}
    (runs : Runs platform start middle)
    (later : Runs platform middle firmware) : Runs platform start firmware := by
  induction later with
  | start => exact runs
  | step action earlier moves inductionHypothesis =>
      exact inductionHypothesis.step action moves

/-- The mailbox accepts everything of a burst that fits behind what waits. -/
theorem Runs.burst_accepted {middle : Firmware σ φ β τ}
    (lawful : platform.Lawful contents frames)
    (initial : Initial contents frames platform start)
    (runs : Runs platform start middle) (bound : middle.app ≠ .setup)
    (settled : middle.hw.pending = []) (later : Runs platform middle firmware)
    {burst : List ControllerCommandMessage}
    (arrived :
      commandsIn firmware.bytes = commandsIn middle.bytes ++ burst)
    (space :
      (contents middle.commands.state).length + burst.length ≤ 32)
    (delivered : firmware.hw.pending = []) :
    firmware.commands.accepted = middle.commands.accepted ++ burst := by
  have wired : middle.wired = true :=
    runs.invariant Wired (fun started => absurd initial.app started)
      (fun _ _ moves wired => wired.moves moves) bound
  have first := runs.consistent lawful initial
  obtain ⟨-, bursting⟩ :=
    later.invariant
      (fun current =>
        current.Consistent platform contents frames start.machine ∧
          Burst contents middle current)
      ⟨first, .refl wired settled⟩
      fun _ _ moves ⟨consistent, bursting⟩ =>
        ⟨consistent.moves lawful moves,
          bursting.moves lawful first.tended moves consistent.fed
            consistent.tended⟩
  obtain ⟨called, asked, accepted⟩ := bursting.accepted
  rw [delivered, List.flatMap_nil, List.append_nil] at asked accepted
  have same : burst = called :=
    List.append_cancel_left (arrived.symm.trans asked)
  rw [same] at space ⊢
  exact accepted space

/-- Nothing of a burst is lost if it fits into the mailbox.  Whenever the sink
has its mailbox and all calls of handlers are done, if the commands in the bytes
that arrive from then on fit behind those that wait, the controller gets every
one of them, once and in order, by the time at which the application task sleeps
again. -/
theorem burst_dispatched (lawful : platform.Lawful contents frames)
    (initial : Initial contents frames platform start)
    {middle : Firmware σ φ β τ} (runs : Runs platform start middle)
    (bound : middle.app ≠ .setup) (settled : middle.hw.pending = [])
    (later : Runs platform middle firmware)
    {burst : List ControllerCommandMessage}
    (arrived :
      commandsIn firmware.bytes = commandsIn middle.bytes ++ burst)
    (space :
      (contents middle.commands.state).length + burst.length ≤ 32)
    (delivered : firmware.hw.pending = []) (sleeps : firmware.app = .waiting)
    (silent :
      platform.commandBox.posted firmware.commands.state = false) :
    firmware.calls.filterMap Call.message =
      middle.commands.accepted ++ burst := by
  have consistent := (runs.trans later).consistent lawful initial
  rw [consistent.dispatched_all sleeps silent]
  exact
    runs.burst_accepted lawful initial bound settled later arrived space
      delivered

theorem burst_dispatched_of_fadeActions :
    ∃ firmware,
      Runs fakePlatform (fakeStart 7 (by decide)) firmware ∧
        firmware.calls.filterMap Call.message = commandsIn firmware.bytes := by
  have ends :
      ((fakeStart 7 (by decide)).course fakePlatform [.bind 0]).any
          (fun middle =>
            decide
                (middle.app = .bound ∧ middle.hw = .waiting ∧
                  middle.bytes = [] ∧ middle.commands.state.1.count = 0 ∧
                  middle.commands.accepted = []) &&
              (middle.course fakePlatform (fadeActions.drop 1)).any
                fun firmware =>
                  decide
                    (firmware.Asleep ∧
                      (((Scanner.feedAll none firmware.bytes).2.flatMap
                              Packet.invocations).flatMap
                          ControllerCommandSink.messages).length ≤ 32)) =
        true := by
    decide +kernel
  obtain ⟨middle, first, holds⟩ := (Option.any_eq_true _ _).mp ends
  obtain ⟨holds, ends⟩ := Bool.and_eq_true_iff.mp holds
  obtain ⟨bound, settled, silence, empty, none⟩ := of_decide_eq_true holds
  obtain ⟨firmware, courses, holds⟩ := (Option.any_eq_true _ _).mp ends
  obtain ⟨⟨⟨sleeps, silent⟩, -, waits, -⟩, short⟩ := of_decide_eq_true holds
  have runs := Runs.start.course first
  have later := Runs.start.course courses
  rw [← invocationsIn_eq] at short
  have arrived :
      commandsIn firmware.bytes =
        commandsIn middle.bytes ++ commandsIn firmware.bytes := by
    rw [silence, commandsIn_nil, List.nil_append]
  have dispatched :=
    burst_dispatched fakePlatform_lawful (fakeStart_initial 7 (by decide)) runs
      (by rw [bound]; exact AppPoint.noConfusion) (by rw [settled]; rfl)
      later arrived
      (by
        rw [Ring.contents_length, empty, Nat.zero_add]
        exact short)
      (by rw [waits]; rfl) sleeps silent
  rw [none] at dispatched
  exact ⟨firmware, runs.trans later, dispatched⟩

end Firmware

end PrismKit
