import PrismKit.Firmware.Download
import PrismKit.Timeline.Picture

/-!
# Pictures on the strip

What programs of colors come to in the firmware as a whole: a program that the
host sends is seen on the strip instruction by instruction as its marks are
reached.
-/

namespace PrismKit

open Library Machine

universe u v w x

theorem Controller.Contains.colored {controller : Controller}
    {instructions : List ControllerInstruction}
    (contains : controller.Contains instructions)
    (colors : ∀ instr ∈ instructions, instr.Colors) : controller.Colored := by
  intro index below _
  obtain ⟨instr, member, same⟩ := contains.slot below
  rw [same]
  intro stored active
  cases active
  exact colors instr member

theorem ControllerInstruction.Colors.isRunGroup {instr : ControllerInstruction}
    (colors : instr.Colors) : instr.isRunGroup = false := by
  unfold ControllerInstruction.Colors at colors
  unfold ControllerInstruction.isRunGroup
  split at colors
  case h_5 | h_6 | h_7 => exact colors.elim
  all_goals
    rename_i kind
    rw [kind]

theorem HostProgram.accepted_of_colors {program : HostProgram}
    (colors : ∀ instr ∈ program.instructions, instr.Colors)
    (single : program.repeats = 0) : program.Accepted := by
  apply HostProgram.accepted
  refine ⟨?_, fun repeated => absurd single repeated⟩
  intro instr member isRun
  rw [(colors instr member).isRunGroup] at isRun
  cases isRun

/-- The reading of the clock in a tick. -/
def Call.tickTime : Call → Option Nat
  | .tick now => some now
  | _ => none

theorem Machine.Plays.append {operations later : List Operation}
    {machine middle after : Machine}
    {observations observations' : List (ControllerStatus × List Output)}
    (plays : Plays operations machine observations middle)
    (goesOn : Plays later middle observations' after) :
    Plays (operations ++ later) machine (observations ++ observations')
      after := by
  induction plays with
  | done machine =>
      exact goesOn
  | call performs rest inductionHypothesis =>
      exact .call performs (inductionHypothesis goesOn)

theorem Session.plays {machine final : Machine} {ticks : List Call}
    {shows : List Strip} (session : Session machine ticks final shows)
    (quiet : ∀ call ∈ ticks, ∃ now, call = .tick now) :
    ∃ observations,
      Plays ((ticks.filterMap Call.tickTime).map Operation.run) machine
        observations final := by
  induction session with
  | nil =>
      exact ⟨[], .done machine⟩
  | @snoc calls before after shows call earlier fuel performs
      inductionHypothesis =>
      obtain ⟨observations, plays⟩ :=
        inductionHypothesis fun call member =>
          quiet call (List.mem_append_left _ member)
      obtain ⟨now, rfl⟩ :=
        quiet call (List.mem_append_right _ (List.mem_singleton_self _))
      obtain ⟨⟨_, status⟩, runs, rfl⟩ := Option.map_eq_some_iff.mp performs
      rw [List.filterMap_append, List.map_append]
      exact ⟨_, plays.append (.call ⟨fuel, runs⟩ (.done _))⟩

theorem readings_runs (times : List Nat) :
    readings true (times.map Operation.run) = times := by
  induction times with
  | nil =>
      rfl
  | cons now rest inductionHypothesis =>
      rw [List.map_cons, readings, inductionHypothesis]
      rfl

/-- A program of colors in the application task, started without repeats and run
at some readings of the clock. -/
theorem Machine.Hosted.pictured {loaded started final : Machine}
    {startTime : Nat} {reads : List Nat}
    {observations : List (ControllerStatus × List Output)}
    (hosted : Hosted loaded) (colored : loaded.Colored)
    (starts : loaded.start 0 startTime = (started, .success))
    (plays : Plays (reads.map Operation.run) started observations final) :
    final.strips =
        paint loaded.strips
          (loaded.drawing loaded.strips
            (loaded.programOrder.filter fun slot =>
              reachedMark startTime reads
                (loaded.instructions slot).getMark)) ∧
      (final.state = .completed ↔
        ∀ slot ∈ loaded.programOrder,
          reachedMark startTime reads (loaded.instructions slot).getMark =
            true) := by
  have loadable := (legal_of_reachable hosted.reachable).loadable
  have continues :
      ∀ operation ∈ reads.map Operation.run, operation.Continues := by
    intro operation member
    obtain ⟨now, -, rfl⟩ := List.mem_map.mp member
    exact True.intro
  obtain ⟨-, first, -⟩ := loads_of_start loadable colored starts
  obtain ⟨chronicle, pictured⟩ :=
    plays.pictured loadable colored starts continues
  obtain ⟨recorded, clocks, sublist, all⟩ :=
    plays.clocks continues
      (.perform (.start 0 startTime) hosted.reachable starts)
      (Chronicle.started _ _ 0 _ loadable starts).loaded
  have reading : loaded.clockReading startTime = startTime := by
    rw [clockReading, hosted.timestampCallback]
    rfl
  rw [(keeps_of_start loadable starts).timestampCallback,
    hosted.timestampCallback, readings_runs] at sublist all
  rw [first, reading] at clocks
  rw [reading] at pictured
  obtain ⟨rank, sound⟩ := chronicle.sound
  exact pictured.so_far sound clocks sublist fun active => (all active).2

/-- The readings of the clock since a launch. -/
def Launch.reads (launch : Launch) : List Nat :=
  launch.runTime :: launch.ticks.filterMap Call.tickTime

/-- The writes of the instructions whose marks were reached since a launch. -/
def Launch.drawn (launch : Launch) : List PixelWrite :=
  launch.loaded.drawing launch.loaded.strips
    (launch.loaded.programOrder.filter fun slot =>
      reachedMark launch.startTime launch.reads
        (launch.loaded.instructions slot).getMark)

/-- After the launch of a program of colors without repeats, the strips show
what the reached marks draw. -/
theorem Launch.Ends.pictured {launch : Launch} {program : HostProgram}
    {initial final : Machine} {calls : List Call}
    (ends : launch.Ends program initial calls final)
    (colors : ∀ instr ∈ program.instructions, instr.Colors)
    (single : program.repeats = 0) :
    launch.result.startStatus = .success ∧
      final.strips = paint launch.loaded.strips launch.drawn ∧
      (final.state = .completed ↔
        ∀ slot ∈ launch.loaded.programOrder,
          reachedMark launch.startTime launch.reads
            (launch.loaded.instructions slot).getMark = true) := by
  have hosted := ends.hosted
  have loadable := (legal_of_reachable hosted.reachable).loadable
  obtain ⟨started, status, starts, runs, -, success⟩ :=
    start_accepted loadable ends.contains program.launches
      (HostProgram.accepted_of_colors colors single _ ends.contains)
      ends.dispatches
  obtain ⟨shows, session⟩ := ends.goesOn
  obtain ⟨observations, ticks⟩ := session.plays ends.ticks
  have performs :
      Performs (.run launch.runTime) started launch.launched status :=
    ⟨launch.fuel, runs⟩
  rw [single] at starts
  exact
    ⟨success,
      hosted.pictured (ends.contains.colored colors) starts
        (.call performs ticks)⟩

namespace Firmware

variable {σ : Type u} {φ : Type v} {β : Type w} {τ : Type x}
  {platform : Platform σ φ β τ}
  {contents : σ → List ControllerCommandMessage}
  {frames : φ → List SharedFrame}
  {start before after middle firmware : Firmware σ φ β τ}
  {staged displayed : β → Nat → RgbColor}

/-- A program of colors that arrives whole is started, and whenever the
application task sleeps afterwards, the strip stages what the reached marks
draw on what was staged when the start was dispatched.  Once the hardware task
sleeps as well, and the mailbox accepted the frame with it, the strip displays
it. -/
theorem colors_displayed (lawful : platform.Lawful contents frames)
    (driver : platform.driver.Lawful staged displayed)
    (initial : Initial contents frames platform start)
    {program : HostProgram}
    (colors : ∀ instr ∈ program.instructions, instr.Colors)
    (single : program.repeats = 0)
    (sent :
      Transmission platform start middle firmware (stream program.commands))
    (space :
      (contents middle.commands.state).length + program.commands.length ≤
        32) :
    ∃ launch : Launch,
      launch.Ends program start.machine firmware.calls firmware.machine ∧
        launch.result.startStatus = .success ∧
        firmware.machine.strips = paint launch.loaded.strips launch.drawn ∧
        (firmware.hw = .waiting →
          platform.frameBox.posted firmware.strip.mailbox.state = false →
            ∀ frame,
              firmware.strip.mailbox.accepted.getLast? = some frame →
                frame.Carries (firmware.machine.strips 0) →
                  ∀ index, index < (firmware.machine.strips 0).ledCount →
                    displayed firmware.driver index =
                      (paint launch.loaded.strips launch.drawn 0).color
                        index) := by
  obtain ⟨launch, ends⟩ := sent.launch lawful initial space
  obtain ⟨success, drawn, -⟩ := ends.pictured colors single
  refine ⟨launch, ends, success, drawn, ?_⟩
  intro sleeps silent frame latest carries index below
  have runs := sent.runs.trans sent.later
  have displays :=
    runs.displayed_last lawful driver initial sleeps silent latest
  rw [displays index (by rw [carries.1]; exact below),
    carries.2 index below, drawn]

/-- A pixel turns from red to green after 20 ms. -/
def turnProgram : HostProgram where
  stores := [.setSingleColor 9 0 0 4 0, .setSingleColor 0 9 0 4 20]
  instructions :=
    [{ kind := .setSingleColor ⟨9, 0, 0⟩ 4 },
      { mark := 20, kind := .setSingleColor ⟨0, 9, 0⟩ 4 }]
  asks := rfl
  launch := .run
  repeats := 0
  launches := rfl
  fits := by decide

/-- The hardware task puts a frame on the strip. -/
def latchActions : List Action :=
  [.listen none, .deliver, .collect, .apply, .collect, .blink true]

/-- The program arrives and is started, and both colors are shown. -/
def turnActions : List Action :=
  .begin 40 1 1 2 ::
    (latchActions ++
      [.listen
          (some
            [⟨[0xAA, 0x02, 0x01, 0x00, 0x00, 0x03, 0xAA, 0x01, 0x01, 0x06, 0x00],
                by decide, by decide⟩,
              ⟨[0x00, 0x00, 0x09, 0x00, 0x00, 0x04, 0x0B, 0xAA, 0x01, 0x01,
                  0x06, 0x00, 0x14],
                by decide, by decide⟩,
              ⟨[0x00, 0x00, 0x09, 0x00, 0x04, 0x1F, 0xAA, 0x03, 0x01, 0x00,
                  0x00, 0x02],
                by decide, by decide⟩]),
        .deliver, .deliver, .wake, .receive, .deliver, .deliver,
        .dispatch 0 3 3 3, .receive, .dispatch 0 4 4 4, .receive,
        .dispatch 0 4 4 4, .receive, .dispatch 40 5 5 5, .receive, .deliver,
        .blink true] ++
      latchActions ++ [.elapse 30, .expire, .wake, .tick 40 30 30] ++
      latchActions)

theorem colors_displayed_of_turnActions :
    ∃ firmware, ∃ launch : Launch,
      Runs fakePlatform (fakeStart 9 (by decide)) firmware ∧
        launch.Ends turnProgram (fakeStart 9 (by decide)).machine
          firmware.calls firmware.machine ∧
        (paint launch.loaded.strips launch.drawn 0).color 4 = ⟨0, 9, 0⟩ := by
  obtain ⟨middle, firmware, sent, empty, ends⟩ :=
    @transmission_of_course 9 (by decide) [.bind 0] turnActions
      (stream turnProgram.commands)
      (fun firmware =>
        decide
          (firmware.Latched ∧ (firmware.machine.strips 0).ledCount = 9 ∧
            firmware.driver.displayed 4 = ⟨0, 9, 0⟩))
      (by decide +kernel)
  obtain ⟨⟨⟨sleeps, silent⟩, frame, last, carries⟩, length, displayed⟩ :=
    of_decide_eq_true ends
  have colors : ∀ instr ∈ turnProgram.instructions, instr.Colors := by
    decide
  obtain ⟨launch, launches, -, -, displays⟩ :=
    colors_displayed fakePlatform_lawful FakeStrip.driver_lawful
      (fakeStart_initial 9 (by decide)) colors rfl sent (by rw [empty]; decide)
  refine ⟨firmware, launch, sent.runs.trans sent.later, launches, ?_⟩
  rw [← displayed]
  exact
    (displays sleeps silent frame last carries 4
        (by rw [length]; decide)).symm

end Firmware

end PrismKit
