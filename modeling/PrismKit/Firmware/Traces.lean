import PrismKit.Firmware.Interleaving
import Mathlib.Data.List.Forall2

/-!
# From the serial port to the strip

The firmware as one pipeline.  Whatever the interleaving of its tasks, the
controller goes through the calls of one sequential session; the commands in
this session are the accepted ones in their order, they come from the bytes that
the serial port delivered, and the frames on the strip are what the session has
shown.
-/

namespace PrismKit

open Library Machine Scanner

universe u v w x

/-- The strip at the `Show` of a call, if there was one. -/
def Machine.shown (before after : Machine) : List Strip :=
  if .show 0 ∈ after.outputs.drop before.outputs.length then
    [after.strips 0]
  else
    []

/-- One controller goes through calls one after the other; the strips are those
at its `Show` calls. -/
inductive Session (initial : Machine) : List Call → Machine → List Strip → Prop
  | nil : Session initial [] initial []
  | snoc {calls : List Call} {machine after : Machine} {shows : List Strip}
      {call : Call} (earlier : Session initial calls machine shows)
      (fuel : Nat) (performs : call.perform fuel machine = some after) :
      Session initial (calls ++ [call]) after (shows ++ machine.shown after)

/-- The message that the application task holds. -/
def AppPoint.inHand : AppPoint → List ControllerCommandMessage
  | .dispatching message _ => [message]
  | _ => []

/-- The frame that the hardware task holds. -/
def HwPoint.inHand : HwPoint → List SharedFrame
  | .applying frame => [frame]
  | _ => []

variable {σ : Type u} {φ : Type v} {β : Type w} {τ : Type x}
  {platform : Platform σ φ β τ}
  {contents : σ → List ControllerCommandMessage}
  {frames : φ → List SharedFrame}
  {start before after firmware : Firmware σ φ β τ}

namespace Firmware

/-- The dispatched commands are the received ones, up to the one in hand. -/
def Dispatched (firmware : Firmware σ φ β τ) : Prop :=
  firmware.commands.received =
    firmware.calls.filterMap Call.message ++ firmware.app.inHand

theorem Executed.dispatched {fuel finish : Nat} {call : Call}
    {next : AppPoint}
    (executed : Executed platform fuel finish call next before after)
    (dispatched : before.Dispatched)
    (same : before.app.inHand = call.message.toList ++ next.inHand) :
    after.Dispatched := by
  unfold Dispatched
  rw [executed.eq]
  show before.commands.received = _
  rw [show before.commands.received = _ from dispatched, same,
    List.filterMap_append]
  cases call <;> simp [Call.message]

theorem Dispatched.moves (moves : Moves platform before after)
    (dispatched : before.Dispatched) : after.Dispatched := by
  cases moves with
  | elapse | expire | idle | listen | delivered | collect | collected | apply
  | failed | blink =>
      exact dispatched
  | bind finish point executes =>
      have effect :=
        (executed executes).dispatched dispatched (by rw [point]; rfl)
      exact effect
  | begin fuel startTime runTime finish point executes =>
      exact (executed executes).dispatched dispatched (by rw [point]; rfl)
  | dispatch fuel startTime runTime finish message timeout point executes =>
      exact (executed executes).dispatched dispatched (by rw [point]; rfl)
  | tick fuel now finish point executes =>
      exact (executed executes).dispatched dispatched (by rw [point]; rfl)
  | wakeCommands point posted =>
      unfold Dispatched at dispatched ⊢
      rw [point] at dispatched
      exact dispatched
  | wakeTimeout point expired =>
      unfold Dispatched at dispatched ⊢
      rw [point] at dispatched
      exact dispatched
  | receive timeout message point received =>
      unfold Dispatched at dispatched ⊢
      rw [point] at dispatched
      refine (Channel.receive_of_some received).1.trans ?_
      rw [dispatched]
      show _ ++ [] ++ _ = _
      rw [List.append_nil]
      rfl
  | drained timeout point empty =>
      unfold Dispatched at dispatched ⊢
      rw [point] at dispatched
      refine ((Channel.receive_of_none empty).1.trans dispatched).trans ?_
      cases timeout <;> rfl
  | deliver invocation rest frame point =>
      unfold Dispatched
      show (before.handled platform invocation).received = _
      rw [handled_eq]
      split
      · exact (Channel.sendAll_accepted _ _).2.1.trans dispatched
      · exact dispatched

/-- The frames that the strip has shown are the received ones, up to the one in
hand and the one at which the hardware task gave up. -/
def Applied (firmware : Firmware σ φ β τ) : Prop :=
  ∃ lost, firmware.strip.mailbox.received =
      firmware.applied ++ (firmware.hw.inHand ++ lost) ∧
    (firmware.hw ≠ .exited → lost = [])

theorem Applied.of_same (applied : before.Applied)
    (received :
      after.strip.mailbox.received = before.strip.mailbox.received)
    (same : after.applied = before.applied)
    (inHand : after.hw.inHand = before.hw.inHand)
    (running : after.hw ≠ .exited → before.hw ≠ .exited) : after.Applied := by
  obtain ⟨lost, frames, none⟩ := applied
  refine ⟨lost, ?_, none ∘ running⟩
  rw [received, same, inHand]
  exact frames

/-- A call of the controller may commit a frame; it receives none. -/
theorem Executed.applied {fuel finish : Nat} {call : Call} {next : AppPoint}
    (executed : Executed platform fuel finish call next before after)
    (staging : before.Staging) (applied : before.Applied)
    (point : before.app ≠ .setup) (started : call ≠ .bind) : after.Applied := by
  obtain ⟨writes, wakeup, shown, carried⟩ :=
    executed.carried (staging.hosted point) started staging.stages
  have received :
      after.strip.mailbox.received = before.strip.mailbox.received := by
    rcases carried.mailbox with same | ⟨-, frame, -, sent⟩
    · rw [same]
    · rw [sent]
      rfl
  have same : after.applied = before.applied ∧ after.hw = before.hw := by
    rw [executed.eq]
    exact ⟨rfl, rfl⟩
  apply applied.of_same received same.1
  · rw [same.2]
  · rw [same.2]
    exact id

theorem Applied.moves (moves : Moves platform before after)
    (staging : before.Staging) (applied : before.Applied) : after.Applied := by
  cases moves with
  | elapse | expire | wakeCommands | wakeTimeout | receive | drained =>
      exact applied.of_same rfl rfl rfl id
  | bind finish point executes =>
      have effect := executed executes
      obtain ⟨-, strip, -⟩ := effect.of_bind
      rename_i bound
      have same : bound.applied = before.applied ∧ bound.hw = before.hw := by
        rw [effect.eq]
        exact ⟨rfl, rfl⟩
      apply applied.of_same
      · show bound.strip.mailbox.received = _
        rw [strip]
      · exact same.1
      · exact congrArg HwPoint.inHand same.2
      · show bound.hw ≠ .exited → _
        rw [same.2]
        exact id
  | begin fuel startTime runTime finish point executes =>
      exact
        (executed executes).applied staging applied (by simp [point])
          Call.noConfusion
  | dispatch fuel startTime runTime finish message timeout point executes =>
      exact
        (executed executes).applied staging applied (by simp [point])
          Call.noConfusion
  | tick fuel now finish point executes =>
      exact
        (executed executes).applied staging applied (by simp [point])
          Call.noConfusion
  | idle frame point | listen chunks frame point =>
      have running : before.hw ≠ .exited := by simp [point]
      cases frame <;>
        exact applied.of_same rfl rfl (by rw [point]; rfl) fun _ => running
  | deliver invocation rest frame point =>
      exact
        applied.of_same rfl rfl (by rw [point]; rfl) fun _ => by simp [point]
  | delivered frame point =>
      have running : before.hw ≠ .exited := by simp [point]
      cases frame <;>
        exact applied.of_same rfl rfl (by rw [point]; rfl) fun _ => running
  | collect frame point taken =>
      obtain ⟨lost, received, none⟩ := applied
      have kept := none (by simp [point])
      rw [point, kept] at received
      refine ⟨[], ?_, fun _ => rfl⟩
      refine (Channel.receive_of_some taken).1.trans ?_
      rw [received]
      show before.applied ++ [] ++ [frame] = before.applied ++ [frame]
      rw [List.append_nil]
  | collected point empty =>
      have received := (Channel.receive_of_none empty).1
      exact
        applied.of_same received rfl (by rw [point]; rfl) fun _ => by
          simp [point]
  | apply frame point ok =>
      obtain ⟨lost, received, none⟩ := applied
      have kept := none (by simp [point])
      rw [point, kept] at received
      refine ⟨[], received.trans ?_, fun _ => rfl⟩
      show before.applied ++ [frame] = before.applied ++ [frame] ++ []
      rw [List.append_nil]
  | failed frame point failure =>
      obtain ⟨lost, received, none⟩ := applied
      have kept := none (by simp [point])
      rw [point, kept] at received
      exact ⟨[frame], received, fun running => absurd rfl running⟩
  | blink led next point ends =>
      obtain ⟨lost, received, none⟩ := applied
      have kept := none (by simp [point])
      rw [point, kept] at received
      refine ⟨[], ?_, fun _ => rfl⟩
      rcases ends with rfl | rfl <;> exact received

/-! ### The sequential session -/

/-- The controller is where a sequential session gets it with these strips at
its `Show` calls, and the accepted frames carry some of them, in their order.
What the controller has staged is what it showed last. -/
structure Replay (initial : Machine) (shows kept : List Strip)
    (firmware : Firmware σ φ β τ) : Prop where
  session : Session initial firmware.calls firmware.machine shows
  sublist : kept.Sublist shows
  carries :
    List.Forall₂ SharedFrame.Carries firmware.strip.mailbox.accepted kept
  current : firmware.machine.strips 0 = shows.getLastD (initial.strips 0)

/-- The firmware refines a sequential session. -/
def Replayed (initial : Machine) (firmware : Firmware σ φ β τ) : Prop :=
  ∃ shows kept, firmware.Replay initial shows kept

theorem Replay.of_same {initial : Machine} {shows kept : List Strip}
    (replay : before.Replay initial shows kept)
    (calls : after.calls = before.calls)
    (machine : after.machine = before.machine)
    (accepted :
      after.strip.mailbox.accepted = before.strip.mailbox.accepted) :
    after.Replay initial shows kept := by
  obtain ⟨session, sublist, carries, current⟩ := replay
  refine ⟨?_, sublist, ?_, ?_⟩
  · rw [calls, machine]
    exact session
  · rw [accepted]
    exact carries
  · rw [machine]
    exact current

theorem Carried.shown {now finish : Nat} {writes : List PixelWrite}
    {wakeup : Option UInt32} {shown : Bool}
    (carried : Carried platform now finish before after writes wakeup shown) :
    before.machine.shown after.machine =
      if shown then [after.machine.strips 0] else [] := by
  unfold Machine.shown
  rw [carried.leads.lets.outputs, List.drop_left]
  cases shown <;> cases wakeup <;> simp

/-- Without a `Show`, a call leaves the strip as it is. -/
theorem Carried.strips {now finish : Nat} {writes : List PixelWrite}
    {wakeup : Option UInt32} {shown : Bool}
    (carried : Carried platform now finish before after writes wakeup shown) :
    shown = true ∨ after.machine.strips = before.machine.strips := by
  by_cases silent : writes = []
  · right
    rw [carried.leads.lets.painted, silent]
    rfl
  · exact Or.inl (carried.leads.lets.shows silent)

/-- A call goes on with the session, and sends the strip at its `Show`. -/
theorem Executed.replayed {initial : Machine} {fuel finish : Nat} {call : Call}
    {next : AppPoint}
    (executed : Executed platform fuel finish call next before after)
    (staging : before.Staging) (replayed : before.Replayed initial)
    (point : before.app ≠ .setup) (started : call ≠ .bind) :
    after.Replayed initial := by
  obtain ⟨shows, kept, session, sublist, carries, current⟩ := replayed
  obtain ⟨writes, wakeup, shown, carried⟩ :=
    executed.carried (staging.hosted point) started staging.stages
  have longer := session.snoc fuel executed.performs
  have calls : after.calls = before.calls ++ [call] := by
    rw [executed.eq]
  rw [← calls, carried.shown] at longer
  have current' :
      after.machine.strips 0 =
        (shows ++ if shown then [after.machine.strips 0] else []).getLastD
          (initial.strips 0) := by
    rcases carried.strips with rfl | same
    · rw [if_pos rfl, List.getLastD_concat]
    · cases shown with
      | true => rw [if_pos rfl, List.getLastD_concat]
      | false =>
          rw [if_neg Bool.false_ne_true, List.append_nil, same]
          exact current
  have some :
      kept.Sublist (shows ++ if shown then [after.machine.strips 0] else []) :=
    sublist.trans (List.sublist_append_left _ _)
  rcases carried.mailbox with same | ⟨sends, frame, carries', sent⟩
  · refine ⟨_, kept, longer, some, ?_, current'⟩
    rw [same]
    exact carries
  · obtain ⟨⟨accepted, new, grown⟩, -, -⟩ :=
      @Channel.sendAll_accepted _ _ platform.frameBox [frame]
        before.strip.mailbox
    have same :
        after.strip.mailbox.accepted =
          before.strip.mailbox.accepted ++ accepted := by
      rw [sent]
      exact grown
    rw [List.sublist_singleton] at new
    rcases new with rfl | rfl
    · refine ⟨_, kept, longer, some, ?_, current'⟩
      rw [same, List.append_nil]
      exact carries
    · rw [if_pos sends] at longer current'
      refine
        ⟨_, kept ++ [after.machine.strips 0], longer, sublist.append (.refl _),
          ?_, current'⟩
      rw [same]
      exact List.rel_append carries (.cons carries' .nil)

theorem Replayed.moves {initial : Machine}
    (moves : Moves platform before after) (staging : before.Staging)
    (replayed : before.Replayed initial) : after.Replayed initial := by
  obtain ⟨shows, kept, replay⟩ := replayed
  cases moves with
  | elapse | expire | wakeCommands | wakeTimeout | receive | drained | deliver
  | delivered | apply | failed | blink =>
      exact ⟨shows, kept, replay.of_same rfl rfl rfl⟩
  | bind finish point executes =>
      have effect := executed executes
      obtain ⟨machine, strip, -⟩ := effect.of_bind
      rename_i bound
      have longer := replay.session.snoc 0 effect.performs
      have silent : before.machine.shown bound.machine = [] := by
        unfold Machine.shown
        rw [machine, show (Call.bound before.machine).outputs =
          before.machine.outputs from rfl, List.drop_length]
        rfl
      have calls : bound.calls = before.calls ++ [.bind] := by
        rw [effect.eq]
      rw [← calls, silent, List.append_nil] at longer
      refine ⟨shows, kept, longer, replay.sublist, ?_, ?_⟩
      · show List.Forall₂ _ bound.strip.mailbox.accepted _
        rw [strip]
        exact replay.carries
      · show bound.machine.strips 0 = _
        rw [machine]
        exact replay.current
  | begin fuel startTime runTime finish point executes =>
      exact
        (executed executes).replayed staging ⟨shows, kept, replay⟩
          (by simp [point]) Call.noConfusion
  | dispatch fuel startTime runTime finish message timeout point executes =>
      exact
        (executed executes).replayed staging ⟨shows, kept, replay⟩
          (by simp [point]) Call.noConfusion
  | tick fuel now finish point executes =>
      exact
        (executed executes).replayed staging ⟨shows, kept, replay⟩
          (by simp [point]) Call.noConfusion
  | idle frame point | listen chunks frame point =>
      refine ⟨shows, kept, replay.of_same rfl rfl ?_⟩
      cases frame <;> rfl
  | collect frame point taken =>
      have accepted := (Channel.receive_of_some taken).2.1
      exact ⟨shows, kept, replay.of_same rfl rfl accepted⟩
  | collected point empty =>
      have accepted := (Channel.receive_of_none empty).2.1
      exact ⟨shows, kept, replay.of_same rfl rfl accepted⟩

/-- While the hardware task runs, the driver displays the frame that it applied
last. -/
def Displays (displayed : β → Nat → RgbColor) (firmware : Firmware σ φ β τ) :
    Prop :=
  firmware.hw ≠ .exited →
    ∀ frame, firmware.applied.getLast? = some frame →
      frame.Displayed displayed firmware.driver

theorem Displays.of_same {displayed : β → Nat → RgbColor}
    (displays : before.Displays displayed)
    (running : after.hw ≠ .exited → before.hw ≠ .exited)
    (applied : after.applied = before.applied)
    (driver : after.driver = before.driver) : after.Displays displayed := by
  intro present frame last
  rw [applied] at last
  rw [driver]
  exact displays (running present) frame last

theorem Displays.moves {staged displayed : β → Nat → RgbColor}
    (lawful : platform.driver.Lawful staged displayed)
    (moves : Moves platform before after)
    (displays : before.Displays displayed) : after.Displays displayed := by
  cases moves with
  | elapse | expire | wakeCommands | wakeTimeout | receive | drained =>
      exact displays.of_same id rfl rfl
  | bind finish point executes =>
      have effect := (executed executes).eq
      refine displays.of_same ?_ ?_ ?_
      · show Firmware.hw _ ≠ _ → _
        rw [effect]
        exact id
      · show Firmware.applied _ = _
        rw [effect]
      · show Firmware.driver _ = _
        rw [effect]
  | begin fuel startTime runTime finish point executes =>
      rw [(executed executes).eq]
      exact displays.of_same id rfl rfl
  | dispatch fuel startTime runTime finish message timeout point executes =>
      rw [(executed executes).eq]
      exact displays.of_same id rfl rfl
  | tick fuel now finish point executes =>
      rw [(executed executes).eq]
      exact displays.of_same id rfl rfl
  | idle frame point | listen chunks frame point
  | deliver invocation rest frame point | delivered frame point
  | collect frame point | collected point | blink led next point =>
      exact displays.of_same (fun _ => by simp [point]) rfl rfl
  | apply frame point ok =>
      intro _ last same
      have this : frame = last := by
        rw [List.getLast?_concat] at same
        exact Option.some.inj same
      rw [← this]
      exact applyFrame_ok lawful (Prod.ext rfl ok)
  | failed frame point failure =>
      exact fun present => absurd rfl present

end Firmware

end PrismKit
