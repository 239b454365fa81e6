import PrismKit.Commands.Messages
import PrismKit.Firmware.Moves

/-!
# Every interleaving of the tasks

The invariants of the firmware: the controller stays bound to its strip, the
manager stages what the controller staged, both mailboxes conserve what passes
through them, and nobody sleeps while there is work for him.
-/

namespace PrismKit

open Library Machine

universe u v w x

variable {σ : Type u} {φ : Type v} {β : Type w} {τ : Type x}

/-- What the platform promises, with the capacities of the two mailboxes. -/
structure Platform.Lawful (platform : Platform σ φ β τ)
    (contents : σ → List ControllerCommandMessage)
    (frames : φ → List SharedFrame) : Prop where
  commandBox : platform.commandBox.Lawful contents 32
  frameBox : platform.frameBox.Lawful frames 1
  timer : platform.timer.Lawful

variable {platform : Platform σ φ β τ}
  {contents : σ → List ControllerCommandMessage}
  {frames : φ → List SharedFrame}
  {start before after firmware : Firmware σ φ β τ}

namespace Firmware

def Bound (firmware : Firmware σ φ β τ) : Prop :=
  firmware.app = .setup ∧
      firmware.machine = Machine.fresh firmware.machine.strips ∨
    firmware.app ≠ .setup ∧ Hosted firmware.machine

structure Executed (platform : Platform σ φ β τ) (fuel finish : Nat)
    (call : Call) (next : AppPoint) (before after : Firmware σ φ β τ) :
    Prop where
  within : call.Within before.clock finish
  performs : call.perform fuel before.machine = some after.machine
  strip :
    after.strip =
      (after.machine.outputs.drop before.machine.outputs.length).foldl
        (emit platform.frameBox) before.strip
  timer :
    after.timer =
      (after.machine.outputs.drop before.machine.outputs.length).foldl
        (rearm platform.timer finish) before.timer
  eq :
    after =
      { before with
        clock := finish
        machine := after.machine
        strip := after.strip
        timer := after.timer
        app := next
        calls := before.calls ++ [call] }

theorem executed {fuel finish : Nat} {call : Call} {next : AppPoint}
    (executes : execute platform fuel finish call next before = some after) :
    Executed platform fuel finish call next before after := by
  unfold execute at executes
  split at executes
  · rename_i within
    obtain ⟨machine, performs, rfl⟩ := Option.map_eq_some_iff.mp executes
    exact ⟨within, performs, rfl, rfl, rfl⟩
  · cases executes

/-- A call may start the timer, which leaves its bit alone. -/
theorem Executed.posted {fuel finish : Nat} {call : Call} {next : AppPoint}
    (executed : Executed platform fuel finish call next before after)
    (lawful : platform.timer.Lawful) :
    platform.timer.posted after.timer = platform.timer.posted before.timer := by
  have keeps :
      ∀ (outputs : List Output) (state : τ),
        platform.timer.posted
            (outputs.foldl (rearm platform.timer finish) state) =
          platform.timer.posted state := by
    intro outputs
    induction outputs with
    | nil => exact fun _ => rfl
    | cons output rest inductionHypothesis =>
        intro state
        rw [List.foldl_cons, inductionHypothesis]
        cases output with
        | setColor | «show» => rfl
        | schedule delay => exact (lawful.start finish delay state).2
  rw [executed.timer]
  exact keeps _ before.timer

/-- A call after binding: what is written is staged, then the frame may be
committed, and the timer is started anew if a wake-up was asked for. -/
structure Carried (platform : Platform σ φ β τ) (now finish : Nat)
    (before after : Firmware σ φ β τ) (writes : List PixelWrite)
    (wakeup : Option UInt32) (shown : Bool) : Prop where
  leads : Leads now before.machine after.machine writes wakeup shown
  strip :
    ∃ staged : StripManager φ,
      staged.mailbox = before.strip.mailbox ∧
        staged.Stages (after.machine.strips 0) ∧
        after.strip =
          if shown then (staged.show platform.frameBox).1 else staged
  timer :
    after.timer =
      wakeup.elim before.timer fun delay =>
        platform.timer.start finish delay before.timer

theorem Executed.carried {fuel finish : Nat} {call : Call} {next : AppPoint}
    (executed : Executed platform fuel finish call next before after)
    (hosted : Hosted before.machine) (started : call ≠ .bind)
    (stages : before.strip.Stages (before.machine.strips 0)) :
    ∃ writes wakeup shown,
      Carried platform call.runTime finish before after writes wakeup shown := by
  obtain ⟨writes, wakeup, shown, leads⟩ :=
    Call.leads hosted started executed.performs
  obtain ⟨staged, mailbox, stages', folded⟩ :=
    foldl_emit platform.frameBox leads.lets stages
  refine ⟨writes, wakeup, shown, leads, ⟨staged, mailbox, stages', ?_⟩, ?_⟩
  · rw [executed.strip]
    exact folded
  · rw [executed.timer]
    exact foldl_rearm platform.timer finish leads.lets before.timer

/-- Binding lets nothing out. -/
theorem Executed.of_bind {fuel finish : Nat} {next : AppPoint}
    (executed : Executed platform fuel finish .bind next before after) :
    after.machine = Call.bound before.machine ∧
      after.strip = before.strip ∧ after.timer = before.timer := by
  have machine : after.machine = Call.bound before.machine :=
    (Option.some.inj executed.performs).symm
  have silent :
      after.machine.outputs.drop before.machine.outputs.length = [] := by
    rw [machine]
    exact List.drop_length
  refine ⟨machine, ?_, ?_⟩
  · rw [executed.strip, silent]
    rfl
  · rw [executed.timer, silent]
    rfl

theorem hosted_bound (strips : StripId → Strip) :
    Hosted (Call.bound (Machine.fresh strips)) := by
  refine ⟨?_, rfl, rfl, rfl⟩
  have first : Reachable { Machine.fresh strips with strip := some 0 } :=
    @Reachable.perform _ _ .success (.setStrip (some 0)) (.fresh strips)
      ⟨rfl, rfl⟩
  have second :
      Reachable
        { Machine.fresh strips with
          strip := some 0
          timestampCallback := true } :=
    @Reachable.perform _ _ .success (.setTimestampCallback true) first
      ⟨rfl, rfl⟩
  exact
    @Reachable.perform _ _ .success (.setScheduleCallback true) second
      ⟨rfl, rfl⟩

/-- The controller is bound, and the manager stages what it stages. -/
structure Staging (firmware : Firmware σ φ β τ) : Prop where
  bound : firmware.Bound
  stages : firmware.strip.Stages (firmware.machine.strips 0)

theorem Staging.hosted (staging : firmware.Staging)
    (started : firmware.app ≠ .setup) : Hosted firmware.machine := by
  rcases staging.bound with ⟨point, -⟩ | ⟨-, hosted⟩
  · exact absurd point started
  · exact hosted

theorem Carried.stages {now finish : Nat} {writes : List PixelWrite}
    {wakeup : Option UInt32} {shown : Bool}
    (carried : Carried platform now finish before after writes wakeup shown) :
    after.strip.Stages (after.machine.strips 0) := by
  obtain ⟨staged, -, stages, strip⟩ := carried.strip
  rw [strip]
  split
  · exact stages.of_show platform.frameBox
  · exact stages

theorem Executed.staging {fuel finish : Nat} {call : Call} {next : AppPoint}
    (executed : Executed platform fuel finish call next before after)
    (staging : before.Staging) (point : before.app ≠ .setup)
    (started : call ≠ .bind) (going : next ≠ .setup) : after.Staging := by
  obtain ⟨writes, wakeup, shown, carried⟩ :=
    executed.carried (staging.hosted point) started staging.stages
  refine ⟨Or.inr ⟨?_, carried.leads.hosted⟩, carried.stages⟩
  rw [executed.eq]
  exact going

/-- The hardware task leaves the controller and the staged frame alone. -/
theorem Staging.of_mailbox (staging : before.Staging)
    (machine : after.machine = before.machine)
    (point : after.app = .setup ↔ before.app = .setup)
    (strip :
      ∃ mailbox, after.strip = { before.strip with mailbox := mailbox }) :
    after.Staging := by
  obtain ⟨mailbox, same⟩ := strip
  obtain ⟨bound, stages⟩ := staging
  refine ⟨?_, ?_⟩
  · unfold Bound
    rw [machine, ne_eq, point]
    exact bound
  · rw [same, machine]
    exact ⟨stages.ledCount, stages.ready, stages.colors⟩

theorem Staging.moves (moves : Moves platform before after)
    (staging : before.Staging) : after.Staging := by
  cases moves with
  | elapse | expire | deliver | delivered | collect | collected | apply
  | failed | blink =>
      exact staging.of_mailbox rfl Iff.rfl ⟨_, rfl⟩
  | idle frame | listen chunks frame =>
      cases frame <;> exact staging.of_mailbox rfl Iff.rfl ⟨_, rfl⟩
  | wakeCommands point | wakeTimeout point | receive timeout message point =>
      refine staging.of_mailbox rfl ?_ ⟨_, rfl⟩
      simp [point]
  | drained timeout point =>
      refine staging.of_mailbox rfl ?_ ⟨_, rfl⟩
      cases timeout <;> simp [point, Firmware.drained]
  | bind finish point executes =>
      have effect := executed executes
      obtain ⟨machine, strip, -⟩ := effect.of_bind
      have fresh : before.machine = Machine.fresh before.machine.strips := by
        rcases staging.bound with ⟨-, fresh⟩ | ⟨started, -⟩
        · exact fresh
        · exact absurd point started
      refine ⟨Or.inr ⟨?_, ?_⟩, ?_⟩
      · show _ ≠ _
        rw [effect.eq]
        exact AppPoint.noConfusion
      · show Hosted _
        rw [machine, fresh]
        exact hosted_bound before.machine.strips
      · show StripManager.Stages _ _
        rw [strip, machine]
        exact staging.stages
  | begin fuel startTime runTime finish point executes =>
      exact
        (executed executes).staging staging (by simp [point])
          Call.noConfusion AppPoint.noConfusion
  | dispatch fuel startTime runTime finish message timeout point executes =>
      exact
        (executed executes).staging staging (by simp [point])
          Call.noConfusion AppPoint.noConfusion
  | tick fuel now finish point executes =>
      exact
        (executed executes).staging staging (by simp [point])
          Call.noConfusion AppPoint.noConfusion

/-! ### The mailboxes -/

end Firmware

/-- The application task receives commands until there are none. -/
def AppPoint.drains : AppPoint → Bool
  | .draining _ | .dispatching _ _ => true
  | _ => false

/-- The hardware task is going to receive frames until there are none. -/
def HwPoint.drains : HwPoint → Bool
  | .delivering _ frame => frame
  | .draining | .applying _ => true
  | _ => false

namespace Firmware

/-- Both mailboxes are sound, and each is drained by the task that says so. -/
structure Tended (platform : Platform σ φ β τ)
    (contents : σ → List ControllerCommandMessage)
    (frames : φ → List SharedFrame) (firmware : Firmware σ φ β τ) : Prop where
  commands : firmware.commands.Sound platform.commandBox contents 32
  frames : firmware.strip.mailbox.Sound platform.frameBox frames 1
  app : firmware.commands.draining = firmware.app.drains
  hw : firmware.hw ≠ .exited →
    firmware.strip.mailbox.draining = firmware.hw.drains

theorem handled_eq (invocation : Invocation) (firmware : Firmware σ φ β τ) :
    firmware.handled platform invocation =
      if firmware.wired then
        firmware.commands.sendAll platform.commandBox
          (ControllerCommandSink.messages invocation)
      else
        firmware.commands := by
  obtain ⟨sends, nothing, -⟩ :=
    ControllerCommandSink.receive_spec (sinkMailbox platform) invocation
  unfold handled
  cases firmware.wired with
  | true =>
      simp only [if_true, sends, Option.getD_some]
      rfl
  | false =>
      simp only [Bool.false_eq_true, if_false, nothing, Option.getD_none]

/-- What a call after binding does to the frames: nothing, or one is sent. -/
theorem Carried.mailbox {now finish : Nat} {writes : List PixelWrite}
    {wakeup : Option UInt32} {shown : Bool}
    (carried : Carried platform now finish before after writes wakeup shown) :
    after.strip.mailbox = before.strip.mailbox ∨
      shown = true ∧
        ∃ frame : SharedFrame,
          frame.Carries (after.machine.strips 0) ∧
            after.strip.mailbox =
              (before.strip.mailbox.send platform.frameBox frame).1 := by
  obtain ⟨staged, mailbox, stages, strip⟩ := carried.strip
  cases shown with
  | false =>
      left
      rw [strip, if_neg Bool.false_ne_true]
      exact mailbox
  | true =>
      rw [strip, if_pos rfl]
      unfold StripManager.show
      split
      · exact Or.inl mailbox
      · refine Or.inr ⟨rfl, staged.committed, stages.carries, ?_⟩
        rw [← mailbox]

variable (lawful : platform.Lawful contents frames)
include lawful

theorem Executed.tended {fuel finish : Nat} {call : Call} {next : AppPoint}
    (executed : Executed platform fuel finish call next before after)
    (staging : before.Staging) (tended : before.Tended platform contents frames)
    (point : before.app ≠ .setup) (started : call ≠ .bind)
    (same : next.drains = before.app.drains) :
    after.Tended platform contents frames := by
  obtain ⟨writes, wakeup, shown, carried⟩ :=
    executed.carried (staging.hosted point) started staging.stages
  have commands : after.commands = before.commands := by
    rw [executed.eq]
  have going : after.app = next := by
    rw [executed.eq]
  have hw : after.hw = before.hw := by
    rw [executed.eq]
  have mailbox :
      after.strip.mailbox.Sound platform.frameBox frames 1 ∧
        after.strip.mailbox.draining = before.strip.mailbox.draining := by
    rcases carried.mailbox with kept | ⟨-, frame, -, sent⟩
    · rw [kept]
      exact ⟨tended.frames, rfl⟩
    · rw [sent]
      exact ⟨tended.frames.send lawful.frameBox frame, rfl⟩
  refine ⟨?_, mailbox.1, ?_, ?_⟩
  · rw [commands]
    exact tended.commands
  · rw [commands, going, same]
    exact tended.app
  · rw [hw, mailbox.2]
    exact tended.hw

theorem Tended.moves (moves : Moves platform before after)
    (staging : before.Staging)
    (tended : before.Tended platform contents frames) :
    after.Tended platform contents frames := by
  obtain ⟨commands, frames', app, hw⟩ := tended
  cases moves with
  | elapse | expire =>
      exact ⟨commands, frames', app, hw⟩
  | bind finish point executes =>
      have effect := executed executes
      obtain ⟨-, strip, -⟩ := effect.of_bind
      rename_i bound
      have commands' : bound.commands = before.commands := by
        rw [effect.eq]
      have going : bound.app = .bound := by
        rw [effect.eq]
      have hw' : bound.hw = before.hw := by
        rw [effect.eq]
      refine ⟨?_, ?_, ?_, ?_⟩
      · show bound.commands.Sound _ _ _
        rw [commands']
        exact commands
      · show bound.strip.mailbox.Sound _ _ _
        rw [strip]
        exact frames'
      · show bound.commands.draining = bound.app.drains
        rw [commands', going, app, point]
        rfl
      · show bound.hw ≠ .exited → bound.strip.mailbox.draining = bound.hw.drains
        rw [hw', strip]
        exact hw
  | begin fuel startTime runTime finish point executes =>
      exact
        (executed executes).tended lawful staging ⟨commands, frames', app, hw⟩
          (by simp [point]) Call.noConfusion (by rw [point]; rfl)
  | dispatch fuel startTime runTime finish message timeout point executes =>
      exact
        (executed executes).tended lawful staging ⟨commands, frames', app, hw⟩
          (by simp [point]) Call.noConfusion (by rw [point]; rfl)
  | tick fuel now finish point executes =>
      exact
        (executed executes).tended lawful staging ⟨commands, frames', app, hw⟩
          (by simp [point]) Call.noConfusion (by rw [point]; rfl)
  | wakeCommands point posted =>
      exact ⟨commands.wake lawful.commandBox, frames', rfl, hw⟩
  | wakeTimeout point expired =>
      rw [point] at app
      exact ⟨commands, frames', app, hw⟩
  | receive timeout message point received =>
      have awake : before.commands.draining = true := by
        rw [app, point]
        rfl
      have still := (Channel.receive_of_some received).2.2
      exact
        ⟨commands.receive lawful.commandBox awake, frames',
          still.trans awake, hw⟩
  | drained timeout point empty =>
      have awake : before.commands.draining = true := by
        rw [app, point]
        rfl
      have ended := (Channel.receive_of_none empty).2.2
      refine
        ⟨commands.receive lawful.commandBox awake, frames',
          ended.trans ?_, hw⟩
      cases timeout <;> rfl
  | idle frame point posted | listen chunks frame point posted =>
      have asleep : before.strip.mailbox.draining = false := by
        rw [hw (by simp [point]), point]
        rfl
      cases frame with
      | true =>
          exact ⟨commands, frames'.wake lawful.frameBox, app, fun _ => rfl⟩
      | false =>
          exact ⟨commands, frames', app, fun _ => asleep⟩
  | deliver invocation rest frame point =>
      have kept : (before.handled platform invocation).draining =
          before.commands.draining := by
        rw [handled_eq]
        split
        · exact (Channel.sendAll_accepted _ _).2.2
        · rfl
      refine ⟨?_, frames', kept.trans app, ?_⟩
      · show (before.handled platform invocation).Sound _ _ _
        rw [handled_eq]
        split
        · exact commands.sendAll lawful.commandBox _
        · exact commands
      · intro _
        have drains := hw (by simp [point])
        rw [point] at drains
        exact drains
  | delivered frame point =>
      have drains := hw (by simp [point])
      rw [point] at drains
      refine ⟨commands, frames', app, fun _ => drains.trans ?_⟩
      cases frame <;> rfl
  | collect frame point received =>
      have awake : before.strip.mailbox.draining = true := by
        rw [hw (by simp [point]), point]
        rfl
      have still := (Channel.receive_of_some received).2.2
      exact
        ⟨commands, frames'.receive lawful.frameBox awake, app, fun _ =>
          still.trans awake⟩
  | collected point empty =>
      have awake : before.strip.mailbox.draining = true := by
        rw [hw (by simp [point]), point]
        rfl
      have ended := (Channel.receive_of_none empty).2.2
      exact
        ⟨commands, frames'.receive lawful.frameBox awake, app, fun _ =>
          ended⟩
  | apply frame point ok =>
      have drains := hw (by simp [point])
      rw [point] at drains
      exact ⟨commands, frames', app, fun _ => drains⟩
  | failed frame point failure =>
      exact ⟨commands, frames', app, fun running => absurd rfl running⟩
  | blink led next point ends =>
      have drains := hw (by simp [point])
      rw [point] at drains
      refine ⟨commands, frames', app, fun _ => drains.trans ?_⟩
      rcases ends with rfl | rfl <;> rfl

end Firmware

end PrismKit
