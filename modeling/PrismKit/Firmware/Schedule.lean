import PrismKit.Firmware.Interleaving

/-!
# The timer of the program

An active program is never forgotten: whatever the interleaving, its timeout has
been posted, or the application task has taken the event and is going to call
`Run`, or the one-shot timer is armed for the earliest instant that the program
waits for.
-/

namespace PrismKit

open Library Machine

universe u v w x

/-- The application task is going to call `Run` for a timeout. -/
def AppPoint.ticks : AppPoint → Bool
  | .draining timeout | .dispatching _ timeout => timeout
  | .ticking => true
  | _ => false

variable {σ : Type u} {φ : Type v} {β : Type w} {τ : Type x}
  {platform : Platform σ φ β τ}
  {before after firmware : Firmware σ φ β τ}

namespace Firmware

/-- The timer is armed for the next wake-up: the program asked for the delay at
a reading of the clock, and the timer was started afterwards. -/
def TimerSet (platform : Platform σ φ β τ) (firmware : Firmware σ φ β τ) :
    Prop :=
  ∃ now finish delay,
    now ≤ finish ∧ finish ≤ firmware.clock ∧
      NextDelay now firmware.machine delay ∧
      platform.timer.due firmware.timer = some (finish + delay.toNat)

/-- An active program is going to be run again. -/
def Armed (platform : Platform σ φ β τ) (firmware : Firmware σ φ β τ) : Prop :=
  firmware.machine.state = .active →
    platform.timer.posted firmware.timer = true ∨
      firmware.app.ticks = true ∨ firmware.TimerSet platform

theorem TimerSet.of_same (set : before.TimerSet platform)
    (machine : after.machine = before.machine)
    (timer :
      platform.timer.due after.timer = platform.timer.due before.timer)
    (later : before.clock ≤ after.clock) : after.TimerSet platform := by
  obtain ⟨now, finish, delay, read, reached, next, armed⟩ := set
  refine ⟨now, finish, delay, read, Nat.le_trans reached later, ?_, ?_⟩
  · rw [machine]
    exact next
  · rw [timer]
    exact armed

/-- Moves that leave the controller alone and the timer armed. -/
theorem Armed.of_same (armed : before.Armed platform)
    (machine : after.machine = before.machine)
    (timer :
      platform.timer.due after.timer = platform.timer.due before.timer)
    (later : before.clock ≤ after.clock)
    (owed :
      platform.timer.posted before.timer = true ∨ before.app.ticks = true →
        platform.timer.posted after.timer = true ∨ after.app.ticks = true) :
    after.Armed platform := by
  intro active
  rw [machine] at active
  rcases armed active with posted | ticks | set
  · rcases owed (Or.inl posted) with posted | ticks
    · exact Or.inl posted
    · exact Or.inr (Or.inl ticks)
  · rcases owed (Or.inr ticks) with posted | ticks
    · exact Or.inl posted
    · exact Or.inr (Or.inl ticks)
  · exact Or.inr (Or.inr (set.of_same machine timer later))

/-- A wake-up that a call asked for. -/
theorem Executed.timerSet {fuel finish : Nat} {call : Call} {next : AppPoint}
    {delay : UInt32} (lawful : platform.timer.Lawful)
    (executed : Executed platform fuel finish call next before after)
    (started : call ≠ .bind)
    (waits : NextDelay call.runTime after.machine delay)
    (timer :
      after.timer = platform.timer.start finish delay before.timer) :
    after.TimerSet platform := by
  refine ⟨call.runTime, finish, delay, ?_, ?_, waits, ?_⟩
  · have within := executed.within
    cases call with
    | bind => exact absurd rfl started
    | begin startTime runTime => exact within.2.2
    | command message startTime runTime => exact within.2.2
    | tick now => exact within.2
  · rw [executed.eq]
  · rw [timer]
    exact (lawful.start finish delay before.timer).1

/-- A command may reset the program or start it; otherwise it does not touch an
active one. -/
theorem Executed.armed {fuel finish : Nat} {call : Call} {next : AppPoint}
    (executed : Executed platform fuel finish call next before after)
    (lawful : platform.timer.Lawful) (staging : before.Staging)
    (armed : before.Armed platform) (point : before.app ≠ .setup)
    (started : call ≠ .bind) (owed : before.app.ticks = next.ticks) :
    after.Armed platform := by
  obtain ⟨writes, wakeup, shown, carried⟩ :=
    executed.carried (staging.hosted point) started staging.stages
  intro active
  have timer := carried.timer
  rcases carried.leads.armed active with ⟨delay, rfl, waits⟩ | ⟨rfl, same⟩
  · exact Or.inr (Or.inr (executed.timerSet lawful started waits timer))
  · have later : before.clock ≤ after.clock := by
      have within := executed.within
      rw [executed.eq]
      show before.clock ≤ finish
      cases call with
      | bind => exact absurd rfl started
      | begin | command | tick =>
          unfold Call.Within at within
          omega
    apply armed.of_same same (congrArg platform.timer.due timer) later _ active
    rw [timer, executed.eq]
    rw [owed]
    exact id

/-- A tick runs an active program, which asks for its next wake-up if it is
still active. -/
theorem Executed.armed_tick {fuel now finish : Nat} {next : AppPoint}
    (executed : Executed platform fuel finish (.tick now) next before after)
    (lawful : platform.timer.Lawful) (staging : before.Staging)
    (point : before.app ≠ .setup) : after.Armed platform := by
  have hosted := staging.hosted point
  obtain ⟨⟨ran, status⟩, runs, same⟩ :=
    Option.map_eq_some_iff.mp executed.performs
  have same : ran = after.machine := same
  intro active
  by_cases running : before.machine.state = .active
  · obtain ⟨writes, wakeup, shown, -, lets, asks⟩ :=
      hosted.run_active running runs
    obtain ⟨delay, rfl, waits⟩ := asks (by rw [same]; exact active)
    rw [same] at lets waits
    have timer :=
      executed.timer.trans
        (foldl_rearm platform.timer finish lets before.timer)
    exact
      Or.inr (Or.inr (executed.timerSet lawful Call.noConfusion waits timer))
  · unfold Machine.run at runs
    rw [if_pos running] at runs
    cases runs
    rw [← same] at active
    exact absurd active running

theorem Armed.moves (lawful : platform.timer.Lawful)
    (moves : Moves platform before after) (staging : before.Staging)
    (armed : before.Armed platform) : after.Armed platform := by
  cases moves with
  | elapse now later =>
      exact armed.of_same rfl rfl later id
  | expire due set =>
      intro active
      exact Or.inl (lawful.expire before.timer)
  | idle | listen | deliver | delivered | collect | collected | apply | failed
  | blink =>
      exact armed.of_same rfl rfl (Nat.le_refl _) id
  | bind finish point executes =>
      have effect := executed executes
      rename_i bound
      have fresh : before.machine = Machine.fresh before.machine.strips := by
        rcases staging.bound with ⟨-, fresh⟩ | ⟨started, -⟩
        · exact fresh
        · exact absurd point started
      intro active
      have idle : bound.machine.state ≠ .active := by
        rw [effect.of_bind.1, fresh]
        exact ProgramState.noConfusion
      exact absurd active idle
  | begin fuel startTime runTime finish point executes =>
      exact
        (executed executes).armed lawful staging armed (by simp [point])
          Call.noConfusion (by rw [point]; rfl)
  | dispatch fuel startTime runTime finish message timeout point executes =>
      exact
        (executed executes).armed lawful staging armed (by simp [point])
          Call.noConfusion (by rw [point]; rfl)
  | tick fuel now finish point executes =>
      exact (executed executes).armed_tick lawful staging (by simp [point])
  | wakeCommands point posted =>
      have waits := lawful.consume before.timer
      refine armed.of_same rfl waits.1 (Nat.le_refl _) ?_
      rw [point]
      rintro (expired | ticks)
      · exact Or.inr expired
      · cases ticks
  | wakeTimeout point expired =>
      have waits := lawful.consume before.timer
      exact armed.of_same rfl waits.1 (Nat.le_refl _) fun _ => Or.inr rfl
  | receive timeout message point received =>
      refine armed.of_same rfl rfl (Nat.le_refl _) ?_
      rw [point]
      exact id
  | drained timeout point empty =>
      refine armed.of_same rfl rfl (Nat.le_refl _) ?_
      rw [point]
      rintro (expired | ticks)
      · exact Or.inl expired
      · cases ticks
        exact Or.inr rfl

end Firmware

end PrismKit
