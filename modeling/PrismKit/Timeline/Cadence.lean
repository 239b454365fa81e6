import PrismKit.Controller.Updates
import PrismKit.Timeline.Exactness
import PrismKit.Timeline.Underway

/-!
# Update cadence

The executions of a transition between its dispatch and the next dispatch of
its slot.  Each asks for the next time at which the transition is due, and the
first `Run` at or after that time resumes it.  Where the clock is read at the
times asked for, the transition is therefore executed at all of its update
times and at no others, whatever else the program does in between.
-/

namespace PrismKit

open Library

/-! ### The executions of a slot -/

def Event.delay : Event → UInt32
  | .resumed _ _ delay => delay
  | .executed _ _ delay => delay
  | _ => 0

/-- The event executes the slot for the first time in its pass. -/
def Event.activatesSlot (group slot : Nat) : Event → Bool
  | .executed owner index _ => decide (owner = group ∧ index = slot)
  | _ => false

def Event.resumesSlot (group slot : Nat) : Event → Bool
  | .resumed owner index _ => decide (owner = group ∧ index = slot)
  | _ => false

theorem Event.activatesSlot_iff {group slot : Nat} {event : Event} :
    event.activatesSlot group slot = true ↔
      ∃ delay, event = .executed group slot delay := by
  cases event with
  | executed owner index delay =>
      simp [activatesSlot]
  | _ =>
      simp [activatesSlot]

theorem Event.resumesSlot_iff {group slot : Nat} {event : Event} :
    event.resumesSlot group slot = true ↔
      ∃ delay, event = .resumed group slot delay := by
  cases event with
  | resumed owner index delay =>
      simp [resumesSlot]
  | _ =>
      simp [resumesSlot]

def resumptions (group slot : Nat) (log : List Moment) : List Moment :=
  log.filter fun moment => moment.event.resumesSlot group slot

theorem resumptions_append_of_resumes {group slot : Nat} {log : List Moment}
    {moment : Moment}
    (resumes : moment.event.resumesSlot group slot = true) :
    resumptions group slot (log ++ [moment]) =
      resumptions group slot log ++ [moment] := by
  simp [resumptions, resumes]

theorem resumptions_append_of_quiet {group slot : Nat} {log : List Moment}
    {moment : Moment}
    (quiet : ¬ moment.event.resumesSlot group slot = true) :
    resumptions group slot (log ++ [moment]) =
      resumptions group slot log := by
  simp [resumptions, quiet]

/-- The slot was activated by `activation`, and not again in `rest`. -/
def Played (group slot : Nat) (log : List Moment) (activation : Moment)
    (rest : List Moment) : Prop :=
  Since (fun moment => moment.event.activatesSlot group slot = true)
    (fun moment => moment.event.activatesSlot group slot = true) log activation
    rest

/-- An execution came in the first `Run` at or after the time that the
execution before it had asked for. -/
def Follows (readings : List Nat) (earlier next : Moment) : Prop :=
  earlier.event.delay ≠ 0 ∧
    readings.getD earlier.run 0 + earlier.event.delay.toNat ≤
      readings.getD next.run 0 ∧
    ∀ run < next.run,
      readings.getD run 0 <
        readings.getD earlier.run 0 + earlier.event.delay.toNat

/-- The clock was read whenever one of the executions had asked for it, as far
as it was read at all. -/
def Honoured (readings : List Nat) (executions : List Moment) : Prop :=
  ∀ moment ∈ executions, moment.event.delay ≠ 0 →
    let asked := readings.getD moment.run 0 + moment.event.delay.toNat
    asked ≤ readings.getD (readings.length - 1) 0 → asked ∈ readings

/-- An execution of the transition completes it, or asks for its next update
time. -/
structure Prompt (readings : List Nat) (slot : Nat) (activation : Moment)
    (duration : Nat) (moment : Moment) : Prop where
  ordered :
    readings.getD activation.run 0 ≤ readings.getD moment.run 0
  completes :
    moment.event.delay = 0 ↔
      readings.getD activation.run 0 + duration ≤
        readings.getD moment.run 0
  bounded :
    moment.event.delay.toNat ≤
      readings.getD activation.run 0 + duration -
        readings.getD moment.run 0
  next :
    readings.getD moment.run 0 < readings.getD activation.run 0 + duration →
      readings.getD activation.run 0 % 2 ^ 32 + duration < 2 ^ 32 →
        Successor
          {time |
            (activation.before.instructions slot).UpdateTime
              activation.before.refreshPeriodMs.toNat
              (readings.getD activation.run 0) time}
          (readings.getD moment.run 0)
          (readings.getD moment.run 0 + moment.event.delay.toNat)

section Readings

variable {readings more : List Nat} {slot duration : Nat}
  {activation earlier next : Moment}

theorem Follows.extend (follows : Follows readings earlier next)
    (grows : readings <+: more) (first : earlier.run < readings.length)
    (second : next.run < readings.length) : Follows more earlier next := by
  obtain ⟨nonzero, reached, between⟩ := follows
  refine ⟨nonzero, ?_, ?_⟩
  · rw [getD_of_isPrefix grows first, getD_of_isPrefix grows second]
    exact reached
  · intro run less
    rw [getD_of_isPrefix grows first,
      getD_of_isPrefix grows (Nat.lt_trans less second)]
    exact between run less

theorem Prompt.extend (prompt : Prompt readings slot activation duration next)
    (grows : readings <+: more) (first : activation.run < readings.length)
    (second : next.run < readings.length) :
    Prompt more slot activation duration next := by
  obtain ⟨ordered, completes, bounded, asks⟩ := prompt
  rw [← getD_of_isPrefix grows first, ← getD_of_isPrefix grows second]
    at ordered completes bounded asks
  exact ⟨ordered, completes, bounded, asks⟩

/-- Where the time that was asked for is read, the next execution comes at that
time. -/
theorem Follows.reading_eq (follows : Follows readings earlier next)
    (timely : Timely readings)
    (read :
      readings.getD earlier.run 0 + earlier.event.delay.toNat ∈ readings) :
    readings.getD next.run 0 =
      readings.getD earlier.run 0 + earlier.event.delay.toNat := by
  obtain ⟨-, reached, between⟩ := follows
  obtain ⟨run, within, same⟩ := List.mem_iff_getElem.mp read
  have reading :
      readings.getD run 0 =
        readings.getD earlier.run 0 + earlier.event.delay.toNat := by
    rw [List.getD_eq_getElem?_getD, List.getElem?_eq_getElem within]
    exact same
  have notBefore : next.run ≤ run := by
    by_contra before
    have less := between run (Nat.not_le.mp before)
    omega
  have upTo := timely.mono notBefore within
  omega

end Readings

namespace Controller

section Step

variable {rank : Nat → Nat} {controller next : Controller}
  {strips : StripId → Strip} {event : Event} {group slot start now : Nat}
  {delay : UInt32} {transition : Transition} {id : StripId} {pixel : Nat}

theorem Step.asks (sound : controller.Sound rank)
    (loadable : controller.Loadable)
    (step : Step strips (UInt32.ofNat now) controller event next)
    (executed :
      event = .resumed group slot delay ∨ event = .executed group slot delay)
    (covers : (controller.instructions slot).Covers id pixel)
    (found : (controller.instructions slot).transition = some transition)
    (lit : pixel < (strips id).ledCount) (ordered : start ≤ now)
    (since :
      (controller.instructions slot).elapsed (UInt32.ofNat now) =
        now - start) :
    (delay = 0 ↔ start + transition.durationMs.toNat ≤ now) ∧
      delay.toNat ≤ start + transition.durationMs.toNat - now ∧
      (now < start + transition.durationMs.toNat →
        start % 2 ^ 32 + transition.durationMs.toNat < 2 ^ 32 →
          Successor
            {time |
              (controller.instructions slot).UpdateTime
                controller.refreshPeriodMs.toNat start time}
            now (now + delay.toNat)) := by
  obtain ⟨active, position, slotEq, inRange, -⟩ :=
    step.position_of_executed sound.work executed
  obtain ⟨instr, stored, bound⟩ :=
    loadable.bound_of_dispatched sound.committed
      (sound.tree.inRange group active) inRange slotEq
  obtain ⟨writes, shown, result⟩ := step.executes executed
  have asks :=
    @InstructionMemorySlot.execute_asks _ instr transition id pixel strips
      controller.refreshPeriodMs start now stored bound covers found lit
      loadable.period_pos ordered since
  rw [result] at asks
  exact asks

end Step

end Controller

namespace Machine

/-! ### Executions along a chronicle -/

/-- The transition waits for the time that its last execution asked for. -/
structure Awaiting (reading : Nat) (machine : Machine) (group slot : Nat)
    (activation last : Moment) : Prop where
  entry :
    (⟨slot, group,
        UInt32.ofNat
          (machine.clocks.getD last.run 0 + last.event.delay.toNat)⟩ :
      ExecutingInstruction) ∈ machine.executing
  ahead :
    reading < machine.clocks.getD last.run 0 + last.event.delay.toNat
  running :
    ∃ captured,
      (machine.instructions slot).Running captured
        (UInt32.ofNat (machine.clocks.getD activation.run 0))
  configuration :
    (machine.instructions slot).SameConfiguration
      (activation.before.instructions slot)
  period : machine.refreshPeriodMs = activation.before.refreshPeriodMs

structure Cadence (reading : Nat) (machine : Machine) (group slot : Nat)
    (activation : Moment) (duration : Nat) (executions : List Moment) :
    Prop where
  read : ∀ moment ∈ executions, moment.run < machine.clocks.length
  chain : executions.IsChain (Follows machine.clocks)
  prompt :
    ∀ moment ∈ executions,
      Prompt machine.clocks slot activation duration moment
  awaits :
    ∀ last ∈ executions.getLast?, last.event.delay ≠ 0 →
      Awaiting reading machine group slot activation last
  finished :
    ∀ last ∈ executions.getLast?, last.event.delay = 0 →
      (group, slot) ∉ machine.outstanding

section Step

variable {rank : Nat → Nat} {before after : Machine} {event : Event}
  {group slot reading : Nat} {activation : Moment} {transition : Transition}
  {executions : List Moment} {id : StripId} {pixel : Nat}

private theorem cadence_of_activation (chronicle : Chronicle true before)
    (timely : Timely before.clocks) (sound : before.Sound rank)
    {delay : UInt32}
    (step :
      before.toController.Step before.strips before.timestamp
        (.executed group slot delay) after.toController)
    (clocks : after.clocks = before.clocks)
    (covers : (before.instructions slot).Covers id pixel)
    (found : (before.instructions slot).transition = some transition)
    (lit : pixel < (before.strips id).ledCount) :
    let moment : Moment :=
      ⟨before.clocks.length - 1, .executed group slot delay,
        before.toController, after.toController⟩
    Cadence (before.settledReading true) after group slot moment
      transition.durationMs.toNat [moment] := by
  intro moment
  obtain ⟨due, -, slotEq, -⟩ := step.enabled
  have fresh := chronicle.fresh group due.active
  have reset :
      (before.instructions slot).resetForReplay = before.instructions slot := by
    rw [slotEq]
    exact
      fresh (before.runtimes group).cursor (Nat.le_refl _) due.remaining
  obtain ⟨-, -, timing⟩ :=
    step.activates sound chronicle.loadable fresh covers found lit
  obtain ⟨earlier, -⟩ := chronicle.window timely
  have positive := chronicle.clocks_length.1
  have now := before.timestamp_eq
  have asks :=
    @Controller.Step.asks rank before.toController after.toController
      before.strips (.executed group slot delay) group slot
      (before.clocks.getD (before.clocks.length - 1) 0)
      (before.clocks.getD (before.clocks.length - 1) 0) delay transition id
      pixel sound chronicle.loadable (now ▸ step) (Or.inr rfl) covers found lit
      (Nat.le_refl _)
      (by rw [InstructionMemorySlot.elapsed_of_reset reset, Nat.sub_self])
  obtain ⟨completes, bounded, next⟩ := asks
  refine ⟨?_, List.isChain_singleton moment, ?_, ?_, ?_⟩
  · intro other member
    rw [List.mem_singleton.mp member, clocks]
    exact Nat.sub_lt positive Nat.one_pos
  · intro other member
    rw [List.mem_singleton.mp member, clocks]
    exact ⟨Nat.le_refl _, completes, bounded, next⟩
  · intro last member nonzero
    cases member
    have timed : transition.durationMs ≠ 0 := by
      intro zero
      rw [if_pos zero] at timing
      exact nonzero timing.2
    rw [if_neg timed] at timing
    refine ⟨?_, ?_, ⟨(before.strips id).color pixel, ?_⟩, ?_, ?_⟩
    · rw [clocks]
      have armed := step.entry_armed (Or.inr rfl) nonzero
      rw [timestamp_add] at armed
      exact armed
    · have ahead : 0 < delay.toNat :=
        Nat.pos_of_ne_zero fun zero => nonzero (UInt32.toNat_inj.mp zero)
      rw [clocks]
      exact Nat.lt_of_le_of_lt earlier (Nat.lt_add_of_pos_right ahead)
    · rw [clocks, ← now]
      exact timing.2.2
    · exact step.sameProgram.configuration slot
    · exact step.sameProgram.refreshPeriodMs
  · intro last member zero outstanding
    cases member
    have done : delay = 0 := zero
    subst done
    rcases (step.mem_outstanding_iff sound.work group slot).mp outstanding with
      ⟨other, nonzero, same⟩ | ⟨old, -⟩
    · cases same
      exact nonzero rfl
    · apply
        sound.work.nextSlot_not_mem sound.committed sound.tree due.below
          due.remaining
      rw [← slotEq]
      exact List.mem_map.mpr ⟨(group, slot), old, rfl⟩

/-- A deadline that a resumed entry has reached is not ahead of the clock. -/
private theorem arrived {machine : Machine} {deadline : Nat}
    (near :
      deadline < machine.clocks.getD (machine.clocks.length - 1) 0 + 2 ^ 31)
    (reached :
      deadlineReached machine.timestamp (UInt32.ofNat deadline) = true) :
    deadline ≤ machine.clocks.getD (machine.clocks.length - 1) 0 := by
  by_contra early
  rw [deadlineReached, decide_eq_true_eq, UInt32.lt_iff_toNat_lt,
    timestamp_eq, UInt32.toNat_sub, UInt32.toNat_ofNat',
    UInt32.toNat_ofNat'] at reached
  have half : (2147483648 : UInt32).toNat = 2 ^ 31 := rfl
  rw [half] at reached
  omega

private theorem entry_unique (sound : before.Sound rank)
    {entry other : ExecutingInstruction} (member : entry ∈ before.executing)
    (also : other ∈ before.executing)
    (same : entry.instructionIndex = other.instructionIndex) :
    entry = other := by
  have distinct := sound.work.distinct
  rw [Controller.outstanding, List.map_map] at distinct
  exact List.inj_on_of_nodup_map distinct member also same

/-- The resumption of a transition is its next execution. -/
private theorem Cadence.resumed (chronicle : Chronicle true before)
    (timely : Timely before.clocks) (sound : before.Sound rank)
    {delay : UInt32}
    (step :
      before.toController.Step before.strips before.timestamp
        (.resumed group slot delay) after.toController)
    (clocks : after.clocks = before.clocks)
    (covers : (activation.before.instructions slot).Covers id pixel)
    (found :
      (activation.before.instructions slot).transition = some transition)
    (lit : pixel < (before.strips id).ledCount)
    (nonempty : executions ≠ [])
    (cadence :
      Cadence (before.settledReading true) before group slot activation
        transition.durationMs.toNat executions) :
    Cadence (before.settledReading true) after group slot activation
      transition.durationMs.toNat
      (executions ++
        [⟨before.clocks.length - 1, .resumed group slot delay,
          before.toController, after.toController⟩]) := by
  obtain ⟨last, isLast⟩ :=
    Option.ne_none_iff_exists'.mp
      (mt List.getLast?_eq_none_iff.mp nonempty)
  have listed : last ∈ executions := List.mem_of_getLast? isLast
  obtain ⟨position, entry, resumable, sameGroup, sameSlot⟩ := step.enabled
  have member : entry ∈ before.executing :=
    List.mem_of_getElem? resumable.found
  have outstanding : (group, slot) ∈ before.outstanding :=
    List.mem_map.mpr ⟨entry, member, by rw [sameGroup, sameSlot]⟩
  have nonzero : last.event.delay ≠ 0 :=
    fun zero => cadence.finished last isLast zero outstanding
  obtain ⟨armed, ahead, ⟨captured, running⟩, configuration, period⟩ :=
    cadence.awaits last isLast nonzero
  have prompt := cadence.prompt last listed
  obtain ⟨settled, near⟩ := chronicle.window timely
  have positive := chronicle.clocks_length.1
  have passed :=
    timely.mono (Nat.le_sub_one_of_lt (cadence.read last listed))
      (Nat.sub_lt positive Nat.one_pos)
  have began := Nat.le_trans prompt.ordered passed
  have short := transition.durationMs.toNat_lt
  have bounded := prompt.bounded
  have positiveDelay : 0 < last.event.delay.toNat :=
    Nat.pos_of_ne_zero fun zero => nonzero (UInt32.toNat_inj.mp zero)
  have due :
      before.clocks.getD last.run 0 + last.event.delay.toNat ≤
        before.clocks.getD (before.clocks.length - 1) 0 := by
    have reached := resumable.reached
    rw [entry_unique sound member armed sameSlot] at reached
    exact arrived (by omega) reached
  have now := before.timestamp_eq
  have here := step
  rw [now] at here
  rw [← configuration.covers_iff] at covers
  rw [← configuration.transition_eq] at found
  obtain ⟨completes, within, next⟩ :=
    here.asks sound chronicle.loadable (Or.inl rfl) covers found lit began
      (running.elapsed_eq began (by omega))
  obtain ⟨same, -⟩ :=
    step.resumes sound chronicle.loadable running covers found lit
  simp only [configuration.updateTime_iff, period] at next
  refine ⟨?_, ?_, ?_, ?_, ?_⟩
  · intro moment among
    rw [clocks]
    rcases List.mem_append.mp among with old | new
    · exact cadence.read moment old
    · rw [List.mem_singleton.mp new]
      exact Nat.sub_lt positive Nat.one_pos
  · rw [clocks]
    apply cadence.chain.append (List.isChain_singleton _)
    intro earlier earlierLast following head
    rw [isLast] at earlierLast
    cases earlierLast
    cases head
    refine ⟨nonzero, due, ?_⟩
    intro run less
    have less' : run < before.clocks.length - 1 := less
    have before' :=
      timely.mono (by omega : run ≤ before.clocks.length - 2) (by omega)
    exact Nat.lt_of_le_of_lt before' ahead
  · intro moment among
    rw [clocks]
    rcases List.mem_append.mp among with old | new
    · exact cadence.prompt moment old
    · rw [List.mem_singleton.mp new]
      exact ⟨began, completes, within, next⟩
  · intro moment momentLast again
    rw [List.getLast?_append, List.getLast?_singleton, Option.some_or]
      at momentLast
    cases momentLast
    refine ⟨?_, ?_, ⟨captured, ?_⟩, ?_, ?_⟩
    · rw [clocks]
      have entered := step.entry_armed (Or.inl rfl) again
      rw [timestamp_add] at entered
      exact entered
    · have later : 0 < delay.toNat :=
        Nat.pos_of_ne_zero fun zero => again (UInt32.toNat_inj.mp zero)
      rw [clocks]
      exact Nat.lt_of_le_of_lt settled (Nat.lt_add_of_pos_right later)
    · rw [clocks, same]
      exact running
    · rw [same]
      exact configuration
    · exact step.sameProgram.refreshPeriodMs.trans period
  · intro moment momentLast zero stays
    rw [List.getLast?_append, List.getLast?_singleton, Option.some_or]
      at momentLast
    cases momentLast
    have done : delay = 0 := zero
    subst done
    rcases (step.mem_outstanding_iff sound.work group slot).mp stays with
      ⟨other, -, impossible⟩ | ⟨-, different⟩
    · cases impossible
    · exact different rfl

/-- Every other step leaves the transition waiting. -/
private theorem Cadence.quiet (sound : before.Sound rank)
    (step :
      before.toController.Step before.strips before.timestamp event
        after.toController)
    (clocks : after.clocks = before.clocks)
    (idle : ∀ delay, event ≠ .executed group slot delay)
    (silent : ∀ delay, event ≠ .resumed group slot delay) {duration : Nat}
    (cadence :
      Cadence reading before group slot activation duration executions) :
    Cadence reading after group slot activation duration executions := by
  obtain ⟨read, chain, prompt, awaits, finished⟩ := cadence
  rw [← clocks] at read chain prompt
  refine ⟨read, chain, prompt, ?_, ?_⟩
  · intro last isLast nonzero
    obtain ⟨entry, ahead, running, configuration, period⟩ :=
      awaits last isLast nonzero
    have outstanding : (group, slot) ∈ before.outstanding :=
      List.mem_map.mpr ⟨_, entry, rfl⟩
    have same : after.instructions slot = before.instructions slot := by
      rcases step.instruction_of_outstanding sound outstanding with
        kept | ⟨delay, resumed⟩
      · exact kept
      · exact absurd resumed (silent delay)
    have still :=
      (step.entry_kept entry).resolve_right
        (fun ⟨delay, resumed⟩ => silent delay resumed)
    rw [← clocks] at still ahead running
    rw [← same] at running configuration
    exact
      ⟨still, ahead, running, configuration,
        step.sameProgram.refreshPeriodMs.trans period⟩
  · intro last isLast zero outstanding
    rcases (step.mem_outstanding_iff sound.work group slot).mp outstanding with
      ⟨delay, -, begins⟩ | ⟨old, -⟩
    · exact idle delay begins
    · exact finished last isLast zero old

/-- What was read between the executions stays. -/
private theorem Cadence.resting {duration : Nat}
    (cadence :
      Cadence reading before group slot activation duration executions)
    (front : activation ∈ executions) (rests : Resting before after)
    (period :
      (group, slot) ∈ before.outstanding →
        after.refreshPeriodMs = before.refreshPeriodMs) :
    Cadence reading after group slot activation duration executions := by
  obtain ⟨read, chain, prompt, awaits, finished⟩ := cadence
  have start := rests.clock_eq (read activation front)
  refine ⟨?_, ?_, ?_, ?_, ?_⟩
  · intro moment member
    exact Nat.lt_of_lt_of_le (read moment member) rests.clocks.length_le
  · apply chain.imp_of_mem_imp
    intro earlier next first second follows
    exact
      follows.extend rests.clocks (read earlier first) (read next second)
  · intro moment member
    exact
      (prompt moment member).extend rests.clocks (read activation front)
        (read moment member)
  · intro last isLast nonzero
    obtain ⟨entry, ahead, running, configuration, unchanged⟩ :=
      awaits last isLast nonzero
    have outstanding : (group, slot) ∈ before.outstanding :=
      List.mem_map.mpr ⟨_, entry, rfl⟩
    have now := rests.clock_eq (read last (List.mem_of_getLast? isLast))
    rw [← now, ← rests.executing] at entry
    rw [← now] at ahead
    rw [← start, ← rests.instructions] at running
    rw [← rests.instructions] at configuration
    exact
      ⟨entry, ahead, running, configuration,
        (period outstanding).trans unchanged⟩
  · intro last isLast zero
    rw [rests.outstanding_eq]
    exact finished last isLast zero

end Step

private theorem Chronicle.active_of_outstanding {inside : Bool}
    {machine : Machine} (chronicle : Chronicle inside machine)
    {work : Nat × Nat} (outstanding : work ∈ machine.outstanding) :
    machine.state = .active := by
  obtain ⟨rank, sound⟩ := chronicle.sound
  have active := (sound.work.dispatched _ _ outstanding).1
  rw [sound.tree.lifecycle, if_pos (sound.tree.root_active active)]

/-- Along a chronicle with timely clock readings every execution of a
transition is prompt, and each follows the one before it. -/
theorem Chronicle.cadence {inside : Bool} {machine : Machine}
    (chronicle : Chronicle inside machine) (timely : Timely machine.clocks)
    {group slot : Nat} {activation : Moment} {rest : List Moment}
    {transition : Transition} {id : StripId} {pixel : Nat}
    (played : Played group slot machine.history activation rest)
    (covers : (activation.before.instructions slot).Covers id pixel)
    (found :
      (activation.before.instructions slot).transition = some transition)
    (lit : pixel < (machine.strips id).ledCount) :
    Cadence (machine.settledReading inside) machine group slot activation
      transition.durationMs.toNat
      (activation :: resumptions group slot rest) := by
  induction chronicle generalizing rest with
  | started before after repeats now loadable starts =>
      obtain ⟨-, -, event, -, activates⟩ :=
        (origin_of_start loadable starts).of_since played
      rw [event] at activates
      exact Bool.noConfusion activates
  | adjusted before after earlier adjusts inductionHypothesis =>
      have rests := adjusts.resting
      rw [rests.history] at played
      rw [rests.strips] at lit
      have cadence :=
        inductionHypothesis (timely.of_prefix rests.clocks) played lit
      rw [settledReading_eq false adjusts.clocks]
      apply cadence.resting List.mem_cons_self rests
      intro outstanding
      rcases adjusts.refreshPeriodMs with same | ⟨inactive, -⟩
      · exact same
      · exact absurd (earlier.active_of_outstanding outstanding) inactive
  | began before now earlier active inductionHypothesis =>
      have rests := resting_beginRun before now
      have cadence :=
        inductionHypothesis (timely.of_prefix rests.clocks) played lit
      rw [settledReading_beginRun earlier]
      exact cadence.resting List.mem_cons_self rests fun _ => rfl
  | moved before after earlier move inductionHypothesis =>
      obtain ⟨rank, sound⟩ := earlier.sound
      obtain ⟨event, step, logged⟩ := move.step sound
      have clocks := logged.around.clocks
      rw [clocks] at timely
      rw [logged.around.leds] at lit
      rw [logged.history] at played
      rw [settledReading_eq true clocks]
      rcases since_append_singleton.mp played with
        ⟨opens, rfl, rfl⟩ | ⟨quiet, shorter, rfl, current⟩
      · obtain ⟨delay, rfl⟩ := Event.activatesSlot_iff.mp opens
        exact
          cadence_of_activation earlier timely sound step clocks covers found
            lit
      · have cadence := inductionHypothesis timely current lit
        by_cases resumes : event.resumesSlot group slot = true
        · obtain ⟨delay, rfl⟩ := Event.resumesSlot_iff.mp resumes
          rw [resumptions_append_of_resumes resumes]
          exact
            cadence.resumed earlier timely sound step clocks covers found lit
              (List.cons_ne_nil _ _)
        · rw [resumptions_append_of_quiet resumes]
          apply cadence.quiet sound step clocks
          · rintro delay rfl
            exact quiet (Event.activatesSlot_iff.mpr ⟨delay, rfl⟩)
          · rintro delay rfl
            exact resumes (Event.resumesSlot_iff.mpr ⟨delay, rfl⟩)
  | finished machine earlier quiescent inductionHypothesis =>
      obtain ⟨read, chain, prompt, awaits, finished⟩ :=
        inductionHypothesis timely played lit
      refine ⟨read, chain, prompt, ?_, finished⟩
      intro last isLast nonzero
      obtain ⟨entry, ahead, running, configuration, period⟩ :=
        awaits last isLast nonzero
      refine ⟨entry, ?_, running, configuration, period⟩
      have waits := quiescent.settled _ entry
      have reading :
          machine.settledReading false =
            machine.clocks.getD (machine.clocks.length - 1) 0 :=
        rfl
      rw [reading]
      exact not_arrived (earlier.window timely) ahead waits

section Playback

variable {machine : Machine} {group slot : Nat} {earlier later : List Moment}
  {activation : Moment} {transition : Transition} {id : StripId}
  {pixel : Nat}

def playback (group slot : Nat) (later : List Moment) : List Moment :=
  later.takeWhile fun moment => !moment.event.activatesSlot group slot

/-- The executions of a transition until its slot is activated again. -/
structure Sequenced (machine : Machine) (slot : Nat) (activation : Moment)
    (duration : Nat) (executions : List Moment) : Prop where
  read : ∀ moment ∈ executions, moment.run < machine.clocks.length
  chain : executions.IsChain (Follows machine.clocks)
  prompt :
    ∀ moment ∈ executions,
      Prompt machine.clocks slot activation duration moment
  ahead :
    ∀ last ∈ executions.getLast?, last.event.delay ≠ 0 →
      machine.clocks.getD (machine.clocks.length - 1) 0 <
        machine.clocks.getD last.run 0 + last.event.delay.toNat

private theorem played_playback
    (activates : activation.event.activatesSlot group slot = true) :
    Played group slot (earlier ++ activation :: playback group slot later)
      activation (playback group slot later) := by
  refine ⟨earlier, rfl, activates, ?_⟩
  intro moment member again
  have passed := List.all_eq_true.mp List.all_takeWhile moment member
  rw [again] at passed
  exact Bool.noConfusion passed

private theorem sequenced_of_reachable (reachable : Reachable machine)
    (timely : Timely machine.clocks)
    (split : machine.history = earlier ++ activation :: later)
    (activates : activation.event.activatesSlot group slot = true)
    (covers : (activation.before.instructions slot).Covers id pixel)
    (lit : pixel < (machine.strips id).ledCount)
    (found :
      (activation.before.instructions slot).transition = some transition) :
    Sequenced machine slot activation transition.durationMs.toNat
      (activation :: resumptions group slot (playback group slot later)) := by
  have chronicle :=
    (legal_of_reachable reachable).chronicle_of_history (by rw [split]; simp)
  have played :=
    @played_playback group slot earlier later activation activates
  cases remaining :
      later.dropWhile
        (fun moment => !moment.event.activatesSlot group slot) with
  | nil =>
      -- The slot was not activated again.
      have whole : playback group slot later = later := by
        have parts :=
          @List.takeWhile_append_dropWhile _
            (fun moment : Moment => !moment.event.activatesSlot group slot)
            later
        rw [remaining, List.append_nil] at parts
        exact parts
      rw [whole] at played ⊢
      rw [← split] at played
      obtain ⟨read, chain, prompt, awaits, -⟩ :=
        chronicle.cadence timely played covers found lit
      exact
        ⟨read, chain, prompt,
          fun last isLast nonzero => (awaits last isLast nonzero).ahead⟩
  | cons next more =>
      have again : next.event.activatesSlot group slot = true := by
        have stops :=
          @List.head_dropWhile_not _
            (fun moment : Moment => !moment.event.activatesSlot group slot)
            later (by rw [remaining]; exact List.cons_ne_nil _ _)
        simp only [remaining, List.head_cons] at stops
        simpa using stops
      have whole :
          machine.history =
            (earlier ++ activation :: playback group slot later) ++
              next :: more := by
        have parts :=
          @List.takeWhile_append_dropWhile _
            (fun moment : Moment => !moment.event.activatesSlot group slot)
            later
        rw [remaining] at parts
        rw [List.append_assoc, List.cons_append, split]
        exact
          congrArg (fun rest => earlier ++ activation :: rest) parts.symm
      obtain ⟨delay, event⟩ := Event.activatesSlot_iff.mp again
      rcases chronicle.recorded _ next more whole with
        ⟨-, -, repeats, started⟩ | ⟨before, snapshot⟩
      · rw [started] at event
        cases event
      · obtain ⟨rank, sound, step⟩ := snapshot.step
        rw [event] at step
        rw [← snapshot.history] at played
        rw [← snapshot.leds] at lit
        obtain ⟨read, chain, prompt, awaits, -⟩ :=
          snapshot.chronicle.cadence (timely.of_prefix snapshot.clocks) played
            covers found lit
        have grows := snapshot.clocks
        have front : activation.run < before.clocks.length :=
          read activation List.mem_cons_self
        refine ⟨?_, ?_, ?_, ?_⟩
        · intro moment member
          exact Nat.lt_of_lt_of_le (read moment member) grows.length_le
        · apply chain.imp_of_mem_imp
          intro one another first second follows
          exact
            follows.extend grows (read one first) (read another second)
        · intro moment member
          exact (prompt moment member).extend grows front (read moment member)
        · intro last isLast nonzero
          exfalso
          obtain ⟨due, -, slotEq, -⟩ := step.enabled
          apply
            sound.work.nextSlot_not_mem sound.committed sound.tree due.below
              due.remaining
          rw [← slotEq]
          exact
            List.mem_map.mpr
              ⟨(group, slot),
                List.mem_map.mpr ⟨_, (awaits last isLast nonzero).entry, rfl⟩,
                rfl⟩

private theorem reading_le_last {readings : List Nat}
    (timely : Timely readings) {run : Nat} (within : run < readings.length) :
    readings.getD run 0 ≤ readings.getD (readings.length - 1) 0 :=
  timely.mono (by omega) (by omega)

/-- Where the requests are honoured, each execution comes at the next update
time after the one before. -/
private theorem Sequenced.successors {duration : Nat} {executions : List Moment}
    (sequenced : Sequenced machine slot activation duration executions)
    (timely : Timely machine.clocks)
    (unwrapped :
      machine.clocks.getD activation.run 0 % 2 ^ 32 + duration < 2 ^ 32)
    (honoured : Honoured machine.clocks executions) :
    (executions.map fun moment => machine.clocks.getD moment.run 0).IsChain
      (Successor
        {time |
          (activation.before.instructions slot).UpdateTime
            activation.before.refreshPeriodMs.toNat
            (machine.clocks.getD activation.run 0) time}) := by
  apply (List.isChain_map _).mpr
  apply sequenced.chain.imp_of_mem_imp
  intro first next firstMember nextMember follows
  have reached := follows.2.1
  have upTo := reading_le_last timely (sequenced.read next nextMember)
  have read :=
    honoured first firstMember follows.1 (Nat.le_trans reached upTo)
  have prompt := sequenced.prompt first firstMember
  have unfinished :
      machine.clocks.getD first.run 0 <
        machine.clocks.getD activation.run 0 + duration := by
    by_contra done
    exact follows.1 (prompt.completes.mpr (Nat.not_lt.mp done))
  rw [follows.reading_eq timely read]
  exact prompt.next unfinished unwrapped

end Playback

end Machine

open Machine in
/-- A Fade or Gradient of positive duration on an existing pixel keeps its
cadence.  Each of its executions, on time or late, asks for the earliest update
time that remains, and the first execution that finds the duration elapsed
completes it.  Where every request is honoured, it is resumed exactly at its
update times, at each of them once, and in order, no matter how often the clock
is read in between. -/
theorem update_cadence {machine : Machine} (reachable : Reachable machine)
    (timely : Timely machine.clocks) {group slot : Nat}
    {earlier later : List Moment} {activation : Moment} {delay : UInt32}
    (split : machine.history = earlier ++ activation :: later)
    (executed : activation.event = .executed group slot delay)
    {id : StripId} {pixel : Nat}
    (covers : (activation.before.instructions slot).Covers id pixel)
    (lit : pixel < (machine.strips id).ledCount) {transition : Transition}
    (found :
      (activation.before.instructions slot).transition = some transition)
    (timed : transition.durationMs ≠ 0)
    (unwrapped :
      machine.clocks.getD activation.run 0 % 2 ^ 32 +
        transition.durationMs.toNat < 2 ^ 32) :
    let start := machine.clocks.getD activation.run 0
    let finish := start + transition.durationMs.toNat
    let due :=
      {time |
        (activation.before.instructions slot).UpdateTime
          activation.before.refreshPeriodMs.toNat start time}
    let resumed := resumptions group slot (playback group slot later)
    let times := resumed.map fun moment => machine.clocks.getD moment.run 0
    (∀ moment ∈ activation :: resumed,
        let now := machine.clocks.getD moment.run 0
        (moment.event.delay = 0 ↔ finish ≤ now) ∧
          (now < finish →
            Successor due now (now + moment.event.delay.toNat))) ∧
      (Honoured machine.clocks (activation :: resumed) →
        times.Pairwise (· < ·) ∧
          ∀ time,
            time ∈ times ↔
              time ∈ due ∧
                time ≤ machine.clocks.getD (machine.clocks.length - 1) 0) := by
  intro start finish due resumed times
  have sequenced :=
    sequenced_of_reachable reachable timely split
      (Event.activatesSlot_iff.mpr ⟨delay, executed⟩) covers lit found
  refine ⟨?_, ?_⟩
  · intro moment member now
    have prompt := sequenced.prompt moment member
    exact
      ⟨prompt.completes, fun unfinished => prompt.next unfinished unwrapped⟩
  · intro honoured
    have successors : (start :: times).IsChain (Successor due) :=
      sequenced.successors timely unwrapped honoured
    refine ⟨(List.pairwise_cons.mp (increasing_of_successors successors)).2, ?_⟩
    intro time
    rw [mem_of_successors successors]
    have period : 0 < activation.before.refreshPeriodMs.toNat :=
      (recorded_paced reachable activation (by rw [split]; simp)).1
    let last :=
      (activation :: resumed).getLast (List.cons_ne_nil activation resumed)
    have isLast : last ∈ (activation :: resumed).getLast? :=
      List.getLast?_eq_some_getLast _
    have listed : last ∈ activation :: resumed := List.getLast_mem _
    have reading :
        (start :: times).getLast (List.cons_ne_nil start times) =
          machine.clocks.getD last.run 0 :=
      @List.getLast_map _ _
        (fun moment : Moment => machine.clocks.getD moment.run 0)
        (activation :: resumed) (List.cons_ne_nil _ _)
    have upTo := reading_le_last timely (sequenced.read last listed)
    have prompt := sequenced.prompt last listed
    rw [reading]
    constructor
    · rintro ⟨isDue, -, before⟩
      exact ⟨isDue, Nat.le_trans before upTo⟩
    · rintro ⟨isDue, before⟩
      obtain ⟨after, within⟩ := isDue.bounds found timed period
      refine ⟨isDue, after, ?_⟩
      by_cases zero : last.event.delay = 0
      · exact Nat.le_trans within (prompt.completes.mp zero)
      · by_contra beyond
        have unfinished : machine.clocks.getD last.run 0 < finish := by
          by_contra done
          exact zero (prompt.completes.mpr (Nat.not_lt.mp done))
        have least := (prompt.next unfinished unwrapped).2
        have ahead := sequenced.ahead last isLast zero
        have next := least ⟨isDue, Nat.not_le.mp beyond⟩
        omega

namespace Machine

/-- A Fade and a Gradient that were activated off the grid, with a tick that
neither of them has asked for. -/
def shimmer : Machine :=
  hosted
    [{ kind := .fade { percent := 50, durationMs := 30 } },
      { kind :=
          .gradient { target := ⟨0, 0, 200⟩, durationMs := 50, index := 1 } }]
    (.start 0 5 :: [5, 12, 20, 25, 35, 45].map .run)

/-- The Fade of `shimmer` as it is stored. -/
def shimmeringFade : InstructionMemorySlot :=
  .store { kind := .fade { percent := 50, durationMs := 30 } } (some 0)

private theorem shimmer_history : 1 < shimmer.history.length := by
  decide +kernel

private theorem shimmer_resumptions :
    (resumptions 0 0 (playback 0 0 (shimmer.history.drop 2))).map
        (fun moment => shimmer.clocks.getD moment.run 0) =
      [20, 35] := by
  decide +kernel

/-- The Fade is resumed at 20 and at its end. -/
theorem update_cadence_of_shimmer :
    (resumptions 0 0 (playback 0 0 (shimmer.history.drop 2))).map
          (fun moment => shimmer.clocks.getD moment.run 0) =
        [20, 35] ∧
      ∀ time,
        time ∈ [20, 35] ↔
          shimmeringFade.UpdateTime 20 5 time ∧ time ≤ 45 := by
  have reachable : Reachable shimmer := reachable_hosted _ _
  have event :
      (shimmer.history.get ⟨1, shimmer_history⟩).event =
        .executed 0 0 15 := by
    decide +kernel
  have stored :
      (shimmer.history.get ⟨1, shimmer_history⟩).before.instructions 0 =
        shimmeringFade := by
    decide +kernel
  have refresh :
      (shimmer.history.get
          ⟨1, shimmer_history⟩).before.refreshPeriodMs.toNat = 20 := by
    decide +kernel
  have start :
      shimmer.clocks.getD (shimmer.history.get ⟨1, shimmer_history⟩).run 0 =
        5 := by
    decide +kernel
  have last : shimmer.clocks.getD (shimmer.clocks.length - 1) 0 = 45 := by
    decide +kernel
  have honoured :
      Honoured shimmer.clocks
        (shimmer.history.get ⟨1, shimmer_history⟩ ::
          resumptions 0 0 (playback 0 0 (shimmer.history.drop 2))) := by
    unfold Honoured
    decide +kernel
  have cadence :=
    @update_cadence shimmer reachable (by decide +kernel) 0 0
      (shimmer.history.take 1) (shimmer.history.drop 2) _ 15
      (split_at shimmer.history 1 shimmer_history) event 0 0
      (by rw [stored]; decide) (by decide +kernel)
      { durationMs := 30
        endColor := fun captured =>
          captured.scaledTo (Fade.endValue captured.maxChannel 50) }
      (by rw [stored]; rfl) (by decide) (by rw [start]; decide)
  obtain ⟨-, exactly⟩ := cadence
  obtain ⟨-, members⟩ := exactly honoured
  rw [stored, refresh, start, last, shimmer_resumptions] at members
  exact ⟨shimmer_resumptions, members⟩

end Machine

end PrismKit
