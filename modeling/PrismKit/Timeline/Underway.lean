import PrismKit.Controller.Transition
import PrismKit.Timeline.Dispatch
import PrismKit.Timeline.Observation

/-!
# Transitions under way

A transition that was activated in a `Run` stays as its activation left it, and
its deadline never lies beyond its end, which is its duration after the reading
of that `Run`.  Work whose deadline has arrived is resumed before anything is
dispatched, so a dispatch finds a transition under way if and only if its end
still lies ahead.
-/

namespace PrismKit

open Library

namespace Controller

variable {rank : Nat → Nat} {controller next : Controller}
  {strips : StripId → Strip} {timestamp : UInt32} {event : Event}

/-! ### Executed instructions and their entries -/

private theorem Step.below_of_opens (sound : controller.Sound rank)
    (step : Step strips timestamp controller event next) {group : Nat}
    (opens : event.opens group = true) : group < controller.groupCount := by
  have opened : (next.runtimes group).active = true := by
    cases step.passStep group with
    | opened activation opens' closes quiet after cursor startTime =>
        exact (activation_eq_some after).1
    | ended event_eq after =>
        rw [event_eq] at opens
        exact absurd opens (by simp [Event.opens])
    | dispatched activation due dispatches opens' closes before after =>
        rw [opens] at opens'
        exact Bool.noConfusion opens'
    | untouched opens' closes quiet after =>
        rw [opens] at opens'
        exact Bool.noConfusion opens'
  have below := (sound.step step).tree.inRange group opened
  rw [step.sameProgram.groupCount] at below
  exact below

/-- An instruction under execution stays as it is until it is resumed. -/
theorem Step.instruction_of_outstanding (sound : controller.Sound rank)
    (step : Step strips timestamp controller event next) {group index : Nat}
    (outstanding : (group, index) ∈ controller.outstanding) :
    next.instructions index = controller.instructions index ∨
      ∃ delay, event = .resumed group index delay := by
  obtain ⟨active, position, before, slotEq⟩ :=
    sound.work.dispatched group index outstanding
  have below := sound.tree.inRange group active
  have inRange := Nat.lt_of_lt_of_le before (sound.work.cursor group active)
  rcases step.instruction index with
    kept | ⟨-, opener, opens, member⟩ | ⟨other, delay, resumed | dispatched⟩
  · exact Or.inl kept
  · -- The timeline that a step resets belongs to a group without such work.
    exfalso
    obtain ⟨reset, resetBelow, resetEq⟩ := List.mem_map.mp member
    obtain ⟨rfl, -⟩ :=
      sound.committed.slotAt_injective below
        (step.below_of_opens sound opens) inRange
        (List.mem_range.mp resetBelow) (slotEq.trans resetEq.symm)
    exact (sound.idle_of_opens step opens).1 index outstanding
  · right
    have enabled := step.enabled
    rw [resumed] at enabled
    obtain ⟨at', entry, resumable, sameGroup, sameSlot⟩ := enabled
    have also : (other, index) ∈ controller.outstanding := by
      rw [← sameGroup, ← sameSlot]
      exact List.mem_map.mpr ⟨entry, List.mem_of_getElem? resumable.found, rfl⟩
    have same :=
      List.inj_on_of_nodup_map sound.work.distinct outstanding also rfl
    cases same
    exact ⟨delay, resumed⟩
  · exfalso
    have enabled := step.enabled
    rw [dispatched] at enabled
    obtain ⟨due, -, slot, -⟩ := enabled
    apply
      sound.work.nextSlot_not_mem sound.committed sound.tree due.below
        due.remaining
    rw [← slot]
    exact List.mem_map.mpr ⟨(group, index), outstanding, rfl⟩

/-- A step keeps the entries of the instructions that it does not resume. -/
theorem Step.entry_kept (step : Step strips timestamp controller event next)
    {entry : ExecutingInstruction} (member : entry ∈ controller.executing) :
    entry ∈ next.executing ∨
      ∃ delay,
        event = .resumed entry.runtimeIndex entry.instructionIndex delay := by
  cases step with
  | resumedAgain position resumed slot delay shown resumable executes
      positive =>
      by_cases same : entry = resumed
      · subst same
        exact Or.inr ⟨delay, rfl⟩
      · left
        obtain ⟨index, found⟩ := List.mem_iff_getElem?.mp member
        apply List.mem_iff_getElem?.mpr
        refine ⟨index, ?_⟩
        have elsewhere : position ≠ index := by
          intro equal
          rw [← equal, resumable.found] at found
          exact same (Option.some.inj found).symm
        exact (List.getElem?_set_ne elsewhere).trans found
  | resumedLast position resumed slot shown resumable executes =>
      have perm := swapRemove_perm resumable.found
      rcases List.mem_cons.mp (perm.mem_iff.mp member) with rfl | other
      · exact Or.inr ⟨0, rfl⟩
      · exact Or.inl other
  | executedTimed group slot delay shown due settled notRun executes
      positive =>
      exact Or.inl (List.mem_append_left _ member)
  | restarted group ready again observed =>
      exact Or.inl member
  | endedRoot ready final =>
      exact Or.inl member
  | endedChild group notRoot ready final =>
      exact Or.inl member
  | launched group child due settled isRun target calls notRoot inactive =>
      left
      simpa [updateRuntime, activate] using member
  | rejected group child due settled isRun target calls notRoot busy =>
      left
      simpa using member
  | executedNow group slot shown due settled notRun executes =>
      left
      simpa [afterExecution] using member

/-- An execution that asks to be resumed sets a deadline. -/
theorem Step.entry_armed (step : Step strips timestamp controller event next)
    {group index : Nat} {delay : UInt32}
    (executed :
      event = .resumed group index delay ∨ event = .executed group index delay)
    (positive : delay ≠ 0) :
    (⟨index, group, timestamp + delay⟩ : ExecutingInstruction) ∈
      next.executing := by
  cases step with
  | resumedAgain position entry slot delay' shown resumable executes nonzero =>
      rcases executed with same | same <;> cases same
      exact
        List.mem_iff_getElem?.mpr
          ⟨position,
            List.getElem?_set_self
              (List.getElem?_eq_some_iff.mp resumable.found).1⟩
  | resumedLast position entry slot shown resumable executes =>
      rcases executed with same | same <;> cases same
      exact absurd rfl positive
  | executedNow group' slot shown due settled notRun executes =>
      rcases executed with same | same <;> cases same
      exact absurd rfl positive
  | executedTimed group' slot delay' shown due settled notRun executes
      nonzero =>
      rcases executed with same | same <;> cases same
      exact List.mem_append_right _ (List.mem_singleton.mpr rfl)
  | _ =>
      rcases executed with same | same <;> cases same

section Transition

variable {group slot : Nat} {delay : UInt32} {transition : Transition}
  {id : StripId} {pixel : Nat}

theorem Loadable.bound_of_dispatched (loadable : controller.Loadable)
    (committed : controller.Committed rank) {position : Nat}
    (below : group < controller.groupCount)
    (inRange : position < controller.size group)
    (slotEq : controller.slotAt group position = slot) :
    ∃ instr, (controller.instructions slot).active = some instr ∧
      instr.controller = true := by
  have stored := (committed.slotAt_mem below inRange).1
  rw [slotEq] at stored
  exact loadable.bound slot stored

theorem Step.activates (sound : controller.Sound rank)
    (loadable : controller.Loadable)
    (step :
      Step strips timestamp controller (.executed group slot delay) next)
    (fresh : controller.Fresh group)
    (covers : (controller.instructions slot).Covers id pixel)
    (found : (controller.instructions slot).transition = some transition)
    (lit : pixel < (strips id).ledCount) :
    let captured := (strips id).color pixel
    let writes :=
      ((controller.instructions slot).execute strips
        controller.refreshPeriodMs timestamp).2.2.1
    (next.instructions slot).Captured captured ∧
      delay.toNat ≤ transition.durationMs.toNat ∧
      if transition.durationMs = 0 then
        writes = [⟨id, pixel, transition.endColor captured⟩] ∧ delay = 0
      else
        writes = [] ∧ delay ≠ 0 ∧
          (next.instructions slot).Running captured timestamp := by
  obtain ⟨due, -, slotEq, -⟩ := step.enabled
  obtain ⟨instr, active, bound⟩ :=
    loadable.bound_of_dispatched sound.committed due.below due.remaining
      slotEq.symm
  have reset :
      (controller.instructions slot).resetForReplay =
        controller.instructions slot := by
    have ahead :=
      fresh (controller.runtimes group).cursor (Nat.le_refl _) due.remaining
    rw [slotEq]
    exact ahead
  obtain ⟨writes, shown, result⟩ := step.executes (Or.inr rfl)
  have activates :=
    @InstructionMemorySlot.execute_activates _ instr transition id pixel
      strips controller.refreshPeriodMs timestamp active bound covers found
      reset lit loadable.period_pos
  rw [result] at activates ⊢
  exact activates

/-- A transition under way is resumed as it was activated. -/
theorem Step.resumes (sound : controller.Sound rank)
    (loadable : controller.Loadable)
    (step :
      Step strips timestamp controller (.resumed group slot delay) next)
    {captured : RgbColor} {start : UInt32}
    (running : (controller.instructions slot).Running captured start)
    (covers : (controller.instructions slot).Covers id pixel)
    (found : (controller.instructions slot).transition = some transition)
    (lit : pixel < (strips id).ledCount) :
    next.instructions slot = controller.instructions slot ∧
      (delay = 0 ↔
        transition.durationMs.toNat ≤ (timestamp - start).toNat) ∧
      (delay ≠ 0 →
        (timestamp - start).toNat + delay.toNat ≤
          transition.durationMs.toNat) ∧
      ∃ color,
        ((controller.instructions slot).execute strips
            controller.refreshPeriodMs timestamp).2.2.1 =
          [⟨id, pixel, color⟩] ∧
        (delay = 0 → color = transition.endColor captured) := by
  obtain ⟨position, entry, resumable, rfl, rfl⟩ := step.enabled
  have outstanding :
      (entry.runtimeIndex, entry.instructionIndex) ∈
        controller.outstanding :=
    List.mem_map.mpr ⟨entry, List.mem_of_getElem? resumable.found, rfl⟩
  obtain ⟨active', slotPosition, before, slotEq⟩ :=
    sound.work.dispatched _ _ outstanding
  obtain ⟨instr, active, bound⟩ :=
    loadable.bound_of_dispatched sound.committed
      (sound.tree.inRange _ active')
      (Nat.lt_of_lt_of_le before (sound.work.cursor _ active')) slotEq
  obtain ⟨writes, shown, result⟩ := step.executes (Or.inl rfl)
  have resumes :=
    @InstructionMemorySlot.Running.execute_resumes _ instr transition id pixel
      strips controller.refreshPeriodMs start captured timestamp running active
      bound covers found lit loadable.period_pos
  rw [result] at resumes ⊢
  exact resumes

end Transition

end Controller

theorem mem_dispatched {group slot : Nat} {log : List Moment} :
    slot ∈ dispatched group log ↔
      ∃ moment ∈ log, moment.event.dispatches = some (group, slot) := by
  unfold dispatched
  rw [List.mem_filterMap]
  constructor
  · rintro ⟨moment, member, found⟩
    obtain ⟨⟨owner, index⟩, dispatches, same⟩ :=
      Option.map_eq_some_iff.mp found
    obtain ⟨dispatches, owned⟩ := Option.filter_eq_some_iff.mp dispatches
    have equal : owner = group := of_decide_eq_true owned
    cases equal
    cases same
    exact ⟨moment, member, dispatches⟩
  · rintro ⟨moment, member, dispatches⟩
    refine ⟨moment, member, ?_⟩
    simp [dispatches]

namespace Machine

/-- Along a chronicle the undispatched instructions of every active group are
as their reset left them. -/
theorem Chronicle.fresh {inside : Bool} {machine : Machine}
    (chronicle : Chronicle inside machine) :
    ∀ group, (machine.runtimes group).active = true →
      machine.Fresh group := by
  refine
    chronicle.invariant
      (fun machine =>
        ∀ group, (machine.runtimes group).active = true →
          machine.Fresh group)
      ?_ ?_ ?_
  · intro repeats machine origin group active position _ inRange
    have found := origin.activation group
    by_cases isRoot : group = 0 ∧ machine.size 0 ≠ 0
    · rw [isRoot.1] at inRange ⊢
      exact origin.fresh isRoot.2 position inRange
    · rw [if_neg isRoot] at found
      have inactive := GroupRuntime.activation_eq_none_iff.mp found
      rw [active] at inactive
      exact Bool.noConfusion inactive
  · intro before after rests inductionHypothesis
    unfold Controller.Fresh
    rw [rests.runtimes, rests.instructions, rests.slotAt_eq, rests.size_eq]
    exact inductionHypothesis
  · intro rank before after event earlier sound step logged
      inductionHypothesis group active
    exact Controller.Fresh.step sound step active (inductionHypothesis group)

/-! ### The end of a transition -/

/-- The reading of the last `Run` that is over, or of the start. -/
def settledReading (inside : Bool) (machine : Machine) : Nat :=
  machine.clocks.getD (machine.clocks.length - if inside then 2 else 1) 0

/-- A transition under way: nothing has changed its slot since the activation,
and its deadline comes after `reading` and not after its end. -/
structure Underway (reading : Nat) (machine : Machine) (group slot : Nat)
    (activation : Moment) (transition : Transition) : Prop where
  kept : machine.instructions slot = activation.after.instructions slot
  running :
    ∃ captured,
      (machine.instructions slot).Running captured
        (UInt32.ofNat (machine.clocks.getD activation.run 0))
  entry :
    ∃ deadline,
      (⟨slot, group, UInt32.ofNat deadline⟩ : ExecutingInstruction) ∈
          machine.executing ∧
        reading < deadline ∧
        deadline ≤
          machine.clocks.getD activation.run 0 + transition.durationMs.toNat

structure Timed (reading : Nat) (machine : Machine) (group slot : Nat)
    (activation : Moment) (transition : Transition) : Prop where
  read : activation.run < machine.clocks.length
  underway :
    (group, slot) ∈ machine.outstanding →
      Underway reading machine group slot activation transition
  ended :
    (group, slot) ∉ machine.outstanding →
      machine.clocks.getD activation.run 0 + transition.durationMs.toNat ≤
        machine.clocks.getD (machine.clocks.length - 1) 0

/-- The entry of a slot does not change between steps. -/
private theorem Timed.resting {reading : Nat} {before after : Machine}
    {group slot : Nat} {activation : Moment} {transition : Transition}
    (timed : Timed reading before group slot activation transition)
    (rests : Resting before after) (timely : Timely after.clocks) :
    Timed reading after group slot activation transition := by
  have start := rests.clock_eq timed.read
  have longer := rests.clocks.length_le
  have positive := timed.read
  refine ⟨Nat.lt_of_lt_of_le timed.read longer, ?_, ?_⟩
  · intro outstanding
    rw [rests.outstanding_eq] at outstanding
    obtain ⟨kept, running, entry⟩ := timed.underway outstanding
    constructor
    · rw [rests.instructions]
      exact kept
    · rw [rests.instructions, start]
      exact running
    · rw [rests.executing, start]
      exact entry
  · intro idle
    rw [rests.outstanding_eq] at idle
    have ended := timed.ended idle
    have last := rests.clock_eq (by omega : before.clocks.length - 1 < _)
    rw [start]
    rw [← last] at ended
    exact
      Nat.le_trans ended (timely.mono (by omega) (by omega))

/-- The difference of truncated readings that a step compares. -/
theorem timestamp_sub {machine : Machine} {start : Nat}
    (ordered : start ≤ machine.clocks.getD (machine.clocks.length - 1) 0)
    (near :
      machine.clocks.getD (machine.clocks.length - 1) 0 < start + 2 ^ 32) :
    (machine.timestamp - UInt32.ofNat start).toNat =
      machine.clocks.getD (machine.clocks.length - 1) 0 - start := by
  rw [timestamp_eq]
  exact toNat_sub_ofNat ordered near

section Step

variable {rank : Nat → Nat} {before after : Machine} {event : Event}
  {group slot : Nat} {activation : Moment} {transition : Transition}
  {id : StripId} {pixel : Nat}

/-- The reading of a `Run` comes less than half a turn after the one before. -/
theorem Chronicle.window {machine : Machine}
    (chronicle : Chronicle true machine) (timely : Timely machine.clocks) :
    machine.settledReading true ≤
        machine.clocks.getD (machine.clocks.length - 1) 0 ∧
      machine.clocks.getD (machine.clocks.length - 1) 0 <
        machine.settledReading true + 2 ^ 31 := by
  have long := chronicle.clocks_length.2 rfl
  have step := timely (machine.clocks.length - 2) (by omega)
  have index :
      machine.clocks.length - 2 + 1 = machine.clocks.length - 1 := by
    omega
  rw [index] at step
  exact step

/-- A deadline that came after the last reading and has not arrived comes after
this one. -/
theorem not_arrived {machine : Machine} {deadline : Nat}
    (window :
      machine.settledReading true ≤
          machine.clocks.getD (machine.clocks.length - 1) 0 ∧
        machine.clocks.getD (machine.clocks.length - 1) 0 <
          machine.settledReading true + 2 ^ 31)
    (ahead : machine.settledReading true < deadline)
    (waits :
      deadlineReached machine.timestamp (UInt32.ofNat deadline) = false) :
    machine.clocks.getD (machine.clocks.length - 1) 0 < deadline := by
  by_contra late
  rw [deadlineReached, decide_eq_false_iff_not, UInt32.lt_iff_toNat_lt,
    timestamp_sub (Nat.not_lt.mp late) (by omega)] at waits
  apply waits
  show _ < 2 ^ 31
  omega

/-- Where every deadline that has arrived was served, a transition is under way
if and only if its end still lies ahead. -/
theorem Timed.outstanding_iff {machine : Machine} {group slot : Nat}
    {activation : Moment} {transition : Transition}
    (chronicle : Chronicle true machine) (timely : Timely machine.clocks)
    (settled : machine.Settled machine.timestamp)
    (timed :
      Timed (machine.settledReading true) machine group slot activation
        transition) :
    (group, slot) ∈ machine.outstanding ↔
      machine.clocks.getD (machine.clocks.length - 1) 0 <
        machine.clocks.getD activation.run 0 +
          transition.durationMs.toNat := by
  constructor
  · intro outstanding
    obtain ⟨-, -, deadline, entry, ahead, bounded⟩ :=
      timed.underway outstanding
    have waits := settled _ entry
    exact
      Nat.lt_of_lt_of_le
        (not_arrived (chronicle.window timely) ahead waits) bounded
  · intro unfinished
    by_contra idle
    exact Nat.not_lt.mpr (timed.ended idle) unfinished

/-- A deadline that is set in a `Run`. -/
theorem timestamp_add (machine : Machine) (delay : UInt32) :
    machine.timestamp + delay =
      UInt32.ofNat
        (machine.clocks.getD (machine.clocks.length - 1) 0 +
          delay.toNat) := by
  rw [timestamp_eq, UInt32.ofNat_add, UInt32.ofNat_toNat]

/-- The dispatch of a transition starts it, or finishes it at once. -/
private theorem timed_of_activation (chronicle : Chronicle true before)
    (timely : Timely before.clocks) (sound : before.Sound rank)
    {delay : UInt32}
    (step :
      before.toController.Step before.strips before.timestamp
        (.executed group slot delay) after.toController)
    (clocks : after.clocks = before.clocks)
    (covers : (before.instructions slot).Covers id pixel)
    (found : (before.instructions slot).transition = some transition)
    (lit : pixel < (before.strips id).ledCount) :
    Timed (before.settledReading true) after group slot
      ⟨before.clocks.length - 1, .executed group slot delay,
        before.toController, after.toController⟩
      transition := by
  obtain ⟨due, -, slotEq, -⟩ := step.enabled
  obtain ⟨-, bounded, timing⟩ :=
    step.activates sound chronicle.loadable (chronicle.fresh group due.active)
      covers found lit
  obtain ⟨earlier, -⟩ := chronicle.window timely
  have positive := chronicle.clocks_length.1
  have idle : (group, slot) ∉ before.outstanding := by
    intro outstanding
    apply
      sound.work.nextSlot_not_mem sound.committed sound.tree due.below
        due.remaining
    rw [← slotEq]
    exact List.mem_map.mpr ⟨(group, slot), outstanding, rfl⟩
  have begins := step.mem_outstanding_iff sound.work group slot
  refine ⟨?_, ?_, ?_⟩
  · rw [clocks]
    exact Nat.sub_lt positive Nat.one_pos
  · intro outstanding
    rcases begins.mp outstanding with ⟨other, nonzero, same⟩ | ⟨old, -⟩
    · cases same
      have timed : transition.durationMs ≠ 0 := by
        intro zero
        rw [if_pos zero] at timing
        exact nonzero timing.2
      rw [if_neg timed] at timing
      obtain ⟨-, -, running⟩ := timing
      refine
        ⟨rfl, ⟨(before.strips id).color pixel, ?_⟩,
          before.clocks.getD (before.clocks.length - 1) 0 + delay.toNat, ?_,
          ?_, ?_⟩
      · rw [clocks, ← timestamp_eq]
        exact running
      · rw [← timestamp_add]
        exact step.entry_armed (Or.inr rfl) nonzero
      · have ahead : 0 < delay.toNat :=
          Nat.pos_of_ne_zero fun zero => nonzero (UInt32.toNat_inj.mp zero)
        omega
      · rw [clocks]
        exact Nat.add_le_add_left bounded _
    · exact absurd old idle
  · intro finished
    have zero : transition.durationMs = 0 := by
      by_contra timed
      rw [if_neg timed] at timing
      exact finished (begins.mpr (Or.inl ⟨delay, timing.2.1, rfl⟩))
    rw [clocks, zero]
    exact Nat.le_refl _

/-- A step that is not its activation keeps a transition on time. -/
private theorem Timed.step (chronicle : Chronicle true before)
    (timely : Timely before.clocks) (sound : before.Sound rank)
    (step :
      before.toController.Step before.strips before.timestamp event
        after.toController)
    (clocks : after.clocks = before.clocks)
    (covers : (before.instructions slot).Covers id pixel)
    (found : (before.instructions slot).transition = some transition)
    (lit : pixel < (before.strips id).ledCount)
    (once : ∀ delay, event ≠ .executed group slot delay)
    (timed :
      Timed (before.settledReading true) before group slot activation
        transition) :
    Timed (before.settledReading true) after group slot activation
      transition := by
  have begins := step.mem_outstanding_iff sound.work group slot
  have old :
      (group, slot) ∈ after.outstanding → (group, slot) ∈ before.outstanding := by
    intro outstanding
    rcases begins.mp outstanding with ⟨delay, -, same⟩ | ⟨earlier, -⟩
    · exact absurd same (once delay)
    · exact earlier
  by_cases outstanding : (group, slot) ∈ before.outstanding
  · obtain ⟨kept, ⟨captured, running⟩, deadline, entry, ahead, bounded⟩ :=
      timed.underway outstanding
    obtain ⟨earlier, near⟩ := chronicle.window timely
    have short := transition.durationMs.toNat_lt
    by_cases resumed : ∃ delay, event = .resumed group slot delay
    · obtain ⟨delay, rfl⟩ := resumed
      obtain ⟨same, finishes, remains, -⟩ :=
        step.resumes sound chronicle.loadable running covers found lit
      have ordered :=
        timely.mono (Nat.le_sub_one_of_lt timed.read)
          (Nat.sub_lt chronicle.clocks_length.1 Nat.one_pos)
      have elapsed := timestamp_sub ordered (by omega)
      rw [elapsed] at finishes remains
      refine ⟨by rw [clocks]; exact timed.read, ?_, ?_⟩
      · intro stays
        have nonzero : delay ≠ 0 := by
          rintro rfl
          rcases begins.mp stays with ⟨_, -, impossible⟩ | ⟨-, different⟩
          · cases impossible
          · exact different rfl
        refine
          ⟨by rw [same]; exact kept, ?_,
            before.clocks.getD (before.clocks.length - 1) 0 + delay.toNat, ?_,
            ?_, ?_⟩
        · rw [same, clocks]
          exact ⟨captured, running⟩
        · rw [← timestamp_add]
          exact step.entry_armed (Or.inl rfl) nonzero
        · have positive : 0 < delay.toNat :=
            Nat.pos_of_ne_zero fun zero => nonzero (UInt32.toNat_inj.mp zero)
          omega
        · have within := remains nonzero
          rw [clocks]
          omega
      · intro finished
        have zero : delay = 0 := by
          by_contra nonzero
          apply finished
          refine begins.mpr (Or.inr ⟨outstanding, ?_⟩)
          intro same
          cases same
          exact nonzero rfl
        have complete := finishes.mp zero
        rw [clocks]
        omega
    · have stays : (group, slot) ∈ after.outstanding := by
        refine begins.mpr (Or.inr ⟨outstanding, ?_⟩)
        intro same
        exact resumed ⟨0, same⟩
      have same : after.instructions slot = before.instructions slot := by
        rcases step.instruction_of_outstanding sound outstanding with
          same | found
        · exact same
        · exact absurd found resumed
      have still := (step.entry_kept entry).resolve_right resumed
      refine ⟨by rw [clocks]; exact timed.read, ?_, ?_⟩
      · intro _
        refine ⟨by rw [same]; exact kept, ?_, deadline, still, ahead, ?_⟩
        · rw [same, clocks]
          exact ⟨captured, running⟩
        · rw [clocks]
          exact bounded
      · intro finished
        exact absurd stays finished
  · refine ⟨by rw [clocks]; exact timed.read, ?_, ?_⟩
    · intro stays
      exact absurd (old stays) outstanding
    · intro _
      rw [clocks]
      exact timed.ended outstanding

private theorem PassRecord.once {opening moment : Moment}
    {during : List Moment} (record : before.PassRecord group opening during)
    (sound : before.Sound rank)
    (step :
      before.toController.Step before.strips before.timestamp event
        after.toController)
    (member : moment ∈ during)
    (dispatches : moment.event.dispatches = some (group, slot))
    (delay : UInt32) : event ≠ .executed group slot delay := by
  rintro rfl
  obtain ⟨due, -, slotEq, -⟩ := step.enabled
  have earlier : slot ∈ dispatched group during :=
    mem_dispatched.mpr ⟨moment, member, dispatches⟩
  rw [record.dispatches] at earlier
  obtain ⟨position, found⟩ := List.mem_iff_getElem?.mp earlier
  obtain ⟨inRange, same⟩ := List.getElem?_eq_some_iff.mp found
  have passed : position < (before.runtimes group).cursor := by
    simp only [List.length_take] at inRange
    omega
  have collision :
      before.slotAt group position =
        before.slotAt group (before.runtimes group).cursor := by
    have here : before.slotAt group position = slot := by
      simpa [Controller.timeline] using same
    exact here.trans slotEq
  have equal :=
    (sound.committed.slotAt_injective due.below due.below
      (Nat.lt_trans passed due.remaining) due.remaining collision).2
  omega

end Step

theorem settledReading_eq {before after : Machine} (inside : Bool)
    (clocks : after.clocks = before.clocks) :
    after.settledReading inside = before.settledReading inside := by
  unfold settledReading
  rw [clocks]

theorem settledReading_beginRun {before : Machine}
    (chronicle : Chronicle false before) (now : Nat) :
    (before.beginRun now).settledReading true =
      before.settledReading false := by
  have positive := chronicle.clocks_length.1
  have length :
      (before.beginRun now).clocks.length - 2 = before.clocks.length - 1 := by
    simp [beginRun]
  unfold settledReading
  simp only [if_true, Bool.false_eq_true, if_false, length]
  exact (resting_beginRun before now).clock_eq (by omega)

/-- Along a chronicle with timely clock readings every transition on an
existing pixel ends on time. -/
theorem Chronicle.timed {inside : Bool} {machine : Machine}
    (chronicle : Chronicle inside machine) (timely : Timely machine.clocks)
    {id : StripId} {pixel : Nat}
    (lit : pixel < (machine.strips id).ledCount) :
    ∀ group opening during, Pass group machine.history opening during →
      ∀ moment ∈ during, ∀ slot delay transition,
        moment.event = .executed group slot delay →
          (machine.instructions slot).Covers id pixel →
            (machine.instructions slot).transition = some transition →
              Timed (machine.settledReading inside) machine group slot moment
                transition := by
  induction chronicle with
  | started before after repeats now loadable starts =>
      intro group opening during pass moment member
      obtain ⟨-, -, -, rfl, -⟩ :=
        (origin_of_start loadable starts).of_since pass
      exact absurd member List.not_mem_nil
  | adjusted before after earlier adjusts inductionHypothesis =>
      intro group opening during pass moment member slot delay transition
        event covers found
      have rests := adjusts.resting
      rw [rests.history] at pass
      rw [rests.instructions] at covers found
      rw [rests.strips] at lit
      have timed :=
        inductionHypothesis (timely.of_prefix rests.clocks) lit group opening
          during pass moment member slot delay transition event covers found
      rw [settledReading_eq false adjusts.clocks]
      exact timed.resting rests timely
  | began before now earlier active inductionHypothesis =>
      intro group opening during pass moment member slot delay transition
        event covers found
      have rests := resting_beginRun before now
      have timed :=
        inductionHypothesis (timely.of_prefix rests.clocks) lit group opening
          during pass moment member slot delay transition event covers found
      rw [settledReading_beginRun earlier]
      exact timed.resting rests timely
  | moved before after earlier move inductionHypothesis =>
      intro group opening during pass moment member slot delay transition
        executed covers found
      obtain ⟨rank, sound⟩ := earlier.sound
      obtain ⟨event, step, logged⟩ := move.step sound
      have clocks := logged.around.clocks
      have configuration := step.sameProgram.configuration slot
      rw [clocks] at timely
      rw [logged.history] at pass
      rw [logged.around.leds] at lit
      rw [configuration.covers_iff] at covers
      rw [configuration.transition_eq] at found
      rw [settledReading_eq true clocks]
      rcases since_append_singleton.mp pass with
        ⟨-, -, rfl⟩ | ⟨-, shorter, rfl, current⟩
      · exact absurd member List.not_mem_nil
      · rcases List.mem_append.mp member with old | new
        · have record :=
            earlier.passes.accurate group opening shorter current
          have once :=
            record.once sound step old
              (by rw [executed]; rfl : moment.event.dispatches = _)
          exact
            (inductionHypothesis timely lit group opening shorter current
              moment old slot delay transition executed covers found).step
              earlier timely sound step clocks covers found lit once
        · rw [List.mem_singleton.mp new] at executed ⊢
          cases executed
          exact
            timed_of_activation earlier timely sound step clocks covers found
              lit
  | finished machine earlier quiescent inductionHypothesis =>
      intro group opening during pass moment member slot delay transition
        event covers found
      obtain ⟨read, underway, ended⟩ :=
        inductionHypothesis timely lit group opening during pass moment member
          slot delay transition event covers found
      refine ⟨read, ?_, ended⟩
      intro outstanding
      obtain ⟨kept, running, deadline, entry, ahead, bounded⟩ :=
        underway outstanding
      refine ⟨kept, running, deadline, entry, ?_, bounded⟩
      have waits := quiescent.settled _ entry
      have reading :
          machine.settledReading false =
            machine.clocks.getD (machine.clocks.length - 1) 0 :=
        rfl
      rw [reading]
      exact not_arrived (earlier.window timely) ahead waits

end Machine

end PrismKit
