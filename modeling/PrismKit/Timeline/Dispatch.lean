import PrismKit.Timeline.Completion
import PrismKit.Timeline.Session

/-!
# When instructions are dispatched

In every pass a group dispatches its timeline in order, each instruction in the
first `Run` that finds its mark reached.  The invariant looks at the `Run`s
that are over: none of them found the next instruction due.
-/

namespace PrismKit

open Library

def Controller.markOf (controller : Controller) (slot : Nat) : Nat :=
  (controller.instructions slot).getMark.toNat

namespace Machine

/-- The dispatches of a pass came in time, and none of the first `runs` clock
readings belongs to a `Run` that found the next instruction due. -/
structure Scheduled (runs : Nat) (machine : Machine) (group : Nat)
    (opening : Moment) (during : List Moment) : Prop where
  times :
    ∀ moment ∈ during, ∀ slot,
      moment.event.dispatches = some (group, slot) →
        moment.run < machine.clocks.length ∧
          FirstRun machine.clocks opening.run (machine.markOf slot)
            moment.run
  waiting :
    (machine.runtimes group).cursor < machine.size group →
      ∀ run, 1 ≤ run → opening.run ≤ run → run < runs →
        machine.clocks.getD run 0 <
          machine.clocks.getD opening.run 0 +
            machine.markOf (machine.nextSlot group)

private theorem Scheduled.resting {runs : Nat} {before after : Machine}
    {group : Nat} {opening : Moment} {during : List Moment}
    (scheduled : Scheduled runs before group opening during)
    (rests : Resting before after) (opened : opening.run < before.clocks.length)
    (bounded : runs ≤ before.clocks.length) :
    Scheduled runs after group opening during := by
  have markOf : after.markOf = before.markOf := by
    funext slot
    simp only [Controller.markOf, rests.instructions]
  have nextSlot : after.nextSlot group = before.nextSlot group := by
    simp only [Controller.nextSlot, rests.slotAt_eq, rests.runtimes]
  constructor
  · intro moment member slot dispatches
    obtain ⟨below, first⟩ := scheduled.times moment member slot dispatches
    rw [markOf]
    exact
      ⟨Nat.lt_of_lt_of_le below rests.clocks.length_le,
        first.of_prefix rests.clocks below⟩
  · intro remaining run positive ordered below
    rw [rests.runtimes, rests.size_eq] at remaining
    rw [rests.clock_eq opened, rests.clock_eq (by omega), nextSlot, markOf]
    exact scheduled.waiting remaining run positive ordered below

/-- A pass that just began has nothing to look back on. -/
private theorem scheduled_of_opening {machine : Machine} {group : Nat}
    {opening : Moment} (run : opening.run = machine.clocks.length - 1) :
    Scheduled (machine.clocks.length - 1) machine group opening [] := by
  constructor
  · intro moment member
    exact absurd member List.not_mem_nil
  · intro remaining run' positive ordered below
    omega

/-- The instruction at the cursor is the next one to become due. -/
private theorem markOf_nextSlot_le {rank : Nat → Nat}
    {controller : Controller} (committed : controller.Committed rank)
    {group position : Nat} (below : group < controller.groupCount)
    (ordered : (controller.runtimes group).cursor ≤ position)
    (inRange : position < controller.size group) :
    controller.markOf (controller.nextSlot group) ≤
      controller.markOf (controller.slotAt group position) := by
  have marks := committed.getMark_le below ordered inRange
  exact UInt16.le_iff_toNat_le.mp marks

private theorem Scheduled.step {rank : Nat → Nat} {before after : Machine}
    {group : Nat} {opening moment : Moment} {during : List Moment}
    (timely : Timely before.clocks)
    (long : 1 < before.clocks.length)
    (sound : before.Sound rank)
    (step :
      before.toController.Step before.strips before.timestamp moment.event
        after.toController)
    (clocks : after.clocks = before.clocks)
    (run : moment.run = before.clocks.length - 1)
    (opens : moment.event.opens group = false)
    (closes : moment.event.closes group = false)
    (record : before.PassRecord group opening during)
    (scheduled :
      Scheduled (before.clocks.length - 1) before group opening during) :
    Scheduled (after.clocks.length - 1) after group opening
      (during ++ [moment]) := by
  have same := step.sameProgram
  have markOf : after.markOf = before.markOf := by
    funext slot
    simp only [Controller.markOf, (same.configuration slot).getMark_eq]
  have kept :
      ∀ old ∈ during, ∀ slot, old.event.dispatches = some (group, slot) →
        old.run < after.clocks.length ∧
          FirstRun after.clocks opening.run (after.markOf slot) old.run := by
    rw [clocks, markOf]
    exact scheduled.times
  cases step.passStep group with
  | opened activation opens' closes' quiet current cursor startTime =>
      rw [opens] at opens'
      exact Bool.noConfusion opens'
  | ended event_eq current =>
      rw [event_eq] at closes
      simp [Event.closes] at closes
  | dispatched activation due dispatches opens' closes' earlier current =>
      have cursor :
          (after.runtimes group).cursor =
            (before.runtimes group).cursor + 1 := by
        rw [(Controller.activation_eq_some current).2.1,
          (Controller.activation_eq_some earlier).2.1]
        rfl
      constructor
      · intro other member slot dispatches'
        rcases List.mem_append.mp member with old | new
        · exact kept other old slot dispatches'
        · rw [List.mem_singleton.mp new] at dispatches' ⊢
          rw [dispatches] at dispatches'
          cases dispatches'
          have opened := record.run
          rw [clocks, markOf, run]
          refine ⟨by omega, by omega, by omega, ?_, ?_⟩
          · -- The guard of the step compares the truncated clock readings.
            have reached := due.reached
            rw [timestamp_eq, record.startTime] at reached
            exact
              elapsed_of_le (timely.mono (by omega) (by omega)) reached
          · exact scheduled.waiting due.remaining
      · intro remaining run' positive ordered below
        rw [cursor, same.size_eq] at remaining
        rw [clocks] at below ⊢
        have earlier := scheduled.waiting due.remaining run' positive ordered
          below
        have later :
            before.markOf (before.nextSlot group) ≤
              before.markOf (after.nextSlot group) := by
          rw [Controller.nextSlot.eq_1 after.toController, same.slotAt_eq,
            cursor]
          exact
            markOf_nextSlot_le sound.committed due.below (Nat.le_succ _)
              remaining
        rw [markOf]
        omega
  | untouched opens' closes' quiet current =>
      have cursor :
          (after.runtimes group).cursor = (before.runtimes group).cursor := by
        have some' : before.activation group = some _ :=
          GroupRuntime.activation_of_active record.active
        exact (Controller.activation_eq_some (current.trans some')).2.1
      have nextSlot : after.nextSlot group = before.nextSlot group := by
        rw [Controller.nextSlot, Controller.nextSlot, same.slotAt_eq, cursor]
      constructor
      · intro other member slot dispatches
        rcases List.mem_append.mp member with old | new
        · exact kept other old slot dispatches
        · rw [List.mem_singleton.mp new] at dispatches
          exact absurd dispatches (quiet slot)
      · rw [cursor, same.size_eq, clocks, nextSlot, markOf]
        exact scheduled.waiting

private theorem Scheduled.finish {rank : Nat → Nat} {machine : Machine}
    {group : Nat} {opening : Moment} {during : List Moment}
    (timely : Timely machine.clocks) (long : 1 < machine.clocks.length)
    (sound : machine.Sound rank)
    (quiescent : Quiescent machine.timestamp machine)
    (record : machine.PassRecord group opening during)
    (scheduled :
      Scheduled (machine.clocks.length - 1) machine group opening during) :
    Scheduled machine.clocks.length machine group opening during := by
  refine ⟨scheduled.times, ?_⟩
  intro remaining run positive ordered below
  by_cases earlier : run < machine.clocks.length - 1
  · exact scheduled.waiting remaining run positive ordered earlier
  · have last : run = machine.clocks.length - 1 := by omega
    subst last
    have notDue :
        ¬ (machine.instructions
              (machine.nextSlot group)).getMark.toUInt32 ≤
            machine.timestamp - (machine.runtimes group).startTime := by
      intro reached
      exact
        quiescent.not_due sound group
          ⟨sound.tree.inRange group record.active, record.active, remaining,
            reached⟩
    rw [timestamp_eq, record.startTime] at notDue
    apply not_elapsed_of_not_le (timely.mono ordered below) _ notDue
    -- The reading before the last one is near the start of the pass.
    by_cases now : opening.run = machine.clocks.length - 1
    · rw [now]
      omega
    · have step := timely (machine.clocks.length - 2) (by omega)
      have index :
          machine.clocks.length - 2 + 1 = machine.clocks.length - 1 := by
        omega
      rw [index] at step
      by_cases first : machine.clocks.length - 2 = 0
      · have same : opening.run = machine.clocks.length - 2 := by omega
        rw [same]
        omega
      · have waited :=
          scheduled.waiting remaining (machine.clocks.length - 2) (by omega)
            (by omega) (by omega)
        have short :
            machine.markOf (machine.nextSlot group) < 65536 :=
          UInt16.toNat_lt _
        omega

/-- Along a chronicle with timely clock readings every pass is on schedule. -/
theorem Chronicle.scheduled {inside : Bool} {machine : Machine}
    (chronicle : Chronicle inside machine) (timely : Timely machine.clocks) :
    ∀ group opening during, Pass group machine.history opening during →
      Scheduled
        (if inside then machine.clocks.length - 1 else machine.clocks.length)
        machine group opening during := by
  induction chronicle with
  | started before after repeats now loadable starts =>
      intro group opening during pass
      have origin := origin_of_start loadable starts
      obtain ⟨-, run, -, rfl, -⟩ := origin.of_since pass
      constructor
      · intro moment member
        exact absurd member List.not_mem_nil
      · intro remaining run' positive ordered below
        have one := origin.clocks
        simp only [Bool.false_eq_true, if_false] at below
        omega
  | adjusted before after earlier adjusts inductionHypothesis =>
      intro group opening during pass
      rw [adjusts.clocks] at timely ⊢
      rw [adjusts.history] at pass
      have record := earlier.passes.accurate group opening during pass
      exact
        (inductionHypothesis timely group opening during pass).resting
          adjusts.resting record.run (Nat.le_refl _)
  | began before now earlier active inductionHypothesis =>
      intro group opening during pass
      have rests := resting_beginRun before now
      have record := earlier.passes.accurate group opening during pass
      have length :
          (before.beginRun now).clocks.length - 1 = before.clocks.length := by
        simp [beginRun]
      simp only [if_true, length]
      exact
        (inductionHypothesis (timely.of_prefix rests.clocks) group opening
          during pass).resting rests record.run (Nat.le_refl _)
  | moved before after earlier move inductionHypothesis =>
      intro group opening during pass
      obtain ⟨rank, sound⟩ := earlier.sound
      obtain ⟨event, step, logged⟩ := move.step sound
      have clocks := logged.around.clocks
      rw [clocks] at timely
      rw [logged.history] at pass
      simp only [if_true] at inductionHypothesis ⊢
      rcases since_append_singleton.mp pass with
        ⟨opens, rfl, rfl⟩ | ⟨silent, shorter, rfl, current⟩
      · apply scheduled_of_opening
        rw [clocks]
      · have quiet :
            event.opens group = false ∧ event.closes group = false := by
          simpa using silent
        exact
          (inductionHypothesis timely group opening shorter current).step
            timely (earlier.clocks_length.2 rfl) sound step clocks rfl
            quiet.1 quiet.2
            (earlier.passes.accurate group opening shorter current)
  | finished machine earlier quiescent inductionHypothesis =>
      intro group opening during pass
      obtain ⟨rank, sound⟩ := earlier.sound
      exact
        (inductionHypothesis timely group opening during pass).finish timely
          (earlier.clocks_length.2 rfl) sound quiescent
          (earlier.passes.accurate group opening during pass)

/-! ### The schedule of a pass -/

/-- What a pass dispatched, and what it still has to dispatch, in terms of the
stored program. -/
structure Schedule (machine : Machine) (group : Nat) (opening : Moment)
    (during : List Moment) (rest : List Nat) : Prop where
  everything :
    (dispatched group during ++ rest).Perm
      (labelled machine.instructions machine.instructionCount
        (machine.groups group).id)
  ordered :
    (dispatched group during ++ rest).Pairwise
      (ProgramOrder machine.instructions)
  times :
    ∀ moment ∈ during, ∀ slot,
      moment.event.dispatches = some (group, slot) →
        FirstRun machine.clocks opening.run (machine.markOf slot)
            moment.run ∧
          (machine.markOf slot = 0 → moment.run = max 1 opening.run)

/-- A machine on schedule, with its program and clock readings seen from a
later one. -/
private theorem Scheduled.schedule {rank : Nat → Nat} {runs : Nat}
    {before machine : Machine} {group : Nat} {opening : Moment}
    {during : List Moment}
    (scheduled : Scheduled runs before group opening during)
    (timely : Timely machine.clocks) (sound : before.Sound rank)
    (record : before.PassRecord group opening during)
    (stored : SameStored before.toController machine.toController)
    (clocks : before.clocks <+: machine.clocks) :
    Schedule machine group opening during
      ((before.timeline group).drop (before.runtimes group).cursor) := by
  have below := sound.tree.inRange group record.active
  have markOf : machine.markOf = before.markOf := by
    funext slot
    simp only [Controller.markOf, (stored.configuration slot).getMark_eq]
  have whole :
      dispatched group during ++
          (before.timeline group).drop (before.runtimes group).cursor =
        before.timeline group := by
    rw [record.dispatches]
    exact List.take_append_drop ..
  constructor
  · rw [whole, stored.groups, stored.instructionCount,
      labelled_congr stored.configuration]
    exact sound.committed.timelinePerm group below
  · rw [whole]
    apply (sound.committed.timelineOrdered group below).imp
    intro left right
    exact (ProgramOrder.congr stored.configuration left right).mpr
  · intro moment member slot dispatches
    obtain ⟨read, first⟩ := scheduled.times moment member slot dispatches
    have first' :
        FirstRun machine.clocks opening.run (machine.markOf slot)
          moment.run := by
      rw [markOf]
      exact first.of_prefix clocks read
    refine ⟨first', ?_⟩
    intro unmarked
    rw [unmarked] at first'
    exact
      first'.of_zero timely (Nat.lt_of_lt_of_le read clocks.length_le)

/-- In every pass each instruction of the group is dispatched once, in program
order, in the first `Run` that finds its mark reached. -/
theorem dispatch_schedule {machine : Machine} (reachable : Reachable machine)
    (timely : Timely machine.clocks) {group : Nat} {log later : List Moment}
    {opening : Moment} {during : List Moment}
    (split : machine.history = log ++ later)
    (pass : Pass group log opening during) :
    ∃ rest,
      Schedule machine group opening during rest ∧
        (∀ closing more, later = closing :: more →
          closing.event.closes group = true → rest = []) ∧
        (later = [] →
          ∀ slot ∈ rest, ∀ run, 1 ≤ run → opening.run ≤ run →
            run < machine.clocks.length →
              machine.clocks.getD run 0 <
                machine.clocks.getD opening.run 0 + machine.markOf slot) := by
  have lived : machine.history ≠ [] := by
    obtain ⟨earlier, shape, -⟩ := pass
    rw [split, shape]
    simp
  have chronicle := (legal_of_reachable reachable).chronicle_of_history lived
  cases later with
  | nil =>
      rw [List.append_nil] at split
      rw [← split] at pass
      obtain ⟨rank, sound⟩ := chronicle.sound
      have record := chronicle.passes.accurate group opening during pass
      have scheduled := chronicle.scheduled timely group opening during pass
      simp only [Bool.false_eq_true, if_false] at scheduled
      have below := sound.tree.inRange group record.active
      refine
        ⟨_,
          scheduled.schedule timely sound record
            ⟨rfl, rfl, fun _ => rfl⟩ List.prefix_rfl, ?_, ?_⟩
      · intro closing more impossible
        cases impossible
      · intro _ slot member run positive ordered read
        -- Everything that is left comes after the instruction at the cursor.
        obtain ⟨offset, found⟩ := List.mem_iff_getElem?.mp member
        rw [List.getElem?_drop] at found
        obtain ⟨inRange, slotEq⟩ := List.getElem?_eq_some_iff.mp found
        have inRange' :
            (machine.runtimes group).cursor + offset < machine.size group := by
          simpa [Controller.timeline] using inRange
        have slotEq' :
            machine.slotAt group ((machine.runtimes group).cursor + offset) =
              slot := by
          simpa [Controller.timeline] using slotEq
        have waited :=
          scheduled.waiting (by omega) run positive ordered read
        have later :=
          markOf_nextSlot_le sound.committed below (Nat.le_add_right _ offset)
            inRange'
        rw [slotEq'] at later
        omega
  | cons moment more =>
      rcases chronicle.recorded log moment more split with
        ⟨empty, -⟩ | ⟨before, snapshot⟩
      · rw [empty] at pass
        exact absurd pass (not_since_nil opening during)
      · obtain ⟨rank, sound, step⟩ := snapshot.step
        rw [← snapshot.history] at pass
        have record :=
          snapshot.chronicle.passes.accurate group opening during pass
        have scheduled :=
          snapshot.chronicle.scheduled (timely.of_prefix snapshot.clocks)
            group opening during pass
        refine
          ⟨_,
            scheduled.schedule timely sound record
              (snapshot.sameStored chronicle split) snapshot.clocks, ?_, ?_⟩
        · intro closing others same closes
          cases same
          have dispatched := (step.ready_of_closes closes).dispatched
          apply List.drop_of_length_le
          simpa [Controller.timeline] using dispatched
        · intro impossible
          cases impossible

/-- Marks 0, 10, 20 and 20 in three runs, the last two of them late. -/
theorem dispatch_schedule_of_staggered :
    ∃ rest,
      Schedule staggered 0
          ((staggered.history.take 5).get ⟨0, by decide +kernel⟩)
          ((staggered.history.take 5).drop 1) rest ∧
        rest = [] := by
  have pass :
      Pass 0 (staggered.history.take 5)
        ((staggered.history.take 5).get ⟨0, by decide +kernel⟩)
        ((staggered.history.take 5).drop 1) :=
    ⟨(staggered.history.take 5).take 0, split_at _ 0 (by decide +kernel),
      by decide +kernel, by decide +kernel⟩
  obtain ⟨rest, schedule, closed, -⟩ :=
    dispatch_schedule (reachable_hosted _ _)
      (show Timely staggered.clocks by decide +kernel)
      (split_at staggered.history 5 (by decide +kernel)) pass
  exact ⟨rest, schedule, closed _ _ rfl (by decide +kernel)⟩

end Machine

end PrismKit
