import PrismKit.Timeline.Pass
import PrismKit.Timeline.Session

/-!
# Structured completion

A pass of a group ends when the group is done with everything it began: all its
instructions are dispatched, its timed instructions have returned zero, and the
children it launched, with their descendants, have ended.  The conditions are
read off the history; that the counters of the runtimes agree with them is what
`PassRecord` is for.
-/

namespace PrismKit

open Library

/-- `Descendant group log child later`: in `log` the child was launched by the
group, or by a descendant of it that had not ended, and `later` is the rest of
the log after the launch. -/
inductive Descendant (group : Nat) (log : List Moment) :
    Nat → List Moment → Prop
  | child (earlier : List Moment) (launch : Moment) (later : List Moment)
      (child : Nat) (shape : log = earlier ++ launch :: later)
      (launches : launch.event.Launches group child) :
      Descendant group log child later
  | nested (parent child : Nat) (between : List Moment) (launch : Moment)
      (later : List Moment)
      (descends : Descendant group log parent (between ++ launch :: later))
      (running : ∀ moment ∈ between, moment.event ≠ .ended parent)
      (launches : launch.event.Launches parent child) :
      Descendant group log child later

/-- The group is done with everything a pass is about. -/
structure Finished (controller : Controller) (group : Nat)
    (during : List Moment) : Prop where
  dispatched :
    (dispatched group during).Perm
      (labelled controller.instructions controller.instructionCount
        (controller.groups group).id)
  timed :
    ∀ earlier moment later slot, during = earlier ++ moment :: later →
      moment.event.Begins group slot →
        ∃ last ∈ later, last.event = .resumed group slot 0
  descendants :
    ∀ child later, Descendant group during child later →
      ∃ last ∈ later, last.event = .ended child

namespace Controller

variable {rank : Nat → Nat} {controller : Controller}

theorem Step.ready_of_closes {strips : StripId → Strip}
    {timestamp : UInt32} {event : Event} {next : Controller}
    (step : Step strips timestamp controller event next) {group : Nat}
    (closes : event.closes group = true) : controller.Ready group := by
  have enabled := step.enabled
  cases event with
  | restarted other =>
      have same : group = other := by simpa [Event.closes] using closes
      rw [same]
      exact enabled.1
  | ended other =>
      have same : group = other := by simpa [Event.closes] using closes
      rw [same]
      exact enabled.1
  | started repeats =>
      exact absurd closes (by simp [Event.closes])
  | launched parent slot child repeats =>
      exact absurd closes (by simp [Event.closes])
  | rejected parent slot status =>
      exact absurd closes (by simp [Event.closes])
  | executed parent slot delay =>
      exact absurd closes (by simp [Event.closes])
  | resumed parent slot delay =>
      exact absurd closes (by simp [Event.closes])
  | discarded parent slot =>
      exact absurd closes (by simp [Event.closes])

theorem Tree.root_active (tree : Tree rank controller) {group : Nat}
    (active : (controller.runtimes group).active = true) :
    (controller.runtimes 0).active = true := by
  -- The depth decreases towards the root.
  induction depth : (controller.runtimes group).depth.toNat
      generalizing group with
  | zero =>
      by_cases root : group = 0
      · rw [← root]
        exact active
      · have deeper := (tree.parent group active root).2.2
        omega
  | succ depth inductionHypothesis =>
      by_cases root : group = 0
      · rw [← root]
        exact active
      · obtain ⟨-, parentActive, deeper⟩ := tree.parent group active root
        apply inductionHypothesis parentActive
        omega

theorem Sound.idle_of_root_inactive (sound : controller.Sound rank)
    (inactive : (controller.runtimes 0).active = false) :
    (∀ group, (controller.runtimes group).active = false) ∧
      controller.executing = [] := by
  have allInactive :
      ∀ group, (controller.runtimes group).active = false := by
    intro group
    by_contra active
    have root := sound.tree.root_active (by simpa using active)
    rw [inactive] at root
    exact Bool.noConfusion root
  refine ⟨allInactive, ?_⟩
  rw [List.eq_nil_iff_forall_not_mem]
  intro entry member
  have active :=
    (sound.work.dispatched _ _ (List.mem_map.mpr ⟨entry, member, rfl⟩)).1
  rw [allInactive] at active
  exact Bool.noConfusion active

end Controller

namespace Machine

/-- A child that was launched and has not ended is active. -/
theorem Chronicle.isChild_of_unfinished {inside : Bool} {machine : Machine}
    (chronicle : Chronicle inside machine) :
    ∀ group child, Unfinished group child machine.history →
      machine.isChild group child = true := by
  refine
    chronicle.invariant
      (fun machine =>
        ∀ group child, Unfinished group child machine.history →
          machine.isChild group child = true)
      ?_ ?_ ?_
  · intro repeats machine origin group child unfinished
    obtain ⟨start, rest, since⟩ := unfinished
    obtain ⟨-, -, started, -, slot, additional, launched⟩ :=
      origin.of_since since
    rw [started] at launched
    cases launched
  · intro before after rests inductionHypothesis group child unfinished
    rw [rests.history] at unfinished
    rw [rests.isChild_eq]
    exact inductionHypothesis group child unfinished
  · intro rank before after event _ sound step logged inductionHypothesis
      group child unfinished
    rw [logged.history, unfinished_append_singleton] at unfinished
    rw [step.isChild_iff]
    rcases unfinished with launches | ⟨earlier, running⟩
    · exact Or.inl launches
    · exact Or.inr ⟨inductionHypothesis group child earlier, running⟩

theorem Chronicle.closing {inside : Bool} {machine : Machine}
    (chronicle : Chronicle inside machine) {group : Nat}
    {earlier later : List Moment} {closing : Moment}
    (split : machine.history = earlier ++ closing :: later)
    (closes : closing.event.closes group = true) :
    ∃ before, Snapshot machine before earlier closing ∧
      before.Ready group := by
  rcases chronicle.recorded earlier closing later split with
    ⟨-, -, repeats, started⟩ | ⟨before, snapshot⟩
  · rw [started] at closes
    exact Bool.noConfusion closes
  · obtain ⟨rank, -, step⟩ := snapshot.step
    exact ⟨before, snapshot, step.ready_of_closes closes⟩

/-- Between the launch of a child and the end of a pass of its parent the child
ends. -/
theorem Chronicle.child_ended {inside : Bool} {machine : Machine}
    (chronicle : Chronicle inside machine) {parent child : Nat}
    {earlier between later : List Moment} {launch closing : Moment}
    (split :
      machine.history =
        earlier ++ launch :: (between ++ closing :: later))
    (launches : launch.event.Launches parent child)
    (closes : closing.event.closes parent = true) :
    ∃ last ∈ between, last.event = .ended child := by
  have regrouped :
      machine.history = (earlier ++ launch :: between) ++ closing :: later := by
    rw [split]
    simp
  obtain ⟨before, snapshot, ready⟩ := chronicle.closing regrouped closes
  obtain ⟨rank, sound, -⟩ := snapshot.step
  have gone : ¬ Unfinished parent child (earlier ++ launch :: between) := by
    intro unfinished
    rw [← snapshot.history] at unfinished
    have isChild :=
      snapshot.chronicle.isChild_of_unfinished parent child unfinished
    simp only [Controller.isChild, Bool.and_eq_true, decide_eq_true_eq]
      at isChild
    exact
      sound.tree.no_child sound.committed.bounded
        (Nat.lt_of_lt_of_le ready.below sound.committed.bounded) ready.ended
        isChild.1 isChild.2
  exact exists_closes_of_not_openSince gone rfl launches

theorem Chronicle.descendants_ended {inside : Bool} {machine : Machine}
    (chronicle : Chronicle inside machine) {group : Nat}
    {earlier during later : List Moment} {closing : Moment}
    (split : machine.history = earlier ++ (during ++ closing :: later))
    (closes : closing.event.closes group = true) {child : Nat}
    {rest : List Moment} (descends : Descendant group during child rest) :
    (∃ front launch, during = front ++ launch :: rest) ∧
      ∃ last ∈ rest, last.event = .ended child := by
  induction descends with
  | child front launch rest child shape launches =>
      refine ⟨⟨front, launch, shape⟩, ?_⟩
      have whole :
          machine.history =
            (earlier ++ front) ++ launch :: (rest ++ closing :: later) := by
        rw [split, shape]
        simp
      exact chronicle.child_ended whole launches closes
  | nested parent child between launch rest descends running launches
      inductionHypothesis =>
      obtain ⟨⟨front, opening, shape⟩, last, member, ended⟩ :=
        inductionHypothesis
      refine ⟨⟨front ++ opening :: between, launch, by simp [shape]⟩, ?_⟩
      -- The parent ends after this launch, and not before its child does.
      have after : last ∈ rest := by
        rcases List.mem_append.mp member with old | new
        · exact absurd ended (running last old)
        · rcases List.mem_cons.mp new with same | new
          · obtain ⟨slot, repeats, launched⟩ := launches
            rw [same, launched] at ended
            cases ended
          · exact new
      obtain ⟨middle, final, restShape⟩ := List.append_of_mem after
      have whole :
          machine.history =
            (earlier ++ (front ++ opening :: between)) ++
              launch :: (middle ++ last :: (final ++ closing :: later)) := by
        rw [split, shape, restShape]
        simp
      have closesParent : last.event.closes parent = true := by
        rw [ended]
        simp [Event.closes]
      obtain ⟨end', found, endedChild⟩ :=
        chronicle.child_ended whole launches closesParent
      refine ⟨end', ?_, endedChild⟩
      rw [restShape]
      exact List.mem_append_left _ found

/-! ### Both directions -/

theorem Chronicle.finished_of_closes {inside : Bool} {machine : Machine}
    (chronicle : Chronicle inside machine) {group : Nat}
    {earlier later : List Moment} {closing : Moment}
    (split : machine.history = earlier ++ closing :: later)
    (closes : closing.event.closes group = true) :
    ∃ opening during, Pass group earlier opening during ∧
      Finished closing.before group during := by
  obtain ⟨before, snapshot, ready⟩ := chronicle.closing split closes
  obtain ⟨rank, sound, -⟩ := snapshot.step
  obtain ⟨opening, during, pass⟩ :=
    snapshot.chronicle.passes.current group ready.active
  have record := snapshot.chronicle.passes.accurate group opening during pass
  rw [snapshot.history] at pass
  refine ⟨opening, during, pass, ?_⟩
  obtain ⟨front, shape, -, -⟩ := pass
  rw [← snapshot.controller]
  constructor
  · have complete :
        (before.timeline group).length ≤
          (before.runtimes group).cursor := by
      simpa [Controller.timeline] using ready.dispatched
    rw [record.dispatches, List.take_of_length_le complete]
    exact sound.committed.timelinePerm group ready.below
  · intro first moment rest slot split' begins
    have returned : ¬ Pending group slot during := by
      intro pending
      exact
        sound.work.not_mem ready.resumed ((record.timed slot).mpr pending)
    exact exists_closes_of_not_openSince returned split' begins
  · intro child rest descends
    have whole :
        machine.history =
          (front ++ [opening]) ++ (during ++ closing :: later) := by
      rw [split, shape]
      simp
    exact (chronicle.descendants_ended whole closes descends).2

theorem PassRecord.ready_of_finished {rank : Nat → Nat} {machine : Machine}
    {group : Nat} {opening : Moment} {during : List Moment}
    (record : machine.PassRecord group opening during)
    (sound : machine.Sound rank)
    (finished : Finished machine.toController group during) :
    machine.groupReady group = true := by
  have below := sound.tree.inRange group record.active
  have perm := sound.committed.timelinePerm group below
  have lengths :=
    finished.dispatched.length_eq.trans perm.length_eq.symm
  rw [record.dispatches, List.length_take] at lengths
  have dispatched :
      machine.size group ≤ (machine.runtimes group).cursor := by
    simp only [Controller.timeline, List.length_map, List.length_range]
      at lengths
    omega
  have resumed : (machine.runtimes group).activeCount = 0 := by
    rw [sound.work.counts, List.countP_eq_zero]
    intro work member same
    have owner : work.1 = group := by simpa using same
    have outstanding : (group, work.2) ∈ machine.outstanding := by
      rw [← owner]
      exact member
    obtain ⟨start, rest, front, shape, begins, quiet⟩ :=
      (record.timed work.2).mp outstanding
    obtain ⟨last, found, returned⟩ :=
      finished.timed front start rest work.2 shape begins
    exact quiet last found returned
  have ended : (machine.runtimes group).childCount = 0 := by
    have inArray := Nat.lt_of_lt_of_le below sound.committed.bounded
    rw [sound.tree.children group inArray, countBelow_eq_zero_iff]
    intro child _
    by_contra isChild
    obtain ⟨start, rest, front, shape, launches, quiet⟩ :=
      (record.children child).mp (by simpa using isChild)
    obtain ⟨last, found, endedChild⟩ :=
      finished.descendants child rest
        (.child front start rest child shape launches)
    exact quiet last found endedChild
  have recordEq := sound.committed.record group
  have dispatched' :
      (machine.runtimes group).record.instructionCount ≤
        (machine.runtimes group).cursor := by
    rw [recordEq]
    exact dispatched
  simp [groupReady, record.active, dispatched', resumed, ended]

/-- While a group is active the root is, and the program is running. -/
theorem Legal.running_of_active {machine : Machine} (legal : Legal machine)
    {group : Nat} (active : (machine.runtimes group).active = true) :
    (machine.runtimes 0).active = true ∧ machine.state = .active := by
  obtain ⟨rank, sound⟩ := (legal.chronicle_of_active active).sound
  have root := sound.tree.root_active active
  refine ⟨root, ?_⟩
  rw [sound.tree.lifecycle, if_pos root]

theorem Legal.not_finished_after_run {machine after : Machine}
    (legal : Legal machine) {now : Nat} {status : ControllerStatus}
    (performs : Performs (.run now) machine after status) {group : Nat}
    (active : (after.runtimes group).active = true) :
    ∃ opening during, Pass group after.history opening during ∧
      ¬ Finished after.toController group during := by
  by_cases running : machine.state = .active
  · have loaded : machine.state ≠ .editable := by
      rw [running]
      decide
    obtain ⟨settled, -, quiescent, rests, chronicle⟩ :=
      (legal.chronicle loaded).after_run running performs
    obtain ⟨opening, during, pass⟩ := chronicle.passes.current group active
    refine ⟨opening, during, pass, ?_⟩
    intro finished
    obtain ⟨rank, sound⟩ := chronicle.sound
    have record := chronicle.passes.accurate group opening during pass
    have ready := record.ready_of_finished sound finished
    have below := sound.tree.inRange group active
    rw [rests.groupCount] at below
    have unready := quiescent.unready group below
    simp only [groupReady, rests.runtimes] at ready unready
    rw [ready] at unready
    exact Bool.noConfusion unready
  · obtain ⟨fuel, runs⟩ := performs
    unfold Machine.run at runs
    rw [if_pos running] at runs
    cases runs
    exact absurd (legal.running_of_active active).2 running

/-- Passes end exactly when they are finished, and the program with its root. -/
theorem structured_completion {machine : Machine}
    (reachable : Reachable machine) :
    (∀ group earlier closing later,
        machine.history = earlier ++ closing :: later →
          closing.event.closes group = true →
            ∃ opening during, Pass group earlier opening during ∧
              Finished closing.before group during) ∧
      (∀ now after status, Performs (.run now) machine after status →
        ∀ group, (after.runtimes group).active = true →
          ∃ opening during, Pass group after.history opening during ∧
            ¬ Finished after.toController group during) ∧
      (machine.state = .completed →
        (∀ group, (machine.runtimes group).active = false) ∧
          machine.executing = []) ∧
      ∀ group, (machine.runtimes group).active = true →
        (machine.runtimes 0).active = true ∧
          ∀ repeats now, machine.start repeats now = (machine, .busy) := by
  have legal := legal_of_reachable reachable
  refine ⟨?_, ?_, ?_, ?_⟩
  · intro group earlier closing later split closes
    have lived : machine.history ≠ [] := by
      rw [split]
      simp
    exact (legal.chronicle_of_history lived).finished_of_closes split closes
  · intro now after status performs group active
    exact legal.not_finished_after_run performs active
  · intro completed
    have loaded : machine.state ≠ .editable := by
      rw [completed]
      decide
    obtain ⟨rank, sound⟩ := (legal.chronicle loaded).sound
    apply sound.idle_of_root_inactive
    have lifecycle := sound.tree.lifecycle
    rw [completed] at lifecycle
    split at lifecycle
    · cases lifecycle
    · rename_i inactive
      simpa using inactive
  · intro group active
    obtain ⟨root, running⟩ := legal.running_of_active active
    refine ⟨root, ?_⟩
    intro repeats now
    unfold start
    rw [if_pos running]

/-- A root that waits for the descendants of a repeated child. -/
theorem structured_completion_of_nested_children :
    let machine :=
      hosted
        [{ kind := .runGroup 5 1 }, { groupId := 5, kind := .runGroup 6 0 },
          { groupId := 6,
            kind := .fade { percent := 50, durationMs := 30 } }]
        [.start 0 0, .run 0, .run 30, .run 60]
    (machine.history.map Moment.event).filter (Event.closes 1) =
        [.restarted 1, .ended 1] ∧
      machine.state = .completed ∧
      (machine.state = .completed →
        (∀ group, (machine.runtimes group).active = false) ∧
          machine.executing = []) :=
  ⟨by decide +kernel, by decide +kernel,
    (structured_completion (reachable_hosted _ _)).2.2.1⟩

end Machine

end PrismKit
