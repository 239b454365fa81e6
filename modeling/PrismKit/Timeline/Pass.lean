import PrismKit.Timeline.History

/-!
# Passes in the history

The pass of a group, read off the history: it begins with the event that opens
it and lasts until the next event that opens or closes a pass of the group.
While the group is active, the log of its current pass tells which
instructions were dispatched, which timed instructions still run, and which
children were launched and have not ended.
-/

namespace PrismKit

open Library

/-- The current pass of the group began with `opening`, and `during` came
since. -/
def Pass (group : Nat) (log : List Moment) (opening : Moment)
    (during : List Moment) : Prop :=
  Since (fun moment => moment.event.opens group = true)
    (fun moment =>
      moment.event.opens group = true ∨ moment.event.closes group = true)
    log opening during

/-- The instructions of the group dispatched in a log, in order. -/
def dispatched (group : Nat) (log : List Moment) : List Nat :=
  log.filterMap fun moment =>
    (moment.event.dispatches.filter fun dispatch =>
      dispatch.1 = group).map Prod.snd

/-- The event executes a timed instruction of the group for the first time. -/
def Event.Begins (group slot : Nat) (event : Event) : Prop :=
  ∃ delay, delay ≠ 0 ∧ event = .executed group slot delay

def Event.Launches (group child : Nat) (event : Event) : Prop :=
  ∃ slot repeats, event = .launched group slot child repeats

/-- A timed instruction of the group was dispatched in the log and has not
returned zero since. -/
def Pending (group slot : Nat) (log : List Moment) : Prop :=
  OpenSince (fun moment => moment.event.Begins group slot)
    (fun moment => moment.event = .resumed group slot 0) log

/-- A child of the group was launched in the log and has not ended since. -/
def Unfinished (group child : Nat) (log : List Moment) : Prop :=
  OpenSince (fun moment => moment.event.Launches group child)
    (fun moment => moment.event = .ended child) log

section Logs

variable {group slot : Nat} {log : List Moment} {moment : Moment}

theorem dispatched_append_of_dispatches
    (dispatches : moment.event.dispatches = some (group, slot)) :
    dispatched group (log ++ [moment]) = dispatched group log ++ [slot] := by
  simp [dispatched, dispatches]

theorem dispatched_append_of_quiet
    (quiet : ∀ slot, moment.event.dispatches ≠ some (group, slot)) :
    dispatched group (log ++ [moment]) = dispatched group log := by
  unfold dispatched
  rw [List.filterMap_append]
  have silent :
      (moment.event.dispatches.filter fun dispatch =>
        dispatch.1 = group).map Prod.snd = none := by
    cases dispatches : moment.event.dispatches with
    | none =>
        rfl
    | some dispatch =>
        rw [Option.map_eq_none_iff, Option.filter_eq_none_iff]
        intro other same
        cases same
        obtain ⟨owner, slot⟩ := dispatch
        simp only [decide_eq_true_eq]
        intro equal
        subst equal
        exact quiet slot dispatches
  simp [silent]

theorem pending_append_singleton :
    Pending group slot (log ++ [moment]) ↔
      moment.event.Begins group slot ∨
        Pending group slot log ∧ moment.event ≠ .resumed group slot 0 := by
  unfold Pending
  rw [openSince_append_singleton]

theorem unfinished_append_singleton {child : Nat} :
    Unfinished group child (log ++ [moment]) ↔
      moment.event.Launches group child ∨
        Unfinished group child log ∧ moment.event ≠ .ended child := by
  unfold Unfinished
  rw [openSince_append_singleton]

end Logs

namespace Controller

variable {rank : Nat → Nat} {controller next : Controller}
  {strips : StripId → Strip} {timestamp : UInt32} {event : Event}

/-- Timed work begins with its dispatch and ends with the delay zero. -/
theorem Step.mem_outstanding_iff
    (step : Step strips timestamp controller event next)
    (work : Work controller) (group slot : Nat) :
    (group, slot) ∈ next.outstanding ↔
      event.Begins group slot ∨
        (group, slot) ∈ controller.outstanding ∧
          event ≠ .resumed group slot 0 := by
  have after := step.outstanding
  have nodup : controller.outstanding.Nodup := work.distinct.of_map
  cases event with
  | resumed other otherSlot delay =>
      by_cases done : delay = 0
      · subst done
        rw [OutstandingAfter, if_pos rfl] at after
        rw [after.nodup_iff, List.nodup_cons] at nodup
        rw [after.mem_iff, List.mem_cons]
        simp only [Event.Begins, reduceCtorEq, and_false, exists_false,
          false_or, ne_eq, Event.resumed.injEq, and_true]
        constructor
        · intro member
          refine ⟨Or.inr member, ?_⟩
          intro same
          rw [← same.1, ← same.2] at member
          exact nodup.1 member
        · intro both
          rcases both with ⟨same | member, different⟩
          · cases same
            exact absurd ⟨rfl, rfl⟩ different
          · exact member
      · rw [OutstandingAfter, if_neg done] at after
        rw [after]
        simp [Event.Begins, done]
  | executed other otherSlot delay =>
      by_cases done : delay = 0
      · subst done
        rw [OutstandingAfter, if_pos rfl] at after
        rw [after]
        simp [Event.Begins]
      · rw [OutstandingAfter, if_neg done] at after
        rw [after, List.mem_append, List.mem_singleton]
        simp only [Event.Begins, ne_eq, Event.executed.injEq, Prod.mk.injEq,
          reduceCtorEq, not_false_eq_true, and_true]
        constructor
        · intro either
          rcases either with member | ⟨rfl, rfl⟩
          · exact Or.inr member
          · exact Or.inl ⟨delay, done, rfl, rfl, rfl⟩
        · intro either
          rcases either with ⟨-, -, rfl, rfl, -⟩ | member
          · exact Or.inr ⟨rfl, rfl⟩
          · exact Or.inl member
  | started repeats =>
      exact step.enabled.elim
  | discarded other otherSlot =>
      exact step.enabled.elim
  | launched parent otherSlot child repeats =>
      rw [after]
      simp [Event.Begins]
  | rejected parent otherSlot status =>
      rw [after]
      simp [Event.Begins]
  | restarted other =>
      rw [after]
      simp [Event.Begins]
  | ended other =>
      rw [after]
      simp [Event.Begins]

private theorem isChild_iff_activation {group child : Nat} :
    controller.isChild group child = true ↔
      ∃ activation, controller.activation child = some activation ∧
        activation.parent = group := by
  unfold isChild Controller.activation GroupRuntime.activation
  cases (controller.runtimes child).active with
  | false =>
      simp
  | true =>
      simp

theorem Step.isChild_iff
    (step : Step strips timestamp controller event next) (group child : Nat) :
    next.isChild group child = true ↔
      event.Launches group child ∨
        controller.isChild group child = true ∧ event ≠ .ended child := by
  have after := step.activation child
  have enabled := step.enabled
  simp only [isChild_iff_activation, after]
  cases event with
  | started repeats =>
      exact enabled.elim
  | discarded other slot =>
      exact enabled.elim
  | launched parent slot launched repeats =>
      by_cases equal : child = launched
      · subst equal
        have none : controller.activation child = none :=
          GroupRuntime.activation_eq_none_iff.mpr enabled.2.2.2.2.2.2.2.2
        simp [Event.advance, Event.Launches, none]
      · have different : ¬ launched = child := fun same => equal same.symm
        by_cases source : child = parent
        · subst source
          simp [Event.advance, Event.Launches, equal, different,
            Activation.consume]
        · simp [Event.advance, Event.Launches, equal, different, source]
  | rejected parent slot status =>
      by_cases source : child = parent
      · simp [Event.advance, Event.Launches, source, Activation.consume]
      · simp [Event.advance, Event.Launches, source]
  | executed parent slot delay =>
      by_cases source : child = parent
      · simp [Event.advance, Event.Launches, source, Activation.consume]
      · simp [Event.advance, Event.Launches, source]
  | resumed parent slot delay =>
      simp [Event.advance, Event.Launches]
  | restarted other =>
      by_cases equal : child = other
      · simp [Event.advance, Event.Launches, equal, Activation.again]
      · simp [Event.advance, Event.Launches, equal]
  | ended other =>
      by_cases equal : child = other
      · simp [Event.advance, Event.Launches, equal]
      · have different : ¬ other = child := fun same => equal same.symm
        simp [Event.advance, Event.Launches, equal, different]

/-- A pass of an idle group begins without timed work and without children. -/
theorem Sound.idle_of_opens (sound : controller.Sound rank)
    (step : Step strips timestamp controller event next) {group : Nat}
    (opens : event.opens group = true) :
    (∀ slot, (group, slot) ∉ controller.outstanding) ∧
      ∀ child, controller.isChild group child = false := by
  have enabled := step.enabled
  -- Only a launch and a restart open a pass during a run.
  have quiet :
      (controller.runtimes group).activeCount = 0 ∧
        ∀ child, (controller.runtimes child).active →
          (controller.runtimes child).parentGroupIndex ≠ group := by
    cases event with
    | launched parent slot child repeats =>
        have same : group = child := by simpa [Event.opens] using opens
        subst same
        obtain ⟨-, -, -, -, -, -, calls, -, inactive⟩ := enabled
        refine ⟨sound.work.activeCount_of_inactive inactive, ?_⟩
        intro other active parentEq
        have beyond :=
          (sound.tree.parent_ne_of_inactive inactive active parentEq).2
        have bounded := sound.committed.bounded
        have below := calls.2.1
        omega
    | restarted other =>
        have same : group = other := by simpa [Event.opens] using opens
        subst same
        have ready := enabled.1
        refine ⟨ready.resumed, ?_⟩
        intro child active
        exact
          sound.tree.no_child sound.committed.bounded
            (Nat.lt_of_lt_of_le ready.below sound.committed.bounded)
            ready.ended active
    | started repeats =>
        exact enabled.elim
    | rejected parent slot status =>
        exact absurd opens (by simp [Event.opens])
    | executed parent slot delay =>
        exact absurd opens (by simp [Event.opens])
    | resumed parent slot delay =>
        exact absurd opens (by simp [Event.opens])
    | discarded parent slot =>
        exact enabled.elim
    | ended other =>
        exact absurd opens (by simp [Event.opens])
  refine ⟨fun slot => sound.work.not_mem quiet.1, ?_⟩
  intro child
  by_contra isChild
  have isChild' : controller.isChild group child = true := by
    simpa using isChild
  simp only [Controller.isChild, Bool.and_eq_true, decide_eq_true_eq]
    at isChild'
  exact quiet.2 child isChild'.1 isChild'.2

end Controller

namespace Machine

/-! ### The log of the current pass -/

/-- What the log of a group's current pass says about the machine. -/
structure PassRecord (machine : Machine) (group : Nat) (opening : Moment)
    (during : List Moment) : Prop where
  active : (machine.runtimes group).active = true
  run : opening.run < machine.clocks.length
  startTime :
    (machine.runtimes group).startTime =
      UInt32.ofNat (machine.clocks.getD opening.run 0)
  dispatches :
    dispatched group during =
      (machine.timeline group).take (machine.runtimes group).cursor
  timed :
    ∀ slot, (group, slot) ∈ machine.outstanding ↔ Pending group slot during
  children :
    ∀ child,
      machine.isChild group child = true ↔ Unfinished group child during

/-- Every active group has a pass log, and every pass log is accurate. -/
structure Recorded (machine : Machine) : Prop where
  current :
    ∀ group, (machine.runtimes group).active = true →
      ∃ opening during, Pass group machine.history opening during
  accurate :
    ∀ group opening during, Pass group machine.history opening during →
      machine.PassRecord group opening during

private theorem recorded_origin {repeats : LoopCount} {machine : Machine}
    (origin : Origin repeats machine) : Recorded machine := by
  constructor
  · intro group active
    have some' : machine.activation group = some _ :=
      GroupRuntime.activation_of_active active
    rw [origin.activation] at some'
    split at some'
    · rename_i root
      obtain ⟨before, history⟩ := origin.history
      rw [history, if_neg root.2, ← List.nil_append [_]]
      exact
        ⟨_, [], since_append_singleton.mpr
          (Or.inl ⟨by simp [Event.opens, root.1], rfl, rfl⟩)⟩
    · cases some'
  · intro group opening during pass
    obtain ⟨nonempty, run, started, rfl, opens⟩ := origin.of_since pass
    have root : group = 0 := by simpa [started, Event.opens] using opens
    subst root
    have current := origin.activation 0
    rw [if_pos ⟨rfl, nonempty⟩] at current
    obtain ⟨active, cursor, startTime, -, -⟩ :=
      Controller.activation_eq_some current
    have executing : machine.outstanding = [] := by
      unfold Controller.outstanding
      rw [origin.executing]
      rfl
    constructor
    · exact active
    · rw [run, origin.clocks]
      exact Nat.one_pos
    · rw [startTime, timestamp_eq, origin.clocks, run]
    · rw [cursor]
      rfl
    · intro slot
      rw [executing]
      exact iff_of_false List.not_mem_nil not_openSince_nil
    · intro child
      refine iff_of_false ?_ not_openSince_nil
      intro isChild
      obtain ⟨activation, found, parent⟩ :=
        Controller.isChild_iff_activation.mp isChild
      rw [origin.activation] at found
      split at found
      · cases found
        exact absurd parent (show maxGroups ≠ 0 by decide)
      · cases found

private theorem recorded_resting {before after : Machine}
    (rests : Resting before after) (recorded : Recorded before) :
    Recorded after := by
  constructor
  · intro group active
    rw [rests.runtimes] at active
    rw [rests.history]
    exact recorded.current group active
  · intro group opening during pass
    rw [rests.history] at pass
    obtain ⟨active, run, startTime, dispatches, timed, children⟩ :=
      recorded.accurate group opening during pass
    constructor
    · rw [rests.runtimes]
      exact active
    · exact Nat.lt_of_lt_of_le run rests.clocks.length_le
    · rw [rests.runtimes, rests.clock_eq run]
      exact startTime
    · rw [rests.runtimes, rests.timeline_eq]
      exact dispatches
    · rw [rests.outstanding_eq]
      exact timed
    · rw [rests.isChild_eq]
      exact children

private theorem record_of_opens {rank : Nat → Nat} {before after : Machine}
    {event : Event} {group : Nat} (chronicle : Chronicle true before)
    (sound : before.Sound rank)
    (step :
      before.toController.Step before.strips before.timestamp event
        after.toController)
    (logged : Logged before after event) (opens : event.opens group = true) :
    after.PassRecord group
      ⟨before.clocks.length - 1, event, before.toController,
        after.toController⟩ [] := by
  obtain ⟨noWork, noChild⟩ := sound.idle_of_opens step opens
  have positive := chronicle.clocks_length.1
  cases step.passStep group with
  | opened activation opens' closes quiet current cursor startTime =>
      obtain ⟨active, cursorEq, startEq, -, -⟩ :=
        Controller.activation_eq_some current
      constructor
      · exact active
      · rw [logged.around.clocks]
        exact Nat.sub_lt positive Nat.one_pos
      · rw [startEq, startTime, timestamp_eq, logged.around.clocks]
      · rw [cursorEq, cursor]
        rfl
      · intro slot
        refine iff_of_false ?_ not_openSince_nil
        rw [step.mem_outstanding_iff sound.work]
        intro either
        rcases either with ⟨delay, -, same⟩ | ⟨member, -⟩
        · rw [same] at opens
          exact Bool.noConfusion opens
        · exact noWork slot member
      · intro child
        refine iff_of_false ?_ not_openSince_nil
        rw [step.isChild_iff]
        intro either
        rcases either with ⟨slot, repeats, same⟩ | ⟨isChild, -⟩
        · -- The launched group would be its own parent.
          subst same
          exact quiet slot rfl
        · rw [noChild child] at isChild
          exact Bool.noConfusion isChild
  | ended event_eq current =>
      rw [event_eq] at opens
      exact Bool.noConfusion opens
  | dispatched activation due dispatches opens' closes earlier current =>
      rw [opens] at opens'
      exact Bool.noConfusion opens'
  | untouched opens' closes quiet current =>
      rw [opens] at opens'
      exact Bool.noConfusion opens'

/-- A step that neither opens nor closes a pass extends its log. -/
private theorem record_of_quiet {rank : Nat → Nat} {before after : Machine}
    {group : Nat} {opening moment : Moment} {during : List Moment}
    (sound : before.Sound rank)
    (step :
      before.toController.Step before.strips before.timestamp moment.event
        after.toController)
    (logged : Logged before after moment.event)
    (opens : moment.event.opens group = false)
    (closes : moment.event.closes group = false)
    (record : before.PassRecord group opening during) :
    after.PassRecord group opening (during ++ [moment]) := by
  obtain ⟨active, run, startTime, dispatches, timed, children⟩ := record
  have same := step.sameProgram
  have timeline := same.timeline_eq group
  have timed' :
      ∀ slot, (group, slot) ∈ after.outstanding ↔
        Pending group slot (during ++ [moment]) := by
    intro slot
    rw [step.mem_outstanding_iff sound.work, timed,
      pending_append_singleton]
  have children' :
      ∀ child, after.isChild group child = true ↔
        Unfinished group child (during ++ [moment]) := by
    intro child
    rw [step.isChild_iff, children, unfinished_append_singleton]
  have some' : before.activation group = some _ :=
    GroupRuntime.activation_of_active active
  cases step.passStep group with
  | opened activation opens' closes' quiet current cursor startTime' =>
      rw [opens] at opens'
      exact Bool.noConfusion opens'
  | ended event_eq current =>
      rw [event_eq] at closes
      simp [Event.closes] at closes
  | dispatched activation due dispatch opens' closes' earlier current =>
      obtain ⟨-, cursorEq, startEq, -⟩ :=
        Controller.activation_eq_some earlier
      obtain ⟨active', cursorEq', startEq', -⟩ :=
        Controller.activation_eq_some current
      have cursor :
          (after.runtimes group).cursor =
            (before.runtimes group).cursor + 1 := by
        rw [cursorEq', cursorEq]
        rfl
      refine ⟨active', ?_, ?_, ?_, timed', children'⟩
      · rw [logged.around.clocks]
        exact run
      · rw [logged.around.clocks, ← startTime, startEq', startEq]
        rfl
      · have nextSlot :
            (before.timeline group)[(before.runtimes group).cursor]? =
              some (before.nextSlot group) := by
          simp [Controller.timeline, due.remaining, Controller.nextSlot]
        rw [dispatched_append_of_dispatches dispatch, dispatches, timeline,
          cursor, List.take_add_one, nextSlot]
        rfl
  | untouched opens' closes' quiet current =>
      have current' := current.trans some'
      obtain ⟨active', cursorEq, startEq, -⟩ :=
        Controller.activation_eq_some current'
      refine ⟨active', ?_, ?_, ?_, timed', children'⟩
      · rw [logged.around.clocks]
        exact run
      · rw [logged.around.clocks, startEq]
        exact startTime
      · rw [dispatched_append_of_quiet quiet, dispatches, timeline, cursorEq]

private theorem recorded_step {rank : Nat → Nat} {before after : Machine}
    {event : Event} (chronicle : Chronicle true before)
    (sound : before.Sound rank)
    (step :
      before.toController.Step before.strips before.timestamp event
        after.toController)
    (logged : Logged before after event) (recorded : Recorded before) :
    Recorded after := by
  constructor
  · intro group active
    rw [logged.history]
    cases opens : event.opens group with
    | true =>
        exact
          ⟨_, [], since_append_singleton.mpr (Or.inl ⟨opens, rfl, rfl⟩)⟩
    | false =>
        have some' : after.activation group = some _ :=
          GroupRuntime.activation_of_active active
        have quiet :
            (before.runtimes group).active = true ∧
              event.closes group = false := by
          cases step.passStep group with
          | opened activation opens' closes quiet current cursor startTime =>
              rw [opens] at opens'
              exact Bool.noConfusion opens'
          | ended event_eq current =>
              rw [current] at some'
              cases some'
          | dispatched activation due dispatch opens' closes earlier current =>
              exact ⟨due.active, closes⟩
          | untouched opens' closes quiet current =>
              exact
                ⟨(Controller.activation_eq_some
                    (current.symm.trans some')).1, closes⟩
        obtain ⟨opening, during, pass⟩ := recorded.current group quiet.1
        refine
          ⟨opening, during ++ [_],
            since_append_singleton.mpr (Or.inr ⟨?_, during, rfl, pass⟩)⟩
        simp [opens, quiet.2]
  · intro group opening during pass
    rw [logged.history] at pass
    rcases since_append_singleton.mp pass with
      ⟨opens, rfl, rfl⟩ | ⟨silent, shorter, rfl, earlier⟩
    · exact record_of_opens chronicle sound step logged opens
    · have quiet :
          event.opens group = false ∧ event.closes group = false := by
        simpa using silent
      exact
        record_of_quiet sound step logged quiet.1 quiet.2
          (recorded.accurate group opening shorter earlier)

/-- Along a chronicle the pass logs are accurate. -/
theorem Chronicle.passes {inside : Bool} {machine : Machine}
    (chronicle : Chronicle inside machine) : Recorded machine :=
  chronicle.invariant Recorded
    (fun _ _ origin => recorded_origin origin)
    (fun _ _ rests recorded => recorded_resting rests recorded)
    (fun _ _ _ _ earlier sound step logged recorded =>
      recorded_step earlier sound step logged recorded)

end Machine

end PrismKit
