import PrismKit.Timeline.Completion

/-!
# Repeats of an activation

An activation lasts from its start or launch to its end, and its restarts cut
it into passes.  The repeats that are left and the restarts so far add up to
the requested repeats, unless the activation repeats forever.
-/

namespace PrismKit

open Library

/-- The repeats requested for an activation of the group that the event
begins. -/
def Event.activates (group : Nat) : Event → Option LoopCount
  | .started repeats => if group = 0 then some repeats else none
  | .launched _ _ child repeats => if group = child then some repeats else none
  | _ => none

/-- The group that an activation reports its end to. -/
def Event.launcher : Event → Nat
  | .launched parent _ _ _ => parent
  | _ => maxGroups

/-- The activation of the group began with `opening` and has not ended. -/
def Lifetime (group : Nat) (repeats : LoopCount) (log : List Moment)
    (opening : Moment) (during : List Moment) : Prop :=
  Since (fun moment => moment.event.activates group = some repeats)
    (fun moment => moment.event = .ended group) log opening during

def restarts (group : Nat) (log : List Moment) : Nat :=
  log.countP fun moment => moment.event = .restarted group

theorem restarts_append_singleton {group : Nat} {log : List Moment}
    {moment : Moment} :
    restarts group (log ++ [moment]) =
      restarts group log +
        if moment.event = .restarted group then 1 else 0 := by
  unfold restarts
  rw [List.countP_append, List.countP_singleton]
  simp

/-- The repeats left after some of the requested ones were used. -/
def RepeatsLeft (repeats left : LoopCount) (used : Nat) : Prop :=
  if repeats = foreverLoopCount then
    left = foreverLoopCount
  else
    left.toNat + used = repeats.toNat

theorem RepeatsLeft.refl (repeats : LoopCount) :
    RepeatsLeft repeats repeats 0 := by
  unfold RepeatsLeft
  split
  · assumption
  · rfl

/-- Starting one more pass uses one repeat. -/
theorem RepeatsLeft.next {repeats left : LoopCount} {used : Nat}
    (account : RepeatsLeft repeats left used) (again : left ≠ 0) :
    RepeatsLeft repeats (Controller.nextRepeats left) (used + 1) := by
  unfold RepeatsLeft Controller.nextRepeats at *
  by_cases forever : repeats = foreverLoopCount
  · rw [if_pos forever] at account ⊢
    rw [if_pos account]
  · rw [if_neg forever] at account ⊢
    have bounded : repeats.toNat < 65535 := by
      have small := repeats.toNat_lt
      have different : repeats.toNat ≠ 65535 := fun same =>
        forever (UInt16.toNat_inj.mp same)
      omega
    have positive : left.toNat ≠ 0 := fun zero =>
      again (UInt16.toNat_inj.mp zero)
    have finite : left ≠ foreverLoopCount := by
      intro same
      have value : left.toNat = 65535 := by
        rw [same]
        rfl
      omega
    rw [if_neg finite]
    have decreased : (left - 1).toNat = left.toNat - 1 := by
      apply UInt16.toNat_sub_of_le
      show 1 ≤ left.toNat
      omega
    omega

theorem RepeatsLeft.exhausted {repeats left : LoopCount} {used : Nat}
    (account : RepeatsLeft repeats left used) (none : left = 0) :
    repeats ≠ foreverLoopCount ∧ used = repeats.toNat := by
  unfold RepeatsLeft at account
  split at account
  · rw [none] at account
    exact absurd account (by decide)
  · rename_i finite
    refine ⟨finite, ?_⟩
    rw [none] at account
    simpa using account

namespace Controller

variable {rank : Nat → Nat} {controller next : Controller}
  {strips : StripId → Strip} {timestamp : UInt32} {group : Nat}

/-- A restart leaves the children of every group counted as they were. -/
theorem Step.childCount_of_restarted
    (step : Step strips timestamp controller (.restarted group) next)
    (other : Nat) :
    (next.runtimes other).childCount =
      (controller.runtimes other).childCount := by
  cases step with
  | restarted _ ready again observed =>
      by_cases equal : other = group
      · subst equal
        simp [activate, Controller.updateRuntime, ready.ended]
      · simp [activate, Controller.updateRuntime, equal]

theorem Step.completed_of_ended
    (step : Step strips timestamp controller (.ended 0) next) :
    next.state = .completed := by
  cases step with
  | endedRoot ready final =>
      rfl
  | endedChild _ notRoot ready final =>
      exact absurd rfl notRoot

/-- The end of a child takes it off the count of its parent and of no other
group. -/
theorem Step.childCount_of_ended (sound : controller.Sound rank)
    (step : Step strips timestamp controller (.ended group) next)
    (notRoot : group ≠ 0) :
    (controller.runtimes
        (controller.runtimes group).parentGroupIndex).childCount =
        (next.runtimes
          (controller.runtimes group).parentGroupIndex).childCount + 1 ∧
      ∀ other, other ≠ (controller.runtimes group).parentGroupIndex →
        (next.runtimes other).childCount =
          (controller.runtimes other).childCount := by
  cases step with
  | endedRoot ready final =>
      exact absurd rfl notRoot
  | endedChild _ _ ready final =>
      obtain ⟨calls, -, -⟩ := sound.tree.parent group ready.active notRoot
      have apart : (controller.runtimes group).parentGroupIndex ≠ group := by
        intro same
        have descends := sound.committed.rank_lt _ _ calls
        rw [same] at descends
        exact Nat.lt_irrefl _ descends
      have counted := sound.parent_counts ready.active notRoot
      constructor
      · rw [updateRuntime_self, updateRuntime_of_ne apart]
        show _ = _ - 1 + 1
        omega
      · intro other different
        rw [updateRuntime_of_ne different]
        by_cases equal : other = group
        · subst equal
          rw [updateRuntime_self, ready.ended]
          rfl
        · rw [updateRuntime_of_ne equal]

/-- What a step does to the repeats of an activation it does not end. -/
theorem Step.repeatsLeft {event : Event}
    (step : Step strips timestamp controller event next)
    {activation : Activation} {repeats : LoopCount} {used : Nat}
    (found : controller.activation group = some activation)
    (account : RepeatsLeft repeats activation.repeatsRemaining used)
    (running : event ≠ .ended group) :
    ∃ after, next.activation group = some after ∧
      after.parent = activation.parent ∧
      RepeatsLeft repeats after.repeatsRemaining
        (used + if event = .restarted group then 1 else 0) := by
  have current := step.activation group
  have enabled := step.enabled
  rw [found] at current
  obtain ⟨active, -, -, remaining, -⟩ := activation_eq_some found
  cases event with
  | started repeats =>
      exact enabled.elim
  | discarded other slot =>
      exact enabled.elim
  | launched parent slot child repeats' =>
      have different : group ≠ child := by
        intro same
        have inactive := enabled.2.2.2.2.2.2.2.2
        rw [← same, active] at inactive
        exact Bool.noConfusion inactive
      simp only [Event.advance, if_neg different] at current
      split at current
      · exact ⟨_, current, rfl, by simpa [Activation.consume] using account⟩
      · exact ⟨_, current, rfl, by simpa using account⟩
  | rejected parent slot status =>
      simp only [Event.advance] at current
      split at current
      · exact ⟨_, current, rfl, by simpa [Activation.consume] using account⟩
      · exact ⟨_, current, rfl, by simpa using account⟩
  | executed parent slot delay =>
      simp only [Event.advance] at current
      split at current
      · exact ⟨_, current, rfl, by simpa [Activation.consume] using account⟩
      · exact ⟨_, current, rfl, by simpa using account⟩
  | resumed parent slot delay =>
      exact ⟨_, current, rfl, by simpa using account⟩
  | restarted other =>
      by_cases equal : group = other
      · subst equal
        simp only [Event.advance, if_true] at current
        have again := enabled.2.1
        rw [remaining] at again
        refine ⟨_, current, rfl, ?_⟩
        rw [if_pos rfl]
        exact account.next again
      · simp only [Event.advance, if_neg equal] at current
        have different : other ≠ group := fun same => equal same.symm
        exact ⟨_, current, rfl, by simpa [different] using account⟩
  | ended other =>
      have different : group ≠ other := by
        intro same
        subst same
        exact running rfl
      simp only [Event.advance, if_neg different] at current
      exact ⟨_, current, rfl, by simpa using account⟩

theorem Step.repeatsLeft_of_activates {event : Event}
    (step : Step strips timestamp controller event next)
    {repeats : LoopCount} (activates : event.activates group = some repeats) :
    ∃ after, next.activation group = some after ∧
      after.parent = event.launcher ∧
      RepeatsLeft repeats after.repeatsRemaining 0 := by
  have current := step.activation group
  cases event with
  | launched parent slot child additional =>
      simp only [Event.activates] at activates
      split at activates
      · rename_i same
        cases activates
        simp only [Event.advance, if_pos same] at current
        exact ⟨_, current, rfl, RepeatsLeft.refl repeats⟩
      · cases activates
  | started additional =>
      exact step.enabled.elim
  | rejected parent slot status =>
      cases activates
  | executed parent slot delay =>
      cases activates
  | resumed parent slot delay =>
      cases activates
  | discarded parent slot =>
      cases activates
  | restarted other =>
      cases activates
  | ended other =>
      cases activates

end Controller

namespace Machine

/-- Along a chronicle the repeats of every running activation add up. -/
theorem Chronicle.repeatsLeft {inside : Bool} {machine : Machine}
    (chronicle : Chronicle inside machine) :
    ∀ group repeats opening during,
      Lifetime group repeats machine.history opening during →
        ∃ activation, machine.activation group = some activation ∧
          activation.parent = opening.event.launcher ∧
          RepeatsLeft repeats activation.repeatsRemaining
            (restarts group during) := by
  refine
    chronicle.invariant
      (fun machine =>
        ∀ group repeats opening during,
          Lifetime group repeats machine.history opening during →
            ∃ activation, machine.activation group = some activation ∧
              activation.parent = opening.event.launcher ∧
              RepeatsLeft repeats activation.repeatsRemaining
                (restarts group during))
      ?_ ?_ ?_
  · intro repeats machine origin group requested opening during lifetime
    obtain ⟨nonempty, -, started, rfl, activates⟩ := origin.of_since lifetime
    rw [started, Event.activates] at activates
    split at activates
    · rename_i root
      cases activates
      rw [started]
      refine
        ⟨⟨0, machine.timestamp, repeats, maxGroups⟩, ?_, rfl,
          RepeatsLeft.refl repeats⟩
      rw [origin.activation, if_pos ⟨root, nonempty⟩]
    · cases activates
  · intro before after rests inductionHypothesis group repeats opening during
      lifetime
    rw [rests.history] at lifetime
    rw [rests.activation_eq]
    exact inductionHypothesis group repeats opening during lifetime
  · intro rank before after event _ sound step logged inductionHypothesis
      group repeats opening during lifetime
    rw [logged.history] at lifetime
    rcases since_append_singleton.mp lifetime with
      ⟨activates, rfl, rfl⟩ | ⟨running, shorter, rfl, earlier⟩
    · exact step.repeatsLeft_of_activates activates
    · obtain ⟨activation, found, parent, account⟩ :=
        inductionHypothesis group repeats opening shorter earlier
      obtain ⟨next, found', parent', account'⟩ :=
        step.repeatsLeft found account running
      refine ⟨next, found', parent'.trans parent, ?_⟩
      rw [restarts_append_singleton]
      exact account'

/-- The passes of an activation so far. -/
def passCount (group : Nat) (during : List Moment) : Nat :=
  restarts group during + 1

/-- A running activation has had no more passes than requested. -/
theorem Chronicle.passCount_le {inside : Bool} {machine : Machine}
    (chronicle : Chronicle inside machine) {group : Nat}
    {repeats : LoopCount} {opening : Moment} {during : List Moment}
    (lifetime : Lifetime group repeats machine.history opening during) :
    (machine.runtimes group).active = true ∧
      (repeats ≠ foreverLoopCount →
        passCount group during ≤ repeats.toNat + 1) := by
  obtain ⟨activation, found, -, account⟩ :=
    chronicle.repeatsLeft group repeats opening during lifetime
  refine ⟨(Controller.activation_eq_some found).1, ?_⟩
  intro finite
  rw [RepeatsLeft, if_neg finite] at account
  unfold passCount
  omega

/-- An activation whose last pass observed a boundary ends after all its
passes, and reports the end where it belongs. -/
theorem Chronicle.passCount_of_ended {inside : Bool} {machine : Machine}
    (chronicle : Chronicle inside machine) {group : Nat}
    {repeats : LoopCount} {opening closing : Moment}
    {earlier during later : List Moment}
    (split : machine.history = earlier ++ closing :: later)
    (lifetime : Lifetime group repeats earlier opening during)
    (ended : closing.event = .ended group)
    (observed :
      (closing.before.runtimes group).positiveBoundaryObserved = true) :
    repeats ≠ foreverLoopCount ∧
      passCount group during = repeats.toNat + 1 ∧
      (group = 0 → closing.after.state = .completed) ∧
      (group ≠ 0 →
        (closing.before.runtimes opening.event.launcher).childCount =
            (closing.after.runtimes opening.event.launcher).childCount + 1 ∧
          ∀ other, other ≠ opening.event.launcher →
            (closing.after.runtimes other).childCount =
              (closing.before.runtimes other).childCount) := by
  have closes : closing.event.closes group = true := by
    simp [ended, Event.closes]
  obtain ⟨before, snapshot, -⟩ := chronicle.closing split closes
  obtain ⟨rank, sound, step⟩ := snapshot.step
  rw [← snapshot.history] at lifetime
  obtain ⟨activation, found, parent, account⟩ :=
    snapshot.chronicle.repeatsLeft group repeats opening during lifetime
  obtain ⟨-, -, -, remaining, parentEq⟩ :=
    Controller.activation_eq_some found
  rw [ended] at step
  rw [← snapshot.controller] at observed ⊢
  have exhausted : activation.repeatsRemaining = 0 := by
    rw [← remaining]
    rcases step.enabled.2 with none | unobserved
    · exact none
    · rw [observed] at unobserved
      exact Bool.noConfusion unobserved
  obtain ⟨finite, used⟩ := account.exhausted exhausted
  refine ⟨finite, congrArg Nat.succ used, ?_, ?_⟩
  · intro root
    subst root
    exact step.completed_of_ended
  · intro notRoot
    rw [← parent, ← parentEq]
    exact step.childCount_of_ended sound notRoot

/-- A restart begins the next pass at the timestamp of its `Run`, and leaves
the children counted as they were. -/
theorem Chronicle.restart {inside : Bool} {machine : Machine}
    (chronicle : Chronicle inside machine) {group : Nat} {moment : Moment}
    {earlier later : List Moment}
    (split : machine.history = earlier ++ moment :: later)
    (restarted : moment.event = .restarted group) :
    (moment.after.runtimes group).startTime =
        UInt32.ofNat (machine.clocks.getD moment.run 0) ∧
      ∀ other,
        (moment.after.runtimes other).childCount =
          (moment.before.runtimes other).childCount := by
  have closes : moment.event.closes group = true := by
    simp [restarted, Event.closes]
  obtain ⟨before, snapshot, ready⟩ := chronicle.closing split closes
  obtain ⟨rank, sound, step⟩ := snapshot.step
  rw [restarted] at step
  have current := step.activation group
  have found : before.activation group = some _ :=
    GroupRuntime.activation_of_active ready.active
  simp only [Event.advance, if_true, found, Option.map_some] at current
  rw [← snapshot.timestamp_eq, ← snapshot.controller]
  exact
    ⟨(Controller.activation_eq_some current).2.2.1,
      step.childCount_of_restarted⟩

/-- An activation with `n` additional repeats runs at most `n + 1` passes and
ends only after all of them, or never if it repeats forever. -/
theorem activation_passes {machine : Machine} (reachable : Reachable machine)
    {group : Nat} {repeats : LoopCount} {earlier later : List Moment}
    {opening : Moment}
    (split : machine.history = earlier ++ opening :: later)
    (activates : opening.event.activates group = some repeats) :
    ((∀ moment ∈ later, moment.event ≠ .ended group) →
        (machine.runtimes group).active = true ∧
          (repeats ≠ foreverLoopCount →
            passCount group later ≤ repeats.toNat + 1)) ∧
      (∀ during closing rest, later = during ++ closing :: rest →
        (∀ moment ∈ during, moment.event ≠ .ended group) →
        closing.event = .ended group →
        (closing.before.runtimes group).positiveBoundaryObserved = true →
          repeats ≠ foreverLoopCount ∧
            passCount group during = repeats.toNat + 1 ∧
            (group = 0 → closing.after.state = .completed) ∧
            (group ≠ 0 →
              (closing.before.runtimes
                    opening.event.launcher).childCount =
                  (closing.after.runtimes
                    opening.event.launcher).childCount + 1 ∧
                ∀ other, other ≠ opening.event.launcher →
                  (closing.after.runtimes other).childCount =
                    (closing.before.runtimes other).childCount)) ∧
      ∀ during restart rest, later = during ++ restart :: rest →
        restart.event = .restarted group →
          (restart.after.runtimes group).startTime =
              UInt32.ofNat (machine.clocks.getD restart.run 0) ∧
            ∀ other,
              (restart.after.runtimes other).childCount =
                (restart.before.runtimes other).childCount := by
  have lived : machine.history ≠ [] := by
    rw [split]
    simp
  have chronicle := (legal_of_reachable reachable).chronicle_of_history lived
  refine ⟨?_, ?_, ?_⟩
  · intro running
    exact chronicle.passCount_le ⟨earlier, split, activates, running⟩
  · intro during closing rest shape running ended observed
    have whole :
        machine.history =
          (earlier ++ opening :: during) ++ closing :: rest := by
      rw [split, shape]
      simp
    exact
      chronicle.passCount_of_ended whole
        ⟨earlier, rfl, activates, running⟩ ended observed
  · intro during restart rest shape restarted
    have whole :
        machine.history =
          (earlier ++ opening :: during) ++ restart :: rest := by
      rw [split, shape]
      simp
    exact chronicle.restart whole restarted

/-- Two additional repeats make three passes. -/
theorem activation_passes_of_two_repeats :
    passCount 1 ((repeatedFade.history.drop 2).take 8) =
        (2 : LoopCount).toNat + 1 ∧
      (repeatedFade.history.map Moment.event).drop 10 =
        [.ended 1, .ended 0] :=
  ⟨((activation_passes (reachable_hosted _ _)
      (split_at repeatedFade.history 1 (by decide +kernel))
      (show _ = some 2 by decide +kernel)).2.1 _ _ _
        (split_at (repeatedFade.history.drop 2) 8 (by decide +kernel))
        (by decide +kernel) (by decide +kernel) (by decide +kernel)).2.1,
    by decide +kernel⟩

end Machine

end PrismKit
