import PrismKit.Timeline.Observation
import PrismKit.Timeline.Session

/-!
# The repeat guard

The preflight accepts a repeated group only if it reaches a positive boundary
along calls, and the guard of `CompleteReadyGroups` expects that every pass of
a repeated group has observed one.  A pass that has not observed its boundary
yet still has it ahead: in an undispatched instruction, in timed work, or in an
active child that reaches one itself.
-/

namespace PrismKit

open Library Relation

/-- Whether the event is a call that found its target already active. -/
def Event.refused : Event → Bool
  | .rejected _ _ .alreadyActiveGroup => true
  | _ => false

namespace Controller

variable {rank : Nat → Nat} {controller next : Controller}
  {strips : StripId → Strip} {timestamp : UInt32} {event : Event}

def Promising (controller : Controller) (index : Nat) : Prop :=
  declaresBoundary (controller.instructions index) = true ∨
    (controller.instructions index).isRunGroup = true ∧
      controller.ReachesMark
        (findGroup controller.groups controller.groupCount
          (controller.instructions index).getTargetGroupId)

/-- The pass of the group has observed a positive boundary or still has one
ahead. -/
inductive Promise (controller : Controller) (group : Nat) : Prop
  | observed
      (flag : (controller.runtimes group).positiveBoundaryObserved = true)
  | undispatched (position : Nat)
      (ahead : (controller.runtimes group).cursor ≤ position)
      (inRange : position < controller.size group)
      (promising : controller.Promising (controller.slotAt group position))
  | timed (slot : Nat) (outstanding : (group, slot) ∈ controller.outstanding)
  | called (child : Nat) (isChild : controller.isChild group child = true)
      (reaches : controller.ReachesMark child)

structure Guarded (controller : Controller) : Prop where
  repeats :
    ∀ group, (controller.runtimes group).active = true →
      (controller.runtimes group).repeatsRemaining ≠ 0 →
        controller.ReachesMark group
  fresh :
    ∀ group, (controller.runtimes group).active = true →
      controller.Fresh group
  chain :
    ∀ group, (controller.runtimes group).active = true → group ≠ 0 →
      (controller.runtimes group).positiveBoundaryObserved = true →
        (controller.runtimes
          (controller.runtimes group).parentGroupIndex).positiveBoundaryObserved =
            true
  promised :
    ∀ group, (controller.runtimes group).active = true →
      controller.ReachesMark group → controller.Promise group

theorem Guarded.observed (guarded : controller.Guarded)
    (sound : controller.Sound rank) {group : Nat}
    (ready : controller.Ready group) (reaches : controller.ReachesMark group) :
    (controller.runtimes group).positiveBoundaryObserved = true := by
  cases guarded.promised group ready.active reaches with
  | observed flag =>
      exact flag
  | undispatched position ahead inRange promising =>
      have dispatched := ready.dispatched
      omega
  | timed slot outstanding =>
      exact absurd outstanding (sound.work.not_mem ready.resumed)
  | called child isChild reaches =>
      have bounded := sound.committed.bounded
      simp only [Controller.isChild, Bool.and_eq_true, decide_eq_true_eq]
        at isChild
      exact
        absurd isChild.2
          (sound.tree.no_child bounded
            (Nat.lt_of_lt_of_le ready.below bounded) ready.ended isChild.1)

theorem SameProgram.promising_iff {before after : Controller}
    (same : SameProgram before after) (index : Nat) :
    after.Promising index ↔ before.Promising index := by
  have configuration := same.configuration index
  simp only [Promising, declaresBoundary, configuration.getMark_eq,
    configuration.hasPositiveSchedulingBoundary_eq, configuration.isRunGroup_eq,
    configuration.getTargetGroupId_eq, same.groups, same.groupCount,
    same.reachesMark_iff]

theorem Committed.promising (committed : Committed rank controller)
    {group : Nat} (below : group < controller.groupCount)
    (reaches : controller.ReachesMark group) :
    ∃ position, position < controller.size group ∧
      controller.Promising (controller.slotAt group position) := by
  obtain ⟨target, path, marked⟩ := reaches
  cases path.cases_head with
  | inl here =>
      subst here
      obtain ⟨-, index, indexBelow, declares, label⟩ := marked
      obtain ⟨position, inRange, slotEq⟩ :=
        committed.exists_slotAt below indexBelow label
      refine ⟨position, inRange, Or.inl ?_⟩
      rw [slotEq]
      exact declares
  | inr further =>
      obtain ⟨child, edge, rest⟩ := further
      obtain ⟨-, childBelow, index, indexBelow, isRun, label, target⟩ := edge
      obtain ⟨position, inRange, slotEq⟩ :=
        committed.exists_slotAt below indexBelow label
      have found :
          findGroup controller.groups controller.groupCount
              (controller.instructions index).getTargetGroupId =
            child :=
        (findGroup_eq_iff committed.injective childBelow committed.bounded
          _).mpr target.symm
      refine ⟨position, inRange, Or.inr ?_⟩
      rw [slotEq, found]
      exact ⟨isRun, _, rest, marked⟩

/-! ### Steps keep the promises -/

/-- Every Fade and Gradient of positive duration addresses a pixel of its
strip. -/
def Lit (strips : StripId → Strip) (controller : Controller) : Prop :=
  ∀ index, index < controller.instructionCount →
    (controller.instructions index).hasPositiveSchedulingBoundary = true →
      ∃ id pixel,
        (controller.instructions index).timedPixel = some (id, pixel) ∧
          pixel < (strips id).ledCount

theorem Lit.congr {other : Controller} {strips' : StripId → Strip}
    (lit : Lit strips controller)
    (count : other.instructionCount = controller.instructionCount)
    (configuration :
      ∀ index,
        (other.instructions index).SameConfiguration
          (controller.instructions index))
    (leds : ∀ id, (strips' id).ledCount = (strips id).ledCount) :
    Lit strips' other := by
  intro index below timed
  rw [count] at below
  rw [(configuration index).hasPositiveSchedulingBoundary_eq] at timed
  obtain ⟨id, pixel, addresses, inStrip⟩ := lit index below timed
  refine ⟨id, pixel, ?_, ?_⟩
  · rw [(configuration index).timedPixel_eq]
    exact addresses
  · rw [leds]
    exact inStrip

private theorem timed_of_declares {slot : InstructionMemorySlot}
    (unmarked : ¬ slot.getMark > 0) (declares : declaresBoundary slot = true) :
    slot.hasPositiveSchedulingBoundary = true := by
  simpa [declaresBoundary, unmarked] using declares

/-- A `RunGroup` declares nothing but its mark. -/
private theorem not_timed_of_isRunGroup {slot : InstructionMemorySlot}
    (isRun : slot.isRunGroup = true) :
    slot.hasPositiveSchedulingBoundary = false := by
  rcases slot with ⟨_ | instr⟩
  · rfl
  · rcases instr with ⟨mark, strip, controller, groupId, kind⟩
    cases kind with
    | runGroup target repeats =>
        rfl
    | _ =>
        exact Bool.noConfusion isRun

private theorem Step.promise_of_dispatch (sound : controller.Sound rank)
    (loadable : controller.Loadable) (lit : Lit strips controller)
    (guarded : controller.Guarded)
    (step : Step strips timestamp controller event next)
    (accepted : event.refused = false)
    {group : Nat} (due : controller.Due timestamp group)
    (dispatches : event.dispatches = some (group, controller.nextSlot group))
    (quiet : (event.opens group || event.closes group) = false)
    (promising : controller.Promising (controller.nextSlot group)) :
    next.Promise group := by
  by_cases marked :
      (controller.instructions (controller.nextSlot group)).getMark > 0
  · -- The mark is observed with the dispatch.
    apply Promise.observed
    have observes : event.observes controller = some group := by
      cases event with
      | launched parent slot child repeats =>
          cases dispatches
          exact if_pos marked
      | rejected parent slot status =>
          cases dispatches
          exact if_pos marked
      | executed parent slot delay =>
          cases dispatches
          exact if_pos marked
      | _ =>
          cases dispatches
    rw [step.flag, quiet, sound.tree.observedBy_self due.active observes]
    simp
  · have enabled := step.enabled
    cases event with
    | launched parent slot child repeats =>
        cases dispatches
        obtain ⟨-, -, -, isRun, -, target, -⟩ := enabled
        rcases promising with declares | ⟨-, reaches⟩
        · have timed := timed_of_declares marked declares
          rw [not_timed_of_isRunGroup isRun] at timed
          exact Bool.noConfusion timed
        · rw [← target] at reaches
          apply Promise.called child
          · rw [step.isChild_iff]
            exact Or.inl ⟨_, _, rfl⟩
          · rw [step.sameProgram.reachesMark_iff]
            exact reaches
    | rejected parent slot status =>
        obtain ⟨-, -, -, -, refused, -⟩ := enabled
        subst refused
        exact Bool.noConfusion accepted
    | executed parent slot delay =>
        cases dispatches
        obtain ⟨-, -, -, notRun⟩ := enabled
        rcases promising with declares | ⟨isRun, -⟩
        · have timed := timed_of_declares marked declares
          obtain ⟨writes, shown, executes⟩ := step.executes (Or.inr rfl)
          have stored :=
            (sound.committed.slotAt_mem due.below due.remaining).1
          obtain ⟨instr, active, bound⟩ := loadable.bound _ stored
          obtain ⟨id, pixel, addresses, inStrip⟩ := lit _ stored timed
          have fresh :=
            guarded.fresh group due.active _ (Nat.le_refl _) due.remaining
          have positive :
              ((controller.instructions (controller.nextSlot group)).execute
                strips controller.refreshPeriodMs timestamp).2.1 ≠ 0 :=
            InstructionMemorySlot.execute_delay_ne_zero loadable.period_pos
              fresh active bound timed addresses inStrip
          rw [executes] at positive
          apply Promise.timed (controller.nextSlot group)
          rw [step.mem_outstanding_iff sound.work]
          exact Or.inl ⟨delay, positive, rfl⟩
        · rw [notRun] at isRun
          exact Bool.noConfusion isRun
    | _ =>
        cases dispatches

private theorem Guarded.promise_step (guarded : controller.Guarded)
    (sound : controller.Sound rank) (loadable : controller.Loadable)
    (lit : Lit strips controller)
    (step : Step strips timestamp controller event next)
    (accepted : event.refused = false)
    {group : Nat} (active : (next.runtimes group).active = true)
    (reaches : controller.ReachesMark group) : next.Promise group := by
  have below := (sound.step step).tree.inRange group active
  rw [step.sameProgram.groupCount] at below
  -- What is kept while the group runs and dispatches nothing promising.
  have kept :
      (controller.runtimes group).active = true →
        (event.opens group || event.closes group) = false →
          (∀ position, (controller.runtimes group).cursor ≤ position →
            position < controller.size group →
              controller.Promising (controller.slotAt group position) →
                next.Promise group) →
            next.Promise group := by
    intro wasActive quiet ahead
    have flag := step.flag group
    rw [quiet] at flag
    simp only [Bool.false_eq_true, if_false] at flag
    cases guarded.promised group wasActive reaches with
    | observed observed =>
        apply Promise.observed
        rw [flag, observed, Bool.true_or]
    | undispatched position later inRange promising =>
        exact ahead position later inRange promising
    | timed slot outstanding =>
        by_cases done : event = .resumed group slot 0
        · -- The resume is itself a positive boundary.
          apply Promise.observed
          have observes : event.observes controller = some group := by
            rw [done]
            rfl
          rw [flag, sound.tree.observedBy_self wasActive observes,
            Bool.or_true]
        · apply Promise.timed slot
          rw [step.mem_outstanding_iff sound.work]
          exact Or.inr ⟨outstanding, done⟩
    | called child isChild childReaches =>
        by_cases done : event = .ended child
        · -- The child observed a boundary, and its parent with it.
          have ready : controller.Ready child :=
            step.ready_of_closes (by rw [done]; simp [Event.closes])
          simp only [Controller.isChild, Bool.and_eq_true, decide_eq_true_eq]
            at isChild
          have notRoot : child ≠ 0 := by
            intro root
            have sentinel := (sound.tree.root (root ▸ isChild.1)).1
            have bounded := sound.committed.bounded
            rw [← root, isChild.2] at sentinel
            omega
          have observed := guarded.observed sound ready childReaches
          have above := guarded.chain child isChild.1 notRoot observed
          rw [isChild.2] at above
          apply Promise.observed
          rw [flag, above, Bool.true_or]
        · apply Promise.called child
          · rw [step.isChild_iff]
            exact Or.inr ⟨isChild, done⟩
          · rw [step.sameProgram.reachesMark_iff]
            exact childReaches
  cases step.passStep group with
  | opened activation opens closes quiet after cursor startTime =>
      obtain ⟨position, inRange, promising⟩ :=
        sound.committed.promising below reaches
      apply Promise.undispatched position
      · rw [(activation_eq_some after).2.1, cursor]
        exact Nat.zero_le position
      · rw [step.sameProgram.size_eq]
        exact inRange
      · rw [step.sameProgram.promising_iff, step.sameProgram.slotAt_eq]
        exact promising
  | ended event_eq after =>
      have inactive := GroupRuntime.activation_eq_none_iff.mp after
      rw [active] at inactive
      exact Bool.noConfusion inactive
  | dispatched activation due dispatches opens closes before after =>
      have quiet : (event.opens group || event.closes group) = false := by
        rw [opens, closes]
        rfl
      apply kept due.active quiet
      intro position later inRange promising
      by_cases here : position = (controller.runtimes group).cursor
      · rw [here] at promising
        exact
          step.promise_of_dispatch sound loadable lit guarded accepted due
            dispatches quiet promising
      · apply Promise.undispatched position
        · rw [(activation_eq_some after).2.1]
          have cursor := (activation_eq_some before).2.1
          show activation.cursor + 1 ≤ position
          omega
        · rw [step.sameProgram.size_eq]
          exact inRange
        · rw [step.sameProgram.promising_iff, step.sameProgram.slotAt_eq]
          exact promising
  | untouched opens closes quiet after =>
      have now := GroupRuntime.activation_of_active active
      have before : controller.activation group = some _ := after.symm.trans now
      obtain ⟨wasActive, cursor, -⟩ := activation_eq_some before
      apply kept wasActive
      · rw [opens, closes]
        rfl
      · intro position later inRange promising
        apply Promise.undispatched position
        · exact Nat.le_trans (Nat.le_of_eq cursor.symm) later
        · rw [step.sameProgram.size_eq]
          exact inRange
        · rw [step.sameProgram.promising_iff, step.sameProgram.slotAt_eq]
          exact promising

/-- A boundary observed by a child is observed by its parent after every
step. -/
private theorem Guarded.chain_step (guarded : controller.Guarded)
    (sound : controller.Sound rank)
    (step : Step strips timestamp controller event next) {group : Nat}
    (active : (next.runtimes group).active = true) (notRoot : group ≠ 0)
    (observed : (next.runtimes group).positiveBoundaryObserved = true) :
    (next.runtimes
      (next.runtimes group).parentGroupIndex).positiveBoundaryObserved =
        true := by
  have flag := step.flag group
  rw [observed] at flag
  split at flag
  · exact Bool.noConfusion flag
  · rename_i running
    -- The group ran before the step, below the same parent.
    have before :
        (controller.runtimes group).active = true ∧
          (controller.runtimes group).parentGroupIndex =
            (next.runtimes group).parentGroupIndex := by
      cases step.passStep group with
      | opened activation opens closes quiet after cursor startTime =>
          exact absurd (by rw [opens]; rfl) running
      | ended event_eq after =>
          have inactive := GroupRuntime.activation_eq_none_iff.mp after
          rw [active] at inactive
          exact Bool.noConfusion inactive
      | dispatched activation due dispatches opens closes before after =>
          refine ⟨due.active, ?_⟩
          rw [(activation_eq_some before).2.2.2.2,
            (activation_eq_some after).2.2.2.2]
          rfl
      | untouched opens closes quiet after =>
          have now := GroupRuntime.activation_of_active active
          have before : controller.activation group = some _ :=
            after.symm.trans now
          exact
            ⟨(activation_eq_some before).1,
              (activation_eq_some before).2.2.2.2⟩
    obtain ⟨wasActive, sameParent⟩ := before
    rw [← sameParent]
    have isChild :
        controller.isChild (controller.runtimes group).parentGroupIndex
          group = true := by
      simp [Controller.isChild, wasActive]
    -- A group with an active child neither begins nor ends a pass.
    have parentRuns :
        (event.opens (controller.runtimes group).parentGroupIndex ||
          event.closes (controller.runtimes group).parentGroupIndex) =
            false := by
      rw [Bool.or_eq_false_iff]
      constructor
      · by_contra opens
        have idle := (sound.idle_of_opens step (by simpa using opens)).2 group
        rw [isChild] at idle
        exact Bool.noConfusion idle
      · by_contra closes
        have ready := step.ready_of_closes (by simpa using closes)
        have bounded := sound.committed.bounded
        exact
          sound.tree.no_child bounded
            (Nat.lt_of_lt_of_le ready.below bounded) ready.ended wasActive rfl
    rw [step.flag, parentRuns]
    simp only [Bool.false_eq_true, if_false, Bool.or_eq_true]
    rcases Bool.or_eq_true_iff.mp flag.symm with earlier | now
    · exact Or.inl (guarded.chain group wasActive notRoot earlier)
    · exact
        Or.inr
          (sound.tree.observedBy_parent sound.committed.bounded notRoot now)

/-- The repeats of a running pass come from a checked request. -/
private theorem Guarded.repeats_step (guarded : controller.Guarded)
    (sound : controller.Sound rank)
    (step : Step strips timestamp controller event next) {group : Nat}
    (active : (next.runtimes group).active = true)
    (again : (next.runtimes group).repeatsRemaining ≠ 0) :
    controller.ReachesMark group := by
  have after := (step.activation group).symm.trans
    (GroupRuntime.activation_of_active active)
  have enabled := step.enabled
  have earlier :
      ∀ activation, controller.activation group = some activation →
        activation.repeatsRemaining ≠ 0 → controller.ReachesMark group := by
    intro activation found left
    obtain ⟨wasActive, -, -, repeats, -⟩ := activation_eq_some found
    apply guarded.repeats group wasActive
    rw [repeats]
    exact left
  have consumed :
      ∀ parent,
        (if group = parent then
            (controller.activation group).map Activation.consume
          else
            controller.activation group) =
          some
            ⟨(next.runtimes group).cursor, (next.runtimes group).startTime,
              (next.runtimes group).repeatsRemaining,
              (next.runtimes group).parentGroupIndex⟩ →
          controller.ReachesMark group := by
    intro parent result
    split at result
    · obtain ⟨activation, found, same⟩ := Option.map_eq_some_iff.mp result
      apply earlier activation found
      have repeats := congrArg Activation.repeatsRemaining same
      rw [Activation.consume] at repeats
      simp only at repeats
      rw [repeats]
      exact again
    · exact earlier _ result again
  cases event with
  | launched parent slot child repeats =>
      obtain ⟨due, -, slotEq, isRun, requested, target, -⟩ := enabled
      by_cases equal : group = child
      · -- The preflight has checked the repeats of the call.
        simp only [Event.advance, if_pos equal, Option.some.injEq,
          Activation.mk.injEq] at after
        rw [← after.2.2.1, requested] at again
        have stored := (sound.committed.slotAt_mem due.below due.remaining).1
        have reaches :=
          sound.committed.repeats slot (slotEq ▸ stored) isRun again
        rw [← target, ← equal] at reaches
        exact reaches
      · simp only [Event.advance, if_neg equal] at after
        exact consumed parent after
  | rejected parent slot status =>
      exact consumed parent after
  | executed parent slot delay =>
      exact consumed parent after
  | resumed parent slot delay =>
      exact earlier _ after again
  | restarted other =>
      by_cases equal : group = other
      · obtain ⟨ready, left, -⟩ := enabled
        rw [equal]
        exact guarded.repeats other ready.active left
      · simp only [Event.advance, if_neg equal] at after
        exact earlier _ after again
  | ended other =>
      by_cases equal : group = other
      · simp [Event.advance, equal] at after
      · simp only [Event.advance, if_neg equal] at after
        exact earlier _ after again
  | started repeats =>
      exact enabled.elim
  | discarded other slot =>
      exact enabled.elim

/-- Steps keep what the guard relies on, as long as no call is refused. -/
theorem Guarded.step (guarded : controller.Guarded)
    (sound : controller.Sound rank) (loadable : controller.Loadable)
    (lit : Lit strips controller)
    (step : Step strips timestamp controller event next)
    (accepted : event.refused = false) :
    next.Guarded := by
  constructor
  · intro group active again
    rw [step.sameProgram.reachesMark_iff]
    exact guarded.repeats_step sound step active again
  · intro group active
    exact Fresh.step sound step active (guarded.fresh group)
  · intro group active notRoot observed
    exact guarded.chain_step sound step active notRoot observed
  · intro group active reaches
    rw [step.sameProgram.reachesMark_iff] at reaches
    exact
      guarded.promise_step sound loadable lit step accepted active reaches

end Controller

/-! ### Whole runs -/

/-- The guard of `CompleteReadyGroups` finds what it expects: a pass that ends
with repeats left has observed a positive boundary. -/
def Moment.Repeatable (moment : Moment) : Prop :=
  ∀ group, moment.event.closes group = true →
    (moment.before.runtimes group).repeatsRemaining ≠ 0 →
      (moment.before.runtimes group).positiveBoundaryObserved = true

namespace Machine

/-- Every Fade and Gradient of positive duration addresses a pixel of its
strip. -/
def Lit (machine : Machine) : Prop :=
  Controller.Lit machine.strips machine.toController

/-- No call of a group in the log was refused as already active. -/
def Unrefused (log : List Moment) : Prop :=
  ∀ moment ∈ log, moment.event.refused = false

theorem Resting.lit {before after : Machine} (rests : Resting before after) :
    after.Lit ↔ before.Lit := by
  unfold Lit Controller.Lit
  rw [rests.instructions, rests.instructionCount, rests.strips]

theorem Logged.lit {before after : Machine} {event : Event}
    (logged : Logged before after event)
    (step :
      before.toController.Step before.strips before.timestamp event
        after.toController) :
    after.Lit ↔ before.Lit := by
  have same := step.sameProgram
  constructor
  · intro lit
    exact
      lit.congr same.instructionCount.symm
        (fun index => (same.configuration index).symm)
        fun id => (logged.around.leds id).symm
  · intro lit
    exact lit.congr same.instructionCount same.configuration logged.around.leds

private theorem Origin.guarded {repeats : LoopCount} {machine : Machine}
    (origin : Origin repeats machine) : machine.Guarded := by
  obtain ⟨rank, sound⟩ := origin.sound
  have root :
      ∀ group, (machine.runtimes group).active = true →
        group = 0 ∧ machine.size 0 ≠ 0 ∧
          (machine.runtimes group).cursor = 0 ∧
          (machine.runtimes group).repeatsRemaining = repeats := by
    intro group active
    have found := origin.activation group
    by_cases isRoot : group = 0 ∧ machine.size 0 ≠ 0
    · rw [if_pos isRoot] at found
      obtain ⟨-, cursor, -, left, -⟩ := Controller.activation_eq_some found
      exact ⟨isRoot.1, isRoot.2, cursor, left⟩
    · rw [if_neg isRoot] at found
      have inactive := GroupRuntime.activation_eq_none_iff.mp found
      rw [active] at inactive
      exact Bool.noConfusion inactive
  constructor
  · intro group active again
    obtain ⟨rfl, -, -, same⟩ := root group active
    exact origin.repeated (same ▸ again)
  · intro group active position _ inRange
    obtain ⟨rfl, nonempty, -, -⟩ := root group active
    exact origin.fresh nonempty position inRange
  · intro group active notRoot
    exact absurd (root group active).1 notRoot
  · intro group active reaches
    obtain ⟨rfl, -, cursor, -⟩ := root group active
    obtain ⟨position, inRange, promising⟩ :=
      sound.committed.promising (sound.tree.inRange 0 active) reaches
    apply Controller.Promise.undispatched position _ inRange promising
    rw [cursor]
    exact Nat.zero_le position

private theorem Resting.guarded {before after : Machine}
    (rests : Resting before after) (guarded : before.Guarded) :
    after.Guarded := by
  have reaches : after.ReachesMark = before.ReachesMark := by
    unfold Controller.ReachesMark
    rw [rests.instructions, rests.instructionCount, rests.groups,
      rests.groupCount]
  constructor
  · rw [rests.runtimes, reaches]
    exact guarded.repeats
  · unfold Controller.Fresh
    rw [rests.runtimes, rests.instructions, rests.slotAt_eq, rests.size_eq]
    exact guarded.fresh
  · rw [rests.runtimes]
    exact guarded.chain
  · intro group active reached
    rw [rests.runtimes] at active
    rw [reaches] at reached
    cases guarded.promised group active reached with
    | observed flag =>
        apply Controller.Promise.observed
        rw [rests.runtimes]
        exact flag
    | undispatched position ahead inRange promising =>
        apply Controller.Promise.undispatched position
        · rw [rests.runtimes]
          exact ahead
        · rw [rests.size_eq]
          exact inRange
        · unfold Controller.Promising
          rw [rests.slotAt_eq, rests.instructions, rests.groups,
            rests.groupCount, reaches]
          exact promising
    | timed slot outstanding =>
        apply Controller.Promise.timed slot
        rw [rests.outstanding_eq]
        exact outstanding
    | called child isChild childReaches =>
        apply Controller.Promise.called child
        · rw [rests.isChild_eq]
          exact isChild
        · rw [reaches]
          exact childReaches

private theorem repeatable_of_step {rank : Nat → Nat} {before after : Machine}
    {event : Event} (guarded : before.Guarded) (sound : before.Sound rank)
    (step :
      before.toController.Step before.strips before.timestamp event
        after.toController)
    (accepted : event.refused = false) :
    (∀ group, event.closes group = true →
        (before.runtimes group).repeatsRemaining ≠ 0 →
          (before.runtimes group).positiveBoundaryObserved = true) ∧
      event.failure before.toController = .success := by
  have observed :
      ∀ group, event.closes group = true →
        (before.runtimes group).repeatsRemaining ≠ 0 →
          (before.runtimes group).positiveBoundaryObserved = true := by
    intro group closes again
    have ready := step.ready_of_closes closes
    exact
      guarded.observed sound ready (guarded.repeats group ready.active again)
  refine ⟨observed, ?_⟩
  have enabled := step.enabled
  cases event with
  | rejected parent slot status =>
      obtain ⟨-, -, -, -, refused, -⟩ := enabled
      subst refused
      exact Bool.noConfusion accepted
  | ended group =>
      rcases enabled.2 with exhausted | unobserved
      · exact if_neg (not_not.mpr exhausted)
      · have closes : (Event.ended group).closes group = true := by
          simp [Event.closes]
        apply if_neg
        intro again
        rw [observed group closes again] at unobserved
        exact Bool.noConfusion unobserved
  | _ =>
      rfl

/-- Along a chronicle without refused calls the guard always holds. -/
theorem Chronicle.guarded {inside : Bool} {machine : Machine}
    (chronicle : Chronicle inside machine) (lit : machine.Lit)
    (unrefused : Unrefused machine.history) :
    machine.Guarded ∧
      ∀ moment ∈ machine.history,
        moment.Repeatable ∧
          moment.event.failure moment.before = .success := by
  revert lit unrefused
  refine
    chronicle.invariant
      (fun machine =>
        machine.Lit → Unrefused machine.history →
          machine.Guarded ∧
            ∀ moment ∈ machine.history,
              moment.Repeatable ∧
                moment.event.failure moment.before = .success)
      ?_ ?_ ?_
  · intro repeats machine origin lit unrefused
    refine ⟨origin.guarded, ?_⟩
    intro moment member
    obtain ⟨before, history⟩ := origin.history
    rw [history] at member
    split at member
    · exact absurd member List.not_mem_nil
    · rw [List.mem_singleton.mp member]
      refine ⟨?_, rfl⟩
      intro group closes
      exact absurd closes (by simp [Event.closes])
  · intro before after rests inductionHypothesis lit unrefused
    rw [rests.history] at unrefused ⊢
    obtain ⟨guarded, repeatable⟩ :=
      inductionHypothesis (rests.lit.mp lit) unrefused
    exact ⟨rests.guarded guarded, repeatable⟩
  · intro rank before after event earlier sound step logged
      inductionHypothesis lit unrefused
    rw [logged.history] at unrefused ⊢
    have litBefore := (logged.lit step).mp lit
    obtain ⟨guarded, repeatable⟩ :=
      inductionHypothesis litBefore fun moment member =>
        unrefused moment (List.mem_append_left _ member)
    have accepted : event.refused = false :=
      unrefused ⟨before.clocks.length - 1, event, before.toController,
        after.toController⟩ (List.mem_append_right _ List.mem_cons_self)
    refine
      ⟨guarded.step sound earlier.loadable litBefore step accepted, ?_⟩
    intro moment member
    rcases List.mem_append.mp member with old | new
    · exact repeatable moment old
    · rw [List.mem_singleton.mp new]
      exact repeatable_of_step guarded sound step accepted

/-- Moves that record no failure leave the latched status alone. -/
private theorem Chronicle.runStatus_eq {before after : Machine}
    (chronicle : Chronicle true before)
    (moves : ReflTransGen (Move before.timestamp) before after)
    (clean :
      ∀ moment ∈ after.history,
        moment.event.failure moment.before = .success) :
    after.runStatus = before.runStatus := by
  revert clean
  refine
    chronicle.moves_invariant
      (fun machine =>
        (∀ moment ∈ machine.history,
            moment.event.failure moment.before = .success) →
          machine.runStatus = before.runStatus)
      moves (fun _ => rfl) ?_
  intro rank current next event _ _ _ _ logged inductionHypothesis clean
  rw [logged.history] at clean
  have failure := clean _ (List.mem_append_right _ List.mem_cons_self)
  simp only at failure
  have earlier := inductionHypothesis fun moment member =>
    clean moment (List.mem_append_left _ member)
  rw [logged.runStatus, failure, earlier]
  exact if_neg (by simp)

/-- When every Fade and Gradient of positive duration addresses an existing
pixel and no `RunGroup` was refused, `Run` does not return `kInvalidProgram`:
every pass that completed with repeats left had observed a positive
boundary. -/
theorem run_ne_invalidProgram {machine after : Machine} {now : Nat}
    {status : ControllerStatus} (reachable : Reachable machine)
    (lit : machine.Lit)
    (performs : Performs (.run now) machine after status)
    (unrefused : Unrefused after.history) :
    status ≠ .invalidProgram ∧
      ∀ moment ∈ after.history, moment.Repeatable := by
  have legal := legal_of_reachable reachable
  obtain ⟨fuel, runs⟩ := performs
  by_cases active : machine.state = .active
  · have chronicle := legal.chronicle (by rw [active]; simp)
    have begun := Chronicle.began machine now chronicle active
    obtain ⟨settled, running, moves, -, -, rfl, rfl⟩ :=
      chronicle.run active runs
    rw [← timestamp_beginRun] at moves
    have litSettled : settled.Lit :=
      begun.moves_invariant Lit moves
        ((resting_beginRun machine now).lit.mpr lit)
        fun rank current next event _ _ _ step logged litCurrent =>
          (logged.lit step).mpr litCurrent
    rw [(adjusted_conclusion (machine.getTimestamp now) settled).history]
      at unrefused ⊢
    obtain ⟨-, repeatable⟩ := running.guarded litSettled unrefused
    refine ⟨?_, fun moment member => (repeatable moment member).1⟩
    rw [begun.runStatus_eq moves fun moment member =>
      (repeatable moment member).2]
    exact ControllerStatus.noConfusion
  · simp only [run, ne_eq, active, not_false_eq_true, if_true,
      Option.some.injEq, Prod.mk.injEq] at runs
    obtain ⟨rfl, rfl⟩ := runs
    refine ⟨ControllerStatus.noConfusion, ?_⟩
    intro moment member
    have chronicle :=
      legal.chronicle_of_history (List.ne_nil_of_mem member)
    exact ((chronicle.guarded lit unrefused).2 moment member).1

/-- The second of three passes of a Fade is about to complete. -/
def fading : Machine :=
  hosted
    [{ kind := .runGroup 5 2 },
      { groupId := 5, kind := .fade { percent := 50, durationMs := 30 } }]
    [.start 0 0, .run 0, .run 30]

private theorem lit_fading : fading.Lit := by
  intro index below timed
  have stored : fading.instructionCount = 2 := by
    decide +kernel
  rw [stored] at below
  rcases (show index = 0 ∨ index = 1 by omega) with first | second
  · subst first
    exact absurd timed (by decide +kernel)
  · subst second
    exact ⟨0, 0, by decide +kernel, by decide +kernel⟩

theorem run_ne_invalidProgram_of_fading :
    ∃ after status,
      Performs (.run 60) fading after status ∧ status ≠ .invalidProgram ∧
        ∀ moment ∈ after.history, moment.Repeatable := by
  have returns : (fading.run 40 60).isSome = true := by
    decide +kernel
  have events :
      (fading.run 40 60).all
          (fun result =>
            result.1.history.all fun moment => !moment.event.refused) =
        true := by
    decide +kernel
  obtain ⟨⟨after, status⟩, runs⟩ := Option.isSome_iff_exists.mp returns
  rw [runs] at events
  have unrefused : Unrefused after.history := by
    simpa only [Unrefused, Option.all_some, List.all_eq_true,
      Bool.not_eq_true'] using events
  have performs : Performs (.run 60) fading after status :=
    ⟨40, runs⟩
  have reachable : Reachable fading :=
    reachable_hosted _ _
  exact
    ⟨after, status, performs,
      run_ne_invalidProgram reachable lit_fading performs unrefused⟩

end Machine

end PrismKit
