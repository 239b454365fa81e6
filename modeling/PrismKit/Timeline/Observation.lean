import PrismKit.Timeline.Completion

/-!
# Observed boundaries and replay state

What a step does to the boundary flags and to the stored instructions.  A
boundary that a group observes is observed by all groups above it, and the
instructions a pass has not dispatched yet are still in the state their replay
reset left them in.
-/

namespace PrismKit

open Library

/-- The group whose positive boundary a step from `controller` observes. -/
def Event.observes (controller : Controller) : Event → Option Nat
  | .resumed group _ _ => some group
  | .launched parent slot _ _ =>
      if (controller.instructions slot).getMark > 0 then some parent else none
  | .rejected parent slot _ =>
      if (controller.instructions slot).getMark > 0 then some parent else none
  | .executed group slot _ =>
      if (controller.instructions slot).getMark > 0 then some group else none
  | _ => none

namespace Controller

variable {rank : Nat → Nat} {controller next : Controller}
  {strips : StripId → Strip} {timestamp : UInt32} {event : Event}

theorem mem_ancestors_self {group : Nat} (below : group < controller.groupCount)
    (active : (controller.runtimes group).active = true) :
    group ∈ controller.ancestors controller.groupCount group := by
  have positive : controller.groupCount ≠ 0 := by omega
  obtain ⟨fuel, shape⟩ := Nat.exists_eq_succ_of_ne_zero positive
  rw [shape, ancestors, if_pos ⟨below, active⟩]
  exact List.mem_cons_self

/-- The sentinel parent of the root has no ancestors. -/
private theorem ancestors_maxGroups
    (bounded : controller.groupCount ≤ maxGroups) (fuel : Nat) :
    controller.ancestors fuel maxGroups = [] := by
  cases fuel with
  | zero =>
      rfl
  | succ fuel =>
      rw [ancestors, if_neg]
      intro valid
      have below := valid.1
      omega

/-- With enough fuel the ancestors are closed under parent links. -/
private theorem Tree.mem_ancestors_parent (tree : Tree rank controller)
    (bounded : controller.groupCount ≤ maxGroups) {group : Nat}
    (notRoot : group ≠ 0) (fuel : Nat) :
    ∀ start,
      ((controller.runtimes start).active = true →
        (controller.runtimes start).depth.toNat < fuel) →
      group ∈ controller.ancestors fuel start →
        (controller.runtimes group).parentGroupIndex ∈
          controller.ancestors fuel start := by
  induction fuel with
  | zero =>
      intro start _ member
      exact absurd member List.not_mem_nil
  | succ fuel inductionHypothesis =>
      intro start deep member
      rw [ancestors] at member ⊢
      split at member
      · rename_i condition
        rw [if_pos condition]
        have active := condition.2
        have shallow := deep active
        by_cases isRoot : start = 0
        · rw [isRoot, (tree.root (isRoot ▸ active)).1,
            ancestors_maxGroups bounded] at member
          exact absurd (List.mem_singleton.mp member) notRoot
        · obtain ⟨calls, parentActive, deeper⟩ :=
            tree.parent start active isRoot
          apply List.mem_cons_of_mem
          rcases List.mem_cons.mp member with same | above
          · subst same
            have positive : fuel ≠ 0 := by omega
            obtain ⟨less, shape⟩ := Nat.exists_eq_succ_of_ne_zero positive
            rw [shape, ancestors, if_pos ⟨calls.1, parentActive⟩]
            exact List.mem_cons_self
          · apply inductionHypothesis _ _ above
            intro _
            omega
      · exact absurd member List.not_mem_nil

def observedBy (controller : Controller) (event : Event) (group : Nat) :
    Bool :=
  match event.observes controller with
  | some source =>
      decide (group ∈ controller.ancestors controller.groupCount source)
  | none => false

@[simp]
theorem observedBy_restarted (restarted group : Nat) :
    controller.observedBy (.restarted restarted) group = false :=
  rfl

@[simp]
theorem observedBy_ended (ended group : Nat) :
    controller.observedBy (.ended ended) group = false :=
  rfl

theorem Tree.observedBy_self (tree : Tree rank controller) {group : Nat}
    (active : (controller.runtimes group).active = true)
    (observes : event.observes controller = some group) :
    controller.observedBy event group = true := by
  simp only [observedBy, observes, decide_eq_true_eq]
  exact mem_ancestors_self (tree.inRange group active) active

theorem Tree.observedBy_parent (tree : Tree rank controller)
    (bounded : controller.groupCount ≤ maxGroups) {group : Nat}
    (notRoot : group ≠ 0)
    (observed : controller.observedBy event group = true) :
    controller.observedBy event
      (controller.runtimes group).parentGroupIndex = true := by
  unfold observedBy at observed ⊢
  split at observed
  · rename_i source _
    rw [decide_eq_true_eq] at observed ⊢
    apply tree.mem_ancestors_parent bounded notRoot _ _ _ observed
    intro active
    have room := tree.depth source active
    omega
  · exact Bool.noConfusion observed

private theorem consume_flag (parent : Nat) (event : Event)
    (observes :
      event.observes controller =
        if (controller.instructions (controller.nextSlot parent)).getMark > 0
        then some parent else none)
    (group : Nat) :
    ((controller.consume parent).runtimes group).positiveBoundaryObserved =
      ((controller.runtimes group).positiveBoundaryObserved ||
        controller.observedBy event group) := by
  rw [consume_runtime, observedBy, observes]
  by_cases marked :
      (controller.instructions (controller.nextSlot parent)).getMark > 0
  · simp [marked]
  · simp [marked]

/-- The flag of a group is cleared when a pass begins or ends, and otherwise
set by the boundaries it observes. -/
theorem Step.flag (step : Step strips timestamp controller event next)
    (group : Nat) :
    (next.runtimes group).positiveBoundaryObserved =
      if event.opens group || event.closes group then
        false
      else
        (controller.runtimes group).positiveBoundaryObserved ||
          controller.observedBy event group := by
  cases step with
  | resumedAgain position entry slot delay shown resumable executes positive =>
      rfl
  | resumedLast position entry slot shown resumable executes =>
      by_cases equal : group = entry.runtimeIndex
      · subst equal
        rw [updateRuntime_self]
        rfl
      · rw [updateRuntime_of_ne equal]
        rfl
  | restarted restarted ready again observed =>
      by_cases equal : group = restarted
      · simp [activate, updateRuntime, Event.opens, equal]
      · simp [activate, updateRuntime, Event.opens, Event.closes,
          equal]
  | endedRoot ready final =>
      by_cases equal : group = 0
      · simp [updateRuntime, GroupRuntime.reset, Event.closes, equal]
      · simp [updateRuntime, Event.opens, Event.closes, equal]
  | endedChild ended notRoot ready final =>
      by_cases equal : group = ended
      · subst equal
        by_cases loop : group = (controller.runtimes group).parentGroupIndex
        · simp [updateRuntime, GroupRuntime.reset, Event.closes, ← loop]
        · rw [updateRuntime_of_ne loop, updateRuntime_self]
          simp [GroupRuntime.reset, Event.closes]
      · by_cases parent :
          group = (controller.runtimes ended).parentGroupIndex
        · rw [← parent, updateRuntime_self, updateRuntime_of_ne equal]
          simp [Event.opens, Event.closes, equal]
        · rw [updateRuntime_of_ne parent, updateRuntime_of_ne equal]
          simp [Event.opens, Event.closes, equal]
  | launched parent child due settled isRun target calls notRoot inactive =>
      by_cases equal : group = child
      · subst equal
        by_cases loop : group = parent
        · subst loop
          rw [updateRuntime_self]
          simp [activate, updateRuntime, Event.opens]
        · rw [updateRuntime_of_ne loop]
          simp [activate, updateRuntime, Event.opens]
      · have flag :
            ((((controller.consume parent).activate child timestamp
                (controller.instructions
                  (controller.nextSlot parent)).getAdditionalRepeats
                parent).updateRuntime parent fun runtime =>
              { runtime with
                childCount := runtime.childCount + 1 }).runtimes
                  group).positiveBoundaryObserved =
              ((controller.consume parent).runtimes
                group).positiveBoundaryObserved := by
          by_cases source : group = parent
          · subst source
            rw [updateRuntime_self]
            simp [activate, updateRuntime, equal]
          · rw [updateRuntime_of_ne source]
            simp [activate, updateRuntime, equal]
        rw [flag,
          consume_flag parent
            (.launched parent (controller.nextSlot parent) child
              (controller.instructions
                (controller.nextSlot parent)).getAdditionalRepeats)
            rfl]
        simp [Event.opens, Event.closes, equal]
  | rejected parent child due settled isRun target calls notRoot busy =>
      exact consume_flag parent _ rfl group
  | executedNow parent slot shown due settled notRun executes =>
      exact consume_flag parent _ rfl group
  | executedTimed parent slot delay shown due settled notRun executes
      positive =>
      have flag :=
        consume_flag parent
          (.executed parent (controller.nextSlot parent) delay) rfl group
      by_cases equal : group = parent
      · subst equal
        rw [updateRuntime_self]
        exact flag
      · rw [updateRuntime_of_ne equal]
        exact flag

/-! ### Replay state -/

/-- A step resets a stored instruction with a pass that it opens, executes it,
or leaves it alone. -/
theorem Step.instruction
    (step : Step strips timestamp controller event next) (index : Nat) :
    next.instructions index = controller.instructions index ∨
      (next.instructions index =
          (controller.instructions index).resetForReplay ∧
        ∃ group, event.opens group = true ∧
          index ∈ controller.timeline group) ∨
        ∃ group delay,
          event = .resumed group index delay ∨
            event = .executed group index delay := by
  have executed :
      ∀ executed slot,
        index = executed ∨
          Function.update controller.instructions executed slot index =
            controller.instructions index := by
    intro executed slot
    by_cases equal : index = executed
    · exact Or.inl equal
    · exact Or.inr (Function.update_of_ne equal ..)
  have reset :
      ∀ timeline : List Nat,
        (if index ∈ timeline then
            (controller.instructions index).resetForReplay
          else
            controller.instructions index) =
            controller.instructions index ∨
          (if index ∈ timeline then
              (controller.instructions index).resetForReplay
            else
              controller.instructions index) =
              (controller.instructions index).resetForReplay ∧
            index ∈ timeline := by
    intro timeline
    by_cases member : index ∈ timeline
    · exact Or.inr ⟨if_pos member, member⟩
    · exact Or.inl (if_neg member)
  cases step with
  | resumedAgain position entry slot delay shown resumable executes positive =>
      rcases executed entry.instructionIndex slot with same | kept
      · subst same
        exact Or.inr (Or.inr ⟨_, _, Or.inl rfl⟩)
      · exact Or.inl kept
  | resumedLast position entry slot shown resumable executes =>
      rcases executed entry.instructionIndex slot with same | kept
      · subst same
        exact Or.inr (Or.inr ⟨_, _, Or.inl rfl⟩)
      · exact Or.inl kept
  | restarted group ready again observed =>
      rcases reset (controller.timeline group) with kept | ⟨fresh, member⟩
      · exact Or.inl kept
      · exact
          Or.inr (Or.inl ⟨fresh, group, by simp [Event.opens], member⟩)
  | endedRoot ready final =>
      exact Or.inl rfl
  | endedChild group notRoot ready final =>
      exact Or.inl rfl
  | launched group child due settled isRun target calls notRoot inactive =>
      simp only [updateRuntime, activate, consume_timeline,
        consume_instructions]
      rcases reset (controller.timeline child) with kept | ⟨fresh, member⟩
      · exact Or.inl kept
      · exact
          Or.inr (Or.inl ⟨fresh, child, by simp [Event.opens], member⟩)
  | rejected group child due settled isRun target calls notRoot busy =>
      rw [consume_instructions]
      exact Or.inl rfl
  | executedNow group slot shown due settled notRun executes =>
      rcases executed (controller.nextSlot group) slot with same | kept
      · subst same
        exact Or.inr (Or.inr ⟨_, _, Or.inr rfl⟩)
      · left
        simpa only [afterExecution, updateRuntime, consume_instructions]
          using kept
  | executedTimed group slot delay shown due settled notRun executes
      positive =>
      rcases executed (controller.nextSlot group) slot with same | kept
      · subst same
        exact Or.inr (Or.inr ⟨_, _, Or.inr rfl⟩)
      · left
        simpa only [afterExecution, updateRuntime, consume_instructions]
          using kept

theorem Step.reset_of_opens
    (step : Step strips timestamp controller event next) {group index : Nat}
    (opens : event.opens group = true)
    (member : index ∈ controller.timeline group) :
    next.instructions index =
      (controller.instructions index).resetForReplay := by
  cases step with
  | restarted restarted ready again observed =>
      have same : group = restarted := by simpa [Event.opens] using opens
      rw [same] at member
      exact if_pos member
  | launched parent child due settled isRun target calls notRoot inactive =>
      have same : group = child := by simpa [Event.opens] using opens
      rw [same] at member
      simp only [updateRuntime, activate, consume_timeline,
        consume_instructions]
      exact if_pos member
  | resumedAgain position entry slot delay shown resumable executes positive =>
      exact absurd opens (by simp [Event.opens])
  | resumedLast position entry slot shown resumable executes =>
      exact absurd opens (by simp [Event.opens])
  | endedRoot ready final =>
      exact absurd opens (by simp [Event.opens])
  | endedChild ended notRoot ready final =>
      exact absurd opens (by simp [Event.opens])
  | rejected parent child due settled isRun target calls notRoot busy =>
      exact absurd opens (by simp [Event.opens])
  | executedNow parent slot shown due settled notRun executes =>
      exact absurd opens (by simp [Event.opens])
  | executedTimed parent slot delay shown due settled notRun executes
      positive =>
      exact absurd opens (by simp [Event.opens])

/-- The instructions that a group has not dispatched in its pass are as their
reset left them. -/
def Fresh (controller : Controller) (group : Nat) : Prop :=
  ∀ position, (controller.runtimes group).cursor ≤ position →
    position < controller.size group →
      (controller.instructions
          (controller.slotAt group position)).resetForReplay =
        controller.instructions (controller.slotAt group position)

/-- An execution leaves behind what `Execute` returns. -/
theorem Step.executes (step : Step strips timestamp controller event next)
    {group index : Nat} {delay : UInt32}
    (executed :
      event = .resumed group index delay ∨ event = .executed group index delay) :
    ∃ writes shown,
      (controller.instructions index).execute strips controller.refreshPeriodMs
          timestamp =
        (next.instructions index, delay, writes, shown) := by
  cases step with
  | resumedAgain position entry slot delay' shown resumable executes positive =>
      rcases executed with same | same <;> cases same
      obtain ⟨writes, result⟩ := executes
      refine ⟨writes, shown, result.trans ?_⟩
      simp [afterExecution]
  | resumedLast position entry slot shown resumable executes =>
      rcases executed with same | same <;> cases same
      obtain ⟨writes, result⟩ := executes
      refine ⟨writes, shown, result.trans ?_⟩
      simp [afterExecution, updateRuntime]
  | executedNow group' slot shown due settled notRun executes =>
      rcases executed with same | same <;> cases same
      obtain ⟨writes, result⟩ := executes
      refine ⟨writes, shown, result.trans ?_⟩
      simp [afterExecution]
  | executedTimed group' slot delay' shown due settled notRun executes
      positive =>
      rcases executed with same | same <;> cases same
      obtain ⟨writes, result⟩ := executes
      refine ⟨writes, shown, result.trans ?_⟩
      simp [afterExecution, updateRuntime]
  | _ =>
      rcases executed with same | same <;> cases same

/-- An executed instruction was dispatched, or it stands at its cursor. -/
theorem Step.position_of_executed
    (step : Step strips timestamp controller event next) (work : Work controller)
    {group index : Nat} {delay : UInt32}
    (executed :
      event = .resumed group index delay ∨ event = .executed group index delay) :
    (controller.runtimes group).active = true ∧
      ∃ position, controller.slotAt group position = index ∧
        position < controller.size group ∧
        (position < (controller.runtimes group).cursor ∨
          position = (controller.runtimes group).cursor ∧
            event.dispatches = some (group, index)) := by
  have enabled := step.enabled
  rcases executed with resumed | dispatched
  · subst resumed
    obtain ⟨position, entry, resumable, sameGroup, sameSlot⟩ := enabled
    have outstanding : (group, index) ∈ controller.outstanding := by
      rw [← sameGroup, ← sameSlot]
      exact
        List.mem_map.mpr
          ⟨entry, List.mem_of_getElem? resumable.found, rfl⟩
    obtain ⟨active, position, before, slotEq⟩ :=
      work.dispatched group index outstanding
    exact
      ⟨active, position, slotEq,
        Nat.lt_of_lt_of_le before (work.cursor group active), Or.inl before⟩
  · subst dispatched
    obtain ⟨due, -, slotEq, -⟩ := enabled
    exact
      ⟨due.active, _, slotEq.symm, due.remaining, Or.inr ⟨rfl, rfl⟩⟩

/-- Steps keep the undispatched instructions as their reset left them. -/
theorem Fresh.step (sound : controller.Sound rank)
    (step : Step strips timestamp controller event next) {group : Nat}
    (active : (next.runtimes group).active = true)
    (fresh :
      (controller.runtimes group).active = true → controller.Fresh group) :
    next.Fresh group := by
  intro position ahead inRange
  have below := (sound.step step).tree.inRange group active
  rw [step.sameProgram.groupCount] at below
  rw [step.sameProgram.slotAt_eq]
  rw [step.sameProgram.size_eq] at inRange
  have settled :
      ∀ previous, previous ≤ position →
        (controller.runtimes group).cursor = previous →
          (controller.runtimes group).active = true →
            (event.dispatches =
                some (group, controller.nextSlot group) →
              previous < position) →
              (next.instructions
                  (controller.slotAt group position)).resetForReplay =
                next.instructions (controller.slotAt group position) := by
    intro previous before cursor wasActive passed
    rcases step.instruction (controller.slotAt group position) with
      kept | ⟨reset, -⟩ | ⟨other, delay, executed⟩
    · rw [kept]
      exact fresh wasActive position (cursor ▸ before) inRange
    · rw [reset]
      exact InstructionMemorySlot.resetForReplay_resetForReplay _
    · -- What was executed stands before the cursor or at it.
      exfalso
      obtain ⟨otherActive, stood, slotEq, stoodBelow, reached⟩ :=
        step.position_of_executed sound.work executed
      obtain ⟨rfl, rfl⟩ :=
        sound.committed.slotAt_injective
          (sound.tree.inRange other otherActive) below stoodBelow inRange
          slotEq
      rcases reached with earlier | ⟨atCursor, dispatches⟩
      · omega
      · have slot :
            controller.slotAt other stood = controller.nextSlot other := by
          rw [atCursor]
          rfl
        rw [slot] at dispatches
        have later := passed dispatches
        omega
  cases step.passStep group with
  | opened activation opens closes quiet after cursor startTime =>
      have member :
          controller.slotAt group position ∈ controller.timeline group :=
        List.mem_map.mpr ⟨position, List.mem_range.mpr inRange, rfl⟩
      rw [step.reset_of_opens opens member]
      exact InstructionMemorySlot.resetForReplay_resetForReplay _
  | ended event_eq after =>
      have inactive := GroupRuntime.activation_eq_none_iff.mp after
      rw [active] at inactive
      exact Bool.noConfusion inactive
  | dispatched activation due dispatches opens closes before after =>
      have cursor : (next.runtimes group).cursor = _ :=
        (activation_eq_some after).2.1
      have previous := (activation_eq_some before).2.1
      rw [Activation.consume] at cursor
      simp only at cursor
      exact
        settled activation.cursor (by omega) previous due.active fun _ => by
          omega
  | untouched opens closes quiet after =>
      have now := GroupRuntime.activation_of_active active
      have before : controller.activation group = some _ := after.symm.trans now
      obtain ⟨wasActive, cursor, -⟩ := activation_eq_some before
      exact
        settled (next.runtimes group).cursor ahead cursor wasActive
          fun dispatches => absurd dispatches (quiet _)

end Controller

end PrismKit
