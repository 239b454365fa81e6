import PrismKit.Timeline.Completion

/-!
# Targets that are in the way

A `RunGroup` whose target is still active is refused, and a target without
outstanding work stays active until `CompleteReadyGroups` visits it.  `Strands`
says, on the controller before a step, that the step leaves such a target in
the way of a call that the scan for due instructions comes to.  Without such a
step the way stays clear from the completion scan on.
-/

namespace PrismKit

open Library

namespace Controller

/-- The current activation of a group has work left: an undispatched
instruction, a timed instruction, a child, or a repeat. -/
def Outstanding (controller : Controller) (group : Nat) : Prop :=
  (controller.runtimes group).cursor < controller.size group ∨
    (controller.runtimes group).activeCount ≠ 0 ∨
      (controller.runtimes group).childCount ≠ 0 ∨
        (controller.runtimes group).repeatsRemaining ≠ 0

instance (controller : Controller) (group : Nat) :
    Decidable (controller.Outstanding group) :=
  inferInstanceAs (Decidable (_ ∨ _))

/-- The target of the group call at a position of a timeline. -/
def callee (controller : Controller) (group position : Nat) : Option Nat :=
  let slot := controller.instructions (controller.slotAt group position)
  if slot.isRunGroup then
    some
      (findGroup controller.groups controller.groupCount slot.getTargetGroupId)
  else
    none

/-- The instruction at a position of an active group is due and not dispatched
yet. -/
def DueAt (timestamp : UInt32) (controller : Controller)
    (group position : Nat) : Prop :=
  (controller.runtimes group).active ∧
    (controller.runtimes group).cursor ≤ position ∧
      (controller.instructions
          (controller.slotAt group position)).getMark.toUInt32 ≤
        timestamp - (controller.runtimes group).startTime

instance (timestamp : UInt32) (controller : Controller) :
    DecidableRel (controller.DueAt timestamp) :=
  fun _ _ => inferInstanceAs (Decidable (_ ∧ _))

def DueAgain (timestamp : UInt32) (controller : Controller) (again : Nat)
    (group position : Nat) : Prop :=
  controller.DueAt timestamp group position ∨
    group = again ∧
      (controller.instructions (controller.slotAt group position)).getMark = 0

instance (timestamp : UInt32) (controller : Controller) (again : Nat) :
    DecidableRel (controller.DueAgain timestamp again) :=
  fun _ _ => inferInstanceAs (Decidable (_ ∨ _))

/-- The scan for due instructions comes to the first position before it comes
to the second. -/
def ScansFirst (controller : Controller)
    (group position other later : Nat) : Prop :=
  (controller.runtimes other).depth.toNat <
      (controller.runtimes group).depth.toNat ∨
    (controller.runtimes group).depth.toNat =
        (controller.runtimes other).depth.toNat ∧
      (group < other ∨ group = other ∧ position < later)

instance (controller : Controller) (group position other later : Nat) :
    Decidable (controller.ScansFirst group position other later) :=
  inferInstanceAs (Decidable (_ ∨ _))

/-- Among the due instructions the scan comes to a call of `target` before it
comes to a call that it can launch, which would end the scan. -/
def MeetsCall (controller : Controller) (due : Nat → Nat → Prop)
    (target : Nat) : Prop :=
  ∃ group < controller.groupCount, ∃ position < controller.size group,
    due group position ∧ controller.callee group position = some target ∧
      ∀ other < controller.groupCount, ∀ earlier < controller.size other,
        due other earlier →
          controller.ScansFirst other earlier group position →
            (controller.callee other earlier).all fun child =>
              (controller.runtimes child).active

instance (controller : Controller) (due : Nat → Nat → Prop)
    [DecidableRel due] (target : Nat) :
    Decidable (controller.MeetsCall due target) :=
  inferInstanceAs (Decidable (∃ group < _, ∃ position < _, _ ∧ _ ∧ _))

/-- The next instruction of a group is its last outstanding work. -/
def LastInstruction (controller : Controller) (group : Nat) : Prop :=
  (controller.runtimes group).cursor + 1 = controller.size group ∧
    (controller.runtimes group).activeCount = 0 ∧
      (controller.runtimes group).childCount = 0 ∧
        (controller.runtimes group).repeatsRemaining = 0

instance (controller : Controller) (group : Nat) :
    Decidable (controller.LastInstruction group) :=
  inferInstanceAs (Decidable (_ ∧ _))

/-- The only child of a group is its last outstanding work. -/
def LastChild (controller : Controller) (group : Nat) : Prop :=
  controller.size group ≤ (controller.runtimes group).cursor ∧
    (controller.runtimes group).activeCount = 0 ∧
      (controller.runtimes group).childCount = 1 ∧
        (controller.runtimes group).repeatsRemaining = 0

instance (controller : Controller) (group : Nat) :
    Decidable (controller.LastChild group) :=
  inferInstanceAs (Decidable (_ ∧ _))

/-- The step leaves a target without work in the way of a due call.  A pick may
take the last instruction of the target, the end of a child may take the last
work of a parent that the completion scan has passed, and a group that starts
over may call a target that the scan has passed. -/
def Strands (timestamp : UInt32) (controller : Controller) : Event → Prop
  | .executed group _ delay =>
      delay = 0 ∧ controller.LastInstruction group ∧
        controller.MeetsCall (controller.DueAt timestamp) group
  | .rejected group _ _ =>
      controller.LastInstruction group ∧
        controller.MeetsCall (controller.DueAt timestamp) group
  | .ended child =>
      (controller.runtimes child).parentGroupIndex < child ∧
        controller.LastChild (controller.runtimes child).parentGroupIndex ∧
        controller.MeetsCall (controller.DueAt timestamp)
          (controller.runtimes child).parentGroupIndex
  | .restarted group =>
      ∃ target < group, (controller.runtimes target).active ∧
        ¬ controller.Outstanding target ∧
          controller.MeetsCall (controller.DueAgain timestamp group) target
  | _ => False

instance (timestamp : UInt32) (controller : Controller) :
    DecidablePred (controller.Strands timestamp)
  | .executed .. => inferInstanceAs (Decidable (_ ∧ _ ∧ _))
  | .rejected .. => inferInstanceAs (Decidable (_ ∧ _))
  | .ended _ => inferInstanceAs (Decidable (_ ∧ _ ∧ _))
  | .restarted _ => inferInstanceAs (Decidable (∃ target < _, _ ∧ _ ∧ _))
  | .started _ => inferInstanceAs (Decidable False)
  | .launched .. => inferInstanceAs (Decidable False)
  | .resumed .. => inferInstanceAs (Decidable False)
  | .discarded .. => inferInstanceAs (Decidable False)

variable {rank : Nat → Nat} {controller before after next : Controller}
  {strips : StripId → Strip} {timestamp : UInt32} {event : Event}

theorem Sound.ready_of_not_outstanding (sound : controller.Sound rank)
    {group : Nat} (active : (controller.runtimes group).active = true)
    (spent : ¬ controller.Outstanding group) : controller.Ready group := by
  simp only [Outstanding, not_or, not_not] at spent
  exact
    ⟨sound.tree.inRange group active, active, Nat.not_lt.mp spent.1,
      spent.2.1, spent.2.2.1⟩

theorem Step.root_active (step : Step strips timestamp controller event next)
    (active : (next.runtimes 0).active = true) :
    (controller.runtimes 0).active = true := by
  have found : next.activation 0 = some _ :=
    GroupRuntime.activation_of_active active
  cases step.passStep 0 with
  | opened activation opens closes quiet current cursor startTime =>
      have enabled := step.enabled
      cases event with
      | launched parent slot child repeats =>
          have root : 0 = child := by simpa [Event.opens] using opens
          exact absurd root.symm enabled.2.2.2.2.2.2.2.1
      | restarted other =>
          have root : 0 = other := by simpa [Event.opens] using opens
          rw [root]
          exact enabled.1.active
      | started repeats =>
          exact enabled.elim
      | rejected parent slot status =>
          exact absurd opens (by simp [Event.opens])
      | executed parent slot delay =>
          exact absurd opens (by simp [Event.opens])
      | resumed parent slot delay =>
          exact absurd opens (by simp [Event.opens])
      | discarded parent slot =>
          exact enabled.elim
      | ended other =>
          exact absurd opens (by simp [Event.opens])
  | ended event_eq current =>
      rw [current] at found
      cases found
  | dispatched activation due dispatches opens closes earlier current =>
      exact due.active
  | untouched opens closes quiet current =>
      exact (activation_eq_some (current.symm.trans found)).1

theorem Step.launched_active {parent slot child : Nat} {repeats : LoopCount}
    (step :
      Step strips timestamp controller (.launched parent slot child repeats)
        next) :
    (next.runtimes child).active = true := by
  have opens : (Event.launched parent slot child repeats).opens child := by
    simp [Event.opens]
  cases step.passStep child with
  | opened activation opens' closes quiet current cursor startTime =>
      exact (activation_eq_some current).1
  | ended event_eq current =>
      cases event_eq
  | dispatched activation due dispatches opens' closes earlier current =>
      rw [opens] at opens'
      exact Bool.noConfusion opens'
  | untouched opens' closes quiet current =>
      rw [opens] at opens'
      exact Bool.noConfusion opens'

theorem SameProgram.callee_eq (same : SameProgram before after)
    (group position : Nat) :
    after.callee group position = before.callee group position := by
  simp only [callee, same.slotAt_eq, same.groups, same.groupCount,
    (same.configuration _).isRunGroup_eq,
    (same.configuration _).getTargetGroupId_eq]

/-- A call that the scan meets after a step was met before it, when nothing
new became due, the step dispatched no call that could be launched, and it
activated no group. -/
theorem MeetsCall.of_later {due due' : Nat → Nat → Prop} {target : Nat}
    (same : SameProgram before after)
    (depth :
      ∀ group position, position < before.size group → due' group position →
        (after.runtimes group).depth = (before.runtimes group).depth)
    (earlier :
      ∀ group position, position < before.size group → due' group position →
        due group position)
    (rest :
      ∀ group position child, position < before.size group →
        due group position → before.callee group position = some child →
          due' group position ∨ (before.runtimes child).active)
    (active :
      ∀ group, (after.runtimes group).active →
        (before.runtimes group).active)
    (meets : after.MeetsCall due' target) : before.MeetsCall due target := by
  obtain ⟨group, below, position, inRange, due, calls, first⟩ := meets
  rw [same.groupCount] at below first
  rw [same.size_eq] at inRange
  rw [same.callee_eq] at calls
  refine
    ⟨group, below, position, inRange, earlier group position inRange due,
      calls, ?_⟩
  intro other otherBelow sooner otherInRange otherDue scansFirst
  cases found : before.callee other sooner with
  | none =>
      rfl
  | some child =>
      show (before.runtimes child).active = true
      rcases rest other sooner child otherInRange otherDue found with
        stays | busy
      · have visited : after.ScansFirst other sooner group position := by
          unfold ScansFirst
          rw [depth group position inRange due,
            depth other sooner otherInRange stays]
          exact scansFirst
        have refused :=
          first other otherBelow sooner
            (by rw [same.size_eq]; exact otherInRange) stays visited
        rw [same.callee_eq, found] at refused
        exact active child refused
      · exact busy

/-- The groups below `count` that have no work left are not called by what the
scan meets. -/
def Clear (timestamp : UInt32) (controller : Controller) (count : Nat) :
    Prop :=
  ∀ target < count, (controller.runtimes target).active →
    ¬ controller.Outstanding target →
      ¬ controller.MeetsCall (controller.DueAt timestamp) target

private theorem Step.consumed
    (step : Step strips timestamp controller event next) {group slot : Nat}
    (dispatches : event.dispatches = some (group, slot))
    (unlaunched :
      ∀ parent slot child repeats,
        event ≠ .launched parent slot child repeats)
    (other : Nat) :
    ∃ activeCount,
      next.runtimes other =
          { (controller.consume group).runtimes other with
            activeCount := activeCount } ∧
        (activeCount = 0 → (controller.runtimes other).activeCount = 0) := by
  have kept :
      ∀ parent,
        ((controller.consume parent).runtimes other).activeCount =
          (controller.runtimes other).activeCount := by
    intro parent
    rw [consume_runtime]
  cases step with
  | launched parent child due settled isRun target calls notRoot inactive =>
      exact absurd rfl (unlaunched _ _ _ _)
  | rejected parent child due settled isRun target calls notRoot busy =>
      cases dispatches
      exact ⟨_, rfl, (kept group).symm.trans⟩
  | executedNow parent slot shown due settled notRun executes =>
      cases dispatches
      exact ⟨_, rfl, (kept group).symm.trans⟩
  | executedTimed parent slot delay shown due settled notRun executes
      positive =>
      cases dispatches
      by_cases equal : other = group
      · subst equal
        rw [updateRuntime_self]
        exact ⟨_, rfl, fun impossible => absurd impossible (Nat.succ_ne_zero _)⟩
      · rw [updateRuntime_of_ne equal]
        exact ⟨_, rfl, (kept group).symm.trans⟩
  | _ =>
      cases dispatches

/-- A dispatched instruction is no call, a call that is launched, or a call of
an active target. -/
private theorem Step.refused
    (step : Step strips timestamp controller event next) {group slot : Nat}
    (dispatches : event.dispatches = some (group, slot))
    (unlaunched :
      ∀ parent slot child repeats,
        event ≠ .launched parent slot child repeats)
    {child : Nat}
    (calls :
      controller.callee group (controller.runtimes group).cursor =
        some child) :
    (controller.runtimes child).active := by
  have calls' :
      (if (controller.instructions (controller.nextSlot group)).isRunGroup then
          some
            (findGroup controller.groups controller.groupCount
              (controller.instructions
                (controller.nextSlot group)).getTargetGroupId)
        else
          none) =
        some child :=
    calls
  cases step with
  | launched parent child due settled isRun target calls notRoot inactive =>
      exact absurd rfl (unlaunched _ _ _ _)
  | rejected parent found due settled isRun target edge notRoot busy =>
      cases dispatches
      rw [if_pos isRun, target] at calls'
      cases calls'
      exact busy
  | executedNow parent slot shown due settled notRun executes =>
      cases dispatches
      rw [if_neg (by simp [notRun])] at calls'
      cases calls'
  | executedTimed parent slot delay shown due settled notRun executes
      positive =>
      cases dispatches
      rw [if_neg (by simp [notRun])] at calls'
      cases calls'
  | _ =>
      cases dispatches

/-- A pick that strands nothing keeps the scan clear. -/
theorem Clear.picked {count : Nat}
    (clear : controller.Clear timestamp count)
    (step : Step strips timestamp controller event next) {group slot : Nat}
    (dispatches : event.dispatches = some (group, slot))
    (unlaunched :
      ∀ parent slot child repeats,
        event ≠ .launched parent slot child repeats)
    (smooth : ¬ controller.Strands timestamp event) :
    next.Clear timestamp count := by
  intro target below active spent meets
  have consumed := step.consumed dispatches unlaunched
  have same := step.sameProgram
  have met :
      controller.MeetsCall (controller.DueAt timestamp) target := by
    refine meets.of_later same ?_ ?_ ?_ ?_
    · intro other position _ _
      obtain ⟨activeCount, runtime, -⟩ := consumed other
      rw [runtime, consume_runtime]
    · intro other position _ due
      obtain ⟨activeCount, runtime, -⟩ := consumed other
      rw [DueAt, runtime, consume_runtime, same.slotAt_eq,
        (same.configuration _).getMark_eq] at due
      refine ⟨due.1, Nat.le_trans ?_ due.2.1, due.2.2⟩
      simp only
      split <;> omega
    · intro other position child _ due calls
      by_cases next_eq :
          other = group ∧ position = (controller.runtimes group).cursor
      · obtain ⟨rfl, rfl⟩ := next_eq
        exact Or.inr (step.refused dispatches unlaunched calls)
      · left
        obtain ⟨activeCount, runtime, -⟩ := consumed other
        rw [DueAt, runtime, consume_runtime, same.slotAt_eq,
          (same.configuration _).getMark_eq]
        refine ⟨due.1, ?_, due.2.2⟩
        have ahead := due.2.1
        simp only
        split
        · rename_i equal
          subst equal
          have different : position ≠ (controller.runtimes other).cursor :=
            fun equal => next_eq ⟨rfl, equal⟩
          omega
        · exact ahead
    · intro other
      obtain ⟨activeCount, runtime, -⟩ := consumed other
      rw [runtime, consume_runtime]
      exact id
  obtain ⟨activeCount, runtime, resumed⟩ := consumed target
  rw [runtime, consume_runtime] at active
  simp only [Outstanding, runtime, consume_runtime, same.size_eq, not_or,
    not_not, Nat.not_lt] at spent
  obtain ⟨exhausted, done, childless, final⟩ := spent
  by_cases outstanding : controller.Outstanding target
  · -- Only the pick can have taken the last work, so it took an instruction.
    have remaining :
        (controller.runtimes target).cursor < controller.size target := by
      simpa [Outstanding, resumed done, childless, final] using outstanding
    have picked : target = group := by
      by_contra different
      rw [if_neg different] at exhausted
      omega
    subst picked
    have last : controller.LastInstruction target := by
      refine ⟨?_, resumed done, childless, final⟩
      rw [if_pos rfl] at exhausted
      omega
    cases step with
    | rejected parent child due settled isRun found calls notRoot busy =>
        cases dispatches
        exact smooth ⟨last, met⟩
    | executedNow parent slot shown due settled notRun executes =>
        cases dispatches
        exact smooth ⟨rfl, last, met⟩
    | executedTimed parent slot delay shown due settled notRun executes
        positive =>
        cases dispatches
        rw [updateRuntime_self] at runtime
        have count := congrArg GroupRuntime.activeCount runtime
        simp only [done] at count
        exact Nat.succ_ne_zero _ count
    | launched parent child due settled isRun found calls notRoot inactive =>
        exact absurd rfl (unlaunched _ _ _ _)
    | _ =>
        cases dispatches
  · exact clear target below active outstanding met

/-! ### Completions -/

theorem Clear.skipped (sound : controller.Sound rank) {group : Nat}
    (clear : controller.Clear timestamp group)
    (unready : ¬ controller.Ready group) :
    controller.Clear timestamp (group + 1) := by
  intro target below active spent
  rcases Nat.lt_succ_iff_lt_or_eq.mp below with earlier | rfl
  · exact clear target earlier active spent
  · exact absurd (sound.ready_of_not_outstanding active spent) unready

private theorem Ready.not_dueAt {group position : Nat}
    (ready : controller.Ready group)
    (inRange : position < controller.size group) :
    ¬ controller.DueAt timestamp group position := by
  intro due
  have dispatched := ready.dispatched
  have ahead := due.2.1
  omega

/-- A group that starts over and strands nothing keeps the scan clear. -/
private theorem Clear.restarted (sound : controller.Sound rank) {group : Nat}
    (populated :
      ∀ other, (controller.runtimes other).active →
        0 < controller.size other)
    (clear : controller.Clear timestamp group)
    (step :
      Step strips timestamp controller (.restarted group) next)
    (smooth : ¬ controller.Strands timestamp (.restarted group)) :
    next.Clear timestamp (group + 1) := by
  have same := step.sameProgram
  have tree :=
    step.sameTree sound.tree sound.committed.bounded (by simp) (by simp)
  obtain ⟨ready, others, self⟩ :
      controller.Ready group ∧
        (∀ other, other ≠ group →
          next.runtimes other = controller.runtimes other) ∧
        (next.runtimes group).cursor = 0 ∧
          (next.runtimes group).startTime = timestamp := by
    cases step with
    | restarted _ ready again observed =>
        refine ⟨ready, ?_, ?_⟩
        · intro other different
          exact Function.update_of_ne different ..
        · simp [activate, updateRuntime]
  intro target below active spent meets
  have different : target ≠ group := by
    rintro rfl
    apply spent
    left
    rw [self.1, same.size_eq]
    exact populated target ready.active
  rw [others target different] at active
  simp only [Outstanding, others target different, same.size_eq] at spent
  refine smooth ⟨target, by omega, active, spent, ?_⟩
  refine meets.of_later same ?_ ?_ ?_ ?_
  · intro other position _ _
    exact (tree.runtime other).2.2.2
  · intro other position _ due
    rw [DueAt, same.slotAt_eq, (same.configuration _).getMark_eq] at due
    by_cases again : other = group
    · right
      refine ⟨again, ?_⟩
      subst again
      have reached := due.2.2
      rw [self.2, UInt32.sub_self, UInt32.le_iff_toNat_le] at reached
      apply UInt16.toNat_inj.mp
      exact Nat.le_zero.mp reached
    · left
      rw [others other again] at due
      exact due
  · intro other position child inRange due calls
    left
    rw [DueAt, same.slotAt_eq, (same.configuration _).getMark_eq]
    by_cases again : other = group
    · subst again
      rcases due with due | ⟨-, unmarked⟩
      · exact absurd due (ready.not_dueAt inRange)
      · rw [self.1, self.2, unmarked, (tree.runtime other).1]
        refine ⟨ready.active, Nat.zero_le _, ?_⟩
        rw [UInt32.le_iff_toNat_le]
        exact Nat.zero_le _
    · rw [others other again]
      rcases due with due | ⟨impossible, -⟩
      · exact due
      · exact absurd impossible again
  · intro other
    rw [(tree.runtime other).1]
    exact id

private theorem Step.childEnded (sound : controller.Sound rank) {group : Nat}
    (step : Step strips timestamp controller (.ended group) next)
    (notRoot : group ≠ 0) :
    controller.Ready group ∧ (next.runtimes group).active = false ∧
      ∀ other, other ≠ group →
        next.runtimes other =
          { controller.runtimes other with
            childCount :=
              if other = (controller.runtimes group).parentGroupIndex then
                (controller.runtimes other).childCount - 1
              else
                (controller.runtimes other).childCount } := by
  cases step with
  | endedRoot ready final =>
      exact absurd rfl notRoot
  | endedChild _ _ ready final =>
      have bounded := sound.committed.bounded
      have apart :
          (controller.runtimes group).parentGroupIndex ≠ group :=
        sound.tree.no_child bounded (Nat.lt_of_lt_of_le ready.below bounded)
          ready.ended ready.active
      refine ⟨ready, ?_, ?_⟩
      · rw [updateRuntime_of_ne apart.symm, updateRuntime_self]
        rfl
      · intro other different
        by_cases parent :
            other = (controller.runtimes group).parentGroupIndex
        · rw [if_pos parent, ← parent, updateRuntime_self,
            updateRuntime_of_ne different]
        · rw [if_neg parent, updateRuntime_of_ne parent,
            updateRuntime_of_ne different]

/-- A group that ends and strands nothing keeps the scan clear. -/
private theorem Clear.ended (sound : controller.Sound rank) {group : Nat}
    (clear : controller.Clear timestamp group)
    (step : Step strips timestamp controller (.ended group) next)
    (smooth : ¬ controller.Strands timestamp (.ended group)) :
    next.Clear timestamp (group + 1) := by
  have same := step.sameProgram
  intro target below active spent meets
  by_cases root : group = 0
  · subst root
    have isRoot : target = 0 := by omega
    subst isRoot
    cases step with
    | endedRoot ready final =>
        simp [updateRuntime_self, GroupRuntime.reset] at active
    | endedChild _ notRoot ready final =>
        exact absurd rfl notRoot
  · obtain ⟨ready, inactive, others⟩ := step.childEnded sound root
    have different : target ≠ group := by
      rintro rfl
      rw [inactive] at active
      exact Bool.noConfusion active
    have live :
        ∀ other, (next.runtimes other).active → other ≠ group := by
      rintro other otherActive rfl
      rw [inactive] at otherActive
      exact Bool.noConfusion otherActive
    have met : controller.MeetsCall (controller.DueAt timestamp) target := by
      refine meets.of_later same ?_ ?_ ?_ ?_
      · intro other position _ due
        rw [others other (live other due.1)]
      · intro other position _ due
        rw [DueAt, others other (live other due.1), same.slotAt_eq,
          (same.configuration _).getMark_eq] at due
        exact due
      · intro other position child inRange due calls
        left
        have remains : other ≠ group := by
          rintro rfl
          exact ready.not_dueAt inRange due
        rw [DueAt, others other remains, same.slotAt_eq,
          (same.configuration _).getMark_eq]
        exact due
      · intro other otherActive
        rw [others other (live other otherActive)] at otherActive
        exact otherActive
    rw [others target different] at active
    simp only [Outstanding, others target different, same.size_eq, not_or,
      not_not] at spent
    by_cases parent :
        target = (controller.runtimes group).parentGroupIndex
    · have counted := sound.parent_counts ready.active root
      rw [if_pos parent] at spent
      refine smooth ⟨by omega, ?_, parent ▸ met⟩
      rw [← parent] at counted ⊢
      refine ⟨Nat.not_lt.mp spent.1, spent.2.1, ?_, spent.2.2.2⟩
      have one := spent.2.2.1
      omega
    · rw [if_neg parent] at spent
      refine clear target (by omega) active ?_ met
      simp only [Outstanding, not_or, not_not]
      exact spent

theorem Clear.completed (sound : controller.Sound rank) {group : Nat}
    (populated :
      ∀ other, (controller.runtimes other).active →
        0 < controller.size other)
    (clear : controller.Clear timestamp group)
    (step : Step strips timestamp controller event next)
    (completes : event = .restarted group ∨ event = .ended group)
    (smooth : ¬ controller.Strands timestamp event) :
    next.Clear timestamp (group + 1) := by
  rcases completes with rfl | rfl
  · exact clear.restarted sound populated step smooth
  · exact clear.ended sound step smooth

end Controller

end PrismKit
