import PrismKit.Timeline.Activation
import PrismKit.Library.Counting

/-!
# Consistent bookkeeping

The counters, links and entries of the runtimes describe a tree of active
groups and the timed work each of them waits for.  `Tree` is about the tree,
`Work` about the cursors and the executing entries; both are kept by every
step.
-/

namespace PrismKit

open Library

namespace Controller

/-- The timed instructions under execution, each with the group that
dispatched it. -/
def outstanding (controller : Controller) : List (Nat × Nat) :=
  controller.executing.map fun entry =>
    (entry.runtimeIndex, entry.instructionIndex)

/-- Whether `child` is an active child of `parent`. -/
def isChild (controller : Controller) (parent child : Nat) : Bool :=
  (controller.runtimes child).active &&
    decide ((controller.runtimes child).parentGroupIndex = parent)

structure Tree (rank : Nat → Nat) (controller : Controller) : Prop where
  inRange :
    ∀ group, (controller.runtimes group).active →
      group < controller.groupCount
  children :
    ∀ group, group < maxGroups →
      (controller.runtimes group).childCount =
        countBelow maxGroups (controller.isChild group)
  parent :
    ∀ group, (controller.runtimes group).active → group ≠ 0 →
      controller.CallsGroup (controller.runtimes group).parentGroupIndex
          group ∧
        (controller.runtimes
          (controller.runtimes group).parentGroupIndex).active ∧
        (controller.runtimes group).depth.toNat =
          (controller.runtimes
            (controller.runtimes group).parentGroupIndex).depth.toNat + 1
  root :
    (controller.runtimes 0).active →
      (controller.runtimes 0).parentGroupIndex = maxGroups ∧
        (controller.runtimes 0).depth = 0
  depth :
    ∀ group, (controller.runtimes group).active →
      (controller.runtimes group).depth.toNat + rank group <
        controller.groupCount
  lifecycle :
    controller.state = if (controller.runtimes 0).active then .active
      else .completed

/-- Cursors stay in range, and every entry belongs to a dispatched instruction
of an active group that counts it. -/
structure Work (controller : Controller) : Prop where
  cursor :
    ∀ group, (controller.runtimes group).active →
      (controller.runtimes group).cursor ≤ controller.size group
  dispatched :
    ∀ group slot, (group, slot) ∈ controller.outstanding →
      (controller.runtimes group).active ∧
        ∃ position, position < (controller.runtimes group).cursor ∧
          controller.slotAt group position = slot
  distinct : (controller.outstanding.map Prod.snd).Nodup
  counts :
    ∀ group,
      (controller.runtimes group).activeCount =
        controller.outstanding.countP fun work => work.1 = group

section Consequences

variable {rank : Nat → Nat} {controller : Controller}

theorem Tree.no_child (tree : Tree rank controller)
    (bounded : controller.groupCount ≤ maxGroups) {group child : Nat}
    (inArray : group < maxGroups)
    (none : (controller.runtimes group).childCount = 0)
    (active : (controller.runtimes child).active) :
    (controller.runtimes child).parentGroupIndex ≠ group := by
  intro same
  rw [tree.children group inArray, countBelow_eq_zero_iff] at none
  have below := tree.inRange child active
  have notChild := none child (by omega)
  simp [isChild, active, same] at notChild

theorem Tree.parent_ne_of_inactive (tree : Tree rank controller)
    {group child : Nat}
    (inactive : (controller.runtimes group).active = false)
    (active : (controller.runtimes child).active) :
    (controller.runtimes child).parentGroupIndex = group →
      child = 0 ∧ maxGroups ≤ group := by
  intro same
  by_cases root : child = 0
  · subst root
    have sentinel := (tree.root active).1
    omega
  · have parentActive := (tree.parent child active root).2.1
    rw [same, inactive] at parentActive
    exact Bool.noConfusion parentActive

theorem Work.activeCount_pos (work : Work controller) {group slot : Nat}
    (member : (group, slot) ∈ controller.outstanding) :
    0 < (controller.runtimes group).activeCount := by
  rw [work.counts, List.countP_pos_iff]
  exact ⟨(group, slot), member, by simp⟩

theorem Work.not_mem (work : Work controller) {group slot : Nat}
    (none : (controller.runtimes group).activeCount = 0) :
    (group, slot) ∉ controller.outstanding := by
  intro member
  have positive := work.activeCount_pos member
  omega

theorem Work.activeCount_of_inactive (work : Work controller) {group : Nat}
    (inactive : (controller.runtimes group).active = false) :
    (controller.runtimes group).activeCount = 0 := by
  rw [work.counts, List.countP_eq_zero]
  rintro ⟨other, slot⟩ member same
  have equal : other = group := by simpa using same
  rw [equal] at member
  have active := (work.dispatched group slot member).1
  rw [inactive] at active
  exact Bool.noConfusion active

/-- The instruction at a cursor is not under execution. -/
theorem Work.nextSlot_not_mem (work : Work controller)
    (committed : Committed rank controller) (tree : Tree rank controller)
    {group : Nat} (below : group < controller.groupCount)
    (remaining : (controller.runtimes group).cursor < controller.size group) :
    controller.nextSlot group ∉ controller.outstanding.map Prod.snd := by
  intro member
  obtain ⟨⟨other, slot⟩, found, same⟩ := List.mem_map.mp member
  obtain ⟨active, position, before, slotEq⟩ :=
    work.dispatched other slot found
  have inRange : position < controller.size other :=
    Nat.lt_of_lt_of_le before (work.cursor other active)
  have collision :
      controller.slotAt other position =
        controller.slotAt group (controller.runtimes group).cursor :=
    slotEq.trans same
  obtain ⟨rfl, rfl⟩ :=
    committed.slotAt_injective (tree.inRange other active) below inRange
      remaining collision
  exact Nat.lt_irrefl _ before

theorem Work.stored (work : Work controller)
    (committed : Committed rank controller) (tree : Tree rank controller) :
    controller.outstanding.map Prod.snd ⊆
      List.range controller.instructionCount := by
  intro slot member
  obtain ⟨⟨other, slot'⟩, found, rfl⟩ := List.mem_map.mp member
  obtain ⟨active, position, before, rfl⟩ := work.dispatched other slot' found
  rw [List.mem_range]
  exact
    (committed.slotAt_mem (tree.inRange other active)
      (Nat.lt_of_lt_of_le before (work.cursor other active))).1

theorem Work.length_le (work : Work controller)
    (committed : Committed rank controller) (tree : Tree rank controller) :
    controller.executing.length ≤ controller.instructionCount := by
  have length :=
    (work.distinct.subperm (work.stored committed tree)).length_le
  rw [List.length_map, List.length_range, outstanding, List.length_map]
    at length
  exact length

/-- There is always room for the next timed instruction. -/
theorem Work.room (work : Work controller)
    (committed : Committed rank controller) (tree : Tree rank controller)
    {group : Nat} (below : group < controller.groupCount)
    (remaining : (controller.runtimes group).cursor < controller.size group) :
    controller.executing.length < maxExecuting := by
  have fresh := work.nextSlot_not_mem committed tree below remaining
  have nodup :
      (controller.nextSlot group ::
        controller.outstanding.map Prod.snd).Nodup :=
    List.nodup_cons.mpr ⟨fresh, work.distinct⟩
  have contained :
      (controller.nextSlot group :: controller.outstanding.map Prod.snd) ⊆
        List.range controller.instructionCount :=
    List.cons_subset.mpr
      ⟨List.mem_range.mpr (committed.slotAt_mem below remaining).1,
        work.stored committed tree⟩
  have length := (nodup.subperm contained).length_le
  rw [List.length_cons, List.length_map, List.length_range, outstanding,
    List.length_map] at length
  have stored := committed.stored
  simp only [maxExecuting]
  omega

end Consequences

variable {rank : Nat → Nat} {controller next : Controller}
  {strips : StripId → Strip} {timestamp : UInt32} {event : Event}

/-- The effect of an event on the timed work. -/
def OutstandingAfter (event : Event) (before after : List (Nat × Nat)) :
    Prop :=
  match event with
  | .resumed group slot delay =>
      if delay = 0 then before.Perm ((group, slot) :: after)
      else after = before
  | .executed group slot delay =>
      if delay = 0 then after = before else after = before ++ [(group, slot)]
  | _ => after = before

theorem Step.outstanding
    (step : Step strips timestamp controller event next) :
    OutstandingAfter event controller.outstanding next.outstanding := by
  cases step with
  | resumedAgain position entry slot delay shown resumable executes positive =>
      rw [OutstandingAfter, if_neg positive]
      unfold Controller.outstanding
      simp only
      rw [List.map_set]
      obtain ⟨below, found⟩ := List.getElem?_eq_some_iff.mp resumable.found
      apply List.ext_getElem?
      intro other
      by_cases equal : position = other
      · subst equal
        rw [List.getElem?_set_self (by simpa using below), List.getElem?_map,
          resumable.found]
        rfl
      · rw [List.getElem?_set_ne equal]
  | resumedLast position entry slot shown resumable executes =>
      rw [OutstandingAfter, if_pos rfl]
      exact (swapRemove_perm resumable.found).map _
  | restarted group ready again observed =>
      rfl
  | endedRoot ready final =>
      rfl
  | endedChild group notRoot ready final =>
      rfl
  | launched group child due settled isRun target calls notRoot inactive =>
      unfold Controller.outstanding
      simp [updateRuntime, activate]
      rfl
  | rejected group child due settled isRun target calls notRoot busy =>
      unfold Controller.outstanding
      rw [consume_executing]
      rfl
  | executedNow group slot shown due settled notRun executes =>
      rw [OutstandingAfter, if_pos rfl]
      unfold Controller.outstanding
      simp [afterExecution]
  | executedTimed group slot delay shown due settled notRun executes
      positive =>
      rw [OutstandingAfter, if_neg positive]
      unfold Controller.outstanding
      simp [updateRuntime]

/-! ### Steps keep the work consistent -/

private theorem Step.cursor_cases
    (step : Step strips timestamp controller event next) {group : Nat}
    (active : (next.runtimes group).active) :
    (next.runtimes group).cursor = 0 ∧ event.opens group ∨
      (controller.runtimes group).active ∧
        ((next.runtimes group).cursor = (controller.runtimes group).cursor ∨
          (next.runtimes group).cursor =
              (controller.runtimes group).cursor + 1 ∧
            (controller.runtimes group).cursor < controller.size group) := by
  have some' := GroupRuntime.activation_of_active active
  cases step.passStep group with
  | opened activation opens closes quiet after cursor startTime =>
      left
      rw [(activation_eq_some after).2.1]
      exact ⟨cursor, opens⟩
  | ended event_eq after =>
      have inactive := GroupRuntime.activation_eq_none_iff.mp after
      rw [active] at inactive
      exact Bool.noConfusion inactive
  | dispatched activation due dispatches opens closes before after =>
      right
      refine ⟨due.active, Or.inr ⟨?_, due.remaining⟩⟩
      rw [(activation_eq_some after).2.1, (activation_eq_some before).2.1]
      rfl
  | untouched opens closes quiet after =>
      right
      have before : controller.activation group = some _ :=
        after.symm.trans some'
      obtain ⟨wasActive, cursor, -⟩ := activation_eq_some before
      exact ⟨wasActive, Or.inl cursor.symm⟩

/-- The effect of an event on the work counter of a group. -/
private def activeCountAfter (group : Nat) (event : Event) (count : Nat) :
    Nat :=
  match event with
  | .resumed resumed _ delay =>
      if delay = 0 ∧ group = resumed then count - 1 else count
  | .executed executed _ delay =>
      if delay ≠ 0 ∧ group = executed then count + 1 else count
  | _ => count

private theorem Step.activeCount
    (step : Step strips timestamp controller event next)
    (work : Work controller) (group : Nat) :
    (next.runtimes group).activeCount =
      activeCountAfter group event
        (controller.runtimes group).activeCount := by
  unfold activeCountAfter
  cases step with
  | resumedAgain position entry slot delay shown resumable executes positive =>
      simp [positive, afterExecution, observed]
  | resumedLast position entry slot shown resumable executes =>
      by_cases equal : group = entry.runtimeIndex
      · subst equal
        rw [updateRuntime_self]
        simp [afterExecution, observed]
      · rw [updateRuntime_of_ne equal]
        simp [equal, afterExecution, observed]
  | restarted restarted ready again observed =>
      by_cases equal : group = restarted
      · subst equal
        simp [activate, updateRuntime, ready.resumed]
      · simp [activate, updateRuntime, equal]
  | endedRoot ready final =>
      by_cases equal : group = 0
      · subst equal
        simp [updateRuntime, GroupRuntime.reset, ready.resumed]
      · simp [updateRuntime, equal]
  | endedChild ended notRoot ready final =>
      have reset :
          ((controller.updateRuntime ended GroupRuntime.reset).runtimes
              group).activeCount =
            (controller.runtimes group).activeCount := by
        by_cases equal : group = ended
        · subst equal
          rw [updateRuntime_self, ready.resumed]
          rfl
        · rw [updateRuntime_of_ne equal]
      by_cases parent : group = (controller.runtimes ended).parentGroupIndex
      · rw [← parent, updateRuntime_self]
        exact reset
      · rw [updateRuntime_of_ne parent]
        exact reset
  | launched parent child due settled isRun target calls notRoot inactive =>
      have started :
          ∀ repeats,
            (((controller.consume parent).activate child timestamp repeats
                parent).runtimes group).activeCount =
              (controller.runtimes group).activeCount := by
        intro repeats
        by_cases equal : group = child
        · subst equal
          simp [activate, updateRuntime,
            work.activeCount_of_inactive inactive]
        · simp [activate, updateRuntime, equal, consume_runtime]
      by_cases equal : group = parent
      · subst equal
        rw [updateRuntime_self]
        exact started _
      · rw [updateRuntime_of_ne equal]
        exact started _
  | rejected parent child due settled isRun target calls notRoot busy =>
      rw [consume_runtime]
  | executedNow parent slot shown due settled notRun executes =>
      simp [afterExecution, consume_runtime]
  | executedTimed parent slot delay shown due settled notRun executes
      positive =>
      by_cases equal : group = parent
      · subst equal
        rw [updateRuntime_self]
        simp [positive, afterExecution, consume_runtime]
      · rw [updateRuntime_of_ne equal]
        simp [equal, afterExecution, consume_runtime]

theorem Work.step (work : Work controller)
    (committed : Committed rank controller) (tree : Tree rank controller)
    (step : Step strips timestamp controller event next) : Work next := by
  have same := step.sameProgram
  have outstanding := step.outstanding
  have enabled := step.enabled
  have activeCount := step.activeCount work
  -- Old work stays dispatched: its group neither restarts nor ends.
  have stays :
      ∀ group slot, (group, slot) ∈ controller.outstanding →
        (next.runtimes group).active ∧
          ∃ position, position < (next.runtimes group).cursor ∧
            next.slotAt group position = slot := by
    intro group slot member
    obtain ⟨active, position, before, slotEq⟩ :=
      work.dispatched group slot member
    have counted := work.activeCount_pos member
    rw [← same.slotAt_eq] at slotEq
    cases step.passStep group with
    | opened activation opens closes quiet after cursor startTime =>
        rw [Controller.activation, GroupRuntime.activation_of_active active]
          at closes
        exfalso
        cases event with
        | restarted other =>
            have equal : group = other := by simpa [Event.closes] using closes
            have none := enabled.1.resumed
            rw [equal] at counted
            omega
        | ended other =>
            simp [Event.opens] at opens
        | started | launched | rejected | executed | resumed | discarded =>
            simp [Event.closes] at closes
    | ended event_eq after =>
        rw [event_eq] at enabled
        have none := enabled.1.resumed
        omega
    | dispatched activation due dispatches opens closes activated after =>
        obtain ⟨nextActive, nextCursor, -⟩ := activation_eq_some after
        have cursor := (activation_eq_some activated).2.1
        refine ⟨nextActive, position, ?_, slotEq⟩
        rw [nextCursor]
        show position < activation.cursor + 1
        omega
    | untouched opens closes quiet after =>
        have activated : next.activation group = some _ :=
          after.trans (GroupRuntime.activation_of_active active)
        obtain ⟨nextActive, nextCursor, -⟩ := activation_eq_some activated
        refine ⟨nextActive, position, ?_, slotEq⟩
        rw [nextCursor]
        exact before
  constructor
  · intro group active
    rw [same.size_eq]
    rcases step.cursor_cases active with
      ⟨zero, -⟩ | ⟨wasActive, unchanged | ⟨advanced, remaining⟩⟩
    · omega
    · rw [unchanged]
      exact work.cursor group wasActive
    · omega
  · intro group slot member
    cases event with
    | resumed resumed resumedSlot delay =>
        rw [OutstandingAfter] at outstanding
        split at outstanding
        · exact
            stays group slot
              (outstanding.mem_iff.mpr (List.mem_cons_of_mem _ member))
        · rw [outstanding] at member
          exact stays group slot member
    | executed executed executedSlot delay =>
        rw [OutstandingAfter] at outstanding
        split at outstanding
        · rw [outstanding] at member
          exact stays group slot member
        · rw [outstanding, List.mem_append, List.mem_singleton] at member
          rcases member with old | new
          · exact stays group slot old
          · cases new
            obtain ⟨due, -, slotEq, -⟩ := enabled
            have advanced :
                next.activation group =
                  (controller.activation group).map Activation.consume := by
              have after := step.activation group
              simpa [Event.advance] using after
            have before : controller.activation group = some _ :=
              GroupRuntime.activation_of_active due.active
            rw [before] at advanced
            obtain ⟨nextActive, nextCursor, -⟩ := activation_eq_some advanced
            refine
              ⟨nextActive, (controller.runtimes group).cursor, ?_, ?_⟩
            · rw [nextCursor]
              exact Nat.lt_succ_self _
            · rw [same.slotAt_eq, slotEq]
              rfl
    | started | launched | rejected | discarded | restarted | ended =>
        have unchanged : next.outstanding = controller.outstanding :=
          outstanding
        rw [unchanged] at member
        exact stays group slot member
  · cases event with
    | resumed resumed resumedSlot delay =>
        rw [OutstandingAfter] at outstanding
        split at outstanding
        · have perm := outstanding.map Prod.snd
          have nodup := perm.nodup_iff.mp work.distinct
          exact (List.nodup_cons.mp nodup).2
        · rw [outstanding]
          exact work.distinct
    | executed executed executedSlot delay =>
        rw [OutstandingAfter] at outstanding
        split at outstanding
        · rw [outstanding]
          exact work.distinct
        · obtain ⟨due, -, slotEq, -⟩ := enabled
          rw [outstanding, List.map_append, List.map_singleton, slotEq]
          have fresh :=
            work.nextSlot_not_mem committed tree due.below due.remaining
          rw [List.nodup_append]
          refine ⟨work.distinct, List.nodup_singleton _, ?_⟩
          intro old oldMember new newMember equal
          rw [List.mem_singleton] at newMember
          rw [equal, newMember] at oldMember
          exact fresh oldMember
    | started | launched | rejected | discarded | restarted | ended =>
        have unchanged : next.outstanding = controller.outstanding :=
          outstanding
        rw [unchanged]
        exact work.distinct
  · intro group
    rw [activeCount]
    unfold activeCountAfter
    cases event with
    | resumed resumed resumedSlot delay =>
        rw [OutstandingAfter] at outstanding
        by_cases done : delay = 0
        · rw [if_pos done] at outstanding
          rw [work.counts, outstanding.countP_eq, List.countP_cons]
          by_cases equal : group = resumed
          · simp [done, equal]
          · simp [equal, Ne.symm equal]
        · rw [if_neg done] at outstanding
          rw [outstanding, work.counts]
          simp [done]
    | executed executed executedSlot delay =>
        rw [OutstandingAfter] at outstanding
        by_cases done : delay = 0
        · rw [if_pos done] at outstanding
          rw [outstanding, work.counts]
          simp [done]
        · rw [if_neg done] at outstanding
          rw [outstanding, work.counts, List.countP_append]
          by_cases equal : group = executed
          · simp [done, equal]
          · simp [equal, Ne.symm equal]
    | started | launched | rejected | discarded | restarted | ended =>
        have unchanged : next.outstanding = controller.outstanding :=
          outstanding
        rw [unchanged]
        exact work.counts group

end Controller

end PrismKit
