import PrismKit.Timeline.Consistent

/-!
# Steps keep the tree of active groups

Only a launch and an end change the tree: a launch hangs a new leaf below the
launching group, and an end removes a leaf.  A restart overwrites the whole
runtime, but gives it the same place in the tree.
-/

namespace PrismKit

open Library

namespace Controller

variable {rank : Nat → Nat} {controller next : Controller}
  {strips : StripId → Strip} {timestamp : UInt32} {event : Event}

structure SameTree (before after : Controller) : Prop where
  runtime :
    ∀ group,
      (after.runtimes group).active = (before.runtimes group).active ∧
        (after.runtimes group).parentGroupIndex =
          (before.runtimes group).parentGroupIndex ∧
        (after.runtimes group).childCount =
          (before.runtimes group).childCount ∧
        (after.runtimes group).depth = (before.runtimes group).depth
  state : after.state = before.state

theorem Tree.of_same (tree : Tree rank controller)
    (program : SameProgram controller next)
    (same : SameTree controller next) : Tree rank next := by
  have active := fun group => (same.runtime group).1
  have parent := fun group => (same.runtime group).2.1
  have childCount := fun group => (same.runtime group).2.2.1
  have depth := fun group => (same.runtime group).2.2.2
  have isChild : next.isChild = controller.isChild := by
    funext group child
    simp only [Controller.isChild, active, parent]
  constructor
  · intro group
    rw [active, program.groupCount]
    exact tree.inRange group
  · intro group inArray
    rw [childCount, isChild]
    exact tree.children group inArray
  · intro group
    rw [active, parent, active, depth, depth, program.edge_iff]
    exact tree.parent group
  · rw [active, parent, depth]
    exact tree.root
  · intro group
    rw [active, depth, program.groupCount]
    exact tree.depth group
  · rw [same.state, active]
    exact tree.lifecycle

/-- The depth below an active parent is computed without overflow. -/
private theorem depth_succ_toNat {depth : UInt8}
    (room : depth.toNat + 1 < maxGroups) :
    (depth + 1).toNat = depth.toNat + 1 := by
  have bound : depth.toNat + 1 < 256 := by
    have := room
    simp only [maxGroups, maxInstructions] at this
    omega
  rw [UInt8.toNat_add]
  exact Nat.mod_eq_of_lt bound

/-- The steps that keep the tree. -/
theorem Step.sameTree (tree : Tree rank controller)
    (bounded : controller.groupCount ≤ maxGroups)
    (step : Step strips timestamp controller event next)
    (notLaunched : ∀ parent slot child repeats,
      event ≠ .launched parent slot child repeats)
    (notEnded : ∀ group, event ≠ .ended group) :
    SameTree controller next := by
  cases step with
  | resumedAgain position entry slot delay shown resumable executes positive =>
      exact ⟨fun _ => ⟨rfl, rfl, rfl, rfl⟩, rfl⟩
  | resumedLast position entry slot shown resumable executes =>
      refine ⟨?_, rfl⟩
      intro group
      by_cases equal : group = entry.runtimeIndex
      · subst equal
        rw [updateRuntime_self]
        exact ⟨rfl, rfl, rfl, rfl⟩
      · rw [updateRuntime_of_ne equal]
        exact ⟨rfl, rfl, rfl, rfl⟩
  | restarted restarted ready again observed =>
      refine ⟨?_, rfl⟩
      intro group
      by_cases equal : group = restarted
      · subst equal
        -- The new depth is computed from the same parent.
        have depth :
            (if (controller.runtimes group).parentGroupIndex = maxGroups then
                0
              else
                (controller.runtimes
                  (controller.runtimes group).parentGroupIndex).depth + 1) =
              (controller.runtimes group).depth := by
          by_cases root : group = 0
          · subst root
            obtain ⟨parent, depth⟩ := tree.root ready.active
            rw [if_pos parent, depth]
          · obtain ⟨calls, -, depth⟩ :=
              tree.parent group ready.active root
            have bound := tree.depth group ready.active
            have known :
                (controller.runtimes group).parentGroupIndex ≠ maxGroups :=
              Nat.ne_of_lt (Nat.lt_of_lt_of_le calls.1 bounded)
            rw [if_neg known]
            apply UInt8.toNat_inj.mp
            rw [depth, depth_succ_toNat (by omega)]
        simp [activate, updateRuntime, ready.active, ready.ended, depth]
      · simp [activate, updateRuntime, equal]
  | endedRoot ready final =>
      exact absurd rfl (notEnded 0)
  | endedChild ended notRoot ready final =>
      exact absurd rfl (notEnded ended)
  | launched parent child due settled isRun target calls notRoot inactive =>
      exact absurd rfl (notLaunched _ _ _ _)
  | rejected parent child due settled isRun target calls notRoot busy =>
      refine ⟨?_, by rw [consume_state]⟩
      intro group
      rw [consume_runtime]
      exact ⟨rfl, rfl, rfl, rfl⟩
  | executedNow parent slot shown due settled notRun executes =>
      refine ⟨?_, consume_state parent⟩
      intro group
      simp only [afterExecution, consume_runtime, and_self]
  | executedTimed parent slot delay shown due settled notRun executes
      positive =>
      refine ⟨?_, consume_state parent⟩
      intro group
      by_cases equal : group = parent
      · subst equal
        rw [updateRuntime_self]
        simp only [afterExecution, consume_runtime, and_self]
      · rw [updateRuntime_of_ne equal]
        simp only [afterExecution, consume_runtime, and_self]

private structure Launched (controller next : Controller)
    (parent child : Nat) : Prop where
  child_active : (next.runtimes child).active = true
  child_parent : (next.runtimes child).parentGroupIndex = parent
  child_children : (next.runtimes child).childCount = 0
  child_depth :
    (next.runtimes child).depth = (controller.runtimes parent).depth + 1
  others :
    ∀ group, group ≠ child →
      (next.runtimes group).active = (controller.runtimes group).active ∧
        (next.runtimes group).parentGroupIndex =
          (controller.runtimes group).parentGroupIndex ∧
        (next.runtimes group).depth = (controller.runtimes group).depth ∧
        (next.runtimes group).childCount =
          (controller.runtimes group).childCount +
            if group = parent then 1 else 0
  state : next.state = controller.state

private theorem launched_of_consume {parent child : Nat}
    (apart : parent ≠ child) (known : parent ≠ maxGroups)
    (repeats : LoopCount) :
    Launched controller
      (((controller.consume parent).activate child timestamp repeats
          parent).updateRuntime parent fun runtime =>
        { runtime with childCount := runtime.childCount + 1 })
      parent child := by
  have childRuntime :
      (((controller.consume parent).activate child timestamp repeats
          parent).updateRuntime parent fun runtime =>
        { runtime with childCount := runtime.childCount + 1 }).runtimes
          child =
        { record := (controller.runtimes child).record
          startTime := timestamp
          repeatsRemaining := repeats
          parentGroupIndex := parent
          depth := (controller.runtimes parent).depth + 1
          active := true } := by
    rw [updateRuntime_of_ne apart.symm]
    simp [activate, updateRuntime, known, consume_runtime]
  have otherRuntime :
      ∀ group, group ≠ child →
        ((controller.consume parent).activate child timestamp repeats
            parent).runtimes group =
          (controller.consume parent).runtimes group := by
    intro group different
    simp [activate, updateRuntime, different]
  constructor
  · rw [childRuntime]
  · rw [childRuntime]
  · rw [childRuntime]
  · rw [childRuntime]
  · intro group different
    by_cases equal : group = parent
    · subst equal
      rw [updateRuntime_self, otherRuntime group different, consume_runtime]
      refine ⟨rfl, rfl, rfl, ?_⟩
      simp
    · rw [updateRuntime_of_ne equal, otherRuntime group different,
        consume_runtime]
      refine ⟨rfl, rfl, rfl, ?_⟩
      simp [equal]
  · exact consume_state parent

private theorem Tree.launch (tree : Tree rank controller)
    (committed : Committed rank controller)
    (program : SameProgram controller next) {parent child : Nat}
    (calls : controller.CallsGroup parent child) (notRoot : child ≠ 0)
    (parentActive : (controller.runtimes parent).active)
    (inactive : (controller.runtimes child).active = false)
    (launched : Launched controller next parent child) : Tree rank next := by
  have bounded := committed.bounded
  have childBelow : child < maxGroups := Nat.lt_of_lt_of_le calls.2.1 bounded
  have apart : parent ≠ child := by
    intro equal
    rw [equal, inactive] at parentActive
    exact Bool.noConfusion parentActive
  have rankDrop := committed.rank_lt parent child calls
  have parentBound := tree.depth parent parentActive
  have childDepth :
      (next.runtimes child).depth.toNat =
        (controller.runtimes parent).depth.toNat + 1 := by
    rw [launched.child_depth, depth_succ_toNat]
    omega
  constructor
  · intro group active
    rw [program.groupCount]
    by_cases equal : group = child
    · rw [equal]
      exact calls.2.1
    · rw [(launched.others group equal).1] at active
      exact tree.inRange group active
  · intro group inArray
    -- Only the launched child changes its place.
    have elsewhere :
        ∀ other, other ≠ child →
          next.isChild group other = controller.isChild group other := by
      intro other different
      obtain ⟨active, parentEq, -⟩ := launched.others other different
      simp only [Controller.isChild, active, parentEq]
    have change :=
      countBelow_change childBelow elsewhere
    have before : controller.isChild group child = false := by
      simp [Controller.isChild, inactive]
    have after : next.isChild group child = decide (parent = group) := by
      simp [Controller.isChild, launched.child_active, launched.child_parent]
    rw [before, after] at change
    by_cases isChild : group = child
    · subst isChild
      rw [launched.child_children]
      have none : countBelow maxGroups (controller.isChild group) = 0 := by
        rw [countBelow_eq_zero_iff]
        intro other _
        by_contra holds
        have holds' : controller.isChild group other = true := by
          simpa using holds
        simp only [Controller.isChild, Bool.and_eq_true,
          decide_eq_true_eq] at holds'
        have root := tree.parent_ne_of_inactive inactive holds'.1 holds'.2
        omega
      rw [none] at change
      simp [apart] at change
      omega
    · obtain ⟨-, -, -, childCount⟩ := launched.others group isChild
      rw [childCount, tree.children group inArray]
      by_cases isParent : group = parent
      · subst isParent
        simp at change
        simp
        omega
      · have different : ¬ parent = group := fun same => isParent same.symm
        simp [different] at change
        simp [isParent]
        omega
  · intro group active notRoot'
    rw [program.edge_iff]
    by_cases equal : group = child
    · subst equal
      rw [launched.child_parent]
      obtain ⟨active', -, depth', -⟩ := launched.others parent apart
      refine ⟨calls, active'.trans parentActive, ?_⟩
      rw [childDepth, depth']
    · obtain ⟨active', parent', depth', -⟩ := launched.others group equal
      rw [active'] at active
      obtain ⟨calls', grandActive, depthEq⟩ :=
        tree.parent group active notRoot'
      have parentNe :
          (controller.runtimes group).parentGroupIndex ≠ child := by
        intro same
        rw [same, inactive] at grandActive
        exact Bool.noConfusion grandActive
      obtain ⟨active'', -, depth'', -⟩ := launched.others _ parentNe
      rw [parent', depth', active'', depth'']
      exact ⟨calls', grandActive, depthEq⟩
  · intro active
    obtain ⟨active', parent', depth', -⟩ :=
      launched.others 0 (Ne.symm notRoot)
    rw [active'] at active
    rw [parent', depth']
    exact tree.root active
  · intro group active
    rw [program.groupCount]
    by_cases equal : group = child
    · subst equal
      omega
    · obtain ⟨active', -, depth', -⟩ := launched.others group equal
      rw [active'] at active
      rw [depth']
      exact tree.depth group active
  · rw [launched.state, (launched.others 0 (Ne.symm notRoot)).1]
    exact tree.lifecycle

/-! ### Ending -/

private structure Ended (controller next : Controller) (group : Nat) :
    Prop where
  inactive : (next.runtimes group).active = false
  no_children : (next.runtimes group).childCount = 0
  others :
    ∀ other, other ≠ group →
      (next.runtimes other).active = (controller.runtimes other).active ∧
        (next.runtimes other).parentGroupIndex =
          (controller.runtimes other).parentGroupIndex ∧
        (next.runtimes other).depth = (controller.runtimes other).depth ∧
        (next.runtimes other).childCount =
          (controller.runtimes other).childCount -
            if group ≠ 0 ∧
                other = (controller.runtimes group).parentGroupIndex then
              1
            else
              0
  state : next.state = if group = 0 then .completed else controller.state

private theorem ended_root :
    Ended controller
      { controller.updateRuntime 0 GroupRuntime.reset with
        state := .completed } 0 := by
  constructor
  · rw [updateRuntime_self]
    rfl
  · rw [updateRuntime_self]
    rfl
  · intro other different
    rw [updateRuntime_of_ne different]
    simp
  · rfl

private theorem ended_child {group : Nat} (notRoot : group ≠ 0)
    (apart : (controller.runtimes group).parentGroupIndex ≠ group) :
    Ended controller
      ((controller.updateRuntime group GroupRuntime.reset).updateRuntime
        (controller.runtimes group).parentGroupIndex fun runtime =>
          { runtime with childCount := runtime.childCount - 1 }) group := by
  have selfRuntime :
      ((controller.updateRuntime group GroupRuntime.reset).updateRuntime
        (controller.runtimes group).parentGroupIndex fun runtime =>
          { runtime with childCount := runtime.childCount - 1 }).runtimes
            group =
        (controller.runtimes group).reset := by
    rw [updateRuntime_of_ne apart.symm, updateRuntime_self]
  constructor
  · rw [selfRuntime]
    rfl
  · rw [selfRuntime]
    rfl
  · intro other different
    by_cases isParent : other = (controller.runtimes group).parentGroupIndex
    · rw [if_pos ⟨notRoot, isParent⟩, isParent, updateRuntime_self,
        updateRuntime_of_ne apart]
      exact ⟨rfl, rfl, rfl, rfl⟩
    · have condition :
          ¬ (group ≠ 0 ∧
            other = (controller.runtimes group).parentGroupIndex) :=
        fun both => isParent both.2
      rw [if_neg condition, updateRuntime_of_ne isParent,
        updateRuntime_of_ne different]
      exact ⟨rfl, rfl, rfl, rfl⟩
  · rw [if_neg notRoot]
    rfl

private theorem Tree.finish (tree : Tree rank controller)
    (committed : Committed rank controller)
    (program : SameProgram controller next) {group : Nat}
    (ready : controller.Ready group)
    (ended : Ended controller next group) : Tree rank next := by
  have bounded := committed.bounded
  have groupBelow : group < maxGroups :=
    Nat.lt_of_lt_of_le ready.below bounded
  have leaf :
      ∀ other, (controller.runtimes other).active →
        (controller.runtimes other).parentGroupIndex ≠ group :=
    fun other active =>
      tree.no_child bounded groupBelow ready.ended active
  have remains :
      ∀ other, (next.runtimes other).active →
        other ≠ group ∧ (controller.runtimes other).active := by
    intro other active
    have different : other ≠ group := by
      intro equal
      rw [equal, ended.inactive] at active
      exact Bool.noConfusion active
    rw [(ended.others other different).1] at active
    exact ⟨different, active⟩
  constructor
  · intro other active
    rw [program.groupCount]
    exact tree.inRange other (remains other active).2
  · intro parent inArray
    have elsewhere :
        ∀ other, other ≠ group →
          next.isChild parent other = controller.isChild parent other := by
      intro other different
      obtain ⟨active, parentEq, -⟩ := ended.others other different
      simp only [Controller.isChild, active, parentEq]
    have change := countBelow_change groupBelow elsewhere
    have after : next.isChild parent group = false := by
      simp [Controller.isChild, ended.inactive]
    have before :
        controller.isChild parent group =
          decide ((controller.runtimes group).parentGroupIndex = parent) := by
      simp [Controller.isChild, ready.active]
    rw [before, after] at change
    have count := tree.children parent inArray
    by_cases self : parent = group
    · subst self
      have apart := leaf parent ready.active
      rw [ended.no_children]
      rw [ready.ended] at count
      simp [apart] at change
      omega
    · obtain ⟨-, -, -, childCount⟩ := ended.others parent self
      rw [childCount, count]
      by_cases isParent :
          parent = (controller.runtimes group).parentGroupIndex
      · by_cases root : group = 0
        · -- The root has the sentinel as its parent.
          subst root
          have sentinel := (tree.root ready.active).1
          omega
        · rw [if_pos ⟨root, isParent⟩]
          simp [← isParent] at change
          omega
      · have condition :
            ¬ (group ≠ 0 ∧
              parent = (controller.runtimes group).parentGroupIndex) :=
          fun both => isParent both.2
        have different :
            ¬ (controller.runtimes group).parentGroupIndex = parent :=
          fun same => isParent same.symm
        rw [if_neg condition]
        simp [different] at change
        omega
  · intro other active notRoot
    obtain ⟨different, wasActive⟩ := remains other active
    obtain ⟨-, parentEq, depthEq, -⟩ := ended.others other different
    obtain ⟨calls, parentActive, depth⟩ := tree.parent other wasActive notRoot
    obtain ⟨parentActive', -, parentDepth, -⟩ :=
      ended.others _ (leaf other wasActive)
    rw [program.edge_iff, parentEq, depthEq, parentActive', parentDepth]
    exact ⟨calls, parentActive, depth⟩
  · intro active
    obtain ⟨different, wasActive⟩ := remains 0 active
    obtain ⟨-, parentEq, depthEq, -⟩ := ended.others 0 different
    rw [parentEq, depthEq]
    exact tree.root wasActive
  · intro other active
    obtain ⟨different, wasActive⟩ := remains other active
    rw [program.groupCount, (ended.others other different).2.2.1]
    exact tree.depth other wasActive
  · rw [ended.state]
    by_cases root : group = 0
    · subst root
      rw [if_pos rfl, ended.inactive]
      rfl
    · rw [if_neg root, (ended.others 0 (Ne.symm root)).1]
      exact tree.lifecycle

theorem Tree.step (tree : Tree rank controller)
    (committed : Committed rank controller)
    (step : Step strips timestamp controller event next) :
    Tree rank next := by
  have program := step.sameProgram
  have bounded := committed.bounded
  by_cases launch :
      ∃ parent slot child repeats,
        event = .launched parent slot child repeats
  · obtain ⟨parent, slot, child, repeats, rfl⟩ := launch
    cases step with
    | launched _ _ due settled isRun target calls notRoot inactive =>
        have apart : parent ≠ child := by
          intro equal
          have active := due.active
          rw [equal, inactive] at active
          exact Bool.noConfusion active
        have known : parent ≠ maxGroups :=
          Nat.ne_of_lt (Nat.lt_of_lt_of_le due.below bounded)
        exact
          tree.launch committed program calls notRoot due.active inactive
            (launched_of_consume apart known _)
  · by_cases finish : ∃ group, event = .ended group
    · obtain ⟨group, rfl⟩ := finish
      cases step with
      | endedRoot ready final =>
          exact tree.finish committed program ready ended_root
      | endedChild _ notRoot ready final =>
          have inArray : group < maxGroups :=
            Nat.lt_of_lt_of_le ready.below bounded
          have apart :=
            tree.no_child bounded inArray ready.ended ready.active
          exact
            tree.finish committed program ready (ended_child notRoot apart)
    · have notLaunched :
          ∀ parent slot child repeats,
            event ≠ .launched parent slot child repeats :=
        fun parent slot child repeats same =>
          launch ⟨parent, slot, child, repeats, same⟩
      have notEnded : ∀ group, event ≠ .ended group :=
        fun group same => finish ⟨group, same⟩
      exact
        tree.of_same program
          (step.sameTree tree bounded notLaunched notEnded)

end Controller

end PrismKit
