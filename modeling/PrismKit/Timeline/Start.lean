import PrismKit.Timeline.Refinement

/-!
# Starting a program

What a successful `Start` leaves behind: a sound controller whose only active
group is the root, or, when the root holds no instruction, one that is already
completed.
-/

namespace PrismKit

open Library

namespace Controller

/-- What `AddInstruction` guarantees about the stored program. -/
structure Loadable (controller : Controller) : Prop where
  stored : controller.instructionCount ≤ maxInstructions
  bound :
    ∀ index, index < controller.instructionCount →
      ∃ instr, (controller.instructions index).active = some instr ∧
        instr.controller = true
  period_pos : controller.refreshPeriodMs ≠ 0

theorem Loadable.of_same {before after : Controller}
    (loadable : before.Loadable) (same : before.SameProgram after) :
    after.Loadable := by
  constructor
  · rw [same.instructionCount]
    exact loadable.stored
  · intro index below
    rw [same.instructionCount] at below
    obtain ⟨instr, active, bound⟩ := loadable.bound index below
    obtain ⟨instr', active', reset⟩ :=
      (same.configuration index).active_eq active
    refine ⟨instr', active', ?_⟩
    rw [(ControllerInstruction.base_of_resetForReplay reset).1]
    exact bound
  · rw [same.refreshPeriodMs]
    exact loadable.period_pos

def committedStart (build : GroupBuildState) (controller : Controller) :
    Controller :=
  { commitGroupBuild build controller with
    executing := []
    showRequested := false
    minScheduledTimeout := 0 }

def afterStart (build : GroupBuildState) (repeats : LoopCount)
    (timestamp : UInt32) (controller : Controller) : Controller :=
  if (committedStart build controller).size 0 = 0 then
    { committedStart build controller with state := .completed }
  else
    { (committedStart build controller).activate 0 timestamp repeats
        maxGroups with
      state := .active }

section AfterStart

variable {rank : Nat → Nat} {build : GroupBuildState} {repeats : LoopCount}
  {timestamp : UInt32} {controller : Controller}

theorem committedStart_runtime (group : Nat) :
    ((committedStart build controller).runtimes group) =
      { record := (committedStart build controller).groups group } := by
  simp only [committedStart, commitGroupBuild]
  split <;> rfl

theorem committedStart_committed
    (committed : Committed rank (commitGroupBuild build controller)) :
    Committed rank (committedStart build controller) :=
  committed.of_same ⟨rfl, rfl, rfl, rfl, rfl, fun _ => rfl, fun _ => rfl⟩

theorem afterStart_sameProgram :
    SameProgram (committedStart build controller)
      (afterStart build repeats timestamp controller) := by
  unfold afterStart
  split
  · exact (SameProgram.refl _).of_rest _ _
  · exact (SameProgram.activate ..).of_rest _ _

theorem afterStart_runtime (group : Nat) :
    (afterStart build repeats timestamp controller).runtimes group =
      if group = 0 ∧ (committedStart build controller).size 0 ≠ 0 then
        { record := (committedStart build controller).groups 0
          startTime := timestamp
          repeatsRemaining := repeats
          active := true }
      else
        { record := (committedStart build controller).groups group } := by
  unfold afterStart
  by_cases empty : (committedStart build controller).size 0 = 0
  · rw [if_pos empty]
    simp only [empty, ne_eq, not_true_eq_false, and_false, if_false]
    exact committedStart_runtime group
  · rw [if_neg empty]
    by_cases root : group = 0
    · subst root
      rw [if_pos ⟨rfl, empty⟩]
      simp [activate, updateRuntime, committedStart_runtime]
    · have condition :
          ¬ (group = 0 ∧ (committedStart build controller).size 0 ≠ 0) :=
        fun both => root both.1
      rw [if_neg condition]
      simp only [activate, updateRuntime, Function.update_of_ne root]
      exact committedStart_runtime group

private theorem afterStart_executing :
    (afterStart build repeats timestamp controller).executing = [] := by
  unfold afterStart
  split <;> rfl

theorem afterStart_sound
    (committed : Committed rank (commitGroupBuild build controller)) :
    (afterStart build repeats timestamp controller).Sound rank := by
  have committed' := committedStart_committed committed
  have same : SameProgram (committedStart build controller)
      (afterStart build repeats timestamp controller) :=
    afterStart_sameProgram
  have runtime :
      ∀ group,
        ((afterStart build repeats timestamp controller).runtimes
            group).active →
          group = 0 ∧ (committedStart build controller).size 0 ≠ 0 := by
    intro group active
    rw [afterStart_runtime] at active
    by_contra condition
    rw [if_neg condition] at active
    exact Bool.noConfusion active
  have outstanding :
      (afterStart build repeats timestamp controller).outstanding = [] := by
    unfold outstanding
    rw [afterStart_executing]
    rfl
  refine ⟨committed'.of_same same, ?_, ?_⟩
  · constructor
    · intro group active
      rw [(runtime group active).1, same.groupCount]
      exact committed'.nonempty
    · intro group inArray
      have childless :
          ((afterStart build repeats timestamp controller).runtimes
            group).childCount = 0 := by
        rw [afterStart_runtime]
        split <;> rfl
      rw [childless, eq_comm, countBelow_eq_zero_iff]
      intro child _
      by_contra isChild
      have isChild' :
          (afterStart build repeats timestamp controller).isChild group
            child = true := by
        simpa using isChild
      simp only [Controller.isChild, Bool.and_eq_true, decide_eq_true_eq]
        at isChild'
      have root := runtime child isChild'.1
      have parent := isChild'.2
      rw [afterStart_runtime, if_pos root] at parent
      have sentinel : maxGroups = group := parent
      omega
    · intro group active notRoot
      exact absurd (runtime group active).1 notRoot
    · intro active
      rw [afterStart_runtime, if_pos (runtime 0 active)]
      exact ⟨rfl, rfl⟩
    · intro group active
      have root := runtime group active
      rw [afterStart_runtime, if_pos root, same.groupCount, root.1]
      have bound := committed'.rank_bounded 0 committed'.nonempty
      simpa using bound
    · rw [afterStart_runtime]
      unfold afterStart
      by_cases empty : (committedStart build controller).size 0 = 0
      · simp [empty]
      · simp [empty]
  · constructor
    · intro group active
      rw [afterStart_runtime, if_pos (runtime group active)]
      exact Nat.zero_le _
    · intro group slot member
      rw [outstanding] at member
      exact absurd member List.not_mem_nil
    · rw [outstanding]
      exact List.nodup_nil
    · intro group
      rw [outstanding, afterStart_runtime]
      split <;> rfl

end AfterStart

end Controller

namespace Machine

variable {machine : Machine} {repeats : LoopCount} {now : Nat}

/-- `Start` of a program that passes the preflight. -/
theorem start_eq {build : GroupBuildState} (loadable : machine.Loadable)
    (idle : machine.state ≠ .active)
    (validates :
      validateGroups machine.instructions machine.instructionCount repeats =
        .ok build)
    (validated :
      Validated machine.instructions machine.instructionCount repeats build)
    (now : Nat) :
    machine.start repeats now =
      ({ machine with
          toController :=
            machine.afterStart build repeats (machine.getTimestamp now)
          clocks := [machine.clockReading now]
          history :=
            if (machine.committedStart build).size 0 = 0 then
              []
            else
              [⟨0, .started repeats, machine.committedStart build,
                machine.afterStart build repeats
                  (machine.getTimestamp now)⟩] },
        .success) := by
  obtain ⟨rank, committed⟩ :=
    Controller.committed_commitGroupBuild loadable.stored
      loadable.period_pos validated
  have committed' := Controller.committedStart_committed committed
  have root :
      findGroup (commitGroupBuild build machine.toController).groups
          (commitGroupBuild build machine.toController).groupCount 0 =
        0 :=
    (findGroup_eq_iff committed.injective committed.nonempty
      committed.bounded 0).mpr committed.root
  have size :
      (machine.committedStart build).size 0 =
        ((commitGroupBuild build machine.toController).groups
          0).instructionCount :=
    rfl
  have known : (0 : Nat) ≠ maxGroups := by decide
  have starts :
      startGroupRuntime 0 (machine.getTimestamp now) repeats maxGroups
          { machine with
            toController := machine.committedStart build
            clocks := [machine.clockReading now]
            history := [] } =
        some
          { machine with
            toController :=
              (machine.committedStart build).activate 0
                (machine.getTimestamp now) repeats maxGroups
            clocks := [machine.clockReading now]
            history := [] } :=
    startGroupRuntime_eq (machine.getTimestamp now) repeats
      (committed'.record 0) committed'.nonempty known.symm (Or.inl rfl)
  unfold Controller.committedStart at starts
  unfold start Controller.afterStart
  rw [if_neg idle, size]
  simp only [buildAndValidateGroups, validates, root, if_neg known, starts]
  by_cases empty :
      ((commitGroupBuild build machine.toController).groups
        0).instructionCount = 0
  · simp only [if_pos empty]
    -- Resetting a runtime that was never activated changes nothing.
    have unchanged :
        ((commitGroupBuild build machine.toController).runtimes 0).reset =
          (commitGroupBuild build machine.toController).runtimes 0 := by
      simp only [commitGroupBuild]
      split <;> rfl
    have runtimes :
        Function.update
            (commitGroupBuild build machine.toController).runtimes 0
            ((commitGroupBuild build machine.toController).runtimes
              0).reset =
          (commitGroupBuild build machine.toController).runtimes := by
      rw [unchanged]
      exact Function.update_eq_self ..
    simp only [updateRuntime, runtimes]
    rfl
  · simp only [if_neg empty]
    rfl

/-- `Start` is refused while active, is refused without a trace when the
preflight fails, and otherwise leaves `afterStart` behind. -/
theorem start_cases (loadable : machine.Loadable) (repeats : LoopCount)
    (now : Nat) :
    (machine.state = .active ∧
        machine.start repeats now = (machine, .busy)) ∨
      (machine.state ≠ .active ∧ ¬ machine.Acceptable repeats ∧
        ∃ status, status ≠ .success ∧
          machine.start repeats now = (machine, status)) ∨
      machine.state ≠ .active ∧ machine.Acceptable repeats ∧
        ∃ build,
          Validated machine.instructions machine.instructionCount repeats
            build ∧
          (machine.start repeats now).2 = .success ∧
          (machine.start repeats now).1.toController =
            machine.afterStart build repeats (machine.getTimestamp now) ∧
          (machine.start repeats now).1.clocks =
            [machine.clockReading now] ∧
          (machine.start repeats now).1.history =
            (if (machine.committedStart build).size 0 = 0 then
              []
            else
              [⟨0, .started repeats, machine.committedStart build,
                machine.afterStart build repeats
                  (machine.getTimestamp now)⟩]) ∧
          (machine.start repeats now).1.strips = machine.strips := by
  by_cases busy : machine.state = .active
  · left
    refine ⟨busy, ?_⟩
    unfold start
    rw [if_pos busy]
  · right
    rcases validateGroups_cases repeats loadable.stored with
      ⟨build, validates, validated⟩ |
        ⟨status, build, fails, failure, tabled, refused⟩
    · right
      refine ⟨busy, validated.controller_acceptable, build, validated, ?_⟩
      rw [start_eq loadable busy validates validated]
      exact ⟨rfl, rfl, rfl, rfl, rfl⟩
    · left
      refine ⟨busy, ?_, status, failure, ?_⟩
      · rw [acceptable_iff tabled]
        exact refused
      · unfold start
        rw [if_neg busy]
        simp only [buildAndValidateGroups, fails]

end Machine

end PrismKit
