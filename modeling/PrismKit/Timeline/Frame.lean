import PrismKit.Timeline.Step

/-!
# What a step leaves alone

Field lemmas for the building blocks of `Step`, and the facts every step
shares: the program stays the same, and a group's pass is untouched by the
steps of other groups.
-/

namespace PrismKit

open Library

namespace Controller

variable {controller : Controller}

theorem updateRuntime_self (group : Nat)
    (change : GroupRuntime → GroupRuntime) :
    (controller.updateRuntime group change).runtimes group =
      change (controller.runtimes group) :=
  Function.update_self ..

theorem updateRuntime_of_ne {group other : Nat} (different : other ≠ group)
    (change : GroupRuntime → GroupRuntime) :
    (controller.updateRuntime group change).runtimes other =
      controller.runtimes other :=
  Function.update_of_ne different ..

/-- Moving a cursor changes the cursor and, for a positive mark, the boundary
flags. -/
theorem consume_runtime (group other : Nat) :
    (controller.consume group).runtimes other =
      { controller.runtimes other with
        cursor :=
          if other = group then
            (controller.runtimes other).cursor + 1
          else
            (controller.runtimes other).cursor
        positiveBoundaryObserved :=
          (controller.runtimes other).positiveBoundaryObserved ||
            (decide
                ((controller.instructions
                  (controller.nextSlot group)).getMark > 0) &&
              decide
                (other ∈
                  controller.ancestors controller.groupCount group)) } := by
  unfold consume
  by_cases equal : other = group
  · subst equal
    rw [updateRuntime_self]
    split
    · rename_i marked
      simp [observed, marked]
    · rename_i unmarked
      simp [unmarked]
  · rw [updateRuntime_of_ne equal]
    split
    · rename_i marked
      simp [observed, marked]
    · rename_i unmarked
      simp [unmarked]

/-- Moving a cursor changes nothing but runtimes. -/
theorem consume_eq (group : Nat) :
    controller.consume group =
      { controller with
        runtimes := (controller.consume group).runtimes } := by
  unfold consume updateRuntime
  split <;> rfl

@[simp]
theorem consume_instructions (group : Nat) :
    (controller.consume group).instructions = controller.instructions := by
  rw [consume_eq]

@[simp]
theorem consume_groups (group : Nat) :
    (controller.consume group).groups = controller.groups := by
  rw [consume_eq]

@[simp]
theorem consume_groupCount (group : Nat) :
    (controller.consume group).groupCount = controller.groupCount := by
  rw [consume_eq]

@[simp]
theorem consume_executing (group : Nat) :
    (controller.consume group).executing = controller.executing := by
  rw [consume_eq]

@[simp]
theorem consume_state (group : Nat) :
    (controller.consume group).state = controller.state := by
  rw [consume_eq]

@[simp]
theorem consume_refreshPeriodMs (group : Nat) :
    (controller.consume group).refreshPeriodMs =
      controller.refreshPeriodMs := by
  rw [consume_eq]

@[simp]
theorem consume_timeline (group other : Nat) :
    (controller.consume group).timeline other =
      controller.timeline other := by
  rw [consume_eq]
  rfl

namespace SameProgram

variable {next : Controller}

/-- Overwriting execution state keeps the program. -/
theorem of_runtimes {runtimes : Nat → GroupRuntime}
    (record :
      ∀ group, (runtimes group).record = (controller.runtimes group).record) :
    SameProgram controller { controller with runtimes := runtimes } :=
  ⟨rfl, rfl, rfl, rfl, rfl, record, fun _ => rfl⟩

theorem updateRuntime (group : Nat) {change : GroupRuntime → GroupRuntime}
    (record :
      (change (controller.runtimes group)).record =
        (controller.runtimes group).record) :
    SameProgram controller (controller.updateRuntime group change) := by
  apply of_runtimes
  intro other
  by_cases equal : other = group
  · subst equal
    rw [Function.update_self]
    exact record
  · rw [Function.update_of_ne equal]

theorem observed (group : Nat) :
    SameProgram controller (controller.observed group) :=
  of_runtimes fun _ => rfl

theorem consume (group : Nat) :
    SameProgram controller (controller.consume group) := by
  rw [consume_eq]
  apply of_runtimes
  intro other
  rw [consume_runtime]

theorem activate (group : Nat) (timestamp : UInt32) (repeats : LoopCount)
    (parent : Nat) :
    SameProgram controller
      (controller.activate group timestamp repeats parent) := by
  have update :
      SameProgram controller
        (controller.updateRuntime group fun runtime =>
          { record := runtime.record
            startTime := timestamp
            repeatsRemaining := repeats
            parentGroupIndex := parent
            depth :=
              if parent = maxGroups then
                0
              else
                (controller.runtimes parent).depth + 1
            active := true }) :=
    updateRuntime group rfl
  refine ⟨rfl, rfl, rfl, rfl, rfl, update.record, ?_⟩
  intro index
  simp only [Controller.activate]
  split
  · exact InstructionMemorySlot.resetForReplay_resetForReplay _
  · rfl

theorem afterExecution {strips : StripId → Strip} {timestamp : UInt32}
    {index : Nat} {slot : InstructionMemorySlot} {delay : UInt32}
    {shown : Bool}
    (executes :
      controller.Executes strips timestamp index slot delay shown)
    {after : Controller}
    (instructions : after.instructions = controller.instructions) :
    SameProgram after (after.afterExecution index slot shown) := by
  refine ⟨rfl, rfl, rfl, rfl, rfl, fun _ => rfl, ?_⟩
  intro other
  simp only [Controller.afterExecution]
  by_cases equal : other = index
  · subst equal
    rw [Function.update_self, instructions]
    obtain ⟨writes, result⟩ := executes
    have same :=
      InstructionMemorySlot.execute_sameConfiguration strips
        controller.refreshPeriodMs timestamp (controller.instructions other)
    rw [result] at same
    exact same
  · rw [Function.update_of_ne equal]
    rfl

/-- The entries, the show request and the lifecycle are no part of the
program. -/
theorem of_rest {after : Controller} (same : SameProgram controller after)
    (executing : List ExecutingInstruction) (state : ProgramState) :
    SameProgram controller
      { after with executing := executing, state := state } :=
  ⟨same.groupCount, same.groups, same.groupIndices, same.instructionCount,
    same.refreshPeriodMs, same.record, same.configuration⟩

end SameProgram

theorem Step.sameProgram {strips : StripId → Strip} {timestamp : UInt32}
    {event : Event} {next : Controller}
    (step : Step strips timestamp controller event next) :
    SameProgram controller next := by
  cases step with
  | resumedAgain position entry slot delay shown resumable executes positive =>
      exact
        ((SameProgram.observed entry.runtimeIndex).trans
          (.afterExecution executes rfl)).of_rest _ _
  | resumedLast position entry slot shown resumable executes =>
      exact
        (((SameProgram.observed entry.runtimeIndex).trans
          (.afterExecution executes rfl)).of_rest _ _).trans
            (.updateRuntime _ rfl)
  | restarted group ready again observed =>
      exact .activate ..
  | endedRoot ready final =>
      exact (SameProgram.updateRuntime 0 rfl).of_rest _ _
  | endedChild group notRoot ready final =>
      exact
        (SameProgram.updateRuntime group rfl).trans (.updateRuntime _ rfl)
  | launched group child due settled isRun target calls notRoot inactive =>
      exact
        ((SameProgram.consume group).trans (.activate ..)).trans
          (.updateRuntime _ rfl)
  | rejected group child due settled isRun target calls notRoot busy =>
      exact .consume group
  | executedNow group slot shown due settled notRun executes =>
      exact
        (SameProgram.consume group).trans
          (.afterExecution executes (consume_instructions group))
  | executedTimed group slot delay shown due settled notRun executes
      positive =>
      exact
        (((SameProgram.consume group).trans
          (.afterExecution executes (consume_instructions group))).of_rest
            _ _).trans (.updateRuntime _ rfl)

end Controller

end PrismKit
