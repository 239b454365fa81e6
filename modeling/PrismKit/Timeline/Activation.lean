import PrismKit.Timeline.Frame

/-!
# Activations

The abstract state of one group: nothing while it is inactive, and otherwise
how far its current pass got, when the pass started, how many passes may still
follow, and who started it.  Events act on activations by themselves; the
counters, depths and flags of the runtimes play no role.  `Step.activation`
says that the controller follows this description.
-/

namespace PrismKit

open Library

/-- Where the current activation of a group stands. -/
structure Activation where
  cursor : Nat
  startTime : UInt32
  repeatsRemaining : LoopCount
  parent : Nat
  deriving DecidableEq, Repr

namespace Activation

/-- One more instruction of the pass is dispatched. -/
def consume (activation : Activation) : Activation :=
  { activation with cursor := activation.cursor + 1 }

def again (timestamp : UInt32) (activation : Activation) : Activation :=
  { activation with
    cursor := 0
    startTime := timestamp
    repeatsRemaining := Controller.nextRepeats activation.repeatsRemaining }

end Activation

/-- The effect of an event on the activation of one group. -/
def Event.advance (timestamp : UInt32) (group : Nat) (event : Event)
    (activation : Option Activation) : Option Activation :=
  match event with
  | .started repeats =>
      if group = 0 then some ⟨0, timestamp, repeats, maxGroups⟩ else activation
  | .launched parent _ child repeats =>
      if group = child then
        some ⟨0, timestamp, repeats, parent⟩
      else if group = parent then
        activation.map Activation.consume
      else
        activation
  | .rejected parent _ _ =>
      if group = parent then activation.map Activation.consume else activation
  | .executed parent _ _ =>
      if group = parent then activation.map Activation.consume else activation
  | .resumed _ _ _ => activation
  | .discarded _ _ => activation
  | .restarted other =>
      if group = other then
        activation.map (Activation.again timestamp)
      else
        activation
  | .ended other => if group = other then none else activation

def Event.dispatches : Event → Option (Nat × Nat)
  | .launched parent slot _ _ => some (parent, slot)
  | .rejected parent slot _ => some (parent, slot)
  | .executed group slot _ => some (group, slot)
  | _ => none

def Event.opens (group : Nat) : Event → Bool
  | .started _ => group = 0
  | .launched _ _ child _ => group = child
  | .restarted other => group = other
  | _ => false

def Event.closes (group : Nat) : Event → Bool
  | .restarted other => group = other
  | .ended other => group = other
  | _ => false

def GroupRuntime.activation (runtime : GroupRuntime) : Option Activation :=
  if runtime.active then
    some
      ⟨runtime.cursor, runtime.startTime, runtime.repeatsRemaining,
        runtime.parentGroupIndex⟩
  else
    none

def Controller.activation (controller : Controller) (group : Nat) :
    Option Activation :=
  (controller.runtimes group).activation

namespace GroupRuntime

variable {runtime other : GroupRuntime}

theorem activation_of_active (active : runtime.active) :
    runtime.activation =
      some
        ⟨runtime.cursor, runtime.startTime, runtime.repeatsRemaining,
          runtime.parentGroupIndex⟩ := by
  unfold activation
  rw [if_pos active]

theorem activation_eq_none_iff :
    runtime.activation = none ↔ runtime.active = false := by
  unfold activation
  cases runtime.active with
  | false =>
      simp
  | true =>
      simp

end GroupRuntime

namespace Controller

variable {controller : Controller}

theorem activation_eq_some {group : Nat} {activation : Activation}
    (found : controller.activation group = some activation) :
    (controller.runtimes group).active = true ∧
      (controller.runtimes group).cursor = activation.cursor ∧
      (controller.runtimes group).startTime = activation.startTime ∧
      (controller.runtimes group).repeatsRemaining =
        activation.repeatsRemaining ∧
      (controller.runtimes group).parentGroupIndex = activation.parent := by
  unfold Controller.activation GroupRuntime.activation at found
  split at found
  · rename_i active
    cases found
    exact ⟨active, rfl, rfl, rfl, rfl⟩
  · cases found

private theorem activation_consume (group other : Nat) :
    (controller.consume group).activation other =
      if other = group then
        (controller.activation other).map Activation.consume
      else
        controller.activation other := by
  unfold Controller.activation GroupRuntime.activation
  rw [consume_runtime]
  by_cases equal : other = group
  · simp only [equal, if_true]
    split <;> rfl
  · simp only [equal, if_false]

theorem Step.activation {strips : StripId → Strip} {timestamp : UInt32}
    {event : Event} {next : Controller}
    (step : Step strips timestamp controller event next) (group : Nat) :
    next.activation group =
      event.advance timestamp group (controller.activation group) := by
  cases step with
  | resumedAgain position entry slot delay shown resumable executes positive =>
      rfl
  | resumedLast position entry slot shown resumable executes =>
      unfold Controller.activation
      by_cases equal : group = entry.runtimeIndex
      · subst equal
        rw [updateRuntime_self]
        rfl
      · rw [updateRuntime_of_ne equal]
        rfl
  | restarted restarted ready again observed =>
      unfold Controller.activation
      by_cases equal : group = restarted
      · subst equal
        rw [GroupRuntime.activation_of_active ready.active]
        simp [activate, updateRuntime, Event.advance, GroupRuntime.activation,
          Activation.again]
      · simp [activate, updateRuntime, Event.advance, equal]
  | endedRoot ready final =>
      unfold Controller.activation
      by_cases equal : group = 0
      · subst equal
        simp [updateRuntime, Event.advance, GroupRuntime.activation,
          GroupRuntime.reset]
      · simp [updateRuntime, Event.advance, equal]
  | endedChild ended notRoot ready final =>
      unfold Controller.activation
      have reset :
          ((controller.updateRuntime ended GroupRuntime.reset).runtimes
              group).activation =
            if group = ended then
              none
            else
              (controller.runtimes group).activation := by
        by_cases equal : group = ended
        · subst equal
          rw [updateRuntime_self, if_pos rfl]
          rfl
        · rw [updateRuntime_of_ne equal, if_neg equal]
      rw [Event.advance, ← reset]
      by_cases parent : group = (controller.runtimes ended).parentGroupIndex
      · rw [← parent, updateRuntime_self]
        rfl
      · rw [updateRuntime_of_ne parent]
  | launched parent child due settled isRun target calls notRoot inactive =>
      have apart : parent ≠ child := by
        intro equal
        have active := due.active
        rw [equal, inactive] at active
        exact Bool.noConfusion active
      have started :
          ∀ repeats,
            ((controller.consume parent).activate child timestamp repeats
                parent).activation group =
              if group = child then
                some ⟨0, timestamp, repeats, parent⟩
              else
                (controller.consume parent).activation group := by
        intro repeats
        unfold Controller.activation
        by_cases equal : group = child
        · subst equal
          simp [activate, updateRuntime, GroupRuntime.activation]
        · simp [activate, updateRuntime, equal]
      rw [Event.advance, ← activation_consume, ← started]
      unfold Controller.activation
      by_cases equal : group = parent
      · subst equal
        rw [updateRuntime_self]
        rfl
      · rw [updateRuntime_of_ne equal]
  | rejected parent child due settled isRun target calls notRoot busy =>
      rw [Event.advance]
      exact activation_consume parent group
  | executedNow parent slot shown due settled notRun executes =>
      rw [Event.advance]
      exact activation_consume parent group
  | executedTimed parent slot delay shown due settled notRun executes
      positive =>
      rw [Event.advance, ← activation_consume]
      unfold Controller.activation
      by_cases equal : group = parent
      · subst equal
        rw [updateRuntime_self]
        rfl
      · rw [updateRuntime_of_ne equal]
        rfl

/-- What has to hold before an event. -/
def Enabled (timestamp : UInt32) (controller : Controller) : Event → Prop
  | .started _ => False
  | .launched parent slot child repeats =>
      controller.Due timestamp parent ∧ controller.Settled timestamp ∧
        slot = controller.nextSlot parent ∧
        (controller.instructions slot).isRunGroup ∧
        repeats = (controller.instructions slot).getAdditionalRepeats ∧
        child =
          findGroup controller.groups controller.groupCount
            (controller.instructions slot).getTargetGroupId ∧
        controller.CallsGroup parent child ∧ child ≠ 0 ∧
        (controller.runtimes child).active = false
  | .rejected parent slot status =>
      controller.Due timestamp parent ∧ controller.Settled timestamp ∧
        slot = controller.nextSlot parent ∧
        (controller.instructions slot).isRunGroup ∧
        status = .alreadyActiveGroup ∧
        ∃ child,
          child =
            findGroup controller.groups controller.groupCount
              (controller.instructions slot).getTargetGroupId ∧
          controller.CallsGroup parent child ∧ child ≠ 0 ∧
          (controller.runtimes child).active
  | .executed group slot _ =>
      controller.Due timestamp group ∧ controller.Settled timestamp ∧
        slot = controller.nextSlot group ∧
        (controller.instructions slot).isRunGroup = false
  | .resumed group slot _ =>
      ∃ position entry, controller.Resumable timestamp position entry ∧
        entry.runtimeIndex = group ∧ entry.instructionIndex = slot
  | .discarded _ _ => False
  | .restarted group =>
      controller.Ready group ∧
        (controller.runtimes group).repeatsRemaining ≠ 0 ∧
        (controller.runtimes group).positiveBoundaryObserved
  | .ended group =>
      controller.Ready group ∧
        ((controller.runtimes group).repeatsRemaining = 0 ∨
          (controller.runtimes group).positiveBoundaryObserved = false)

theorem Step.enabled {strips : StripId → Strip} {timestamp : UInt32}
    {event : Event} {next : Controller}
    (step : Step strips timestamp controller event next) :
    controller.Enabled timestamp event := by
  cases step with
  | resumedAgain position entry slot delay shown resumable executes positive =>
      exact ⟨position, entry, resumable, rfl, rfl⟩
  | resumedLast position entry slot shown resumable executes =>
      exact ⟨position, entry, resumable, rfl, rfl⟩
  | restarted group ready again observed =>
      exact ⟨ready, again, observed⟩
  | endedRoot ready final =>
      exact ⟨ready, final⟩
  | endedChild group notRoot ready final =>
      exact ⟨ready, final⟩
  | launched group child due settled isRun target calls notRoot inactive =>
      exact
        ⟨due, settled, rfl, isRun, rfl, target.symm, calls, notRoot, inactive⟩
  | rejected group child due settled isRun target calls notRoot busy =>
      exact
        ⟨due, settled, rfl, isRun, rfl, child, target.symm, calls, notRoot,
          busy⟩
  | executedNow group slot shown due settled notRun executes =>
      exact ⟨due, settled, rfl, notRun⟩
  | executedTimed group slot delay shown due settled notRun executes
      positive =>
      exact ⟨due, settled, rfl, notRun⟩

/-! ### One group during one step -/

inductive PassStep (timestamp : UInt32) (controller next : Controller)
    (group : Nat) (event : Event) : Prop
  /-- The step starts a pass; a running pass ends with it. -/
  | opened (activation : Activation) (opens : event.opens group)
      (closes : event.closes group = (controller.activation group).isSome)
      (quiet : ∀ slot, event.dispatches ≠ some (group, slot))
      (after : next.activation group = some activation)
      (cursor : activation.cursor = 0)
      (startTime : activation.startTime = timestamp)
  /-- The step ends the activation. -/
  | ended (event_eq : event = .ended group)
      (after : next.activation group = none)
  /-- The step dispatches the instruction at the cursor. -/
  | dispatched (activation : Activation)
      (due : controller.Due timestamp group)
      (dispatches :
        event.dispatches = some (group, controller.nextSlot group))
      (opens : event.opens group = false)
      (closes : event.closes group = false)
      (before : controller.activation group = some activation)
      (after : next.activation group = some activation.consume)
  /-- The step is about other groups. -/
  | untouched (opens : event.opens group = false)
      (closes : event.closes group = false)
      (quiet : ∀ slot, event.dispatches ≠ some (group, slot))
      (after : next.activation group = controller.activation group)

private theorem passStep_of_dispatch {timestamp : UInt32}
    {next : Controller} {event : Event} {parent slot : Nat} (group : Nat)
    (due : controller.Due timestamp parent)
    (slotEq : slot = controller.nextSlot parent)
    (dispatches : event.dispatches = some (parent, slot))
    (opens : event.opens group = false)
    (closes : event.closes group = false)
    (after :
      next.activation group =
        if group = parent then
          (controller.activation group).map Activation.consume
        else
          controller.activation group) :
    PassStep timestamp controller next group event := by
  by_cases equal : group = parent
  · subst equal
    rw [if_pos rfl] at after
    have before : controller.activation group = some _ :=
      GroupRuntime.activation_of_active due.active
    rw [before] at after
    rw [slotEq] at dispatches
    exact .dispatched _ due dispatches opens closes before after
  · rw [if_neg equal] at after
    refine .untouched opens closes ?_ after
    intro other same
    rw [dispatches] at same
    cases same
    exact equal rfl

theorem Step.passStep {strips : StripId → Strip} {timestamp : UInt32}
    {event : Event} {next : Controller}
    (step : Step strips timestamp controller event next) (group : Nat) :
    PassStep timestamp controller next group event := by
  have after := step.activation group
  have enabled := step.enabled
  cases event with
  | started repeats =>
      exact enabled.elim
  | launched parent slot child repeats =>
      obtain ⟨due, -, slotEq, -, -, -, -, -, inactive⟩ := enabled
      by_cases equal : group = child
      · subst equal
        simp only [Event.advance, if_true] at after
        have none := GroupRuntime.activation_eq_none_iff.mpr inactive
        refine .opened _ ?_ ?_ ?_ after rfl rfl
        · simp [Event.opens]
        · simp [Event.closes, Controller.activation, none]
        · intro other same
          simp only [Event.dispatches, Option.some.injEq, Prod.mk.injEq] at same
          have active := due.active
          rw [same.1, inactive] at active
          exact Bool.noConfusion active
      · simp only [Event.advance, if_neg equal] at after
        exact
          passStep_of_dispatch group due slotEq rfl
            (by simp [Event.opens, equal]) rfl after
  | rejected parent slot status =>
      exact passStep_of_dispatch group enabled.1 enabled.2.2.1 rfl rfl rfl after
  | executed parent slot delay =>
      exact passStep_of_dispatch group enabled.1 enabled.2.2.1 rfl rfl rfl after
  | resumed parent slot delay =>
      exact .untouched rfl rfl (fun _ => by simp [Event.dispatches]) after
  | discarded parent slot =>
      exact enabled.elim
  | restarted other =>
      by_cases equal : group = other
      · subst equal
        have before : controller.activation group = some _ :=
          GroupRuntime.activation_of_active enabled.1.active
        simp only [Event.advance, if_true, before, Option.map_some] at after
        refine .opened _ ?_ ?_ ?_ after rfl rfl
        · simp [Event.opens]
        · simp [Event.closes, before]
        · intro slot
          simp [Event.dispatches]
      · simp only [Event.advance, if_neg equal] at after
        refine .untouched ?_ ?_ ?_ after
        · simp [Event.opens, equal]
        · simp [Event.closes, equal]
        · intro slot
          simp [Event.dispatches]
  | ended other =>
      by_cases equal : group = other
      · subst equal
        simp only [Event.advance, if_true] at after
        exact .ended rfl after
      · simp only [Event.advance, if_neg equal] at after
        refine .untouched rfl ?_ ?_ after
        · simp [Event.closes, equal]
        · intro slot
          simp [Event.dispatches]

end Controller

end PrismKit
