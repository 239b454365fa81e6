import PrismKit.Timeline.Completion
import PrismKit.Timeline.Defence

/-!
# Programs that call every group once

An active child was launched by a `RunGroup` that its parent has already
dispatched in the current pass.  When no other `RunGroup` calls the child, the
next call can only come in a later pass of the parent, and that pass does not
start before the child has ended.
-/

namespace PrismKit

namespace Controller

/-- No group is the target of two `RunGroup` instructions. -/
def CalledOnce (controller : Controller) : Prop :=
  ∀ left right, left < controller.instructionCount →
    right < controller.instructionCount →
      (controller.instructions left).isRunGroup →
        (controller.instructions right).isRunGroup →
          (controller.instructions left).getTargetGroupId =
              (controller.instructions right).getTargetGroupId →
            left = right

/-- The instruction at a position of a timeline calls a group. -/
structure CallsAt (controller : Controller) (parent position child : Nat) :
    Prop where
  inRange : position < controller.size parent
  isRun :
    (controller.instructions (controller.slotAt parent position)).isRunGroup
  target :
    findGroup controller.groups controller.groupCount
        (controller.instructions
          (controller.slotAt parent position)).getTargetGroupId =
      child

/-- Every active child was launched by an instruction that its parent has
dispatched in the current pass. -/
def Placed (controller : Controller) : Prop :=
  ∀ parent child, child ≠ 0 → controller.isChild parent child = true →
    ∃ position, position < (controller.runtimes parent).cursor ∧
      controller.CallsAt parent position child

variable {rank : Nat → Nat} {controller next : Controller}
  {strips : StripId → Strip} {timestamp : UInt32} {event : Event}

theorem SameProgram.callsAt {before after : Controller}
    (same : SameProgram before after) {parent position child : Nat}
    (calls : before.CallsAt parent position child) :
    after.CallsAt parent position child := by
  constructor
  · rw [same.size_eq]
    exact calls.inRange
  · rw [same.slotAt_eq, (same.configuration _).isRunGroup_eq]
    exact calls.isRun
  · rw [same.slotAt_eq, (same.configuration _).getTargetGroupId_eq,
      same.groups, same.groupCount]
    exact calls.target

theorem SameProgram.calledOnce {before after : Controller}
    (same : SameProgram before after) (once : before.CalledOnce) :
    after.CalledOnce := by
  intro left right leftBelow rightBelow
  rw [same.instructionCount] at leftBelow rightBelow
  rw [(same.configuration left).isRunGroup_eq,
    (same.configuration right).isRunGroup_eq,
    (same.configuration left).getTargetGroupId_eq,
    (same.configuration right).getTargetGroupId_eq]
  exact once left right leftBelow rightBelow

/-- Two calls of one group in a program that calls it once are the same
call. -/
theorem CalledOnce.unique (once : controller.CalledOnce)
    (committed : Committed rank controller)
    {parent other position place child : Nat}
    (below : parent < controller.groupCount)
    (otherBelow : other < controller.groupCount)
    (calls : controller.CallsAt parent position child)
    (otherCalls : controller.CallsAt other place child) :
    parent = other ∧ position = place := by
  obtain ⟨indexBelow, -⟩ := committed.slotAt_mem below calls.inRange
  obtain ⟨placeBelow, -⟩ := committed.slotAt_mem otherBelow otherCalls.inRange
  obtain ⟨target, targetBelow, -, found, -⟩ :=
    committed.callee below calls.inRange calls.isRun
  have label :=
    findGroup_eq_iff committed.injective targetBelow committed.bounded
  have first := (label _).mp found
  rw [calls.target] at found
  subst found
  have second := (label _).mp otherCalls.target
  have same :=
    once _ _ indexBelow placeBelow calls.isRun otherCalls.isRun
      (first.symm.trans second)
  exact
    committed.slotAt_injective below otherBelow calls.inRange
      otherCalls.inRange same

/-- While a group has an active child, its cursor does not move back. -/
theorem Step.cursor_le (step : Step strips timestamp controller event next)
    (sound : controller.Sound rank) {parent child : Nat} (notRoot : child ≠ 0)
    (isChild : controller.isChild parent child = true) :
    (controller.runtimes parent).cursor ≤ (next.runtimes parent).cursor := by
  simp only [Controller.isChild, Bool.and_eq_true, decide_eq_true_eq]
    at isChild
  obtain ⟨childActive, link⟩ := isChild
  obtain ⟨calls, active, -⟩ := sound.tree.parent child childActive notRoot
  rw [link] at calls active
  have bounded := sound.committed.bounded
  have before : controller.activation parent = some _ :=
    GroupRuntime.activation_of_active active
  have busy : event.closes parent = false := by
    by_contra closes
    have ready := step.ready_of_closes (by simpa using closes)
    exact
      sound.tree.no_child bounded (Nat.lt_of_lt_of_le ready.below bounded)
        ready.ended childActive link
  cases step.passStep parent with
  | opened activation opens closes =>
      rw [busy, before] at closes
      exact Bool.noConfusion closes
  | ended event_eq =>
      rw [event_eq] at busy
      simp [Event.closes] at busy
  | dispatched activation due dispatches opens closes earlier after =>
      rw [(activation_eq_some after).2.1, (activation_eq_some earlier).2.1]
      exact Nat.le_succ _
  | untouched opens closes quiet after =>
      rw [(activation_eq_some (after.trans before)).2.1]

theorem Placed.step (placed : controller.Placed)
    (sound : controller.Sound rank)
    (step : Step strips timestamp controller event next) : next.Placed := by
  have same := step.sameProgram
  intro parent child notRoot isChild
  rcases (step.isChild_iff parent child).mp isChild with
    ⟨slot, repeats, launched⟩ | ⟨earlier, -⟩
  · have enabled := step.enabled
    rw [launched] at enabled
    obtain ⟨due, -, slotEq, isRun, -, target, -, -, inactive⟩ := enabled
    rw [slotEq] at isRun target
    refine
      ⟨(controller.runtimes parent).cursor, ?_,
        same.callsAt ⟨due.remaining, isRun, target.symm⟩⟩
    have apart : parent ≠ child := by
      intro equal
      have active := due.active
      rw [equal, inactive] at active
      exact Bool.noConfusion active
    have after := step.activation parent
    have before : controller.activation parent = some _ :=
      GroupRuntime.activation_of_active due.active
    rw [launched, before] at after
    simp only [Event.advance, if_neg apart, if_true, Option.map_some] at after
    rw [(activation_eq_some after).2.1]
    exact Nat.lt_succ_self _
  · obtain ⟨position, dispatched, calls⟩ :=
      placed parent child notRoot earlier
    exact
      ⟨position,
        Nat.lt_of_lt_of_le dispatched (step.cursor_le sound notRoot earlier),
        same.callsAt calls⟩

/-- In a program that calls every group once no call is refused. -/
theorem Placed.not_refused (placed : controller.Placed)
    (sound : controller.Sound rank) (once : controller.CalledOnce)
    (step : Step strips timestamp controller event next)
    {group slot : Nat} {status : ControllerStatus} :
    event ≠ .rejected group slot status := by
  rintro rfl
  obtain ⟨due, -, slotEq, isRun, -, child, target, -, notRoot, busy⟩ :=
    step.enabled
  rw [slotEq] at isRun target
  have calls :
      controller.CallsAt group (controller.runtimes group).cursor child :=
    ⟨due.remaining, isRun, target.symm⟩
  have isChild :
      controller.isChild (controller.runtimes child).parentGroupIndex child =
        true := by
    simp [Controller.isChild, busy]
  obtain ⟨position, dispatched, launched⟩ := placed _ child notRoot isChild
  obtain ⟨parentCalls, -⟩ := sound.tree.parent child busy notRoot
  obtain ⟨same, positions⟩ :=
    once.unique sound.committed parentCalls.1 due.below launched calls
  rw [same, positions] at dispatched
  exact Nat.lt_irrefl _ dispatched

end Controller

namespace Machine

theorem Chronicle.placed {inside : Bool} {machine : Machine}
    (chronicle : Chronicle inside machine) : machine.Placed := by
  apply chronicle.invariant fun machine => machine.Placed
  · intro repeats machine origin parent child notRoot isChild
    have active : (machine.runtimes child).active = true := by
      simp only [Controller.isChild, Bool.and_eq_true] at isChild
      exact isChild.1
    have found := origin.activation child
    rw [if_neg fun both => notRoot both.1] at found
    have inactive := GroupRuntime.activation_eq_none_iff.mp found
    rw [active] at inactive
    exact Bool.noConfusion inactive
  · intro before after rests placed parent child notRoot isChild
    rw [rests.isChild_eq] at isChild
    obtain ⟨position, dispatched, calls⟩ :=
      placed parent child notRoot isChild
    refine ⟨position, ?_, ?_⟩
    · rw [rests.runtimes]
      exact dispatched
    · constructor
      · rw [rests.size_eq]
        exact calls.inRange
      · rw [rests.instructions, rests.slotAt_eq]
        exact calls.isRun
      · rw [rests.instructions, rests.slotAt_eq, rests.groups,
          rests.groupCount]
        exact calls.target
  · intro rank before after event _ sound step _ placed
    exact placed.step sound step

/-- When no group is the target of two `RunGroup` instructions, no `Run` of the
program returns `kAlreadyActiveGroup`. -/
theorem no_conflict {machine after : Machine} {now : Nat}
    {status : ControllerStatus} (reachable : Reachable machine)
    (once : machine.CalledOnce)
    (performs : Performs (.run now) machine after status) :
    status ≠ .alreadyActiveGroup := by
  have legal := legal_of_reachable reachable
  obtain ⟨fuel, runs⟩ := performs
  by_cases active : machine.state = .active
  · have chronicle := legal.chronicle (by rw [active]; simp)
    have begun := Chronicle.began machine now chronicle active
    obtain ⟨settled, running, moves, -, -, -, rfl⟩ :=
      chronicle.run active runs
    rw [← timestamp_beginRun] at moves
    -- The program is the same in every machine of the run.
    have unrefused :
        settled.CalledOnce ∧
          (settled.runStatus ≠ .alreadyActiveGroup) := by
      refine
        begun.moves_invariant
          (fun machine =>
            machine.CalledOnce ∧ machine.runStatus ≠ .alreadyActiveGroup)
          moves ⟨once, ControllerStatus.noConfusion⟩ ?_
      intro rank current next event running _ sound step logged kept
      refine ⟨step.sameProgram.calledOnce kept.1, ?_⟩
      rw [logged.runStatus, latchRunStatus]
      split
      · rename_i latches
        intro refused
        have explains := step.explains 0 latches.2
        rw [refused] at explains
        cases explains with
        | refused group slot rejected =>
            exact running.placed.not_refused sound kept.1 step rejected
      · exact kept.2
    exact unrefused.2
  · simp only [run, ne_eq, active, not_false_eq_true, if_true,
      Option.some.injEq, Prod.mk.injEq] at runs
    rw [← runs.2]
    exact ControllerStatus.noConfusion

/-- A child that its parent calls once and that repeats forever. -/
def foreverChild : Machine :=
  hosted
    [{ kind := .runGroup 5 0xFFFF },
      { groupId := 5, mark := 10, kind := .setSingleColor ⟨1, 0, 0⟩ 0 }]
    [.start 0 0, .run 0]

theorem no_conflict_of_foreverChild :
    foreverChild.CalledOnce ∧
      ∃ after status,
        Performs (.run 15) foreverChild after status ∧
          status ≠ .alreadyActiveGroup := by
  have stored : foreverChild.instructionCount = 2 := by
    decide +kernel
  have calls : (foreverChild.instructions 1).isRunGroup = false := by
    decide +kernel
  have once : foreverChild.CalledOnce := by
    intro left right leftBelow rightBelow leftRun rightRun _
    have first :
        ∀ index, index < foreverChild.instructionCount →
          (foreverChild.instructions index).isRunGroup → index = 0 := by
      intro index below isRun
      rw [stored] at below
      rcases (show index = 0 ∨ index = 1 by omega) with zero | one
      · exact zero
      · rw [one, calls] at isRun
        exact Bool.noConfusion isRun
    rw [first left leftBelow leftRun, first right rightBelow rightRun]
  have returns : (foreverChild.run 40 15).isSome = true := by
    decide +kernel
  obtain ⟨⟨after, status⟩, runs⟩ := Option.isSome_iff_exists.mp returns
  have performs : Performs (.run 15) foreverChild after status :=
    ⟨40, runs⟩
  exact
    ⟨once, after, status, performs,
      no_conflict (reachable_hosted _ _) once performs⟩

end Machine

end PrismKit
