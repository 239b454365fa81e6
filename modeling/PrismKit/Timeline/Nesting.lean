import PrismKit.Timeline.History
import PrismKit.Timeline.Session

/-!
# Children before parents

At every dispatch the timed work that has become due was resumed and the
deeper groups have dispatched everything that is due, so at a shared instant
the children of a group come before the group itself.
-/

namespace PrismKit

open Library

/-- Before a group dispatches, no timed instruction is due and no active group
deeper than it has a due instruction left. -/
structure Controller.DeepestFirst (timestamp : UInt32)
    (controller : Controller) (group : Nat) : Prop where
  settled :
    ∀ entry ∈ controller.executing,
      deadlineReached timestamp entry.deadline = false
  deeper :
    ∀ other, (controller.runtimes other).active →
      (controller.runtimes group).depth < (controller.runtimes other).depth →
        ∀ position, (controller.runtimes other).cursor ≤ position →
          position < controller.size other →
            timestamp - (controller.runtimes other).startTime <
              (controller.instructions
                (controller.slotAt other position)).getMark.toUInt32

namespace Machine

variable {rank : Nat → Nat} {machine : Machine} {timestamp : UInt32}

/-- A group whose next instruction is not due has no due instruction left. -/
theorem undue_rest (sound : machine.Sound rank) {group position : Nat}
    (active : (machine.runtimes group).active)
    (undue :
      machine.cursorDue group
          (timestamp - (machine.runtimes group).startTime) =
        false)
    (ahead : (machine.runtimes group).cursor ≤ position)
    (inRange : position < machine.size group) :
    timestamp - (machine.runtimes group).startTime <
      (machine.instructions
        (machine.slotAt group position)).getMark.toUInt32 := by
  have below := sound.tree.inRange group active
  have marks := sound.committed.getMark_le below ahead inRange
  have remaining :
      (machine.runtimes group).cursor <
        (machine.groups group).instructionCount :=
    Nat.lt_of_le_of_lt ahead inRange
  simp only [cursorDue, cursorSlot_eq sound group,
    sound.committed.record group, remaining, true_and,
    decide_eq_false_iff_not, UInt32.not_le] at undue
  rw [UInt32.lt_iff_toNat_lt] at undue ⊢
  exact Nat.lt_of_lt_of_le undue (UInt16.le_iff_toNat_le.mp marks)

/-- A dispatching step waits for the timed work and the deeper groups. -/
private theorem deepestFirst_of_step (sound : machine.Sound rank)
    {event : Event} {next : Controller} {group slot : Nat}
    (step : machine.toController.Step machine.strips timestamp event next)
    (dispatches : event.dispatches = some (group, slot))
    (deepest : machine.Deepest timestamp group) :
    machine.DeepestFirst timestamp group := by
  constructor
  · cases step with
    | launched parent child due settled =>
        exact settled
    | rejected parent child due settled =>
        exact settled
    | executedNow parent slot shown due settled =>
        exact settled
    | executedTimed parent slot delay shown due settled =>
        exact settled
    | _ =>
        cases dispatches
  · intro other active deeper position ahead inRange
    have depth := sound.tree.depth other active
    have below := sound.tree.inRange other active
    apply undue_rest sound active _ ahead inRange
    apply deepest other below active
    exact ⟨UInt8.lt_iff_toNat_lt.mp deeper, by omega⟩

/-- Every recorded dispatch waited for the timed work and the deeper groups. -/
private theorem Chronicle.deepestFirst {inside : Bool} {machine : Machine}
    (chronicle : Chronicle inside machine) :
    ∀ moment ∈ machine.history,
      moment.run < machine.clocks.length ∧
        ∀ group slot, moment.event.dispatches = some (group, slot) →
          moment.before.DeepestFirst
            (UInt32.ofNat (machine.clocks.getD moment.run 0)) group := by
  refine
    chronicle.move_invariant
      (fun machine =>
        ∀ moment ∈ machine.history,
          moment.run < machine.clocks.length ∧
            ∀ group slot, moment.event.dispatches = some (group, slot) →
              moment.before.DeepestFirst
                (UInt32.ofNat (machine.clocks.getD moment.run 0)) group)
      ?_ ?_ ?_
  · intro repeats machine _ origin moment member
    obtain ⟨controller, history⟩ := origin.history
    rw [history] at member
    split at member
    · exact absurd member List.not_mem_nil
    · rw [List.mem_singleton.mp member, origin.clocks]
      refine ⟨Nat.one_pos, ?_⟩
      intro group slot dispatches
      cases dispatches
  · intro before after rests inductionHypothesis moment member
    rw [rests.history] at member
    obtain ⟨read, waited⟩ := inductionHypothesis moment member
    rw [rests.clock_eq read]
    exact ⟨Nat.lt_of_lt_of_le read rests.clocks.length_le, waited⟩
  · intro before after earlier move inductionHypothesis moment member
    obtain ⟨rank, sound⟩ := earlier.sound
    obtain ⟨event, step, logged, deepest⟩ := move.step_deepest sound
    rw [logged.history] at member
    rw [logged.around.clocks]
    rcases List.mem_append.mp member with old | new
    · exact inductionHypothesis moment old
    · rw [List.mem_singleton.mp new]
      have read := earlier.clocks_length.1
      refine ⟨Nat.sub_lt read Nat.one_pos, ?_⟩
      intro group slot dispatches
      simp only at dispatches ⊢
      rw [← timestamp_eq]
      exact
        deepestFirst_of_step sound step dispatches
          (deepest group slot dispatches)

/-- Whenever an instruction of a group was dispatched, no timed instruction was
due at that instant, and no deeper active group had an undispatched instruction
that was due. -/
theorem children_first {machine : Machine} (reachable : Reachable machine)
    {moment : Moment} (recorded : moment ∈ machine.history) {group slot : Nat}
    (dispatches : moment.event.dispatches = some (group, slot)) :
    moment.before.DeepestFirst
      (UInt32.ofNat (machine.clocks.getD moment.run 0)) group := by
  have legal := legal_of_reachable reachable
  have chronicle :=
    legal.chronicle_of_history (List.ne_nil_of_mem recorded)
  exact (chronicle.deepestFirst moment recorded).2 group slot dispatches

/-- A parent and its child share a mark that a late tick skips. -/
def sharedInstant : Machine :=
  hosted
    [{ kind := .runGroup 5 1 },
      { mark := 20, kind := .setSingleColor ⟨1, 0, 0⟩ 0 },
      { groupId := 5, mark := 20, kind := .setSingleColor ⟨2, 0, 0⟩ 1 }]
    [.start 0 0, .run 0, .run 25]

theorem children_first_of_sharedInstant :
    ∃ moment ∈ sharedInstant.history,
      moment.event.dispatches = some (0, 1) ∧
        moment.before.DeepestFirst 25 0 := by
  have found :
      (sharedInstant.history.find? fun moment =>
        moment.event.dispatches == some (0, 1)).any
          (fun moment =>
            UInt32.ofNat (sharedInstant.clocks.getD moment.run 0) == 25) =
        true := by
    decide +kernel
  obtain ⟨moment, member, instant⟩ := (Option.any_eq_true _ _).mp found
  have dispatches := List.find?_some member
  simp only [beq_iff_eq] at dispatches instant
  have recorded := List.mem_of_find?_eq_some member
  have waited :=
    children_first (reachable_hosted _ _) recorded dispatches
  exact ⟨moment, recorded, dispatches, instant ▸ waited⟩

end Machine

end PrismKit
