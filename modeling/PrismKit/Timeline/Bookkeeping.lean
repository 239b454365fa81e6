import PrismKit.Timeline.Session

/-!
# Runtime bookkeeping

What the counters, links and entries of a controller say about each other, in
terms of its data members, for every machine an application can produce.
-/

namespace PrismKit

open Library

namespace Controller

/-- The runtime bookkeeping of a controller agrees with itself.  The runtime
array has `maxGroups` elements. -/
structure Bookkeeping (controller : Controller) : Prop where
  activeCount :
    ∀ group,
      (controller.runtimes group).activeCount =
        controller.executing.countP fun entry => entry.runtimeIndex = group
  childCount :
    ∀ group, group < maxGroups →
      (controller.runtimes group).childCount =
        (List.range maxGroups).countP fun child =>
          (controller.runtimes child).active ∧
            (controller.runtimes child).parentGroupIndex = group
  activeInRange :
    ∀ group, (controller.runtimes group).active →
      group < controller.groupCount ∧ controller.groupCount ≤ maxGroups
  parent :
    ∀ group, (controller.runtimes group).active → group ≠ 0 →
      (controller.runtimes
          (controller.runtimes group).parentGroupIndex).active ∧
        (controller.runtimes group).depth.toNat =
          (controller.runtimes
            (controller.runtimes group).parentGroupIndex).depth.toNat + 1
  root :
    (controller.runtimes 0).active →
      (controller.runtimes 0).depth = 0 ∧
        (controller.runtimes 0).parentGroupIndex = maxGroups
  distinct :
    (controller.executing.map ExecutingInstruction.instructionIndex).Nodup
  entries :
    ∀ entry ∈ controller.executing,
      ∃ position,
        position < (controller.runtimes entry.runtimeIndex).cursor ∧
          position <
            (controller.groups entry.runtimeIndex).instructionCount ∧
          controller.groupIndices
              ((controller.groups entry.runtimeIndex).indexBegin + position) =
            entry.instructionIndex

theorem Sound.bookkeeping {rank : Nat → Nat} {controller : Controller}
    (sound : controller.Sound rank) : controller.Bookkeeping := by
  constructor
  · intro group
    rw [sound.work.counts, outstanding, List.countP_map]
    rfl
  · intro group inArray
    rw [sound.tree.children group inArray]
    unfold countBelow
    congr 1
    funext child
    simp [isChild]
  · intro group active
    exact ⟨sound.tree.inRange group active, sound.committed.bounded⟩
  · intro group active notRoot
    exact (sound.tree.parent group active notRoot).2
  · intro active
    exact (sound.tree.root active).symm
  · have distinct := sound.work.distinct
    rw [outstanding, List.map_map] at distinct
    exact distinct
  · intro entry member
    have outstanding :
        (entry.runtimeIndex, entry.instructionIndex) ∈
          controller.outstanding :=
      List.mem_map.mpr ⟨entry, member, rfl⟩
    obtain ⟨active, position, before, slot⟩ :=
      sound.work.dispatched _ _ outstanding
    have inRange : position < controller.size entry.runtimeIndex :=
      Nat.lt_of_lt_of_le before (sound.work.cursor _ active)
    exact ⟨position, before, inRange, slot⟩

/-- A controller without a program has nothing to keep. -/
theorem bookkeeping_of_blank {controller : Controller}
    (executing : controller.executing = [])
    (runtimes : ∀ group, controller.runtimes group = {}) :
    controller.Bookkeeping := by
  have inactive :
      ∀ group, (controller.runtimes group).active = false := by
    intro group
    rw [runtimes]
  constructor
  · intro group
    rw [runtimes, executing]
    rfl
  · intro group _
    rw [runtimes, eq_comm, List.countP_eq_zero]
    intro child _
    simp [inactive child]
  · intro group active
    rw [inactive] at active
    exact Bool.noConfusion active
  · intro group active
    rw [inactive] at active
    exact Bool.noConfusion active
  · intro active
    rw [inactive] at active
    exact Bool.noConfusion active
  · rw [executing]
    exact List.nodup_nil
  · intro entry member
    rw [executing] at member
    exact absurd member List.not_mem_nil

end Controller

namespace Machine

/-- The books of every reachable controller are in order. -/
theorem bookkeeping_of_reachable {machine : Machine}
    (reachable : Reachable machine) : machine.toController.Bookkeeping := by
  have legal := legal_of_reachable reachable
  by_cases editable : machine.state = .editable
  · have blank := legal.blank editable
    exact Controller.bookkeeping_of_blank blank.executing blank.runtimes
  · obtain ⟨rank, sound⟩ := (legal.chronicle editable).sound
    exact sound.bookkeeping

/-- Inside a repeated child with a running Fade. -/
theorem bookkeeping_of_running_child :
    let machine :=
      hosted
        [{ kind := .runGroup 5 2 },
          { groupId := 5,
            kind := .fade { percent := 50, durationMs := 30 } }]
        [.start 0 0, .run 0, .run 20]
    machine.executing.length = 1 ∧ (machine.runtimes 0).childCount = 1 ∧
      machine.toController.Bookkeeping :=
  ⟨by decide +kernel, by decide +kernel,
    bookkeeping_of_reachable (reachable_hosted _ _)⟩

end Machine

end PrismKit
