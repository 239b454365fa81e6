import PrismKit.Timeline.Step

/-!
# What the helpers of `Run` change

One lemma for each helper of the source, in terms of the building blocks of
`Step`: the effect on the controller, and what happens to the strips, the
outputs and the ghost fields around it.
-/

namespace PrismKit

open Library

namespace Controller

theorem ancestors_congr {controller other : Controller}
    (count : other.groupCount = controller.groupCount)
    (active :
      ∀ group,
        (other.runtimes group).active = (controller.runtimes group).active)
    (parent :
      ∀ group,
        (other.runtimes group).parentGroupIndex =
          (controller.runtimes group).parentGroupIndex)
    (fuel group : Nat) :
    other.ancestors fuel group = controller.ancestors fuel group := by
  induction fuel generalizing group with
  | zero =>
      rfl
  | succ fuel inductionHypothesis =>
      simp only [ancestors, count, active, parent, inductionHypothesis]

end Controller

namespace Machine

private theorem observeAncestors_eq (fuel group : Nat) (machine : Machine) :
    observeAncestors fuel group machine =
      { machine with
        runtimes := fun other =>
          { machine.runtimes other with
            positiveBoundaryObserved :=
              (machine.runtimes other).positiveBoundaryObserved ||
                decide (other ∈ machine.ancestors fuel group) } } := by
  induction fuel generalizing group machine with
  | zero =>
      simp [observeAncestors, Controller.ancestors]
  | succ fuel inductionHypothesis =>
      rw [observeAncestors, Controller.ancestors]
      by_cases below : group < machine.groupCount
      · by_cases active : (machine.runtimes group).active
        · let marked :=
            machine.updateRuntime group fun runtime =>
              { runtime with positiveBoundaryObserved := true }
          have sameAncestors :
              marked.ancestors fuel
                  (machine.runtimes group).parentGroupIndex =
                machine.ancestors fuel
                  (machine.runtimes group).parentGroupIndex := by
            have count : marked.groupCount = machine.groupCount := rfl
            refine Controller.ancestors_congr count ?_ ?_ _ _
            · intro other
              by_cases equal : other = group
              · subst equal
                simp [marked, updateRuntime]
              · simp [marked, updateRuntime, equal]
            · intro other
              by_cases equal : other = group
              · subst equal
                simp [marked, updateRuntime]
              · simp [marked, updateRuntime, equal]
          rw [if_pos below, if_pos active, if_pos ⟨below, active⟩]
          have step :=
            inductionHypothesis (machine.runtimes group).parentGroupIndex
              marked
          rw [sameAncestors] at step
          refine step.trans ?_
          simp only [marked, updateRuntime, mk.injEq, Controller.mk.injEq,
            and_true, true_and]
          funext other
          by_cases equal : other = group
          · subst equal
            simp
          · simp [equal]
        · simp [below, active]
      · simp [below]

theorem observePositiveBoundary_eq (group : Nat) (machine : Machine) :
    machine.observePositiveBoundary group =
      { machine with toController := machine.toController.observed group } :=
  observeAncestors_eq machine.groupCount group machine

theorem resetGroupInstructionReplayState_eq (group : Nat) (machine : Machine)
    (record :
      (machine.runtimes group).record = machine.groups group) :
    machine.resetGroupInstructionReplayState group =
      { machine with
        instructions := fun index =>
          if index ∈ machine.timeline group then
            (machine.instructions index).resetForReplay
          else
            machine.instructions index } := by
  rw [resetGroupInstructionReplayState_instructions]
  simp only [record, mk.injEq, Controller.mk.injEq, and_true, true_and]
  have loop :
      ∀ count,
        forUpTo
            (fun offset instructions =>
              Function.update instructions
                (machine.groupIndices
                  ((machine.groups group).indexBegin + offset))
                (instructions
                  (machine.groupIndices
                    ((machine.groups group).indexBegin +
                      offset))).resetForReplay)
            machine.instructions count =
          fun index =>
            if index ∈ (List.range count).map (machine.slotAt group) then
              (machine.instructions index).resetForReplay
            else
              machine.instructions index := by
    intro count
    induction count with
    | zero =>
        simp
    | succ count inductionHypothesis =>
        rw [forUpTo_succ, inductionHypothesis]
        funext index
        rw [List.range_succ, List.map_append, List.map_singleton]
        have slot :
            machine.groupIndices
                ((machine.groups group).indexBegin + count) =
              machine.slotAt group count :=
          rfl
        rw [slot]
        by_cases last : index = machine.slotAt group count
        · subst last
          simp only [Function.update_self, List.mem_append,
            List.mem_singleton, or_true, if_true]
          split <;> simp
        · simp only [Function.update_of_ne last, List.mem_append,
            List.mem_singleton, last, or_false]
  exact loop _

theorem startGroupRuntime_eq {group parent : Nat} {machine : Machine}
    (timestamp : UInt32) (repeats : LoopCount)
    (record : (machine.runtimes group).record = machine.groups group)
    (below : group < machine.groupCount) (apart : parent ≠ group)
    (parentValid :
      parent = maxGroups ∨
        parent < machine.groupCount ∧ (machine.runtimes parent).active) :
    machine.startGroupRuntime group timestamp repeats parent =
      some
        { machine with
          toController :=
            machine.toController.activate group timestamp repeats parent } := by
  have accepted :
      ¬ (machine.groupCount ≤ group ∨
        parent ≠ maxGroups ∧
          (machine.groupCount ≤ parent ∨
            ¬ (machine.runtimes parent).active)) := by
    rintro (absent | ⟨given, absent | inactive⟩)
    · omega
    · rcases parentValid with none | ⟨parentBelow, -⟩
      · exact given none
      · omega
    · rcases parentValid with none | ⟨-, active⟩
      · exact given none
      · exact inactive active
  unfold startGroupRuntime
  rw [if_neg accepted]
  simp only [Option.some.injEq]
  rw [resetGroupInstructionReplayState_eq]
  · simp only [updateRuntime, Controller.activate, Controller.updateRuntime,
      Controller.timeline, Controller.size, mk.injEq, Controller.mk.injEq,
      true_and, and_true]
    simp [GroupRuntime.reset, apart]
    rfl
  · simp [updateRuntime, record]

theorem foldl_applyWrite (writes : List PixelWrite) (machine : Machine) :
    (writes.foldl applyWrite machine).toController = machine.toController ∧
      (writes.foldl applyWrite machine).runStatus = machine.runStatus ∧
      (writes.foldl applyWrite machine).clocks = machine.clocks ∧
      (writes.foldl applyWrite machine).history = machine.history ∧
      (writes.foldl applyWrite machine).outputs =
        machine.outputs ++ writes.map Output.setColor ∧
      ∀ strip,
        ((writes.foldl applyWrite machine).strips strip).ledCount =
            (machine.strips strip).ledCount ∧
          ((writes.foldl applyWrite machine).strips strip).ready =
            (machine.strips strip).ready := by
  induction writes generalizing machine with
  | nil =>
      simp
  | cons write writes inductionHypothesis =>
      obtain ⟨controller, status, clocks, history, outputs, strips⟩ :=
        inductionHypothesis (machine.applyWrite write)
      rw [List.foldl_cons]
      refine
        ⟨controller.trans rfl, status.trans rfl, clocks.trans rfl,
          history.trans rfl, ?_, ?_⟩
      · rw [outputs]
        simp [applyWrite]
      · intro strip
        rw [(strips strip).1, (strips strip).2]
        by_cases equal : strip = write.strip
        · subst equal
          simp [applyWrite]
        · simp [applyWrite, equal]

theorem foldl_applyWrite_strips (writes : List PixelWrite)
    (machine : Machine) :
    (writes.foldl applyWrite machine).strips =
      paint machine.strips writes := by
  induction writes generalizing machine with
  | nil =>
      rfl
  | cons write rest inductionHypothesis =>
      exact inductionHypothesis (machine.applyWrite write)

/-- The surroundings of the controller after a step: only calls of `SetColor`
were made, and the strips kept their length and readiness. -/
structure Around (before after : Machine) : Prop where
  outputs :
    ∃ writes : List PixelWrite,
      after.outputs = before.outputs ++ writes.map Output.setColor
  leds :
    ∀ strip,
      (after.strips strip).ledCount = (before.strips strip).ledCount
  ready :
    ∀ strip, (after.strips strip).ready = (before.strips strip).ready
  clocks : after.clocks = before.clocks

theorem executeSlot_spec (index : Nat) (timestamp : UInt32)
    (machine : Machine) :
    ∃ slot shown,
      machine.Executes machine.strips timestamp index slot
          (machine.executeSlot index timestamp).2 shown ∧
        (machine.executeSlot index timestamp).1.toController =
          machine.toController.afterExecution index slot shown ∧
        (machine.executeSlot index timestamp).1.runStatus =
          machine.runStatus ∧
        (machine.executeSlot index timestamp).1.history = machine.history ∧
        Around machine (machine.executeSlot index timestamp).1 := by
  unfold executeSlot
  rcases result :
      (machine.instructions index).execute machine.strips
        machine.refreshPeriodMs timestamp with
    ⟨slot, delay, writes, shown⟩
  simp only
  obtain ⟨controller, status, clocks, history, outputs, strips⟩ :=
    foldl_applyWrite writes
      { machine with
        instructions := Function.update machine.instructions index slot
        showRequested := machine.showRequested || shown }
  exact
    ⟨slot, shown, ⟨writes, result⟩, controller, status, history,
      ⟨writes, outputs⟩, fun strip => (strips strip).1,
      fun strip => (strips strip).2, clocks⟩

end Machine

end PrismKit
