import PrismKit.Controller.Configuration
import PrismKit.Preflight.Acceptance

/-!
# The committed program

`Start` commits the validated group model, and from then on the program is
fixed: a scheduler step changes execution state, but neither the group metadata
nor the configuration of an instruction.  `SameProgram` states this for two
controllers, and `Committed` collects what every step may assume about the
program.
-/

namespace PrismKit

open Library Relation

theorem ProgramOrder.congr {instructions other : Nat → InstructionMemorySlot}
    (same : ∀ index, (other index).SameConfiguration (instructions index))
    (left right : Nat) :
    ProgramOrder other left right ↔ ProgramOrder instructions left right := by
  simp only [ProgramOrder, (same _).getMark_eq]

theorem labelled_congr {instructions other : Nat → InstructionMemorySlot}
    (same : ∀ index, (other index).SameConfiguration (instructions index))
    (instructionCount : Nat) (id : GroupId) :
    labelled other instructionCount id =
      labelled instructions instructionCount id := by
  simp only [labelled, (same _).getGroupId_eq]

namespace Controller

/-- The stored instruction at one position of a group's timeline. -/
def slotAt (controller : Controller) (group position : Nat) : Nat :=
  controller.groupIndices
    ((controller.groups group).indexBegin + position)

def size (controller : Controller) (group : Nat) : Nat :=
  (controller.groups group).instructionCount

/-- The timeline of a group: its stored instructions in pool order. -/
def timeline (controller : Controller) (group : Nat) : List Nat :=
  (List.range (controller.size group)).map (controller.slotAt group)

/-- The group `source` calls the group `target`, between table indexes. -/
def CallsGroup (controller : Controller) (source target : Nat) : Prop :=
  Edge controller.instructions controller.instructionCount controller.groups
    controller.groupCount source target

/-- The group reaches, along calls, a group that declares a positive
boundary. -/
def ReachesMark (controller : Controller) (group : Nat) : Prop :=
  ReachesMarked controller.instructions controller.instructionCount
    controller.groups controller.groupCount group

structure SameProgram (before after : Controller) : Prop where
  groupCount : after.groupCount = before.groupCount
  groups : after.groups = before.groups
  groupIndices : after.groupIndices = before.groupIndices
  instructionCount : after.instructionCount = before.instructionCount
  refreshPeriodMs : after.refreshPeriodMs = before.refreshPeriodMs
  record :
    ∀ group, (after.runtimes group).record = (before.runtimes group).record
  configuration :
    ∀ index,
      (after.instructions index).SameConfiguration (before.instructions index)

namespace SameProgram

variable {before middle after : Controller}

theorem refl (controller : Controller) :
    SameProgram controller controller :=
  ⟨rfl, rfl, rfl, rfl, rfl, fun _ => rfl, fun _ => rfl⟩

theorem trans (first : SameProgram before middle)
    (second : SameProgram middle after) : SameProgram before after where
  groupCount := second.groupCount.trans first.groupCount
  groups := second.groups.trans first.groups
  groupIndices := second.groupIndices.trans first.groupIndices
  instructionCount := second.instructionCount.trans first.instructionCount
  refreshPeriodMs := second.refreshPeriodMs.trans first.refreshPeriodMs
  record := fun group => (second.record group).trans (first.record group)
  configuration := fun index =>
    (second.configuration index).trans (first.configuration index)

theorem slotAt_eq (same : SameProgram before after) (group position : Nat) :
    after.slotAt group position = before.slotAt group position := by
  simp only [slotAt, same.groups, same.groupIndices]

theorem size_eq (same : SameProgram before after) (group : Nat) :
    after.size group = before.size group := by
  simp only [size, same.groups]

theorem timeline_eq (same : SameProgram before after) (group : Nat) :
    after.timeline group = before.timeline group := by
  unfold timeline
  rw [same.size_eq]
  apply List.map_congr_left
  intro position _
  exact same.slotAt_eq group position

theorem edge_iff (same : SameProgram before after) (source target : Nat) :
    after.CallsGroup source target ↔ before.CallsGroup source target := by
  have configuration := same.configuration
  simp only [CallsGroup, Edge, same.groupCount, same.groups,
    same.instructionCount, (configuration _).isRunGroup_eq,
    (configuration _).getGroupId_eq, (configuration _).getTargetGroupId_eq]

theorem reachesMark_iff (same : SameProgram before after) (group : Nat) :
    after.ReachesMark group ↔ before.ReachesMark group := by
  have configuration := same.configuration
  have calls :
      Edge after.instructions after.instructionCount after.groups
          after.groupCount =
        Edge before.instructions before.instructionCount before.groups
          before.groupCount := by
    funext source target
    exact propext (same.edge_iff source target)
  unfold ReachesMark ReachesMarked
  rw [calls]
  simp only [MarkedGroup, declaresBoundary, same.groupCount, same.groups,
    same.instructionCount, (configuration _).getGroupId_eq,
    (configuration _).getMark_eq,
    (configuration _).hasPositiveSchedulingBoundary_eq]

end SameProgram

/-- What a committed program guarantees.  `rank` witnesses that the call graph
is acyclic. -/
structure Committed (rank : Nat → Nat) (controller : Controller) : Prop where
  nonempty : 0 < controller.groupCount
  bounded : controller.groupCount ≤ maxGroups
  stored : controller.instructionCount ≤ maxInstructions
  record :
    ∀ group, (controller.runtimes group).record = controller.groups group
  unused :
    ∀ group, controller.groupCount ≤ group → controller.groups group = {}
  root : (controller.groups 0).id = 0
  injective : Injective controller.groups controller.groupCount
  populated :
    ∀ group, group < controller.groupCount → group ≠ 0 →
      0 < controller.size group
  timelinePerm :
    ∀ group, group < controller.groupCount →
      (controller.timeline group).Perm
        (labelled controller.instructions controller.instructionCount
          (controller.groups group).id)
  timelineOrdered :
    ∀ group, group < controller.groupCount →
      (controller.timeline group).Pairwise
        (ProgramOrder controller.instructions)
  resolves :
    ∀ index, index < controller.instructionCount →
      (controller.instructions index).isRunGroup →
        ∃ target, target < controller.groupCount ∧ target ≠ 0 ∧
          (controller.groups target).id =
            (controller.instructions index).getTargetGroupId
  repeats :
    ∀ index, index < controller.instructionCount →
      (controller.instructions index).isRunGroup →
        (controller.instructions index).getAdditionalRepeats ≠ 0 →
          controller.ReachesMark
            (findGroup controller.groups controller.groupCount
              (controller.instructions index).getTargetGroupId)
  rank_lt :
    ∀ source target, controller.CallsGroup source target →
      rank target < rank source
  rank_bounded :
    ∀ group, group < controller.groupCount → rank group < controller.groupCount
  period_pos : controller.refreshPeriodMs ≠ 0

theorem Committed.of_same {rank : Nat → Nat} {before after : Controller}
    (committed : Committed rank before) (same : SameProgram before after) :
    Committed rank after := by
  have configuration := same.configuration
  have order :
      ProgramOrder after.instructions = ProgramOrder before.instructions := by
    funext left right
    exact propext (ProgramOrder.congr configuration left right)
  have labels :
      ∀ id,
        labelled after.instructions after.instructionCount id =
          labelled before.instructions before.instructionCount id := by
    intro id
    rw [same.instructionCount]
    exact labelled_congr configuration before.instructionCount id
  constructor
  · rw [same.groupCount]
    exact committed.nonempty
  · rw [same.groupCount]
    exact committed.bounded
  · rw [same.instructionCount]
    exact committed.stored
  · intro group
    rw [same.record, same.groups]
    exact committed.record group
  · rw [same.groupCount, same.groups]
    exact committed.unused
  · rw [same.groups]
    exact committed.root
  · rw [same.groupCount, same.groups]
    exact committed.injective
  · intro group below
    rw [same.groupCount] at below
    rw [same.size_eq]
    exact committed.populated group below
  · intro group below
    rw [same.groupCount] at below
    rw [same.timeline_eq, labels, same.groups]
    exact committed.timelinePerm group below
  · intro group below
    rw [same.groupCount] at below
    rw [same.timeline_eq, order]
    exact committed.timelineOrdered group below
  · intro index below isRun
    rw [same.instructionCount] at below
    rw [(configuration index).isRunGroup_eq] at isRun
    rw [same.groupCount, same.groups, (configuration index).getTargetGroupId_eq]
    exact committed.resolves index below isRun
  · intro index below isRun repeated
    rw [same.instructionCount] at below
    rw [(configuration index).isRunGroup_eq] at isRun
    rw [(configuration index).getAdditionalRepeats_eq] at repeated
    rw [same.reachesMark_iff, same.groupCount, same.groups,
      (configuration index).getTargetGroupId_eq]
    exact committed.repeats index below isRun repeated
  · intro source target edge
    exact committed.rank_lt source target ((same.edge_iff source target).mp edge)
  · rw [same.groupCount]
    exact committed.rank_bounded
  · rw [same.refreshPeriodMs]
    exact committed.period_pos

namespace Committed

variable {rank : Nat → Nat} {controller : Controller}

theorem slotAt_mem (committed : Committed rank controller) {group position : Nat}
    (below : group < controller.groupCount)
    (inRange : position < controller.size group) :
    controller.slotAt group position < controller.instructionCount ∧
      (controller.instructions
        (controller.slotAt group position)).getGroupId =
          (controller.groups group).id := by
  have member : controller.slotAt group position ∈ controller.timeline group :=
    List.mem_map.mpr ⟨position, List.mem_range.mpr inRange, rfl⟩
  exact
    (mem_labelled controller.instructions).mp
      ((committed.timelinePerm group below).mem_iff.mp member)

theorem slotAt_ordered (committed : Committed rank controller)
    {group left right : Nat} (below : group < controller.groupCount)
    (before : left < right) (inRange : right < controller.size group) :
    ProgramOrder controller.instructions (controller.slotAt group left)
      (controller.slotAt group right) := by
  have ordered := committed.timelineOrdered group below
  rw [timeline, List.pairwise_map] at ordered
  have positions :=
    List.pairwise_iff_getElem.mp ordered left right
      (by rw [List.length_range]; omega) (by rw [List.length_range]; omega)
      before
  simpa using positions

/-- Marks do not decrease along a timeline. -/
theorem getMark_le (committed : Committed rank controller)
    {group left right : Nat} (below : group < controller.groupCount)
    (ordered : left ≤ right) (inRange : right < controller.size group) :
    (controller.instructions (controller.slotAt group left)).getMark ≤
      (controller.instructions (controller.slotAt group right)).getMark := by
  rcases Nat.eq_or_lt_of_le ordered with rfl | later
  · exact UInt16.le_refl _
  · rcases committed.slotAt_ordered below later inRange with
      smaller | ⟨same, -⟩
    · exact UInt16.le_of_lt smaller
    · exact UInt16.le_of_eq same

/-- No instruction stands at two positions. -/
theorem slotAt_injective (committed : Committed rank controller)
    {group other left right : Nat} (below : group < controller.groupCount)
    (otherBelow : other < controller.groupCount)
    (leftInRange : left < controller.size group)
    (rightInRange : right < controller.size other)
    (same : controller.slotAt group left = controller.slotAt other right) :
    group = other ∧ left = right := by
  have leftLabel := (committed.slotAt_mem below leftInRange).2
  have rightLabel := (committed.slotAt_mem otherBelow rightInRange).2
  rw [same, rightLabel] at leftLabel
  have equal : group = other :=
    committed.injective group below other otherBelow leftLabel.symm
  subst equal
  refine ⟨rfl, ?_⟩
  rcases Nat.lt_trichotomy left right with before | equal | after
  · have ordered := committed.slotAt_ordered below before rightInRange
    rw [same] at ordered
    rcases ordered with smaller | ⟨-, smaller⟩
    · exact absurd smaller (UInt16.lt_irrefl _)
    · exact absurd smaller (Nat.lt_irrefl _)
  · exact equal
  · have ordered := committed.slotAt_ordered below after leftInRange
    rw [same] at ordered
    rcases ordered with smaller | ⟨-, smaller⟩
    · exact absurd smaller (UInt16.lt_irrefl _)
    · exact absurd smaller (Nat.lt_irrefl _)

/-- Every stored instruction stands at a position of its group's timeline. -/
theorem exists_slotAt (committed : Committed rank controller)
    {group index : Nat} (below : group < controller.groupCount)
    (indexBelow : index < controller.instructionCount)
    (label :
      (controller.instructions index).getGroupId =
        (controller.groups group).id) :
    ∃ position, position < controller.size group ∧
      controller.slotAt group position = index := by
  have member : index ∈ controller.timeline group :=
    (committed.timelinePerm group below).mem_iff.mpr
      ((mem_labelled controller.instructions).mpr ⟨indexBelow, label⟩)
  obtain ⟨position, inRange, same⟩ := List.mem_map.mp member
  exact ⟨position, List.mem_range.mp inRange, same⟩

/-- A group is never longer than the instruction capacity. -/
theorem size_le (committed : Committed rank controller) (group : Nat) :
    controller.size group ≤ maxInstructions := by
  by_cases below : group < controller.groupCount
  · have lengths := (committed.timelinePerm group below).length_eq
    have filtered :
        (labelled controller.instructions controller.instructionCount
            (controller.groups group).id).length ≤
          controller.instructionCount := by
      unfold labelled
      exact Nat.le_trans (List.length_filter_le _ _) (by simp)
    rw [timeline, List.length_map, List.length_range] at lengths
    exact Nat.le_trans (lengths ▸ filtered) committed.stored
  · rw [size, committed.unused group (Nat.not_lt.mp below)]
    exact Nat.zero_le _

/-- A `RunGroup` at a position of a timeline resolves to a group that its
owner calls. -/
theorem callee (committed : Committed rank controller) {group position : Nat}
    (below : group < controller.groupCount)
    (inRange : position < controller.size group)
    (isRun :
      (controller.instructions
        (controller.slotAt group position)).isRunGroup) :
    ∃ target, target < controller.groupCount ∧ target ≠ 0 ∧
      findGroup controller.groups controller.groupCount
          (controller.instructions
            (controller.slotAt group position)).getTargetGroupId =
        target ∧
      controller.CallsGroup group target := by
  obtain ⟨indexBelow, label⟩ := committed.slotAt_mem below inRange
  obtain ⟨target, targetBelow, notRoot, targetLabel⟩ :=
    committed.resolves _ indexBelow isRun
  refine ⟨target, targetBelow, notRoot, ?_, ?_⟩
  · rw [findGroup_eq_iff committed.injective targetBelow committed.bounded]
    exact targetLabel
  · exact
      ⟨below, targetBelow, _, indexBelow, isRun, label, targetLabel.symm⟩

end Committed

/-! ### Committing a validated build -/

theorem commitGroupBuild_groups {controller : Controller}
    {build : GroupBuildState} {rootAdditionalRepeats : LoopCount}
    (validated :
      Validated controller.instructions controller.instructionCount
        rootAdditionalRepeats build) :
    (commitGroupBuild build controller).groups = build.groups := by
  obtain ⟨table, tabled, sameGroups, sameCount⟩ := validated.tabled
  funext group
  simp only [commitGroupBuild]
  split
  · rfl
  · rename_i absent
    rw [sameGroups]
    exact (tabled.unused group (by omega)).symm

theorem committed_commitGroupBuild {controller : Controller}
    {build : GroupBuildState} {rootAdditionalRepeats : LoopCount}
    (capacity : controller.instructionCount ≤ maxInstructions)
    (period : controller.refreshPeriodMs ≠ 0)
    (validated :
      Validated controller.instructions controller.instructionCount
        rootAdditionalRepeats build) :
    ∃ rank, Committed rank (commitGroupBuild build controller) := by
  obtain ⟨table, tabled, sameGroups, sameCount⟩ := validated.tabled
  have groups := commitGroupBuild_groups validated
  let edge :=
    Edge controller.instructions controller.instructionCount build.groups
      build.groupCount
  have edges :
      (commitGroupBuild build controller).CallsGroup = edge := by
    unfold CallsGroup
    rw [groups]
    rfl
  have timelines :
      ∀ group,
        (commitGroupBuild build controller).timeline group =
          poolRange build group := by
    intro group
    unfold timeline size slotAt poolRange view
    rw [groups]
    rfl
  have bounded : build.groupCount ≤ maxGroups := by
    have := tabled.bounded
    simp only [maxGroups]
    omega
  have injective : Injective build.groups build.groupCount := by
    rw [sameGroups, sameCount]
    exact tabled.injective
  refine ⟨reachCount edge build.groupCount, ?_⟩
  constructor
  · show 0 < build.groupCount
    rw [sameCount]
    exact tabled.positive
  · exact bounded
  · exact capacity
  · intro group
    simp only [commitGroupBuild]
    split <;> rfl
  · intro group beyond
    have absent : ¬ group < build.groupCount := Nat.not_lt.mpr beyond
    simp only [commitGroupBuild, absent, if_false]
  · rw [groups, sameGroups]
    exact tabled.root
  · rw [groups]
    exact injective
  · intro group below notRoot
    have below' : group < table.groupCount := sameCount ▸ below
    obtain ⟨index, indexBelow, label⟩ :=
      tabled.owned group below' notRoot
    unfold size
    rw [groups, sameGroups, tabled.counted group below',
      List.length_pos_iff_exists_mem]
    exact
      ⟨index,
        (mem_labelled controller.instructions).mpr ⟨indexBelow, label⟩⟩
  · intro group below
    rw [timelines, groups]
    exact (validated.pooled group below).1
  · intro group below
    rw [timelines]
    exact (validated.pooled group below).2
  · intro index below isRun
    obtain ⟨nonzero, target, targetBelow, label⟩ :=
      validated.acceptable.resolves index below isRun
    rw [groups]
    refine ⟨target, targetBelow, ?_, label⟩
    rintro rfl
    rw [sameGroups] at label
    exact nonzero (label.symm.trans tabled.root)
  · intro index below isRun repeated
    obtain ⟨-, target, targetBelow, label⟩ :=
      validated.acceptable.resolves index below isRun
    have found :
        findGroup build.groups build.groupCount
            (controller.instructions index).getTargetGroupId =
          target :=
      (findGroup_eq_iff injective targetBelow bounded _).mpr label
    have reaches :=
      validated.acceptable.repeats index below isRun repeated target
        targetBelow label
    unfold ReachesMark
    rw [groups]
    show ReachesMarked controller.instructions controller.instructionCount
      build.groups build.groupCount
        (findGroup build.groups build.groupCount
          (controller.instructions index).getTargetGroupId)
    rw [found]
    exact reaches
  · intro source target holds
    rw [edges] at holds
    exact
      reachCount_lt validated.acceptable.acyclic holds.2.1 holds
  · intro group below
    exact reachCount_lt_count validated.acceptable.acyclic below
  · exact period

end Controller

end PrismKit
