import PrismKit.Preflight.CallGraph
import PrismKit.Controller.Runtime

/-!
# Acceptance of a program

The preflight of `Start` in terms of group labels: which stored programs are
accepted, and that every refused `Start` leaves the controller alone.
-/

namespace PrismKit

open Library Relation

namespace Controller

/-- The group `source` contains a `RunGroup` targeting `target`. -/
def Calls (controller : Controller) (source target : GroupId) : Prop :=
  ∃ index, index < controller.instructionCount ∧
    (controller.instructions index).isRunGroup ∧
    (controller.instructions index).getGroupId = source ∧
    (controller.instructions index).getTargetGroupId = target

def Owns (controller : Controller) (id : GroupId) : Prop :=
  ∃ index, index < controller.instructionCount ∧
    (controller.instructions index).getGroupId = id

/-- The group holds an instruction with a positive mark, or a Fade or Gradient
with a positive duration. -/
def HoldsBoundary (controller : Controller) (id : GroupId) : Prop :=
  ∃ index, index < controller.instructionCount ∧
    (controller.instructions index).getGroupId = id ∧
    ((controller.instructions index).getMark > 0 ∨
      (controller.instructions index).hasPositiveSchedulingBoundary)

/-- The group reaches, in zero or more call steps, a group with a positive
boundary. -/
def ReachesBoundary (controller : Controller) (id : GroupId) : Prop :=
  ∃ target,
    ReflTransGen controller.Calls id target ∧ controller.HoldsBoundary target

/-- The programs that may start with `rootAdditionalRepeats`. -/
structure Acceptable (controller : Controller)
    (rootAdditionalRepeats : LoopCount) : Prop where
  targets :
    ∀ index, index < controller.instructionCount →
      (controller.instructions index).isRunGroup →
        (controller.instructions index).getTargetGroupId ≠ 0 ∧
          controller.Owns (controller.instructions index).getTargetGroupId
  acyclic : ∀ id, ¬ TransGen controller.Calls id id
  repeats :
    ∀ index, index < controller.instructionCount →
      (controller.instructions index).isRunGroup →
        (controller.instructions index).getAdditionalRepeats ≠ 0 →
          controller.ReachesBoundary
            (controller.instructions index).getTargetGroupId
  root : rootAdditionalRepeats ≠ 0 → controller.ReachesBoundary 0

end Controller

/-- The conditions of the preflight in terms of table indexes. -/
structure IndexAcceptable (instructions : Nat → InstructionMemorySlot)
    (instructionCount : Nat) (rootAdditionalRepeats : LoopCount)
    (build : GroupBuildState) : Prop where
  resolves :
    ∀ index, index < instructionCount →
      TargetResolves instructions build index
  acyclic :
    ∀ group,
      ¬ TransGen
        (Edge instructions instructionCount build.groups build.groupCount)
        group group
  repeats :
    ∀ index, index < instructionCount → (instructions index).isRunGroup →
      (instructions index).getAdditionalRepeats ≠ 0 →
        ∀ target, target < build.groupCount →
          (build.groups target).id = (instructions index).getTargetGroupId →
            ReachesMarked instructions instructionCount build.groups
              build.groupCount target
  root :
    rootAdditionalRepeats ≠ 0 →
      ReachesMarked instructions instructionCount build.groups
        build.groupCount 0

/-- What the preflight establishes about the model it builds. -/
structure Validated (instructions : Nat → InstructionMemorySlot)
    (instructionCount : Nat) (rootAdditionalRepeats : LoopCount)
    (build : GroupBuildState) : Prop where
  tabled :
    ∃ table, Tabled instructions instructionCount table ∧
      build.groups = table.groups ∧ build.groupCount = table.groupCount
  pooled : Pooled instructions instructionCount build
  acceptable :
    IndexAcceptable instructions instructionCount rootAdditionalRepeats build

section Stages

variable {instructions : Nat → InstructionMemorySlot} {instructionCount : Nat}
  (rootAdditionalRepeats : LoopCount)

private theorem repeatsWithoutBoundary_iff {build : GroupBuildState}
    (capacity : instructionCount ≤ maxInstructions)
    (tabled : Tabled instructions instructionCount build)
    {graph : Nat → BitVec 32} {flags : Nat → Bool} {index : Nat}
    (resolves : TargetResolves instructions build index) :
    repeatsWithoutBoundary instructions
        { build with callGraph := graph, hasPositiveBoundary := flags }
        index ↔
      (instructions index).isRunGroup ∧
        (instructions index).getAdditionalRepeats ≠ 0 ∧
        ∃ target, target < build.groupCount ∧
          (build.groups target).id = (instructions index).getTargetGroupId ∧
          flags target = false := by
  have bounded := tabled.groupCount_le capacity
  cases isRun : (instructions index).isRunGroup with
  | false =>
      simp [repeatsWithoutBoundary, isRun]
  | true =>
      by_cases once : (instructions index).getAdditionalRepeats = 0
      · simp [repeatsWithoutBoundary, isRun, once]
      · obtain ⟨-, target, below, label⟩ := resolves isRun
        have found :
            findGroup build.groups build.groupCount
                (instructions index).getTargetGroupId =
              target :=
          (findGroup_eq_iff tabled.injective below bounded _).mpr label
        have known : target ≠ maxGroups := by omega
        simp only [repeatsWithoutBoundary, isRun, once,
          GroupBuildState.find, found, known]
        constructor
        · intro missing
          exact
            ⟨trivial, once, target, below, label, by simpa using missing⟩
        · rintro ⟨-, -, other, otherBelow, otherLabel, missing⟩
          have same : other = target :=
            tabled.injective other otherBelow target below
              (otherLabel.trans label.symm)
          rw [← same]
          simpa using missing

/-- The preflight either validates the program, or reports an error that one
of the conditions explains. -/
theorem validateGroups_cases (capacity : instructionCount ≤ maxInstructions) :
    (∃ build,
        validateGroups instructions instructionCount rootAdditionalRepeats =
            .ok build ∧
          Validated instructions instructionCount rootAdditionalRepeats
            build) ∨
      ∃ status build,
        validateGroups instructions instructionCount rootAdditionalRepeats =
            .error status ∧
          status ≠ .success ∧
          Tabled instructions instructionCount build ∧
          ¬ IndexAcceptable instructions instructionCount
            rootAdditionalRepeats build := by
  obtain ⟨table, tableReached, tableTabled⟩ :=
    buildGroupTable_spec instructions capacity
  obtain ⟨build, poolReached, tabled, pooled⟩ :=
    buildGroupIndexPool_spec capacity tableTabled
  unfold validateGroups
  simp only [tableReached, poolReached]
  rcases buildGroupCallGraph_cases capacity tabled with
    ⟨graph, graphReached, edges, resolves⟩ | ⟨graphFailed, unresolved⟩
  · simp only [graphReached]
    rcases validateGroupCallGraph_cases edges
        (fun source target edge => ⟨edge.1, edge.2.1⟩) with
      ⟨closedGraph, closedReached, closure, acyclic⟩ |
        ⟨closedFailed, group, cycle⟩
    · simp only [closedReached]
      obtain ⟨flags, flagsReached, meaning⟩ :=
        boundaries_spec capacity tabled closure
      unfold validateRepeatBoundaries
      have sameCount :
          (forUpTo (markBoundary instructions)
              { build with callGraph := closedGraph }
              instructionCount).groupCount =
            build.groupCount := by
        obtain ⟨flags', marked, -⟩ :=
          markBoundaries_spec capacity tabled closedGraph
        rw [marked]
      simp only [sameCount, flagsReached]
      by_cases unbounded :
          (List.range instructionCount).any
            (repeatsWithoutBoundary instructions
              { build with
                callGraph := closedGraph
                hasPositiveBoundary := flags })
      · right
        refine ⟨_, build, by rw [if_pos unbounded], by decide, tabled, ?_⟩
        intro acceptable
        obtain ⟨index, member, failing⟩ := List.any_eq_true.mp unbounded
        have below := List.mem_range.mp member
        obtain ⟨isRun, repeated, target, targetBelow, label, missing⟩ :=
          (repeatsWithoutBoundary_iff capacity tabled
            (resolves index below)).mp failing
        have flag :=
          (meaning target).mpr
            (acceptable.repeats index below isRun repeated target targetBelow
              label)
        rw [missing] at flag
        exact absurd flag (by decide)
      · rw [if_neg unbounded]
        by_cases rootFails :
            rootAdditionalRepeats ≠ 0 ∧ ¬ flags 0
        · right
          refine ⟨_, build, by rw [if_pos rootFails], by decide, tabled, ?_⟩
          intro acceptable
          exact rootFails.2 ((meaning 0).mpr (acceptable.root rootFails.1))
        · left
          refine ⟨_, by rw [if_neg rootFails], ?_⟩
          refine ⟨⟨build, tabled, rfl, rfl⟩, pooled, ?_⟩
          constructor
          · exact resolves
          · exact acyclic
          · intro index below isRun repeated target targetBelow label
            rw [← meaning]
            by_contra missing
            apply unbounded
            rw [List.any_eq_true]
            refine ⟨index, List.mem_range.mpr below, ?_⟩
            rw [repeatsWithoutBoundary_iff capacity tabled
              (resolves index below)]
            exact
              ⟨isRun, repeated, target, targetBelow, label,
                by simpa using missing⟩
          · intro repeated
            rw [← meaning]
            by_contra missing
            exact rootFails ⟨repeated, missing⟩
    · right
      simp only [closedFailed]
      refine ⟨_, build, rfl, by decide, tabled, ?_⟩
      intro acceptable
      exact acceptable.acyclic group cycle
  · right
    simp only [graphFailed]
    refine ⟨_, build, rfl, by decide, tabled, ?_⟩
    intro acceptable
    exact unresolved acceptable.resolves

end Stages

/-! ### From indexes to labels -/

section Labels

variable {controller : Controller} {build : GroupBuildState}

/-- A call between labels is an edge between indexes, once every target
resolves. -/
private theorem calls_iff_edge
    (resolves :
      ∀ index, index < controller.instructionCount →
        TargetResolves controller.instructions build index)
    {source : Nat} (below : source < build.groupCount) (target : GroupId) :
    controller.Calls (build.groups source).id target ↔
      ∃ group,
        Edge controller.instructions controller.instructionCount build.groups
            build.groupCount source group ∧
          (build.groups group).id = target := by
  constructor
  · rintro ⟨index, indexBelow, isRun, owner, rfl⟩
    obtain ⟨-, group, groupBelow, label⟩ := resolves index indexBelow isRun
    exact
      ⟨group,
        ⟨below, groupBelow, index, indexBelow, isRun, owner, label.symm⟩,
        label⟩
  · rintro ⟨group, ⟨-, -, index, indexBelow, isRun, owner, called⟩, rfl⟩
    exact ⟨index, indexBelow, isRun, owner, called⟩

private theorem reflTransGen_iff
    (resolves :
      ∀ index, index < controller.instructionCount →
        TargetResolves controller.instructions build index)
    {source : Nat} (below : source < build.groupCount) (target : GroupId) :
    ReflTransGen controller.Calls (build.groups source).id target ↔
      ∃ group, group < build.groupCount ∧
        ReflTransGen
            (Edge controller.instructions controller.instructionCount
              build.groups build.groupCount) source group ∧
          (build.groups group).id = target := by
  constructor
  · intro path
    induction path with
    | refl =>
        exact ⟨source, below, ReflTransGen.refl, rfl⟩
    | tail _ last inductionHypothesis =>
        obtain ⟨group, groupBelow, chain, rfl⟩ := inductionHypothesis
        obtain ⟨next, edge, label⟩ :=
          (calls_iff_edge resolves groupBelow _).mp last
        exact ⟨next, edge.2.1, chain.tail edge, label⟩
  · rintro ⟨group, -, chain, rfl⟩
    induction chain with
    | refl =>
        exact ReflTransGen.refl
    | tail _ edge inductionHypothesis =>
        exact
          inductionHypothesis.tail
            ((calls_iff_edge resolves edge.1 _).mpr ⟨_, edge, rfl⟩)

private theorem transGen_iff
    (resolves :
      ∀ index, index < controller.instructionCount →
        TargetResolves controller.instructions build index)
    {source : Nat} (below : source < build.groupCount) (target : GroupId) :
    TransGen controller.Calls (build.groups source).id target ↔
      ∃ group,
        TransGen
            (Edge controller.instructions controller.instructionCount
              build.groups build.groupCount) source group ∧
          (build.groups group).id = target := by
  constructor
  · intro path
    obtain ⟨middle, initial, last⟩ := TransGen.tail'_iff.mp path
    obtain ⟨group, groupBelow, chain, rfl⟩ :=
      (reflTransGen_iff resolves below middle).mp initial
    obtain ⟨next, edge, label⟩ :=
      (calls_iff_edge resolves groupBelow _).mp last
    exact ⟨next, TransGen.tail'_iff.mpr ⟨group, chain, edge⟩, label⟩
  · rintro ⟨group, path, rfl⟩
    obtain ⟨middle, initial, last⟩ := TransGen.tail'_iff.mp path
    refine TransGen.tail'_iff.mpr ⟨(build.groups middle).id, ?_, ?_⟩
    · exact
        (reflTransGen_iff resolves below _).mpr
          ⟨middle, last.1, initial, rfl⟩
    · exact (calls_iff_edge resolves last.1 _).mpr ⟨group, last, rfl⟩

private theorem holdsBoundary_iff_marked {group : Nat}
    (below : group < build.groupCount) :
    controller.HoldsBoundary (build.groups group).id ↔
      MarkedGroup controller.instructions controller.instructionCount
        build.groups build.groupCount group := by
  constructor
  · rintro ⟨index, indexBelow, owner, positive⟩
    exact
      ⟨below, index, indexBelow, by simpa [declaresBoundary] using positive,
        owner⟩
  · rintro ⟨-, index, indexBelow, positive, owner⟩
    exact
      ⟨index, indexBelow, owner, by simpa [declaresBoundary] using positive⟩

private theorem reachesBoundary_iff_marked
    (resolves :
      ∀ index, index < controller.instructionCount →
        TargetResolves controller.instructions build index)
    {group : Nat} (below : group < build.groupCount) :
    controller.ReachesBoundary (build.groups group).id ↔
      ReachesMarked controller.instructions controller.instructionCount
        build.groups build.groupCount group := by
  constructor
  · rintro ⟨label, path, holds⟩
    obtain ⟨target, targetBelow, chain, rfl⟩ :=
      (reflTransGen_iff resolves below label).mp path
    exact ⟨target, chain, (holdsBoundary_iff_marked targetBelow).mp holds⟩
  · rintro ⟨target, chain, marked⟩
    exact
      ⟨(build.groups target).id,
        (reflTransGen_iff resolves below _).mpr
          ⟨target, marked.1, chain, rfl⟩,
        (holdsBoundary_iff_marked marked.1).mpr marked⟩

private theorem targets_iff_resolves
    (tabled :
      Tabled controller.instructions controller.instructionCount build) :
    (∀ index, index < controller.instructionCount →
      (controller.instructions index).isRunGroup →
        (controller.instructions index).getTargetGroupId ≠ 0 ∧
          controller.Owns
            (controller.instructions index).getTargetGroupId) ↔
      ∀ index, index < controller.instructionCount →
        TargetResolves controller.instructions build index := by
  constructor
  · intro targets index below isRun
    obtain ⟨nonzero, owner, ownerBelow, label⟩ := targets index below isRun
    obtain ⟨group, groupBelow, groupLabel⟩ :=
      tabled.covered owner ownerBelow
    exact ⟨nonzero, group, groupBelow, groupLabel.trans label⟩
  · intro resolves index below isRun
    obtain ⟨nonzero, group, groupBelow, label⟩ := resolves index below isRun
    have notRoot : group ≠ 0 := by
      rintro rfl
      exact nonzero (label.symm.trans tabled.root)
    obtain ⟨owner, ownerBelow, ownerLabel⟩ :=
      tabled.owned group groupBelow notRoot
    exact ⟨nonzero, owner, ownerBelow, ownerLabel.trans label⟩

/-- The two readings of the preflight conditions agree. -/
theorem acceptable_iff {rootAdditionalRepeats : LoopCount}
    (tabled :
      Tabled controller.instructions controller.instructionCount build) :
    controller.Acceptable rootAdditionalRepeats ↔
      IndexAcceptable controller.instructions controller.instructionCount
        rootAdditionalRepeats build := by
  constructor
  · intro acceptable
    have resolves := (targets_iff_resolves tabled).mp acceptable.targets
    constructor
    · exact resolves
    · intro group cycle
      have below : group < build.groupCount := by
        obtain ⟨_, edge, -⟩ := TransGen.head'_iff.mp cycle
        exact edge.1
      exact
        acceptable.acyclic _
          ((transGen_iff resolves below _).mpr ⟨group, cycle, rfl⟩)
    · intro index below isRun repeated target targetBelow label
      rw [← reachesBoundary_iff_marked resolves targetBelow, label]
      exact acceptable.repeats index below isRun repeated
    · intro repeated
      rw [← reachesBoundary_iff_marked resolves tabled.positive,
        tabled.root]
      exact acceptable.root repeated
  · intro acceptable
    have resolves := acceptable.resolves
    constructor
    · exact (targets_iff_resolves tabled).mpr resolves
    · intro id cycle
      obtain ⟨_, ⟨index, indexBelow, -, rfl, -⟩, -⟩ :=
        TransGen.head'_iff.mp cycle
      obtain ⟨group, groupBelow, label⟩ := tabled.covered index indexBelow
      rw [← label] at cycle
      obtain ⟨target, path, sameLabel⟩ :=
        (transGen_iff resolves groupBelow _).mp cycle
      have targetBelow : target < build.groupCount := by
        obtain ⟨_, -, edge⟩ := TransGen.tail'_iff.mp path
        exact edge.2.1
      have same : target = group :=
        tabled.injective target targetBelow group groupBelow sameLabel
      rw [same] at path
      exact acceptable.acyclic group path
    · intro index below isRun repeated
      obtain ⟨-, target, targetBelow, label⟩ := resolves index below isRun
      rw [← label, reachesBoundary_iff_marked resolves targetBelow]
      exact
        acceptable.repeats index below isRun repeated target targetBelow label
    · intro repeated
      rw [← tabled.root,
        reachesBoundary_iff_marked resolves tabled.positive]
      exact acceptable.root repeated

theorem Validated.controller_acceptable {rootAdditionalRepeats : LoopCount}
    (validated :
      Validated controller.instructions controller.instructionCount
        rootAdditionalRepeats build) :
    controller.Acceptable rootAdditionalRepeats := by
  obtain ⟨table, tabled, sameGroups, sameCount⟩ := validated.tabled
  have acceptable := validated.acceptable
  rw [acceptable_iff tabled]
  constructor
  · have resolves := acceptable.resolves
    unfold TargetResolves at resolves ⊢
    rw [sameGroups, sameCount] at resolves
    exact resolves
  · rw [← sameGroups, ← sameCount]
    exact acceptable.acyclic
  · rw [← sameGroups, ← sameCount]
    exact acceptable.repeats
  · rw [← sameGroups, ← sameCount]
    exact acceptable.root

end Labels

end PrismKit
