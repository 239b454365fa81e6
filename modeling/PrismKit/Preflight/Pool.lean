import PrismKit.Preflight.Table
import Mathlib.Algebra.Ring.Nat
import Mathlib.Data.List.Nodup
import Mathlib.Data.List.Perm.Subperm

/-!
# The index pool

`BuildGroupIndexPool` gives every group a range of the shared pool, fills the
ranges in insertion order and sorts each range by mark.  In the end every range
lists the instructions of its group in program order: by mark, and by insertion
where marks are equal.
-/

namespace PrismKit

open Library

variable {instructions : Nat → InstructionMemorySlot} {instructionCount : Nat}

/-- Program order of two stored instructions: by mark, then by insertion. -/
def ProgramOrder (instructions : Nat → InstructionMemorySlot)
    (left right : Nat) : Prop :=
  (instructions left).getMark < (instructions right).getMark ∨
    (instructions left).getMark = (instructions right).getMark ∧ left < right

instance (instructions : Nat → InstructionMemorySlot) (left right : Nat) :
    Decidable (ProgramOrder instructions left right) :=
  inferInstanceAs (Decidable (_ ∨ _))

theorem ProgramOrder.trans {first second third : Nat}
    (left : ProgramOrder instructions first second)
    (right : ProgramOrder instructions second third) :
    ProgramOrder instructions first third := by
  rcases left with smaller | ⟨equal, earlier⟩ <;>
    rcases right with smaller' | ⟨equal', earlier'⟩
  · exact Or.inl (UInt16.lt_trans smaller smaller')
  · exact Or.inl (equal' ▸ smaller)
  · exact Or.inl (equal ▸ smaller')
  · exact Or.inr ⟨equal.trans equal', Nat.lt_trans earlier earlier'⟩

theorem ProgramOrder.asymm {first second : Nat}
    (left : ProgramOrder instructions first second) :
    ¬ ProgramOrder instructions second first := by
  rintro (smaller' | ⟨equal', earlier'⟩) <;>
    rcases left with smaller | ⟨equal, earlier⟩
  · exact UInt16.lt_irrefl _ (UInt16.lt_trans smaller smaller')
  · exact UInt16.lt_irrefl _ (equal ▸ smaller')
  · exact UInt16.lt_irrefl _ (equal' ▸ smaller)
  · exact Nat.lt_irrefl _ (Nat.lt_trans earlier earlier')

/-- Where the range of a group begins: after the ranges before it. -/
def rangeStart (groups : Nat → GroupRecord) (group : Nat) : Nat :=
  ((List.range group).map fun other => (groups other).instructionCount).sum

theorem rangeStart_succ (groups : Nat → GroupRecord) (group : Nat) :
    rangeStart groups (group + 1) =
      rangeStart groups group + (groups group).instructionCount := by
  simp [rangeStart, List.range_succ]

theorem rangeStart_add_le (groups : Nat → GroupRecord) {left right : Nat}
    (before : left < right) :
    rangeStart groups left + (groups left).instructionCount ≤
      rangeStart groups right := by
  induction before with
  | refl =>
      exact Nat.le_of_eq (rangeStart_succ groups left).symm
  | @step right _ inductionHypothesis =>
      rw [rangeStart_succ]
      omega

def members (instructions : Nat → InstructionMemorySlot)
    (instructionCount : Nat) (groups : Nat → GroupRecord) (group : Nat) :
    List Nat :=
  (List.range group).flatMap fun other =>
    labelled instructions instructionCount (groups other).id

theorem members_succ (groups : Nat → GroupRecord) (group : Nat) :
    members instructions instructionCount groups (group + 1) =
      members instructions instructionCount groups group ++
        labelled instructions instructionCount (groups group).id := by
  simp [members, List.range_succ]

theorem mem_members {groups : Nat → GroupRecord} {group index : Nat} :
    index ∈ members instructions instructionCount groups group ↔
      index < instructionCount ∧
        ∃ other, other < group ∧
          (groups other).id = (instructions index).getGroupId := by
  constructor
  · intro member
    obtain ⟨other, below, owns⟩ := List.mem_flatMap.mp member
    obtain ⟨stored, label⟩ := (mem_labelled instructions).mp owns
    exact ⟨stored, other, List.mem_range.mp below, label.symm⟩
  · rintro ⟨stored, other, below, label⟩
    refine List.mem_flatMap.mpr ⟨other, List.mem_range.mpr below, ?_⟩
    exact (mem_labelled instructions).mpr ⟨stored, label.symm⟩

namespace Tabled

variable {build : GroupBuildState} {group : Nat}

theorem members_length
    (tabled : Tabled instructions instructionCount build)
    (below : group ≤ build.groupCount) :
    (members instructions instructionCount build.groups group).length =
      rangeStart build.groups group := by
  induction group with
  | zero => rfl
  | succ group inductionHypothesis =>
      rw [members_succ, List.length_append,
        inductionHypothesis (Nat.le_of_succ_le below), rangeStart_succ,
        tabled.counted group below]

theorem members_nodup
    (tabled : Tabled instructions instructionCount build)
    (below : group ≤ build.groupCount) :
    (members instructions instructionCount build.groups group).Nodup := by
  induction group with
  | zero => exact List.nodup_nil
  | succ group inductionHypothesis =>
      rw [members_succ]
      apply List.Nodup.append
      · exact inductionHypothesis (Nat.le_of_succ_le below)
      · exact List.nodup_range.filter _
      · refine List.disjoint_left.mpr ?_
        intro index earlier owns
        obtain ⟨-, other, otherBelow, label⟩ := mem_members.mp earlier
        have same := ((mem_labelled instructions).mp owns).2
        have equal :=
          tabled.injective other (by omega) group below (label.trans same)
        omega

/-- All ranges together are not longer than the stored program. -/
theorem rangeStart_le
    (tabled : Tabled instructions instructionCount build)
    (below : group ≤ build.groupCount) :
    rangeStart build.groups group ≤ instructionCount := by
  have contained :
      members instructions instructionCount build.groups group ⊆
        List.range instructionCount := by
    intro index member
    exact List.mem_range.mpr (mem_members.mp member).1
  calc
    rangeStart build.groups group =
        (members instructions instructionCount build.groups group).length :=
      (tabled.members_length below).symm
    _ ≤ (List.range instructionCount).length :=
      ((tabled.members_nodup below).subperm contained).length_le
    _ = instructionCount := List.length_range

end Tabled

/-- The state after the ranges of the first `count` groups are assigned. -/
def ranged (build : GroupBuildState) (count : Nat) :
    GroupBuildState :=
  { build with
    groups := fun group =>
      if group < count then
        { build.groups group with indexBegin := rangeStart build.groups group }
      else
        build.groups group
    indexWritePositions := fun group =>
      if group < count then
        rangeStart build.groups group
      else
        build.indexWritePositions group }

theorem ranged_id (build : GroupBuildState) (count group : Nat) :
    ((ranged build count).groups group).id = (build.groups group).id := by
  by_cases below : group < count
  · simp [ranged, below]
  · simp [ranged, below]

theorem ranged_instructionCount (build : GroupBuildState)
    (count group : Nat) :
    ((ranged build count).groups group).instructionCount =
      (build.groups group).instructionCount := by
  by_cases below : group < count
  · simp [ranged, below]
  · simp [ranged, below]

theorem ranged_succ (build : GroupBuildState) (count : Nat) :
    { ranged build count with
      groups :=
        Function.update (ranged build count).groups count
          { (ranged build count).groups count with
            indexBegin := rangeStart build.groups count }
      indexWritePositions :=
        Function.update (ranged build count).indexWritePositions count
          (rangeStart build.groups count) } =
      ranged build (count + 1) := by
  simp only [ranged, Nat.lt_irrefl, if_false, GroupBuildState.mk.injEq,
    true_and, and_true]
  constructor
  · funext group
    by_cases equal : group = count
    · subst equal
      simp
    · have sameSide : group < count + 1 ↔ group < count := by omega
      simp [equal, sameSide]
  · funext group
    by_cases equal : group = count
    · subst equal
      simp
    · have sameSide : group < count + 1 ↔ group < count := by omega
      simp [equal, sameSide]

/-- Every range ends within the pool. -/
theorem Tabled.range_fits {build : GroupBuildState} {group : Nat}
    (capacity : instructionCount ≤ maxInstructions)
    (tabled : Tabled instructions instructionCount build)
    (below : group < build.groupCount) :
    rangeStart build.groups group + (build.groups group).instructionCount ≤
      maxInstructions := by
  rw [← rangeStart_succ]
  exact Nat.le_trans (tabled.rangeStart_le below) capacity

/-- One iteration of the range loop. -/
theorem prefixGroup_ranged {build : GroupBuildState} {group : Nat}
    (capacity : instructionCount ≤ maxInstructions)
    (tabled : Tabled instructions instructionCount build)
    (below : group < build.groupCount) :
    prefixGroup group (ranged build group, rangeStart build.groups group) =
      .ok (ranged build (group + 1), rangeStart build.groups (group + 1)) := by
  have fits := tabled.range_fits capacity below
  rw [← ranged_succ, rangeStart_succ]
  simp [prefixGroup, ranged_instructionCount, Nat.not_lt.mpr fits]

/-- The range loop never runs out of pool. -/
theorem prefixGroups_spec {build : GroupBuildState}
    (capacity : instructionCount ≤ maxInstructions)
    (tabled : Tabled instructions instructionCount build) :
    forUpToExcept prefixGroup (build, 0) build.groupCount =
      .ok
        (ranged build build.groupCount,
          rangeStart build.groups build.groupCount) := by
  have loop :
      ∃ final,
        forUpToExcept prefixGroup (build, 0) build.groupCount = .ok final ∧
          final =
            (ranged build build.groupCount,
              rangeStart build.groups build.groupCount) := by
    apply forUpToExcept_invariant
      (fun count state =>
        state = (ranged build count, rangeStart build.groups count))
    · simp [ranged, rangeStart]
    · rintro count below state rfl
      exact ⟨_, prefixGroup_ranged capacity tabled below, rfl⟩
  obtain ⟨final, reached, rfl⟩ := loop
  exact reached

/-! ### Filling and sorting the ranges -/

def poolRange (build : GroupBuildState) (group : Nat) : List Nat :=
  view build.instructionIndices (build.groups group).indexBegin
    (build.groups group).instructionCount

/-- The build state once the first `count` instructions are in their ranges. -/
structure Filled (instructions : Nat → InstructionMemorySlot)
    (table : GroupBuildState) (count : Nat) (build : GroupBuildState) :
    Prop where
  rest :
    ∃ indices positions,
      build =
        { ranged table table.groupCount with
          instructionIndices := indices
          indexWritePositions := positions }
  written :
    ∀ group, group < table.groupCount →
      let members := labelled instructions count (table.groups group).id
      build.indexWritePositions group =
          rangeStart table.groups group + members.length ∧
        view build.instructionIndices (rangeStart table.groups group)
          members.length = members

theorem filled_initial (table : GroupBuildState) :
    Filled instructions table 0 (ranged table table.groupCount) := by
  constructor
  · exact ⟨_, _, rfl⟩
  · intro group below
    simp [labelled, ranged, below]

/-- The members among the first instructions are at most all members. -/
theorem labelled_length_mono
    (instructions : Nat → InstructionMemorySlot) {low high : Nat}
    (ordered : low ≤ high)
    (id : GroupId) :
    (labelled instructions low id).length ≤
      (labelled instructions high id).length := by
  induction ordered with
  | refl =>
      exact Nat.le_refl _
  | step _ inductionHypothesis =>
      rw [labelled_succ, List.length_append]
      omega

/-- Before an instruction is filled in, its group has not all its members. -/
theorem Tabled.labelled_length_lt {table : GroupBuildState} {count owner : Nat}
    (tabled : Tabled instructions instructionCount table)
    (below : count < instructionCount) (ownerBelow : owner < table.groupCount)
    (ownerLabel : (table.groups owner).id = (instructions count).getGroupId) :
    (labelled instructions count (table.groups owner).id).length <
      (table.groups owner).instructionCount := by
  have next := labelled_length_mono instructions below (table.groups owner).id
  rw [labelled_succ, if_pos ownerLabel.symm, List.length_append,
    List.length_singleton, ← tabled.counted owner ownerBelow] at next
  exact next

/-- The fill loop looks the group of an instruction up in the ranged table. -/
theorem Tabled.find_ranged {table : GroupBuildState} {owner : Nat}
    {id : GroupId} (capacity : instructionCount ≤ maxInstructions)
    (tabled : Tabled instructions instructionCount table)
    (ownerBelow : owner < table.groupCount)
    (ownerLabel : (table.groups owner).id = id) :
    findGroup (ranged table table.groupCount).groups table.groupCount id =
      owner := by
  have injective :
      Injective (ranged table table.groupCount).groups table.groupCount := by
    intro left leftBelow right rightBelow equal
    rw [ranged_id, ranged_id] at equal
    exact tabled.injective left leftBelow right rightBelow equal
  rw [findGroup_eq_iff injective ownerBelow (tabled.groupCount_le capacity),
    ranged_id]
  exact ownerLabel

theorem fillInstruction_filled {table build : GroupBuildState}
    {count : Nat} (capacity : instructionCount ≤ maxInstructions)
    (tabled : Tabled instructions instructionCount table)
    (below : count < instructionCount)
    (filled : Filled instructions table count build) :
    Filled instructions table (count + 1)
      (fillInstruction instructions count build) := by
  obtain ⟨⟨indices, positions, rfl⟩, written⟩ := filled
  obtain ⟨owner, ownerBelow, ownerLabel⟩ := tabled.covered count below
  have found := tabled.find_ranged capacity ownerBelow ownerLabel
  obtain ⟨ownerPosition, ownerView⟩ := written owner ownerBelow
  constructor
  · exact ⟨_, _, rfl⟩
  · intro group groupBelow
    have found' :
        GroupBuildState.find
            { ranged table table.groupCount with
              instructionIndices := indices
              indexWritePositions := positions }
            (instructions count).getGroupId =
          owner :=
      found
    obtain ⟨position, viewed⟩ := written group groupBelow
    simp only [fillInstruction, found'] at ownerPosition position viewed ⊢
    by_cases equal : group = owner
    · subst equal
      have members := labelled_succ instructions count (table.groups group).id
      rw [if_pos ownerLabel.symm] at members
      rw [members, List.length_append, List.length_singleton]
      constructor
      · simp [position, Nat.add_assoc]
      · rw [view_succ, position]
        have sameBelow :
            view
                (Function.update indices
                  (rangeStart table.groups group +
                    (labelled instructions count
                      (table.groups group).id).length) count)
                (rangeStart table.groups group)
                (labelled instructions count
                  (table.groups group).id).length =
              view indices (rangeStart table.groups group)
                (labelled instructions count
                  (table.groups group).id).length := by
          apply view_congr
          intro offset _ offsetBelow
          simp [Nat.ne_of_lt offsetBelow]
        rw [sameBelow, viewed]
        simp
    · have members := labelled_succ instructions count (table.groups group).id
      have notOwned :
          (instructions count).getGroupId ≠ (table.groups group).id := by
        intro same
        exact
          equal
            (tabled.injective group groupBelow owner ownerBelow
              (same.symm.trans ownerLabel.symm))
      rw [if_neg notOwned, List.append_nil] at members
      rw [members]
      constructor
      · simp [equal, position]
      · -- The written position lies in the owner's range, not in this one.
        rw [ownerPosition]
        have ownerRoom :=
          tabled.labelled_length_lt below ownerBelow ownerLabel
        have groupRoom :
            (labelled instructions count (table.groups group).id).length ≤
              (table.groups group).instructionCount := by
          rw [tabled.counted group groupBelow]
          exact labelled_length_mono instructions (Nat.le_of_lt below) _
        have apart :
            ∀ offset, rangeStart table.groups group ≤ offset →
              offset <
                rangeStart table.groups group +
                  (labelled instructions count
                    (table.groups group).id).length →
              offset ≠
                rangeStart table.groups owner +
                  (labelled instructions count
                    (table.groups owner).id).length := by
          intro offset low high
          rcases Nat.lt_or_gt_of_ne equal with before | after
          · have := rangeStart_add_le table.groups before
            omega
          · have := rangeStart_add_le table.groups after
            omega
        calc
          _ = view indices (rangeStart table.groups group)
                (labelled instructions count
                  (table.groups group).id).length := by
            apply view_congr
            intro offset low high
            exact Function.update_of_ne (apart offset low high) _ _
          _ = labelled instructions count (table.groups group).id := viewed

/-- The build state once the ranges of the first `count` groups are sorted. -/
structure Sorted (instructions : Nat → InstructionMemorySlot)
    (instructionCount : Nat) (table : GroupBuildState) (count : Nat)
    (build : GroupBuildState) : Prop where
  rest :
    ∃ indices positions,
      build =
        { ranged table table.groupCount with
          instructionIndices := indices
          indexWritePositions := positions }
  finished :
    ∀ group, group < count → group < table.groupCount →
      let range :=
        view build.instructionIndices (rangeStart table.groups group)
          (table.groups group).instructionCount
      range.Perm
          (labelled instructions instructionCount (table.groups group).id) ∧
        range.Pairwise (ProgramOrder instructions)
  waiting :
    ∀ group, count ≤ group → group < table.groupCount →
      view build.instructionIndices (rangeStart table.groups group)
          (table.groups group).instructionCount =
        labelled instructions instructionCount (table.groups group).id

theorem sortGroup_sorted {table build : GroupBuildState}
    {count : Nat} (below : count < table.groupCount)
    (sorted : Sorted instructions instructionCount table count build) :
    Sorted instructions instructionCount table (count + 1)
      (sortGroup instructions count build) := by
  obtain ⟨⟨indices, positions, rfl⟩, finished, waiting⟩ := sorted
  let larger := fun left right : Nat =>
    decide ((instructions left).getMark > (instructions right).getMark)
  let sortedIndices :=
    (sortRange larger (rangeStart table.groups count)
      (table.groups count).instructionCount ⟨indices⟩).get
  have sortsTo :
      sortGroup instructions count
          { ranged table table.groupCount with
            instructionIndices := indices
            indexWritePositions := positions } =
        { ranged table table.groupCount with
          instructionIndices := sortedIndices
          indexWritePositions := positions } := by
    simp [sortGroup, sortedIndices, larger, ranged, below]
  rw [sortsTo]
  obtain ⟨permuted, outside⟩ :=
    sortRange_perm larger (rangeStart table.groups count)
      (table.groups count).instructionCount ⟨indices⟩
  -- The other ranges do not meet the sorted one.
  have untouched :
      ∀ group, group ≠ count →
        view sortedIndices (rangeStart table.groups group)
            (table.groups group).instructionCount =
          view indices (rangeStart table.groups group)
            (table.groups group).instructionCount := by
    intro group different
    apply view_congr
    intro position low high
    apply outside
    rcases Nat.lt_or_gt_of_ne different with before | after
    · left
      have := rangeStart_add_le table.groups before
      omega
    · right
      have := rangeStart_add_le table.groups after
      omega
  constructor
  · exact ⟨sortedIndices, positions, rfl⟩
  · intro group groupBelow groupExists
    rcases Nat.lt_succ_iff_lt_or_eq.mp groupBelow with earlier | rfl
    · simp only [untouched group (Nat.ne_of_lt earlier)]
      exact finished group earlier groupExists
    · have initial := waiting group (Nat.le_refl group) groupExists
      simp only at initial
      constructor
      · rw [← initial]
        exact permuted
      · apply sortRange_ordered larger (· < ·)
        · rw [initial]
          exact List.pairwise_lt_range.filter _
        · intro first second third
          exact ProgramOrder.trans
        · intro left right markLarger
          exact Or.inl (by simpa [larger] using markLarger)
        · intro left right earlier notLarger
          have ordered :
              (instructions left).getMark ≤ (instructions right).getMark := by
            simpa [larger] using notLarger
          rcases UInt16.lt_or_eq_of_le ordered with smaller | equal
          · exact Or.inl smaller
          · exact Or.inr ⟨equal, earlier⟩
  · intro group beyond groupExists
    simp only [untouched group (by omega)]
    exact waiting group (by omega) groupExists

def Pooled (instructions : Nat → InstructionMemorySlot)
    (instructionCount : Nat) (build : GroupBuildState) : Prop :=
  ∀ group, group < build.groupCount →
    (poolRange build group).Perm
        (labelled instructions instructionCount (build.groups group).id) ∧
      (poolRange build group).Pairwise (ProgramOrder instructions)

/-- The state between the fill loop and the sort loop. -/
theorem filled_spec {table : GroupBuildState}
    (capacity : instructionCount ≤ maxInstructions)
    (tabled : Tabled instructions instructionCount table) :
    Filled instructions table instructionCount
      (forUpTo (fillInstruction instructions)
        (ranged table table.groupCount) instructionCount) := by
  apply forUpTo_invariant (Filled instructions table)
  · exact filled_initial table
  · intro count below build
    exact fillInstruction_filled capacity tabled below

theorem Filled.groupCount {table build : GroupBuildState} {count : Nat}
    (filled : Filled instructions table count build) :
    build.groupCount = table.groupCount := by
  obtain ⟨indices, positions, equal⟩ := filled.rest
  rw [equal]
  rfl

/-- Before the sort loop, every range lists its group by insertion. -/
theorem Filled.sorted_initial {table build : GroupBuildState}
    (tabled : Tabled instructions instructionCount table)
    (filled : Filled instructions table instructionCount build) :
    Sorted instructions instructionCount table 0 build := by
  constructor
  · exact filled.rest
  · intro group below
    exact absurd below (Nat.not_lt_zero group)
  · intro group _ below
    rw [tabled.counted group below]
    exact (filled.written group below).2

/-- `BuildGroupIndexPool` succeeds on every group table, with its three loops
one after another. -/
theorem buildGroupIndexPool_eq {table : GroupBuildState}
    (capacity : instructionCount ≤ maxInstructions)
    (tabled : Tabled instructions instructionCount table) :
    buildGroupIndexPool instructions instructionCount table =
      .ok
        (forUpTo (sortGroup instructions)
          (forUpTo (fillInstruction instructions)
            (ranged table table.groupCount) instructionCount)
          table.groupCount) := by
  have rangesReached := prefixGroups_spec capacity tabled
  have kept := (filled_spec capacity tabled).groupCount
  simp only [buildGroupIndexPool, rangesReached, kept]

theorem sorted_spec {table : GroupBuildState}
    (capacity : instructionCount ≤ maxInstructions)
    (tabled : Tabled instructions instructionCount table) :
    Sorted instructions instructionCount table table.groupCount
      (forUpTo (sortGroup instructions)
        (forUpTo (fillInstruction instructions)
          (ranged table table.groupCount) instructionCount)
        table.groupCount) := by
  apply forUpTo_invariant (Sorted instructions instructionCount table)
  · exact (filled_spec capacity tabled).sorted_initial tabled
  · intro count below build
    exact sortGroup_sorted below

/-- `BuildGroupIndexPool` succeeds on every group table, keeps the table, and
puts every range into program order. -/
theorem buildGroupIndexPool_spec {table : GroupBuildState}
    (capacity : instructionCount ≤ maxInstructions)
    (tabled : Tabled instructions instructionCount table) :
    ∃ build,
      buildGroupIndexPool instructions instructionCount table = .ok build ∧
        Tabled instructions instructionCount build ∧
        Pooled instructions instructionCount build := by
  refine ⟨_, buildGroupIndexPool_eq capacity tabled, ?_⟩
  obtain ⟨⟨indices, positions, equal⟩, finished, -⟩ :=
    sorted_spec capacity tabled
  rw [equal] at finished ⊢
  constructor
  · constructor
    · exact tabled.positive
    · exact tabled.bounded
    · rw [ranged_id]
      exact tabled.root
    · intro left leftBelow right rightBelow sameId
      rw [ranged_id, ranged_id] at sameId
      exact tabled.injective left leftBelow right rightBelow sameId
    · intro group below
      rw [ranged_id, ranged_instructionCount]
      exact tabled.counted group below
    · intro index below
      obtain ⟨group, groupBelow, owner⟩ := tabled.covered index below
      refine ⟨group, groupBelow, ?_⟩
      rw [ranged_id]
      exact owner
    · intro group below notRoot
      rw [ranged_id]
      exact tabled.owned group below notRoot
    · intro group beyond
      have absent : ¬ group < table.groupCount := Nat.not_lt.mpr beyond
      simp only [ranged, absent, if_false]
      exact tabled.unused group beyond
    · exact tabled.callGraph
    · exact tabled.unmarked
  · intro group below
    have inTable : group < table.groupCount := below
    have range := finished group inTable inTable
    have rangeEq :
        poolRange
            { ranged table table.groupCount with
              instructionIndices := indices
              indexWritePositions := positions } group =
          view indices (rangeStart table.groups group)
            (table.groups group).instructionCount := by
      simp [poolRange, ranged, inTable]
    rw [rangeEq, ranged_id]
    exact range

end PrismKit
