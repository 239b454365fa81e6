import PrismKit.Preflight.Partition
import PrismKit.Library.Checked

/-!
# Accesses to the index pool

The three loops of `BuildGroupIndexPool` once more, with the bounds of every
array checked at every access.  They have the values of the plain loops, so
that no access is out of bounds.
-/

namespace PrismKit

open Library Library.Checked

namespace Checked

/-- The loop of `FindGroup` from `index` on.  Running out of fuel has no value
either. -/
def findGroupFrom (groups : Nat → GroupRecord) (groupCount : Nat)
    (id : GroupId) : Nat → Nat → Option Nat
  | 0, index => if index < groupCount then none else some maxGroups
  | fuel + 1, index =>
      if index < groupCount then do
        let record ← read maxGroups groups index
        if record.id = id then
          some index
        else
          findGroupFrom groups groupCount id fuel (index + 1)
      else
        some maxGroups

def findGroup (groups : Nat → GroupRecord) (groupCount : Nat)
    (id : GroupId) : Option Nat :=
  findGroupFrom groups groupCount id groupCount 0

def prefixGroup (index : Nat) (state : GroupBuildState × Nat) :
    Option (Except ControllerStatus (GroupBuildState × Nat)) := do
  let (build, indexCursor) := state
  let record ← read maxGroups build.groups index
  let groups ←
    write maxGroups build.groups index { record with indexBegin := indexCursor }
  let positions ←
    write maxGroups build.indexWritePositions index indexCursor
  let nextCursor ← unsigned32 (indexCursor + record.instructionCount)
  if nextCursor > maxInstructions then
    some (.error .capacityExhausted)
  else
    some
      (.ok
        ({ build with groups := groups, indexWritePositions := positions },
          nextCursor))

section Instructions

variable (instructions : Nat → InstructionMemorySlot)

def fillInstruction (index : Nat) (build : GroupBuildState) :
    Option GroupBuildState := do
  let slot ← read maxInstructions instructions index
  let group ← findGroup build.groups build.groupCount slot.getGroupId
  let position ← read maxGroups build.indexWritePositions group
  let nextPosition ← unsigned32 (position + 1)
  let positions ←
    write maxGroups build.indexWritePositions group nextPosition
  let indices ←
    write maxInstructions build.instructionIndices position index
  some
    { build with
      instructionIndices := indices
      indexWritePositions := positions }

def shiftLarger (mark : Mark) (begin : Nat) :
    Nat → (Nat → Nat) → Option (Nat × (Nat → Nat))
  | 0, items => some (0, items)
  | insert + 1, items =>
      if begin < insert + 1 then do
        let previous ← read maxInstructions items insert
        let slot ← read maxInstructions instructions previous
        if slot.getMark > mark then do
          let moved ← write maxInstructions items (insert + 1) previous
          shiftLarger mark begin insert moved
        else
          some (insert + 1, items)
      else
        some (insert + 1, items)

def insertSorted (begin offset : Nat) (items : Items Nat) :
    Option (Items Nat) := do
  let position ← unsigned32 (begin + 1 + offset)
  let item ← read maxInstructions items.get position
  let slot ← read maxInstructions instructions item
  let (insert, shifted) ←
    shiftLarger instructions slot.getMark begin position items.get
  let inserted ← write maxInstructions shifted insert item
  some ⟨inserted⟩

def sortGroup (index : Nat) (build : GroupBuildState) :
    Option GroupBuildState := do
  let group ← read maxGroups build.groups index
  let finish ← unsigned32 (group.indexBegin + group.instructionCount)
  let sorted ←
    tryUpTo (insertSorted instructions group.indexBegin)
      ⟨build.instructionIndices⟩ (finish - (group.indexBegin + 1))
  some { build with instructionIndices := sorted.get }

def buildGroupIndexPool (instructionCount : Nat) (build : GroupBuildState) :
    Option (Except ControllerStatus GroupBuildState) := do
  match ← tryUpToExcept prefixGroup (build, 0) build.groupCount with
  | .error status => some (.error status)
  | .ok (ranged, _) =>
      let filled ←
        tryUpTo (fillInstruction instructions) ranged instructionCount
      let sorted ←
        tryUpTo (sortGroup instructions) filled filled.groupCount
      some (.ok sorted)

end Instructions

end Checked

variable {instructions : Nat → InstructionMemorySlot} {instructionCount : Nat}

theorem Checked.findGroupFrom_eq {groups : Nat → GroupRecord}
    {groupCount fuel index : Nat} (bounded : groupCount ≤ maxGroups)
    (rest : index + fuel = groupCount) (id : GroupId) :
    Checked.findGroupFrom groups groupCount id fuel index =
      some
        (((List.range' index fuel).find? fun index =>
          (groups index).id = id).getD maxGroups) := by
  induction fuel generalizing index with
  | zero =>
      have ended : ¬ index < groupCount := by omega
      rw [Checked.findGroupFrom, if_neg ended]
      rfl
  | succ fuel inductionHypothesis =>
      have inside : index < groupCount := by omega
      rw [Checked.findGroupFrom, if_pos inside, List.range'_succ,
        List.find?_cons]
      apply step (read_of_lt (by omega) groups)
      by_cases same : (groups index).id = id
      · simp only [same, if_true, decide_true, Option.getD_some]
      · simp only [same, if_false, decide_false]
        exact inductionHypothesis (by omega)

theorem Checked.findGroup_eq {groups : Nat → GroupRecord} {groupCount : Nat}
    (bounded : groupCount ≤ maxGroups) (id : GroupId) :
    Checked.findGroup groups groupCount id =
      some (PrismKit.findGroup groups groupCount id) := by
  unfold Checked.findGroup PrismKit.findGroup
  rw [Checked.findGroupFrom_eq bounded (Nat.zero_add _),
    List.range_eq_range']

theorem Checked.prefixGroup_eq {build : GroupBuildState} {index cursor : Nat}
    (inside : index < maxGroups)
    (fits :
      cursor + (build.groups index).instructionCount ≤ maxInstructions) :
    Checked.prefixGroup index (build, cursor) =
      some (PrismKit.prefixGroup index (build, cursor)) := by
  have small :
      cursor + (build.groups index).instructionCount < 4294967296 := by
    simp only [maxInstructions] at fits
    omega
  apply step (read_of_lt inside _)
  apply step (write_of_lt inside _ _)
  apply step (write_of_lt inside _ _)
  apply step (unsigned32_of_lt small)
  unfold PrismKit.prefixGroup
  simp only [Nat.not_lt.mpr fits, if_false]

theorem Checked.prefixGroups_eq {table : GroupBuildState}
    (capacity : instructionCount ≤ maxInstructions)
    (tabled : Tabled instructions instructionCount table) :
    tryUpToExcept Checked.prefixGroup (table, 0) table.groupCount =
      some (forUpToExcept PrismKit.prefixGroup (table, 0) table.groupCount) := by
  apply tryUpToExcept_eq fun count state =>
    state = (ranged table count, rangeStart table.groups count)
  · simp [ranged, rangeStart]
  · rintro count below state rfl
    have fits := tabled.range_fits capacity below
    have inside := Nat.lt_of_lt_of_le below (tabled.groupCount_le capacity)
    refine ⟨_, prefixGroup_ranged capacity tabled below, ?_, rfl⟩
    rw [← prefixGroup_ranged capacity tabled below]
    apply Checked.prefixGroup_eq inside
    rw [ranged_instructionCount]
    exact fits

/-- Every item of the pool is an index of a slot. -/
def Held (indices : Nat → Nat) : Prop :=
  ∀ position, indices position < maxInstructions

theorem Held.update {indices : Nat → Nat} (held : Held indices)
    {item : Nat} (inside : item < maxInstructions) (position : Nat) :
    Held (Function.update indices position item) := by
  intro other
  by_cases same : other = position
  · subst same
    rw [Function.update_self]
    exact inside
  · rw [Function.update_of_ne same]
    exact held other

theorem Checked.fillInstruction_eq {table build : GroupBuildState}
    {count : Nat} (capacity : instructionCount ≤ maxInstructions)
    (tabled : Tabled instructions instructionCount table)
    (below : count < instructionCount)
    (filled : Filled instructions table count build) :
    Checked.fillInstruction instructions count build =
      some (PrismKit.fillInstruction instructions count build) := by
  obtain ⟨⟨indices, positions, rfl⟩, written⟩ := filled
  obtain ⟨owner, ownerBelow, ownerLabel⟩ := tabled.covered count below
  have bounded := tabled.groupCount_le capacity
  have found := tabled.find_ranged capacity ownerBelow ownerLabel
  have position := (written owner ownerBelow).1
  have room := tabled.labelled_length_lt below ownerBelow ownerLabel
  have fits := tabled.range_fits capacity ownerBelow
  have inside : owner < maxGroups := Nat.lt_of_lt_of_le ownerBelow bounded
  have within : positions owner < maxInstructions := by
    simp only at position
    omega
  have small : positions owner + 1 < 4294967296 := by
    simp only [maxInstructions] at within
    omega
  have finds :
      Checked.findGroup (ranged table table.groupCount).groups
          table.groupCount (instructions count).getGroupId =
        some owner := by
    rw [Checked.findGroup_eq bounded, found]
  have finds' :
      GroupBuildState.find
          { ranged table table.groupCount with
            instructionIndices := indices
            indexWritePositions := positions }
          (instructions count).getGroupId =
        owner :=
    found
  unfold PrismKit.fillInstruction
  simp only [finds']
  apply step (read_of_lt (Nat.lt_of_lt_of_le below capacity) _)
  apply step finds
  apply step (read_of_lt inside _)
  apply step (unsigned32_of_lt small)
  apply step (write_of_lt inside _ _)
  apply step (write_of_lt within _ _)
  rfl

section Sorting

variable (instructions) in
/-- The comparison of two items by their marks. -/
def laterMark (left right : Nat) : Bool :=
  (instructions left).getMark > (instructions right).getMark

/-- The shifting loop stays in the pool and ends at or before its start. -/
theorem Checked.shiftLarger_eq {item begin insert : Nat}
    {indices : Nat → Nat} (held : Held indices)
    (inside : insert < maxInstructions) :
    Checked.shiftLarger instructions (instructions item).getMark begin insert
        indices =
      some
        (Library.shiftLarger (laterMark instructions) item begin insert
          indices) ∧
      (Library.shiftLarger (laterMark instructions) item begin insert
          indices).1 ≤ insert ∧
      Held
        (Library.shiftLarger (laterMark instructions) item begin insert
          indices).2 := by
  induction insert generalizing indices with
  | zero => exact ⟨rfl, Nat.le_refl _, held⟩
  | succ insert inductionHypothesis =>
      have before : insert < maxInstructions := Nat.lt_of_succ_lt inside
      rw [Checked.shiftLarger, Library.shiftLarger]
      by_cases right : begin < insert + 1
      · by_cases later :
          (instructions (indices insert)).getMark >
            (instructions item).getMark
        · have moved := held.update (held insert) (insert + 1)
          obtain ⟨exact, hole, kept⟩ := inductionHypothesis moved before
          have shifts :
              begin < insert + 1 ∧
                laterMark instructions (indices insert) item = true :=
            ⟨right, decide_eq_true later⟩
          rw [if_pos right, if_pos shifts]
          refine ⟨?_, Nat.le_succ_of_le hole, kept⟩
          apply step (read_of_lt before _)
          apply step (read_of_lt (held insert) _)
          simp only [if_pos later]
          apply step (write_of_lt inside _ _)
          exact exact
        · have stops :
              ¬ (begin < insert + 1 ∧
                laterMark instructions (indices insert) item = true) := by
            rintro ⟨-, larger⟩
            exact later (of_decide_eq_true larger)
          rw [if_pos right, if_neg stops]
          refine ⟨?_, Nat.le_refl _, held⟩
          apply step (read_of_lt before _)
          apply step (read_of_lt (held insert) _)
          simp only [if_neg later]
      · have stops :
            ¬ (begin < insert + 1 ∧
              laterMark instructions (indices insert) item = true) :=
          fun both => right both.1
        rw [if_neg right, if_neg stops]
        exact ⟨rfl, Nat.le_refl _, held⟩

theorem Checked.insertSorted_eq {begin offset : Nat} {indices : Items Nat}
    (held : Held indices.get) (inside : begin + 1 + offset < maxInstructions) :
    Checked.insertSorted instructions begin offset indices =
        some
          (Library.insertSorted (laterMark instructions) begin offset
            indices) ∧
      Held
        (Library.insertSorted (laterMark instructions) begin offset
          indices).get := by
  have small : begin + 1 + offset < 4294967296 := by
    simp only [maxInstructions] at inside
    omega
  obtain ⟨shifts, hole, kept⟩ :=
    @Checked.shiftLarger_eq instructions
      (indices.get (begin + 1 + offset)) begin (begin + 1 + offset)
      indices.get held inside
  constructor
  · apply step (unsigned32_of_lt small)
    apply step (read_of_lt inside _)
    apply step (read_of_lt (held _) _)
    apply step shifts
    apply step (write_of_lt (Nat.lt_of_le_of_lt hole inside) _ _)
    rfl
  · exact kept.update (held _) _

theorem Checked.sortRange_eq {begin count : Nat} {indices : Items Nat}
    (held : Held indices.get) (inside : begin + count ≤ maxInstructions) :
    tryUpTo (Checked.insertSorted instructions begin) indices (count - 1) =
        some (sortRange (laterMark instructions) begin count indices) ∧
      Held (sortRange (laterMark instructions) begin count indices).get := by
  have insertion {offset : Nat} (below : offset < count - 1)
      {current : Items Nat} (kept : Held current.get) :=
    @Checked.insertSorted_eq instructions begin offset current kept (by omega)
  constructor
  · apply tryUpTo_eq fun _ (items : Items Nat) => Held items.get
    · exact held
    · intro offset below current
      exact insertion below
  · apply forUpTo_invariant fun _ (items : Items Nat) => Held items.get
    · exact held
    · intro offset below current kept
      exact (insertion below kept).2

theorem Checked.sortGroup_eq {table build : GroupBuildState} {count : Nat}
    (capacity : instructionCount ≤ maxInstructions)
    (tabled : Tabled instructions instructionCount table)
    (below : count < table.groupCount)
    (sorted : Sorted instructions instructionCount table count build)
    (held : Held build.instructionIndices) :
    Checked.sortGroup instructions count build =
        some (PrismKit.sortGroup instructions count build) ∧
      Held (PrismKit.sortGroup instructions count build).instructionIndices := by
  obtain ⟨⟨indices, positions, rfl⟩, -, -⟩ := sorted
  have fits := tabled.range_fits capacity below
  have inside := Nat.lt_of_lt_of_le below (tabled.groupCount_le capacity)
  have begins :
      ((ranged table table.groupCount).groups count).indexBegin =
        rangeStart table.groups count := by
    simp [ranged, below]
  have counts := ranged_instructionCount table table.groupCount count
  generalize
    record : (ranged table table.groupCount).groups count = group at *
  rw [← begins, ← counts] at fits
  have small : group.indexBegin + group.instructionCount < 4294967296 := by
    simp only [maxInstructions] at fits
    omega
  obtain ⟨exact, kept⟩ :=
    @Checked.sortRange_eq instructions group.indexBegin group.instructionCount
      ⟨indices⟩ held fits
  have length :
      group.indexBegin + group.instructionCount - (group.indexBegin + 1) =
        group.instructionCount - 1 := by omega
  unfold PrismKit.sortGroup
  simp only [record]
  refine ⟨?_, kept⟩
  apply step (read_of_lt inside _)
  simp only [record]
  apply step (unsigned32_of_lt small)
  rw [length]
  apply step exact
  rfl

end Sorting

/-! ### The whole stage -/

section Stage

variable {table : GroupBuildState}

theorem filled_held (capacity : instructionCount ≤ maxInstructions)
    (cleared : Held table.instructionIndices) :
    Held
      (forUpTo (fillInstruction instructions)
        (ranged table table.groupCount)
        instructionCount).instructionIndices := by
  apply forUpTo_invariant fun _ (build : GroupBuildState) =>
    Held build.instructionIndices
  · exact cleared
  · intro count below build held
    exact held.update (Nat.lt_of_lt_of_le below capacity) _

/-- Every access of `BuildGroupIndexPool` is in bounds. -/
theorem Checked.buildGroupIndexPool_eq
    (capacity : instructionCount ≤ maxInstructions)
    (tabled : Tabled instructions instructionCount table)
    (cleared : Held table.instructionIndices) :
    Checked.buildGroupIndexPool instructions instructionCount table =
      some
        (PrismKit.buildGroupIndexPool instructions instructionCount table) := by
  have filled := filled_spec capacity tabled
  rw [PrismKit.buildGroupIndexPool_eq capacity tabled]
  apply step (Checked.prefixGroups_eq capacity tabled)
  rw [prefixGroups_spec capacity tabled]
  simp only
  have fills :
      tryUpTo (Checked.fillInstruction instructions)
          (ranged table table.groupCount) instructionCount =
        some
          (forUpTo (PrismKit.fillInstruction instructions)
            (ranged table table.groupCount) instructionCount) := by
    apply tryUpTo_eq (Filled instructions table)
    · exact filled_initial table
    · intro count below build current
      exact
        ⟨Checked.fillInstruction_eq capacity tabled below current,
          fillInstruction_filled capacity tabled below current⟩
  apply step fills
  rw [filled.groupCount]
  have sorts :
      tryUpTo (Checked.sortGroup instructions)
          (forUpTo (PrismKit.fillInstruction instructions)
            (ranged table table.groupCount) instructionCount)
          table.groupCount =
        some
          (forUpTo (PrismKit.sortGroup instructions)
            (forUpTo (PrismKit.fillInstruction instructions)
              (ranged table table.groupCount) instructionCount)
            table.groupCount) := by
    apply tryUpTo_eq fun count build =>
      Sorted instructions instructionCount table count build ∧
        Held build.instructionIndices
    · exact
        ⟨filled.sorted_initial tabled, filled_held capacity cleared⟩
    · rintro count below build ⟨current, held⟩
      have one :=
        Checked.sortGroup_eq capacity tabled below current held
      exact ⟨one.1, sortGroup_sorted below current, one.2⟩
  apply step sorts
  rfl

variable (instructions) in
/-- The table stage does not touch the pool. -/
theorem buildGroupTable_cleared
    (built : buildGroupTable instructions instructionCount {} = .ok table) :
    Held table.instructionIndices := by
  have outcome :=
    @forUpToExcept_cases _ _ (tableInstruction instructions)
      { ({} : GroupBuildState) with
        groups :=
          Function.update ({} : GroupBuildState).groups 0
            { ({} : GroupBuildState).groups 0 with id := 0 } }
      (fun _ build => Held build.instructionIndices) (fun _ _ => True)
      instructionCount (fun _ => Nat.zero_lt_succ _)
      (by
        intro index _ build held
        unfold tableInstruction
        simp only
        split
        · split
          · exact Or.inr ⟨_, rfl, trivial⟩
          · exact Or.inl ⟨_, rfl, held⟩
        · exact Or.inl ⟨_, rfl, held⟩)
  unfold buildGroupTable at built
  rcases outcome with ⟨final, reached, held⟩ | ⟨failure, _, _, failed, _⟩
  · rw [reached] at built
    cases built
    exact held
  · rw [failed] at built
    cases built

theorem rangeStart_ranged (table : GroupBuildState) (count group : Nat) :
    rangeStart (ranged table count).groups group =
      rangeStart table.groups group := by
  unfold rangeStart
  simp only [ranged_instructionCount]

/-- In the built model, the ranges lie one after another. -/
theorem Sorted.consecutive {build : GroupBuildState} {count : Nat}
    (sorted : Sorted instructions instructionCount table count build) :
    Consecutive build := by
  obtain ⟨indices, positions, rfl⟩ := sorted.rest
  intro group below
  have inTable : group < table.groupCount := below
  simp only [rangeStart_ranged]
  simp [ranged, inTable]

end Stage

/-- The partition of the pool.  `BuildGroupTable` and `BuildGroupIndexPool`
accept every stored program without an access out of bounds.  Then the ranges
of the groups are disjoint and cover the positions of the stored program, the
pool is a permutation of its slots in which every slot lies in the range of
its own group, and every range is in program order. -/
theorem groupRanges_partition (instructions : Nat → InstructionMemorySlot)
    {instructionCount : Nat} (capacity : instructionCount ≤ maxInstructions) :
    ∃ table build,
      buildGroupTable instructions instructionCount {} = .ok table ∧
      buildGroupIndexPool instructions instructionCount table = .ok build ∧
      Checked.buildGroupIndexPool instructions instructionCount table =
        some (.ok build) ∧
      (∀ left right position, left < build.groupCount →
        right < build.groupCount → InRange build left position →
        InRange build right position → left = right) ∧
      (∀ position, position < instructionCount ↔
        ∃ group, group < build.groupCount ∧ InRange build group position) ∧
      (view build.instructionIndices 0 instructionCount).Perm
        (List.range instructionCount) ∧
      (∀ index, index < instructionCount →
        ∃ group position, group < build.groupCount ∧
          (build.groups group).id = (instructions index).getGroupId ∧
          InRange build group position ∧
          build.instructionIndices position = index) ∧
      ∀ group first second, group < build.groupCount →
        InRange build group first → InRange build group second →
        first < second →
        ProgramOrder instructions (build.instructionIndices first)
          (build.instructionIndices second) := by
  obtain ⟨table, tableBuilt, tabled⟩ :=
    buildGroupTable_spec instructions capacity
  have cleared := buildGroupTable_cleared instructions tableBuilt
  have accesses := Checked.buildGroupIndexPool_eq capacity tabled cleared
  have consecutive := (sorted_spec capacity tabled).consecutive
  obtain ⟨build, built, complete, pooled⟩ :=
    buildGroupIndexPool_spec capacity tabled
  rw [built] at accesses
  have same := buildGroupIndexPool_eq capacity tabled
  rw [built] at same
  rw [← Except.ok.inj same] at consecutive
  refine
    ⟨table, build, tableBuilt, built, accesses, ?_, consecutive.covers complete,
      consecutive.pool_perm complete pooled, ?_, ?_⟩
  · intro left right position leftBelow rightBelow
    exact consecutive.unique leftBelow rightBelow
  · intro index below
    obtain ⟨group, groupBelow, label⟩ := complete.covered index below
    have member :=
      (pooled group groupBelow).1.mem_iff.mpr
        ((mem_labelled instructions).mpr ⟨below, label.symm⟩)
    obtain ⟨position, inside, held⟩ := mem_poolRange.mp member
    exact ⟨group, position, groupBelow, label, inside, held⟩
  · intro group first second groupBelow
    exact poolRange_order (pooled group groupBelow).2

/-- A full program with sparse labels, one slot for each group. -/
def sparseLabels (index : Nat) : InstructionMemorySlot :=
  .store
    { groupId := UInt32.ofNat (0x80000000 + index * 257)
      kind := .setSingleColor ⟨0, 0, 0⟩ 0 }
    none

/-- The last position of a full pool has an owner. -/
theorem groupRanges_partition_of_full :
    ∃ table build,
      buildGroupTable sparseLabels 28 {} = .ok table ∧
      buildGroupIndexPool sparseLabels 28 table = .ok build ∧
      ∃ group, group < build.groupCount ∧ InRange build group 27 := by
  have capacity : 28 ≤ maxInstructions := by decide
  obtain ⟨table, build, tableBuilt, built, -, -, covers, -⟩ :=
    groupRanges_partition sparseLabels capacity
  exact ⟨table, build, tableBuilt, built, (covers 27).mp (by decide)⟩

end PrismKit
