import PrismKit.Controller.GroupBuild

/-!
# The group table

`BuildGroupTable` numbers the labels of the stored program in order of their
first appearance, after the implicit root.  This module describes `FindGroup`
on a table without duplicate labels and proves the table complete: every
stored instruction has a group, and every group counts its instructions.
-/

namespace PrismKit

open Library

section Find

variable {groups : Nat → GroupRecord} {groupCount : Nat}

/-- `FindGroup` returns the first record with the label, or the sentinel. -/
theorem findGroup_cases (groups : Nat → GroupRecord) (groupCount : Nat)
    (id : GroupId) :
    (∃ group, group < groupCount ∧ (groups group).id = id ∧
        findGroup groups groupCount id = group) ∨
      (∀ group, group < groupCount → (groups group).id ≠ id) ∧
        findGroup groups groupCount id = maxGroups := by
  unfold findGroup
  cases found : (List.range groupCount).find? fun index =>
      (groups index).id = id with
  | none =>
      right
      refine ⟨?_, rfl⟩
      intro group below same
      have missed :=
        List.find?_eq_none.mp found group (List.mem_range.mpr below)
      simp [same] at missed
  | some group =>
      left
      have member := List.mem_of_find?_eq_some found
      have holds := List.find?_some found
      exact
        ⟨group, List.mem_range.mp member, by simpa using holds, rfl⟩

/-- Labels do not repeat in a table. -/
def Injective (groups : Nat → GroupRecord) (groupCount : Nat) : Prop :=
  ∀ left, left < groupCount → ∀ right, right < groupCount →
    (groups left).id = (groups right).id → left = right

/-- In a table without duplicates `FindGroup` inverts the labels. -/
theorem findGroup_id (injective : Injective groups groupCount) {group : Nat}
    (below : group < groupCount) :
    findGroup groups groupCount (groups group).id = group := by
  rcases findGroup_cases groups groupCount (groups group).id with
    ⟨found, foundBelow, same, equal⟩ | ⟨absent, -⟩
  · rw [equal]
    exact injective found foundBelow group below same
  · exact absurd rfl (absent group below)

theorem findGroup_eq_iff (injective : Injective groups groupCount)
    {group : Nat} (below : group < groupCount) (bounded : groupCount ≤ maxGroups)
    (id : GroupId) :
    findGroup groups groupCount id = group ↔ (groups group).id = id := by
  constructor
  · intro equal
    rcases findGroup_cases groups groupCount id with
      ⟨found, -, same, foundEqual⟩ | ⟨-, sentinel⟩
    · rw [← equal, foundEqual]
      exact same
    · omega
  · intro same
    rw [← same]
    exact findGroup_id injective below

end Find

/-! ### `BuildGroupTable` -/

section Table

variable (instructions : Nat → InstructionMemorySlot)

def labelled (instructionCount : Nat) (id : GroupId) : List Nat :=
  (List.range instructionCount).filter fun index =>
    (instructions index).getGroupId = id

theorem mem_labelled {instructionCount index : Nat} {id : GroupId} :
    index ∈ labelled instructions instructionCount id ↔
      index < instructionCount ∧ (instructions index).getGroupId = id := by
  simp [labelled]

theorem labelled_succ (instructionCount : Nat) (id : GroupId) :
    labelled instructions (instructionCount + 1) id =
      labelled instructions instructionCount id ++
        if (instructions instructionCount).getGroupId = id then
          [instructionCount]
        else
          [] := by
  unfold labelled
  rw [List.range_succ, List.filter_append]
  by_cases same : (instructions instructionCount).getGroupId = id
  · simp [same]
  · simp [same]

/-- What the table records about the first `count` instructions. -/
structure Tabled (count : Nat) (build : GroupBuildState) : Prop where
  positive : 0 < build.groupCount
  bounded : build.groupCount ≤ count + 1
  root : (build.groups 0).id = 0
  injective : Injective build.groups build.groupCount
  counted :
    ∀ group, group < build.groupCount →
      (build.groups group).instructionCount =
        (labelled instructions count (build.groups group).id).length
  covered :
    ∀ index, index < count →
      ∃ group, group < build.groupCount ∧
        (build.groups group).id = (instructions index).getGroupId
  owned :
    ∀ group, group < build.groupCount → group ≠ 0 →
      ∃ index, index < count ∧
        (instructions index).getGroupId = (build.groups group).id
  unused : ∀ group, build.groupCount ≤ group → build.groups group = {}
  callGraph : ∀ group, build.callGraph group = 0
  unmarked : ∀ group, build.hasPositiveBoundary group = false

variable {instructions}

private theorem labelled_length_succ_of_eq {count : Nat} {id : GroupId}
    (same : (instructions count).getGroupId = id) :
    (labelled instructions (count + 1) id).length =
      (labelled instructions count id).length + 1 := by
  rw [labelled_succ, if_pos same]
  simp

private theorem labelled_length_succ_of_ne {count : Nat} {id : GroupId}
    (different : (instructions count).getGroupId ≠ id) :
    (labelled instructions (count + 1) id).length =
      (labelled instructions count id).length := by
  rw [labelled_succ, if_neg different]
  simp

/-- An instruction of a known group raises the count of that group. -/
private theorem Tabled.count_known {count group : Nat}
    {build : GroupBuildState} (tabled : Tabled instructions count build)
    (below : group < build.groupCount)
    (same : (build.groups group).id = (instructions count).getGroupId) :
    Tabled instructions (count + 1)
      { build with
        groups :=
          Function.update build.groups group
            { build.groups group with
              instructionCount :=
                (build.groups group).instructionCount + 1 } } := by
  have ids :
      ∀ other,
        (Function.update build.groups group
            { build.groups group with
              instructionCount :=
                (build.groups group).instructionCount + 1 } other).id =
          (build.groups other).id := by
    intro other
    by_cases equal : other = group
    · subst equal
      simp
    · simp [equal]
  constructor
  · exact tabled.positive
  · exact Nat.le_succ_of_le tabled.bounded
  · simp only [ids]
    exact tabled.root
  · intro left leftBelow right rightBelow equal
    simp only [ids] at equal
    exact tabled.injective left leftBelow right rightBelow equal
  · intro other otherBelow
    simp only [ids]
    by_cases equal : other = group
    · subst equal
      rw [labelled_length_succ_of_eq same.symm,
        ← tabled.counted other otherBelow]
      simp
    · have different :
          (instructions count).getGroupId ≠ (build.groups other).id := by
        rw [← same]
        intro equalIds
        exact equal (tabled.injective group below other otherBelow equalIds).symm
      rw [labelled_length_succ_of_ne different,
        ← tabled.counted other otherBelow]
      simp [equal]
  · intro index indexBelow
    simp only [ids]
    rcases Nat.lt_succ_iff_lt_or_eq.mp indexBelow with earlier | rfl
    · exact tabled.covered index earlier
    · exact ⟨group, below, same⟩
  · intro other otherBelow notRoot
    simp only [ids]
    obtain ⟨index, indexBelow, owner⟩ :=
      tabled.owned other otherBelow notRoot
    exact ⟨index, Nat.lt_succ_of_lt indexBelow, owner⟩
  · intro other beyond
    have different : other ≠ group := by
      rintro rfl
      exact absurd below (Nat.not_lt.mpr beyond)
    simp only [Function.update_of_ne different]
    exact tabled.unused other beyond
  · exact tabled.callGraph
  · exact tabled.unmarked

/-- An instruction with a new label opens the next group. -/
private theorem Tabled.open_group {count : Nat} {build : GroupBuildState}
    (tabled : Tabled instructions count build)
    (absent :
      ∀ group, group < build.groupCount →
        (build.groups group).id ≠ (instructions count).getGroupId) :
    Tabled instructions (count + 1)
      { build with
        groups :=
          Function.update build.groups build.groupCount
            { build.groups build.groupCount with
              id := (instructions count).getGroupId
              instructionCount :=
                (build.groups build.groupCount).instructionCount + 1 }
        groupCount := build.groupCount + 1 } := by
  have fresh : build.groups build.groupCount = {} :=
    tabled.unused build.groupCount (Nat.le_refl _)
  have old :
      ∀ other, other < build.groupCount →
        Function.update build.groups build.groupCount
            { build.groups build.groupCount with
              id := (instructions count).getGroupId
              instructionCount :=
                (build.groups build.groupCount).instructionCount + 1 }
            other =
          build.groups other := by
    intro other below
    exact Function.update_of_ne (Nat.ne_of_lt below) _ _
  -- No earlier instruction carries the new label.
  have noneBefore :
      labelled instructions count (instructions count).getGroupId = [] := by
    rw [List.eq_nil_iff_forall_not_mem]
    intro index member
    obtain ⟨below, same⟩ := (mem_labelled instructions).mp member
    obtain ⟨group, groupBelow, owner⟩ := tabled.covered index below
    exact absent group groupBelow (owner.trans same)
  constructor
  · exact Nat.succ_pos _
  · exact Nat.succ_le_succ tabled.bounded
  · simp only [old 0 tabled.positive]
    exact tabled.root
  · intro left leftBelow right rightBelow equal
    rcases Nat.lt_succ_iff_lt_or_eq.mp leftBelow with leftOld | rfl <;>
      rcases Nat.lt_succ_iff_lt_or_eq.mp rightBelow with rightOld | rfl
    · simp only [old left leftOld, old right rightOld] at equal
      exact tabled.injective left leftOld right rightOld equal
    · simp only [old left leftOld, Function.update_self] at equal
      exact absurd equal (absent left leftOld)
    · simp only [old right rightOld, Function.update_self] at equal
      exact absurd equal.symm (absent right rightOld)
    · rfl
  · intro group below
    rcases Nat.lt_succ_iff_lt_or_eq.mp below with groupOld | rfl
    · simp only [old group groupOld]
      rw [labelled_length_succ_of_ne (absent group groupOld).symm]
      exact tabled.counted group groupOld
    · simp only [Function.update_self, fresh]
      rw [labelled_length_succ_of_eq rfl, noneBefore]
      rfl
  · intro index below
    rcases Nat.lt_succ_iff_lt_or_eq.mp below with earlier | rfl
    · obtain ⟨group, groupBelow, owner⟩ := tabled.covered index earlier
      refine ⟨group, Nat.lt_succ_of_lt groupBelow, ?_⟩
      simp only [old group groupBelow]
      exact owner
    · exact ⟨build.groupCount, Nat.lt_succ_self _, by simp⟩
  · intro group below notRoot
    rcases Nat.lt_succ_iff_lt_or_eq.mp below with groupOld | rfl
    · obtain ⟨index, indexBelow, owner⟩ :=
        tabled.owned group groupOld notRoot
      refine ⟨index, Nat.lt_succ_of_lt indexBelow, ?_⟩
      simp only [old group groupOld]
      exact owner
    · exact ⟨count, Nat.lt_succ_self count, by simp⟩
  · intro group beyond
    have different : group ≠ build.groupCount := by
      have := Nat.lt_of_succ_le beyond
      omega
    simp only [Function.update_of_ne different]
    exact tabled.unused group (Nat.le_of_succ_le beyond)
  · exact tabled.callGraph
  · exact tabled.unmarked

/-- The table before the first instruction: the implicit root. -/
private theorem tabled_initial :
    Tabled instructions 0
      { ({} : GroupBuildState) with
        groups :=
          Function.update ({} : GroupBuildState).groups 0
            { ({} : GroupBuildState).groups 0 with id := 0 } } := by
  constructor
  · exact Nat.one_pos
  · exact Nat.le_refl 1
  · simp
  · intro left leftBelow right rightBelow _
    have leftZero : left = 0 := Nat.lt_one_iff.mp leftBelow
    have rightZero : right = 0 := Nat.lt_one_iff.mp rightBelow
    rw [leftZero, rightZero]
  · intro group below
    have zero : group = 0 := Nat.lt_one_iff.mp below
    simp [zero, labelled]
  · intro index below
    exact absurd below (Nat.not_lt_zero index)
  · intro group below notRoot
    exact absurd (Nat.lt_one_iff.mp below) notRoot
  · intro group beyond
    have different : group ≠ 0 := by
      rintro rfl
      exact absurd beyond (by decide)
    simp [different]
  · intro group
    rfl
  · intro group
    rfl

/-- The table has room for the root and one group per instruction. -/
theorem Tabled.groupCount_le {instructionCount : Nat}
    {build : GroupBuildState} (capacity : instructionCount ≤ maxInstructions)
    (tabled : Tabled instructions instructionCount build) :
    build.groupCount ≤ maxGroups := by
  have bounded := tabled.bounded
  simp only [maxGroups]
  omega

/-- One iteration of the table loop never fails within the capacity. -/
private theorem tableInstruction_tabled {count : Nat}
    {build : GroupBuildState} (capacity : count < maxInstructions)
    (tabled : Tabled instructions count build) :
    ∃ next, tableInstruction instructions count build = .ok next ∧
      Tabled instructions (count + 1) next := by
  have bounded : build.groupCount < maxGroups := by
    have := tabled.bounded
    simp only [maxGroups] at *
    omega
  rcases findGroup_cases build.groups build.groupCount
      (instructions count).getGroupId with
    ⟨group, below, same, found⟩ | ⟨absent, found⟩
  · refine ⟨_, ?_, tabled.count_known below same⟩
    have known : group ≠ maxGroups := by omega
    simp [tableInstruction, GroupBuildState.find, found, known]
  · refine ⟨_, ?_, tabled.open_group absent⟩
    simp [tableInstruction, GroupBuildState.find, found,
      Nat.not_le.mpr bounded]

variable (instructions) in
/-- `BuildGroupTable` succeeds on every stored program. -/
theorem buildGroupTable_spec {instructionCount : Nat}
    (capacity : instructionCount ≤ maxInstructions) :
    ∃ build, buildGroupTable instructions instructionCount {} = .ok build ∧
      Tabled instructions instructionCount build := by
  apply forUpToExcept_invariant (Tabled instructions)
  · exact tabled_initial
  · intro index below build tabled
    exact tableInstruction_tabled (Nat.lt_of_lt_of_le below capacity) tabled

end Table

end PrismKit
