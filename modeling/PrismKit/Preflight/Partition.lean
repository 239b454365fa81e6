import PrismKit.Preflight.Pool

/-!
# The partition of the pool

The ranges of the groups lie one after another, and together they are as long
as the stored program.  Read from the first position on, the pool is a
permutation of the stored instructions, group by group.
-/

namespace PrismKit

open Library

variable {instructions : Nat → InstructionMemorySlot} {instructionCount : Nat}

namespace Tabled

variable {build : GroupBuildState}

theorem members_perm (tabled : Tabled instructions instructionCount build) :
    (members instructions instructionCount build.groups
        build.groupCount).Perm
      (List.range instructionCount) := by
  apply
    (List.perm_ext_iff_of_nodup (tabled.members_nodup (Nat.le_refl _))
      List.nodup_range).mpr
  intro index
  rw [mem_members, List.mem_range]
  constructor
  · intro member
    exact member.1
  · intro stored
    exact ⟨stored, tabled.covered index stored⟩

theorem rangeStart_groupCount
    (tabled : Tabled instructions instructionCount build) :
    rangeStart build.groups build.groupCount = instructionCount := by
  rw [← tabled.members_length (Nat.le_refl _), tabled.members_perm.length_eq,
    List.length_range]

end Tabled

/-- A range that continues another one. -/
theorem view_add {α : Type} (items : Nat → α) (begin left right : Nat) :
    view items begin (left + right) =
      view items begin left ++ view items (begin + left) right := by
  induction right with
  | zero => simp
  | succ right inductionHypothesis =>
      rw [← Nat.add_assoc, view_succ, inductionHypothesis, view_succ,
        List.append_assoc, Nat.add_assoc]

/-- The pool up to the range of a group holds the ranges before it. -/
theorem view_rangeStart {α : Type} (items : Nat → α)
    (groups : Nat → GroupRecord) (group : Nat) :
    view items 0 (rangeStart groups group) =
      (List.range group).flatMap fun other =>
        view items (rangeStart groups other)
          (groups other).instructionCount := by
  induction group with
  | zero => rfl
  | succ group inductionHypothesis =>
      rw [rangeStart_succ, view_add, inductionHypothesis, Nat.zero_add]
      simp [List.range_succ]

/-- A position before the end of some ranges lies in one of them. -/
theorem exists_range {groups : Nat → GroupRecord} {group position : Nat}
    (below : position < rangeStart groups group) :
    ∃ other, other < group ∧ rangeStart groups other ≤ position ∧
      position < rangeStart groups other + (groups other).instructionCount := by
  induction group with
  | zero => exact absurd below (Nat.not_lt_zero position)
  | succ group inductionHypothesis =>
      rcases Nat.lt_or_ge position (rangeStart groups group) with
        earlier | inside
      · obtain ⟨other, otherBelow, owns⟩ := inductionHypothesis earlier
        exact ⟨other, Nat.lt_succ_of_lt otherBelow, owns⟩
      · rw [rangeStart_succ] at below
        exact ⟨group, Nat.lt_succ_self group, inside, below⟩

def InRange (build : GroupBuildState) (group position : Nat) : Prop :=
  (build.groups group).indexBegin ≤ position ∧
    position <
      (build.groups group).indexBegin + (build.groups group).instructionCount

/-- Every group has its range after the ranges of the groups before it. -/
def Consecutive (build : GroupBuildState) : Prop :=
  ∀ group, group < build.groupCount →
    (build.groups group).indexBegin = rangeStart build.groups group

namespace Consecutive

variable {build : GroupBuildState}

theorem unique (consecutive : Consecutive build)
    {left right position : Nat} (leftBelow : left < build.groupCount)
    (rightBelow : right < build.groupCount)
    (inLeft : InRange build left position)
    (inRight : InRange build right position) : left = right := by
  have beginLeft := consecutive left leftBelow
  have beginRight := consecutive right rightBelow
  unfold InRange at inLeft inRight
  rcases Nat.lt_trichotomy left right with before | same | after
  · have apart := rangeStart_add_le build.groups before
    omega
  · exact same
  · have apart := rangeStart_add_le build.groups after
    omega

/-- The ranges cover the positions of the stored program and no others. -/
theorem covers (consecutive : Consecutive build)
    (tabled : Tabled instructions instructionCount build) (position : Nat) :
    position < instructionCount ↔
      ∃ group, group < build.groupCount ∧ InRange build group position := by
  constructor
  · intro below
    rw [← tabled.rangeStart_groupCount] at below
    obtain ⟨group, groupBelow, owns⟩ := exists_range below
    refine ⟨group, groupBelow, ?_⟩
    unfold InRange
    rw [consecutive group groupBelow]
    exact owns
  · rintro ⟨group, groupBelow, -, inside⟩
    have within := tabled.rangeStart_le groupBelow
    rw [rangeStart_succ] at within
    rw [consecutive group groupBelow] at inside
    omega

theorem poolRange_eq (consecutive : Consecutive build) {group : Nat}
    (below : group < build.groupCount) :
    poolRange build group =
      view build.instructionIndices (rangeStart build.groups group)
        (build.groups group).instructionCount := by
  unfold poolRange
  rw [consecutive group below]

theorem pool_perm (consecutive : Consecutive build)
    (tabled : Tabled instructions instructionCount build)
    (pooled : Pooled instructions instructionCount build) :
    (view build.instructionIndices 0 instructionCount).Perm
      (List.range instructionCount) := by
  have pool :=
    view_rangeStart build.instructionIndices build.groups build.groupCount
  rw [tabled.rangeStart_groupCount] at pool
  rw [pool]
  apply List.Perm.trans _ tabled.members_perm
  apply List.Perm.flatMap_left
  intro group member
  have below := List.mem_range.mp member
  rw [← consecutive.poolRange_eq below]
  exact (pooled group below).1

end Consecutive

theorem mem_poolRange {build : GroupBuildState} {group index : Nat} :
    index ∈ poolRange build group ↔
      ∃ position, InRange build group position ∧
        build.instructionIndices position = index := by
  unfold poolRange view InRange
  rw [List.mem_map]
  constructor
  · rintro ⟨offset, member, held⟩
    have below := List.mem_range.mp member
    exact ⟨_, ⟨Nat.le_add_right _ _, by omega⟩, held⟩
  · rintro ⟨position, ⟨low, high⟩, held⟩
    refine
      ⟨position - (build.groups group).indexBegin,
        List.mem_range.mpr (by omega), ?_⟩
    rw [Nat.add_sub_cancel' low]
    exact held

/-- Items that are ordered in the range are ordered by their positions. -/
theorem poolRange_order {build : GroupBuildState} {group first second : Nat}
    {before : Nat → Nat → Prop}
    (ordered : (poolRange build group).Pairwise before)
    (inFirst : InRange build group first)
    (inSecond : InRange build group second) (earlier : first < second) :
    before (build.instructionIndices first)
      (build.instructionIndices second) := by
  unfold poolRange view at ordered
  unfold InRange at inFirst inSecond
  rw [List.pairwise_map, List.pairwise_iff_getElem] at ordered
  have pair :=
    ordered (first - (build.groups group).indexBegin)
      (second - (build.groups group).indexBegin)
      (by rw [List.length_range]; omega) (by rw [List.length_range]; omega)
      (by omega)
  rw [List.getElem_range, List.getElem_range,
    Nat.add_sub_cancel' inFirst.1, Nat.add_sub_cancel' inSecond.1] at pair
  exact pair

end PrismKit
