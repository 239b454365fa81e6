import PrismKit.Preflight.Pool
import PrismKit.Library.Reachability
import Mathlib.Data.BitVec

/-!
# The call graph

Index-level meaning of the last three preflight stages on a complete group
table: the adjacency masks hold the calls of the program, the in-place closure
is the transitive closure, and boundary propagation over the closed graph
computes which groups reach a positive boundary.
-/

namespace PrismKit

open Library Relation

variable {instructions : Nat → InstructionMemorySlot} {instructionCount : Nat}

theorem mask_test (mask : BitVec 32) (target : Nat) :
    (mask &&& (1#32 <<< target) != 0) = mask.getLsbD target := by
  have shifted : 1#32 <<< target = BitVec.twoPow 32 target :=
    (BitVec.twoPow_eq ..).symm
  rw [shifted, BitVec.and_twoPow]
  cases bit : mask.getLsbD target with
  | false =>
      simp
  | true =>
      have inRange : target < 32 := BitVec.lt_of_getLsbD bit
      have nonzero : BitVec.twoPow 32 target ≠ 0#32 := by
        intro zero
        have read := congrArg (fun value => value.getLsbD target) zero
        simp [inRange] at read
      simpa using nonzero

theorem calls_eq_getLsbD (build : GroupBuildState) (source target : Nat) :
    build.calls source target = (build.callGraph source).getLsbD target :=
  mask_test (build.callGraph source) target

/-- Adding one edge to the masks. -/
theorem getLsbD_or_shift (mask : BitVec 32) {target : Nat}
    (inRange : target < 32) (other : Nat) :
    (mask ||| (1#32 <<< target)).getLsbD other =
      (mask.getLsbD other || decide (other = target)) := by
  grind

/-- What the call graph stage demands of one stored instruction. -/
def TargetResolves (instructions : Nat → InstructionMemorySlot)
    (table : GroupBuildState) (index : Nat) : Prop :=
  (instructions index).isRunGroup →
    (instructions index).getTargetGroupId ≠ 0 ∧
      ∃ target, target < table.groupCount ∧
        (table.groups target).id = (instructions index).getTargetGroupId

/-- The calls among the first `count` stored instructions, between table
indexes. -/
def Edge (instructions : Nat → InstructionMemorySlot) (count : Nat)
    (groups : Nat → GroupRecord) (groupCount source target : Nat) : Prop :=
  source < groupCount ∧ target < groupCount ∧
    ∃ index, index < count ∧ (instructions index).isRunGroup ∧
      (instructions index).getGroupId = (groups source).id ∧
      (instructions index).getTargetGroupId = (groups target).id

/-- The masks after the first `count` instructions were linked. -/
private structure Linked (instructions : Nat → InstructionMemorySlot)
    (table : GroupBuildState) (count : Nat) (build : GroupBuildState) :
    Prop where
  rest : ∃ graph, build = { table with callGraph := graph }
  edges :
    ∀ source target,
      build.calls source target ↔
        Edge instructions count table.groups table.groupCount source target
  valid : ∀ index, index < count → TargetResolves instructions table index

private theorem edge_succ_of_not_runGroup {count groupCount : Nat}
    {groups : Nat → GroupRecord} {source target : Nat}
    (other : (instructions count).isRunGroup = false) :
    Edge instructions (count + 1) groups groupCount source target ↔
      Edge instructions count groups groupCount source target := by
  constructor
  · rintro ⟨sourceBelow, targetBelow, index, below, isRun, owner, called⟩
    refine ⟨sourceBelow, targetBelow, index, ?_, isRun, owner, called⟩
    rcases Nat.lt_succ_iff_lt_or_eq.mp below with earlier | rfl
    · exact earlier
    · rw [other] at isRun
      exact absurd isRun (by decide)
  · rintro ⟨sourceBelow, targetBelow, index, below, rest⟩
    exact ⟨sourceBelow, targetBelow, index, Nat.lt_succ_of_lt below, rest⟩

private theorem linkInstruction_cases {table build : GroupBuildState}
    {count : Nat} (capacity : instructionCount ≤ maxInstructions)
    (tabled : Tabled instructions instructionCount table)
    (below : count < instructionCount)
    (linked : Linked instructions table count build) :
    (∃ next, linkInstruction instructions count build = .ok next ∧
        Linked instructions table (count + 1) next) ∨
      ∃ failure, linkInstruction instructions count build = .error failure ∧
        failure = .invalidProgram ∧
          ¬ TargetResolves instructions table count := by
  obtain ⟨⟨graph, rfl⟩, edges, valid⟩ := linked
  have bounded := tabled.groupCount_le capacity
  cases isRun : (instructions count).isRunGroup with
  | false =>
      left
      refine ⟨_, by simp [linkInstruction, isRun], ⟨graph, rfl⟩, ?_, ?_⟩
      · intro source target
        rw [edge_succ_of_not_runGroup isRun]
        exact edges source target
      · intro index indexBelow
        rcases Nat.lt_succ_iff_lt_or_eq.mp indexBelow with earlier | rfl
        · exact valid index earlier
        · intro runs
          rw [isRun] at runs
          exact absurd runs (by decide)
  | true =>
      by_cases zero : (instructions count).getTargetGroupId = 0
      · right
        refine ⟨_, by simp [linkInstruction, isRun, zero], rfl, ?_⟩
        intro resolves
        exact (resolves isRun).1 zero
      · obtain ⟨source, sourceBelow, sourceLabel⟩ :=
          tabled.covered count below
        have sourceFound :
            findGroup table.groups table.groupCount
                (instructions count).getGroupId =
              source :=
          (findGroup_eq_iff tabled.injective sourceBelow bounded _).mpr
            sourceLabel
        have sourceKnown : source ≠ maxGroups := by omega
        rcases findGroup_cases table.groups table.groupCount
            (instructions count).getTargetGroupId with
          ⟨target, targetBelow, targetLabel, targetFound⟩ |
            ⟨absent, targetMissing⟩
        · left
          have targetKnown : target ≠ maxGroups := by omega
          have inRange : target < 32 := by
            simp only [maxGroups, maxInstructions] at bounded
            omega
          refine
            ⟨{ table with
                callGraph :=
                  Function.update graph source
                    (graph source ||| (1#32 <<< target)) }, ?_,
              ⟨_, rfl⟩, ?_, ?_⟩
          · simp [linkInstruction, isRun, zero, GroupBuildState.find,
              sourceFound, targetFound, sourceKnown, targetKnown]
          · intro source' target'
            have old := edges source' target'
            rw [calls_eq_getLsbD] at old ⊢
            simp only at old ⊢
            by_cases equal : source' = source
            · subst equal
              rw [Function.update_self, getLsbD_or_shift _ inRange]
              simp only [Bool.or_eq_true, decide_eq_true_eq, old]
              constructor
              · rintro (⟨_, below', index, indexBelow, rest⟩ | rfl)
                · exact
                    ⟨sourceBelow, below', index,
                      Nat.lt_succ_of_lt indexBelow, rest⟩
                · exact
                    ⟨sourceBelow, targetBelow, count,
                      Nat.lt_succ_self count, isRun, sourceLabel.symm,
                      targetLabel.symm⟩
              · rintro ⟨_, below', index, indexBelow, runs, owner, called⟩
                rcases Nat.lt_succ_iff_lt_or_eq.mp indexBelow with
                  earlier | rfl
                · exact Or.inl
                    ⟨sourceBelow, below', index, earlier, runs, owner, called⟩
                · right
                  exact
                    tabled.injective target' below' target targetBelow
                      (called.symm.trans targetLabel.symm)
            · rw [Function.update_of_ne equal, old]
              constructor
              · rintro ⟨below', targetBelow', index, indexBelow, rest⟩
                exact
                  ⟨below', targetBelow', index,
                    Nat.lt_succ_of_lt indexBelow, rest⟩
              · rintro ⟨below', targetBelow', index, indexBelow, runs, owner,
                  called⟩
                refine ⟨below', targetBelow', index, ?_, runs, owner, called⟩
                rcases Nat.lt_succ_iff_lt_or_eq.mp indexBelow with
                  earlier | rfl
                · exact earlier
                · exact
                    absurd
                      (tabled.injective source' below' source sourceBelow
                        (owner.symm.trans sourceLabel.symm))
                      equal
          · intro index indexBelow
            rcases Nat.lt_succ_iff_lt_or_eq.mp indexBelow with earlier | rfl
            · exact valid index earlier
            · exact fun _ => ⟨zero, target, targetBelow, targetLabel⟩
        · right
          refine ⟨.invalidProgram, ?_, rfl, ?_⟩
          · simp [linkInstruction, isRun, zero, GroupBuildState.find,
              targetMissing]
          · intro resolves
            obtain ⟨-, target, targetBelow, targetLabel⟩ := resolves isRun
            exact absent target targetBelow targetLabel

/-- `BuildGroupCallGraph` succeeds when every target resolves, and then the
masks hold exactly the calls of the program. -/
theorem buildGroupCallGraph_cases {table : GroupBuildState}
    (capacity : instructionCount ≤ maxInstructions)
    (tabled : Tabled instructions instructionCount table) :
    (∃ graph,
        buildGroupCallGraph instructions instructionCount table =
            .ok { table with callGraph := graph } ∧
          (∀ source target,
            ({ table with callGraph := graph } : GroupBuildState).calls
                source target ↔
              Edge instructions instructionCount table.groups
                table.groupCount source target) ∧
          ∀ index, index < instructionCount →
            TargetResolves instructions table index) ∨
      buildGroupCallGraph instructions instructionCount table =
          .error .invalidProgram ∧
        ¬ ∀ index, index < instructionCount →
          TargetResolves instructions table index := by
  have outcome :
      (∃ final,
          buildGroupCallGraph instructions instructionCount table =
              .ok final ∧
            Linked instructions table instructionCount final) ∨
        ∃ failure index, index < instructionCount ∧
          buildGroupCallGraph instructions instructionCount table =
              .error failure ∧
            (failure = .invalidProgram ∧
              ¬ TargetResolves instructions table index) := by
    unfold buildGroupCallGraph
    apply forUpToExcept_cases (Linked instructions table)
      (fun index failure =>
        failure = ControllerStatus.invalidProgram ∧
          ¬ TargetResolves instructions table index)
    · refine ⟨⟨table.callGraph, rfl⟩, ?_, ?_⟩
      · intro source target
        rw [calls_eq_getLsbD, tabled.callGraph]
        constructor
        · intro bit
          simp at bit
        · rintro ⟨_, _, index, below, _⟩
          exact absurd below (Nat.not_lt_zero index)
      · intro index below
        exact absurd below (Nat.not_lt_zero index)
    · intro count below build linked
      exact linkInstruction_cases capacity tabled below linked
  rcases outcome with
    ⟨final, reached, ⟨⟨graph, rfl⟩, edges, valid⟩⟩ |
      ⟨failure, index, below, reached, rfl, unresolved⟩
  · exact Or.inl ⟨graph, reached, edges, valid⟩
  · exact Or.inr ⟨reached, fun valid => unresolved (valid index below)⟩

/-! ### `ValidateGroupCallGraph` -/

/-- One sweep over the sources extends every row that reaches `through` by the
row of `through`, as it was when the sweep began. -/
private theorem closeRows_eq (build : GroupBuildState) (through count : Nat) :
    forUpTo (closeRow through) build count =
      { build with
        callGraph := fun source =>
          if source < count ∧ build.calls source through then
            build.callGraph source ||| build.callGraph through
          else
            build.callGraph source } := by
  induction count with
  | zero =>
      simp
  | succ count inductionHypothesis =>
      rw [forUpTo_succ, inductionHypothesis]
      -- The rows `count` and `through` still have their initial values.
      have rowUnchanged :
          ∀ source,
            (if source < count ∧ build.calls source through then
                build.callGraph source ||| build.callGraph through
              else
                build.callGraph source) =
              build.callGraph source ∨ source < count ∧ source ≠ through := by
        intro source
        by_cases extended : source < count ∧ build.calls source through
        · by_cases self : source = through
          · subst self
            simp
          · exact Or.inr ⟨extended.1, self⟩
        · simp [extended]
      have current : ¬ count < count := Nat.lt_irrefl count
      have throughRow :
          (if through < count ∧ build.calls through through then
              build.callGraph through ||| build.callGraph through
            else
              build.callGraph through) =
            build.callGraph through := by
        rcases rowUnchanged through with unchanged | ⟨_, impossible⟩
        · exact unchanged
        · exact absurd rfl impossible
      by_cases reaches : build.calls count through
      · have reachesNow :
            GroupBuildState.calls
              { build with
                callGraph := fun source =>
                  if source < count ∧ build.calls source through then
                    build.callGraph source ||| build.callGraph through
                  else
                    build.callGraph source }
              count through = true := by
          simpa [GroupBuildState.calls] using reaches
        simp only [closeRow, reachesNow, if_true, GroupBuildState.mk.injEq,
          true_and, and_true, throughRow, current, false_and, if_false]
        funext source
        by_cases equal : source = count
        · subst equal
          simp [reaches]
        · have sameSide : source < count + 1 ↔ source < count := by omega
          simp [equal, sameSide]
      · have reachesNow :
            GroupBuildState.calls
              { build with
                callGraph := fun source =>
                  if source < count ∧ build.calls source through then
                    build.callGraph source ||| build.callGraph through
                  else
                    build.callGraph source }
              count through = false := by
          simpa [GroupBuildState.calls] using reaches
        simp only [closeRow, reachesNow, GroupBuildState.mk.injEq, true_and,
          and_true, Bool.false_eq_true, if_false]
        funext source
        by_cases equal : source = count
        · subst equal
          simp [reaches]
        · have sameSide : source < count + 1 ↔ source < count := by omega
          simp [sameSide]

/-- The state after the groups below `count` were processed. -/
private def closedBelow (build : GroupBuildState) (count : Nat) :
    GroupBuildState :=
  forUpTo
    (fun through build => forUpTo (closeRow through) build build.groupCount)
    build count

private theorem closedBelow_rest (build : GroupBuildState) (count : Nat) :
    ∃ graph, closedBelow build count = { build with callGraph := graph } := by
  induction count with
  | zero =>
      exact ⟨build.callGraph, rfl⟩
  | succ count inductionHypothesis =>
      obtain ⟨graph, equal⟩ := inductionHypothesis
      unfold closedBelow at equal ⊢
      rw [forUpTo_succ, equal, closeRows_eq]
      exact ⟨_, rfl⟩

private theorem closedBelow_succ {build : GroupBuildState}
    (bounded :
      ∀ source target, build.calls source target →
        source < build.groupCount)
    (count source target : Nat) :
    (closedBelow build (count + 1)).calls source target ↔
      (closedBelow build count).calls source target ∨
        (closedBelow build count).calls source count ∧
          (closedBelow build count).calls count target := by
  obtain ⟨graph, equal⟩ := closedBelow_rest build count
  -- No sweep gives an edge to a row from the bound on.
  have bounded' :
      ∀ source target, (closedBelow build count).calls source target →
        source < build.groupCount := by
    clear equal graph
    induction count with
    | zero =>
        exact bounded
    | succ count inductionHypothesis =>
        obtain ⟨graph, equal⟩ := closedBelow_rest build count
        intro source target called
        unfold closedBelow at called inductionHypothesis equal
        rw [forUpTo_succ, closeRows_eq, calls_eq_getLsbD] at called
        simp only at called
        split at called
        · rename_i extended
          rw [equal] at extended
          exact extended.1
        · rw [← calls_eq_getLsbD] at called
          exact inductionHypothesis source target called
  have sweep :
      closedBelow build (count + 1) =
        forUpTo (closeRow count) (closedBelow build count)
          (closedBelow build count).groupCount :=
    rfl
  have sameCount :
      (closedBelow build count).groupCount = build.groupCount := by
    rw [equal]
  rw [sweep, closeRows_eq, sameCount]
  generalize closedBelow build count = current at bounded'
  rw [calls_eq_getLsbD]
  simp only
  by_cases extended : source < build.groupCount ∧ current.calls source count
  · rw [if_pos extended, BitVec.getLsbD_or, ← calls_eq_getLsbD,
      ← calls_eq_getLsbD, Bool.or_eq_true]
    constructor
    · rintro (direct | fromCount)
      · exact Or.inl direct
      · exact Or.inr ⟨extended.2, fromCount⟩
    · rintro (direct | ⟨-, fromCount⟩)
      · exact Or.inl direct
      · exact Or.inr fromCount
  · rw [if_neg extended, ← calls_eq_getLsbD]
    constructor
    · exact Or.inl
    · rintro (direct | ⟨toCount, -⟩)
      · exact direct
      · exact absurd ⟨bounded' source count toCount, toCount⟩ extended

/-- The in-place closure computes the transitive closure of the calls. -/
theorem closeCallGraph_spec {build : GroupBuildState}
    {edge : Nat → Nat → Prop}
    (edges : ∀ source target, build.calls source target ↔ edge source target)
    (bounded :
      ∀ source target, edge source target →
        source < build.groupCount ∧ target < build.groupCount) :
    ∃ graph, closeCallGraph build = { build with callGraph := graph } ∧
      ∀ source target,
        (closeCallGraph build).calls source target ↔
          TransGen edge source target := by
  obtain ⟨graph, equal⟩ := closedBelow_rest build build.groupCount
  refine ⟨graph, equal, ?_⟩
  intro source target
  apply closed_iff_transGen fun count source target =>
    (closedBelow build count).calls source target
  · exact edges
  · intro count source target
    apply closedBelow_succ
    intro source target called
    exact (bounded source target ((edges source target).mp called)).1
  · intro source target holds
    exact (bounded source target holds).2

theorem validateGroupCallGraph_cases {build : GroupBuildState}
    {edge : Nat → Nat → Prop}
    (edges : ∀ source target, build.calls source target ↔ edge source target)
    (bounded :
      ∀ source target, edge source target →
        source < build.groupCount ∧ target < build.groupCount) :
    (∃ graph,
        validateGroupCallGraph build =
            .ok { build with callGraph := graph } ∧
          (∀ source target,
            ({ build with callGraph := graph } : GroupBuildState).calls
                source target ↔
              TransGen edge source target) ∧
          ∀ group, ¬ TransGen edge group group) ∨
      validateGroupCallGraph build = .error .invalidProgram ∧
        ∃ group, TransGen edge group group := by
  obtain ⟨graph, equal, closure⟩ := closeCallGraph_spec edges bounded
  rw [equal] at closure
  unfold validateGroupCallGraph
  simp only [equal]
  by_cases cyclic :
      (List.range build.groupCount).any fun index =>
        ({ build with callGraph := graph } : GroupBuildState).calls
          index index
  · right
    refine ⟨by rw [if_pos cyclic], ?_⟩
    obtain ⟨group, -, self⟩ := List.any_eq_true.mp cyclic
    exact ⟨group, (closure group group).mp self⟩
  · left
    refine ⟨graph, by rw [if_neg cyclic], closure, ?_⟩
    intro group cycle
    have below : group < build.groupCount := by
      cases cycle with
      | single holds =>
          exact (bounded _ _ holds).2
      | tail _ holds =>
          exact (bounded _ _ holds).2
    apply cyclic
    rw [List.any_eq_true]
    exact ⟨group, List.mem_range.mpr below, (closure group group).mpr cycle⟩

/-! ### `ValidateRepeatBoundaries` -/

def declaresBoundary (slot : InstructionMemorySlot) : Bool :=
  slot.getMark > 0 ∨ slot.hasPositiveSchedulingBoundary

/-- The groups that hold a declared boundary among the first instructions. -/
def MarkedGroup (instructions : Nat → InstructionMemorySlot) (count : Nat)
    (groups : Nat → GroupRecord) (groupCount group : Nat) : Prop :=
  group < groupCount ∧
    ∃ index, index < count ∧ declaresBoundary (instructions index) ∧
      (instructions index).getGroupId = (groups group).id

/-- The first loop of the stage marks the groups with a declared boundary. -/
theorem markBoundaries_spec {build : GroupBuildState}
    (capacity : instructionCount ≤ maxInstructions)
    (tabled : Tabled instructions instructionCount build)
    (graph : Nat → BitVec 32) :
    ∃ flags,
      forUpTo (markBoundary instructions)
          { build with callGraph := graph } instructionCount =
        { build with callGraph := graph, hasPositiveBoundary := flags } ∧
      ∀ group,
        flags group ↔
          MarkedGroup instructions instructionCount build.groups
            build.groupCount group := by
  apply forUpTo_invariant
    (fun count (state : GroupBuildState) =>
      ∃ flags,
        state =
            { build with callGraph := graph, hasPositiveBoundary := flags } ∧
          ∀ group,
            flags group ↔
              MarkedGroup instructions count build.groups build.groupCount
                group)
  · refine ⟨build.hasPositiveBoundary, rfl, ?_⟩
    intro group
    rw [tabled.unmarked]
    constructor
    · intro impossible
      exact absurd impossible (by decide)
    · rintro ⟨-, index, below, -⟩
      exact absurd below (Nat.not_lt_zero index)
  · rintro count below _ ⟨flags, rfl, meaning⟩
    have bounded := tabled.groupCount_le capacity
    obtain ⟨owner, ownerBelow, ownerLabel⟩ := tabled.covered count below
    have found :
        findGroup build.groups build.groupCount
            (instructions count).getGroupId =
          owner :=
      (findGroup_eq_iff tabled.injective ownerBelow bounded _).mpr ownerLabel
    cases declares : declaresBoundary (instructions count) with
    | true =>
        refine ⟨Function.update flags owner true, ?_, ?_⟩
        · have condition := declares
          simp only [declaresBoundary, decide_eq_true_eq] at condition
          simp only [markBoundary, condition, if_true, GroupBuildState.find,
            found]
        · intro group
          by_cases equal : group = owner
          · subst equal
            simp only [Function.update_self, true_iff]
            exact
              ⟨ownerBelow, count, Nat.lt_succ_self count, declares,
                ownerLabel.symm⟩
          · rw [Function.update_of_ne equal, meaning]
            constructor
            · rintro ⟨groupBelow, index, indexBelow, rest⟩
              exact
                ⟨groupBelow, index, Nat.lt_succ_of_lt indexBelow, rest⟩
            · rintro ⟨groupBelow, index, indexBelow, positive, label⟩
              rcases Nat.lt_succ_iff_lt_or_eq.mp indexBelow with
                earlier | rfl
              · exact ⟨groupBelow, index, earlier, positive, label⟩
              · exact
                  absurd
                    (tabled.injective group groupBelow owner ownerBelow
                      (label.symm.trans ownerLabel.symm))
                    equal
    | false =>
        refine ⟨flags, ?_, ?_⟩
        · have condition := declares
          simp only [declaresBoundary, decide_eq_false_iff_not] at condition
          simp only [markBoundary, condition, if_false]
        · intro group
          rw [meaning]
          constructor
          · rintro ⟨groupBelow, index, indexBelow, rest⟩
            exact ⟨groupBelow, index, Nat.lt_succ_of_lt indexBelow, rest⟩
          · rintro ⟨groupBelow, index, indexBelow, positive, label⟩
            rcases Nat.lt_succ_iff_lt_or_eq.mp indexBelow with earlier | rfl
            · exact ⟨groupBelow, index, earlier, positive, label⟩
            · rw [declares] at positive
              exact absurd positive (by decide)

/-- The propagation state after the edges in `visited` were looked at: the
flags are sound for `reaches`, do not lose a flag of `marked`, and every
visited edge into a marked group has set the flag of its source. -/
private def Propagated (build : GroupBuildState) (marked reaches : Nat → Prop)
    (visited : Nat → Nat → Prop) (state : GroupBuildState × Bool) : Prop :=
  ∃ flags changed,
    state = ({ build with hasPositiveBoundary := flags }, changed) ∧
    (∀ group, flags group → reaches group) ∧
    (∀ group, marked group → flags group) ∧
    ∀ source target, visited source target → build.calls source target →
      marked target → flags source

section Propagation

variable {build : GroupBuildState} {marked reaches : Nat → Prop}

private theorem Propagated.edge {visited : Nat → Nat → Prop}
    {state : GroupBuildState × Bool} {source target : Nat}
    (backwards :
      build.calls source target → reaches target → reaches source)
    (propagated : Propagated build marked reaches visited state) :
    Propagated build marked reaches
      (fun source' target' =>
        visited source' target' ∨ source' = source ∧ target' = target)
      (propagateEdge source target state) := by
  obtain ⟨flags, changed, rfl, sound, above, done⟩ := propagated
  by_cases fires : build.calls source target ∧ flags target ∧ ¬ flags source
  · have fires' :
        ({ build with hasPositiveBoundary := flags } :
            GroupBuildState).calls source target ∧
          flags target ∧ ¬ flags source :=
      fires
    obtain ⟨called, targetFlag, -⟩ := fires
    have kept :
        ∀ group, flags group → Function.update flags source true group := by
      intro group flag
      by_cases equal : group = source
      · rw [equal, Function.update_self]
      · rw [Function.update_of_ne equal]
        exact flag
    refine ⟨Function.update flags source true, true, ?_, ?_, ?_, ?_⟩
    · simp only [propagateEdge]
      rw [if_pos fires']
    · intro group flag
      by_cases equal : group = source
      · rw [equal]
        exact backwards called (sound target targetFlag)
      · rw [Function.update_of_ne equal] at flag
        exact sound group flag
    · intro group mark
      exact kept group (above group mark)
    · rintro source' target' (earlier | ⟨rfl, rfl⟩) called' targetMarked
      · exact kept source' (done source' target' earlier called' targetMarked)
      · exact Function.update_self ..
  · have fires' :
        ¬ (({ build with hasPositiveBoundary := flags } :
            GroupBuildState).calls source target ∧
          flags target ∧ ¬ flags source) :=
      fires
    refine ⟨flags, changed, ?_, sound, above, ?_⟩
    · simp only [propagateEdge]
      rw [if_neg fires']
    · rintro source' target' (earlier | ⟨rfl, rfl⟩) called' targetMarked
      · exact done source' target' earlier called' targetMarked
      · by_contra missing
        exact fires ⟨called', above target' targetMarked, missing⟩

private theorem Propagated.weaken {visited visited' : Nat → Nat → Prop}
    {state : GroupBuildState × Bool}
    (propagated : Propagated build marked reaches visited state)
    (fewer : ∀ source target, visited' source target → visited source target) :
    Propagated build marked reaches visited' state := by
  obtain ⟨flags, changed, equal, sound, above, done⟩ := propagated
  refine ⟨flags, changed, equal, sound, above, ?_⟩
  intro source target visit
  exact done source target (fewer source target visit)

/-- One pass visits every edge between two groups. -/
private theorem propagatePass_propagated {flags : Nat → Bool}
    (backwards :
      ∀ source target, build.calls source target → reaches target →
        reaches source)
    (sound : ∀ group, flags group → reaches group)
    (above : ∀ group, marked group → flags group) :
    Propagated build marked reaches
      (fun source target =>
        source < build.groupCount ∧ target < build.groupCount)
      (propagatePass { build with hasPositiveBoundary := flags }) := by
  unfold propagatePass
  apply forUpTo_invariant
    (fun count state =>
      Propagated build marked reaches
        (fun source target => source < count ∧ target < build.groupCount)
        state)
  · refine ⟨flags, false, rfl, sound, above, ?_⟩
    rintro source target ⟨below, -⟩
    exact absurd below (Nat.not_lt_zero source)
  · intro source _ state outer
    have row :
        Propagated build marked reaches
          (fun source' target =>
            source' < source ∧ target < build.groupCount ∨
              source' = source ∧ target < build.groupCount)
          (forUpTo (propagateEdge source) state build.groupCount) := by
      apply forUpTo_invariant
        (fun count state =>
          Propagated build marked reaches
            (fun source' target =>
              source' < source ∧ target < build.groupCount ∨
                source' = source ∧ target < count)
            state)
      · apply outer.weaken
        rintro source' target (visit | ⟨-, below⟩)
        · exact visit
        · exact absurd below (Nat.not_lt_zero target)
      · intro target _ state inner
        apply (inner.edge (backwards source target)).weaken
        rintro source' target' (visit | ⟨rfl, below⟩)
        · exact Or.inl (Or.inl visit)
        · rcases Nat.lt_succ_iff_lt_or_eq.mp below with earlier | rfl
          · exact Or.inl (Or.inr ⟨rfl, earlier⟩)
          · exact Or.inr ⟨rfl, rfl⟩
    apply row.weaken
    rintro source' target ⟨below, targetBelow⟩
    rcases Nat.lt_succ_iff_lt_or_eq.mp below with earlier | rfl
    · exact Or.inl ⟨earlier, targetBelow⟩
    · exact Or.inr ⟨rfl, targetBelow⟩

variable (build marked reaches) in
/-- Propagation runs at least one pass, and more passes change nothing that
matters. -/
private theorem propagateBoundaries_propagated (flags : Nat → Bool)
    (backwards :
      ∀ source target, build.calls source target → reaches target →
        reaches source)
    (sound : ∀ group, flags group → reaches group)
    (above : ∀ group, marked group → flags group) {passes : Nat}
    (positive : 0 < passes) :
    ∃ changed,
      Propagated build marked reaches
        (fun source target =>
          source < build.groupCount ∧ target < build.groupCount)
        (propagateBoundaries passes
          { build with hasPositiveBoundary := flags }, changed) := by
  induction passes generalizing flags with
  | zero =>
      exact absurd positive (Nat.lt_irrefl 0)
  | succ passes inductionHypothesis =>
      have pass := propagatePass_propagated backwards sound above
      obtain ⟨flags', changed, equal, sound', above', done⟩ := pass
      rw [propagateBoundaries]
      simp only [equal]
      cases changed with
      | false =>
          exact ⟨false, flags', false, rfl, sound', above', done⟩
      | true =>
          simp only [if_true]
          rcases Nat.eq_zero_or_pos passes with rfl | more
          · exact ⟨true, flags', true, rfl, sound', above', done⟩
          · exact inductionHypothesis flags' sound' above' more

end Propagation

/-- The groups from which some call chain leads to a declared boundary. -/
def ReachesMarked (instructions : Nat → InstructionMemorySlot)
    (instructionCount : Nat) (groups : Nat → GroupRecord)
    (groupCount group : Nat) : Prop :=
  ∃ target,
    ReflTransGen (Edge instructions instructionCount groups groupCount)
        group target ∧
      MarkedGroup instructions instructionCount groups groupCount target

/-- The flags of the last stage: over the closed call graph, exactly the groups
that reach a declared boundary. -/
theorem boundaries_spec {build : GroupBuildState}
    {graph : Nat → BitVec 32}
    (capacity : instructionCount ≤ maxInstructions)
    (tabled : Tabled instructions instructionCount build)
    (closure :
      ∀ source target,
        ({ build with callGraph := graph } : GroupBuildState).calls
            source target ↔
          TransGen
            (Edge instructions instructionCount build.groups
              build.groupCount) source target) :
    ∃ flags,
      propagateBoundaries build.groupCount
          (forUpTo (markBoundary instructions)
            { build with callGraph := graph } instructionCount) =
        { build with callGraph := graph, hasPositiveBoundary := flags } ∧
      ∀ group,
        flags group ↔
          ReachesMarked instructions instructionCount build.groups
            build.groupCount group := by
  obtain ⟨initial, marked, meaning⟩ :=
    markBoundaries_spec capacity tabled graph
  have reachesOfMarked :
      ∀ group, initial group →
        ReachesMarked instructions instructionCount build.groups
          build.groupCount group := by
    intro group flag
    exact ⟨group, ReflTransGen.refl, (meaning group).mp flag⟩
  obtain ⟨changed, flags, changed', equal, sound, above, done⟩ :=
    propagateBoundaries_propagated { build with callGraph := graph }
      (fun group => initial group)
      (ReachesMarked instructions instructionCount build.groups
        build.groupCount)
      initial
      (by
        rintro source target called ⟨last, path, lastMarked⟩
        exact
          ⟨last, ((closure source target).mp called).to_reflTransGen.trans path,
            lastMarked⟩)
      reachesOfMarked (fun _ flag => flag) tabled.positive
  have result := congrArg Prod.fst equal
  refine ⟨flags, ?_, ?_⟩
  · rw [marked]
    exact result
  · intro group
    constructor
    · exact sound group
    · rintro ⟨target, path, targetMarked⟩
      have targetFlag := (meaning target).mpr targetMarked
      rcases reflTransGen_iff_eq_or_transGen.mp path with rfl | chain
      · exact above target targetFlag
      · have groupBelow : group < build.groupCount := by
          obtain ⟨next, edge, -⟩ := TransGen.head'_iff.mp chain
          exact edge.1
        exact
          done group target ⟨groupBelow, targetMarked.1⟩
            ((closure group target).mpr chain) targetFlag

end PrismKit
