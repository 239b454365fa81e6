import PrismKit.Timeline.Effects
import PrismKit.Controller.Shift

/-!
# Twin machines

Two machines that run the same program, the second on a clock that reads
`offset` more.  What the scheduler remembers of the clock is shifted, and what
it remembers of the stored instructions agrees where it can still be read: on
the timelines of the active groups and under the executing entries.  Every
function of `Run` keeps such machines alike.
-/

namespace PrismKit

open Library

/-- The runtime with the start of its pass `offset` later. -/
def GroupRuntime.shift (offset : UInt32) (runtime : GroupRuntime) :
    GroupRuntime :=
  if runtime.active then
    { runtime with startTime := runtime.startTime + offset }
  else
    runtime

/-- The entry with its deadline `offset` later. -/
def ExecutingInstruction.shift (offset : UInt32)
    (entry : ExecutingInstruction) : ExecutingInstruction :=
  { entry with deadline := entry.deadline + offset }

theorem deadlineReached_shift (timestamp deadline offset : UInt32) :
    deadlineReached (timestamp + offset) (deadline + offset) =
      deadlineReached timestamp deadline := by
  simp only [deadlineReached, add_sub_add_right]

namespace GroupRuntime

variable (offset : UInt32) (runtime : GroupRuntime)

@[simp]
theorem shift_record : (runtime.shift offset).record = runtime.record := by
  unfold shift
  split <;> rfl

@[simp]
theorem shift_cursor : (runtime.shift offset).cursor = runtime.cursor := by
  unfold shift
  split <;> rfl

@[simp]
theorem shift_repeatsRemaining :
    (runtime.shift offset).repeatsRemaining = runtime.repeatsRemaining := by
  unfold shift
  split <;> rfl

@[simp]
theorem shift_activeCount :
    (runtime.shift offset).activeCount = runtime.activeCount := by
  unfold shift
  split <;> rfl

@[simp]
theorem shift_childCount :
    (runtime.shift offset).childCount = runtime.childCount := by
  unfold shift
  split <;> rfl

@[simp]
theorem shift_positiveBoundaryObserved :
    (runtime.shift offset).positiveBoundaryObserved =
      runtime.positiveBoundaryObserved := by
  unfold shift
  split <;> rfl

@[simp]
theorem shift_parentGroupIndex :
    (runtime.shift offset).parentGroupIndex = runtime.parentGroupIndex := by
  unfold shift
  split <;> rfl

@[simp]
theorem shift_depth : (runtime.shift offset).depth = runtime.depth := by
  unfold shift
  split <;> rfl

@[simp]
theorem shift_active : (runtime.shift offset).active = runtime.active := by
  unfold shift
  split <;> rfl

theorem reset_shift : (runtime.shift offset).reset = runtime.reset := by
  simp only [reset, shift_record]

theorem shift_of_inactive (inactive : runtime.active = false) :
    runtime.shift offset = runtime := by
  simp [shift, inactive]

/-- The start of an active pass is read on the shifted clock. -/
theorem shift_startTime (active : runtime.active) :
    (runtime.shift offset).startTime = runtime.startTime + offset := by
  unfold shift
  rw [if_pos active]

end GroupRuntime

namespace Machine

/-- What two machines agree on whether or not a program is running.  `lead` and
`lead'` are the calls they had made before they were compared. -/
structure Alike (offset : UInt32) (lead lead' : List Output)
    (machine other : Machine) : Prop where
  strip : other.strip = machine.strip
  strips : other.strips = machine.strips
  instructionCount : other.instructionCount = machine.instructionCount
  refreshPeriodMs : other.refreshPeriodMs = machine.refreshPeriodMs
  timestampCallback : other.timestampCallback = machine.timestampCallback
  scheduleCallback : other.scheduleCallback = machine.scheduleCallback
  configuration :
    ∀ index,
      (other.instructions index).SameConfiguration (machine.instructions index)
  steady :
    offset = 0 ∨ ∀ index, (machine.instructions index).isFade = false
  outputs :
    ∃ emitted,
      machine.outputs = lead ++ emitted ∧ other.outputs = lead' ++ emitted

/-- The slot at a position of the timeline that a runtime refers to. -/
def timelineSlot (machine : Machine) (group position : Nat) : Nat :=
  machine.groupIndices
    ((machine.runtimes group).record.indexBegin + position)

/-- Two machines of which the second runs on the shifted clock; `inside` says
whether they are in the middle of a `Run`. -/
structure Twin (offset : UInt32) (lead lead' : List Output) (inside : Bool)
    (machine other : Machine) : Prop
    extends Alike offset lead lead' machine other where
  state : other.state = machine.state
  showRequested : other.showRequested = machine.showRequested
  minScheduledTimeout :
    other.minScheduledTimeout = machine.minScheduledTimeout
  groupCount : other.groupCount = machine.groupCount
  groups : other.groups = machine.groups
  groupIndices : other.groupIndices = machine.groupIndices
  runtimes :
    ∀ group, other.runtimes group = (machine.runtimes group).shift offset
  executing :
    other.executing =
      machine.executing.map (ExecutingInstruction.shift offset)
  timelines :
    ∀ group, (machine.runtimes group).active → ∀ position,
      position < (machine.runtimes group).record.instructionCount →
        other.instructions (machine.timelineSlot group position) =
          (machine.instructions
            (machine.timelineSlot group position)).shift offset
  entries :
    ∀ entry ∈ machine.executing,
      other.instructions entry.instructionIndex =
        (machine.instructions entry.instructionIndex).shift offset
  runStatus : inside = true → other.runStatus = machine.runStatus

variable {offset : UInt32} {lead lead' : List Output} {inside : Bool}
  {machine other : Machine}

namespace Twin

section Reading

variable (twin : Twin offset lead lead' inside machine other)
include twin

theorem active_eq (group : Nat) :
    (other.runtimes group).active = (machine.runtimes group).active := by
  rw [twin.runtimes, GroupRuntime.shift_active]

theorem record_eq (group : Nat) :
    (other.runtimes group).record = (machine.runtimes group).record := by
  rw [twin.runtimes, GroupRuntime.shift_record]

theorem cursor_eq (group : Nat) :
    (other.runtimes group).cursor = (machine.runtimes group).cursor := by
  rw [twin.runtimes, GroupRuntime.shift_cursor]

theorem depth_eq (group : Nat) :
    (other.runtimes group).depth = (machine.runtimes group).depth := by
  rw [twin.runtimes, GroupRuntime.shift_depth]

theorem entryInvalid_eq (entry : ExecutingInstruction) :
    other.entryInvalid (entry.shift offset) = machine.entryInvalid entry := by
  simp only [entryInvalid, ExecutingInstruction.shift, twin.instructionCount,
    twin.groupCount, twin.active_eq]

theorem groupReady_eq (group : Nat) :
    other.groupReady group = machine.groupReady group := by
  simp only [groupReady, twin.runtimes, GroupRuntime.shift_active,
    GroupRuntime.shift_record, GroupRuntime.shift_cursor,
    GroupRuntime.shift_activeCount, GroupRuntime.shift_childCount]

theorem cursorSlot_eq (group : Nat) :
    other.cursorSlot group = machine.cursorSlot group := by
  simp only [cursorSlot, twin.groupIndices, twin.record_eq, twin.cursor_eq]

theorem getMark_eq (index : Nat) :
    (other.instructions index).getMark =
      (machine.instructions index).getMark :=
  (twin.configuration index).getMark_eq

theorem cursorDue_eq (group : Nat) (elapsed : UInt32) :
    other.cursorDue group elapsed = machine.cursorDue group elapsed := by
  simp only [cursorDue, twin.cursorSlot_eq, twin.getMark_eq, twin.record_eq,
    twin.cursor_eq]

/-- Both passes are equally old. -/
theorem elapsed_eq {group : Nat} (active : (machine.runtimes group).active)
    (timestamp : UInt32) :
    timestamp + offset - (other.runtimes group).startTime =
      timestamp - (machine.runtimes group).startTime := by
  rw [twin.runtimes, GroupRuntime.shift_startTime _ _ active,
    add_sub_add_right]

end Reading

theorem latch (twin : Twin offset lead lead' inside machine other)
    (status : ControllerStatus) :
    Twin offset lead lead' inside (machine.latch status)
      (other.latch status) := by
  refine { twin with runStatus := ?_ }
  intro running
  simp only [Machine.latch, twin.runStatus running]

theorem record (twin : Twin offset lead lead' inside machine other)
    (event : Event) (before before' : Controller) :
    Twin offset lead lead' inside (machine.record event before)
      (other.record event before') :=
  { twin with }

/-- One more call to the outside. -/
theorem emit (twin : Twin offset lead lead' inside machine other)
    (output : Output) :
    Twin offset lead lead' inside
      { machine with outputs := machine.outputs ++ [output] }
      { other with outputs := other.outputs ++ [output] } := by
  obtain ⟨emitted, before, before'⟩ := twin.outputs
  refine { twin with outputs := ⟨emitted ++ [output], ?_, ?_⟩ }
  · simp only [before, List.append_assoc]
  · simp only [before', List.append_assoc]

/-- The same change to one runtime, unless it makes an inactive one active. -/
theorem updateRuntime (twin : Twin offset lead lead' inside machine other)
    (group : Nat) {change : GroupRuntime → GroupRuntime}
    (shifts :
      ∀ runtime, (change runtime).shift offset = change (runtime.shift offset))
    (keeps :
      ∀ runtime, (change runtime).active →
        runtime.active ∧ (change runtime).record = runtime.record) :
    Twin offset lead lead' inside (machine.updateRuntime group change)
      (other.updateRuntime group change) := by
  refine { twin with runtimes := ?_, timelines := ?_ }
  · intro changed
    by_cases equal : changed = group
    · subst equal
      simp only [Machine.updateRuntime, Function.update_self, twin.runtimes,
        shifts]
    · simp only [Machine.updateRuntime, Function.update_of_ne equal,
        twin.runtimes]
  · intro changed active position
    by_cases equal : changed = group
    · subst equal
      simp only [Machine.updateRuntime, Function.update_self] at active
      obtain ⟨before, record⟩ := keeps _ active
      simp only [Machine.updateRuntime, timelineSlot, Function.update_self,
        record]
      exact twin.timelines changed before position
    · simp only [Machine.updateRuntime, Function.update_of_ne equal] at active
      simp only [Machine.updateRuntime, timelineSlot,
        Function.update_of_ne equal]
      exact twin.timelines changed active position

/-- The same new counts and flag for one runtime, whose pass goes on. -/
theorem updateCounts (twin : Twin offset lead lead' inside machine other)
    (group : Nat) (cursor activeCount childCount : Nat → Nat)
    (observed : Bool → Bool) :
    let change (runtime : GroupRuntime) : GroupRuntime :=
      { runtime with
        cursor := cursor runtime.cursor
        activeCount := activeCount runtime.activeCount
        childCount := childCount runtime.childCount
        positiveBoundaryObserved :=
          observed runtime.positiveBoundaryObserved }
    Twin offset lead lead' inside (machine.updateRuntime group change)
      (other.updateRuntime group change) := by
  apply twin.updateRuntime
  · intro runtime
    unfold GroupRuntime.shift
    split <;> rfl
  · intro runtime active
    exact ⟨active, rfl⟩

/-- New slots of the same configuration that agree wherever the old ones
did. -/
theorem withInstructions (twin : Twin offset lead lead' inside machine other)
    {instructions instructions' : Nat → InstructionMemorySlot}
    (configuration :
      ∀ index,
        (instructions' index).SameConfiguration (instructions index))
    (kept :
      ∀ index,
        (instructions index).SameConfiguration (machine.instructions index))
    (paired :
      ∀ index,
        other.instructions index =
            (machine.instructions index).shift offset →
          instructions' index = (instructions index).shift offset) :
    Twin offset lead lead' inside
      { machine with instructions := instructions }
      { other with instructions := instructions' } := by
  refine
    { twin with
      configuration := configuration
      steady := ?_
      timelines := ?_
      entries := ?_ }
  · rcases twin.steady with still | fadeless
    · exact Or.inl still
    · right
      intro index
      rw [(kept index).isFade_eq]
      exact fadeless index
  · intro group active position below
    exact paired _ (twin.timelines group active position below)
  · intro entry member
    exact paired _ (twin.entries entry member)

/-! ### Boundaries and activation -/

private theorem observeAncestors (fuel : Nat) (group : Nat)
    (twin : Twin offset lead lead' inside machine other) :
    Twin offset lead lead' inside (machine.observeAncestors fuel group)
      (other.observeAncestors fuel group) := by
  induction fuel generalizing group machine other with
  | zero =>
      exact twin
  | succ fuel inductionHypothesis =>
      unfold Machine.observeAncestors
      rw [twin.groupCount, twin.active_eq, twin.runtimes,
        GroupRuntime.shift_parentGroupIndex]
      split
      · split
        · apply inductionHypothesis
          exact twin.updateCounts group id id id fun _ => true
        · exact twin
      · exact twin

theorem observePositiveBoundary (group : Nat)
    (twin : Twin offset lead lead' inside machine other) :
    Twin offset lead lead' inside (machine.observePositiveBoundary group)
      (other.observePositiveBoundary group) := by
  unfold Machine.observePositiveBoundary
  rw [twin.groupCount]
  exact twin.observeAncestors machine.groupCount group

/-- What resetting `count` slots of a timeline does to both programs. -/
private structure Replayed (machine other : Machine) (offset : UInt32)
    (slotOf : Nat → Nat) (count : Nat)
    (instructions instructions' : Nat → InstructionMemorySlot) : Prop where
  configuration :
    ∀ index, (instructions' index).SameConfiguration (instructions index)
  kept :
    ∀ index,
      (instructions index).SameConfiguration (machine.instructions index)
  paired :
    ∀ index,
      other.instructions index = (machine.instructions index).shift offset →
        instructions' index = (instructions index).shift offset
  reset :
    ∀ position, position < count →
      instructions' (slotOf position) =
        (instructions (slotOf position)).shift offset

private theorem Replayed.succ {slotOf : Nat → Nat} {count : Nat}
    {instructions instructions' : Nat → InstructionMemorySlot}
    (replayed :
      Replayed machine other offset slotOf count instructions instructions') :
    Replayed machine other offset slotOf (count + 1)
      (Function.update instructions (slotOf count)
        (instructions (slotOf count)).resetForReplay)
      (Function.update instructions' (slotOf count)
        (instructions' (slotOf count)).resetForReplay) := by
  have agree :
      (instructions' (slotOf count)).resetForReplay =
        ((instructions (slotOf count)).resetForReplay).shift offset := by
    rw [InstructionMemorySlot.shift_resetForReplay]
    exact replayed.configuration (slotOf count)
  constructor
  · intro index
    by_cases equal : index = slotOf count
    · subst equal
      rw [Function.update_self, Function.update_self, agree]
      exact InstructionMemorySlot.shift_sameConfiguration offset _
    · rw [Function.update_of_ne equal, Function.update_of_ne equal]
      exact replayed.configuration index
  · intro index
    by_cases equal : index = slotOf count
    · subst equal
      rw [Function.update_self]
      unfold InstructionMemorySlot.SameConfiguration
      rw [InstructionMemorySlot.resetForReplay_resetForReplay]
      exact replayed.kept (slotOf count)
    · rw [Function.update_of_ne equal]
      exact replayed.kept index
  · intro index before
    by_cases equal : index = slotOf count
    · subst equal
      rw [Function.update_self, Function.update_self]
      exact agree
    · rw [Function.update_of_ne equal, Function.update_of_ne equal]
      exact replayed.paired index before
  · intro position below
    by_cases equal : slotOf position = slotOf count
    · rw [equal, Function.update_self, Function.update_self]
      exact agree
    · rw [Function.update_of_ne equal, Function.update_of_ne equal]
      apply replayed.reset position
      have different : position ≠ count := fun same => equal (same ▸ rfl)
      omega

private theorem replayed (twin : Twin offset lead lead' inside machine other)
    (slotOf : Nat → Nat) (count : Nat) :
    Replayed machine other offset slotOf count
      (forUpTo
        (fun position instructions =>
          Function.update instructions (slotOf position)
            (instructions (slotOf position)).resetForReplay)
        machine.instructions count)
      (forUpTo
        (fun position instructions =>
          Function.update instructions (slotOf position)
            (instructions (slotOf position)).resetForReplay)
        other.instructions count) := by
  apply forUpTo_related (Replayed machine other offset slotOf)
  · refine ⟨twin.configuration, fun _ => rfl, fun _ agree => agree, ?_⟩
    intro position below
    exact absurd below (Nat.not_lt_zero position)
  · intro position _ instructions instructions' replayed
    exact replayed.succ

theorem startGroupRuntime (twin : Twin offset lead lead' inside machine other)
    (group : Nat) (timestamp : UInt32) (repeats : LoopCount) (parent : Nat) :
    (machine.startGroupRuntime group timestamp repeats parent = none ∧
        other.startGroupRuntime group (timestamp + offset) repeats parent =
          none) ∨
      ∃ next next',
        machine.startGroupRuntime group timestamp repeats parent =
            some next ∧
          other.startGroupRuntime group (timestamp + offset) repeats parent =
              some next' ∧
            Twin offset lead lead' inside next next' := by
  have cleared :
      Twin offset lead lead' inside
        (machine.updateRuntime group GroupRuntime.reset)
        (other.updateRuntime group GroupRuntime.reset) := by
    apply twin.updateRuntime group
    · intro runtime
      rw [GroupRuntime.reset_shift]
      exact GroupRuntime.shift_of_inactive offset _ rfl
    · intro runtime active
      exact Bool.noConfusion active
  unfold Machine.startGroupRuntime
  rw [twin.groupCount, twin.active_eq]
  split
  · exact Or.inl ⟨rfl, rfl⟩
  · right
    refine ⟨_, _, rfl, rfl, ?_⟩
    have replayed :=
      twin.replayed (machine.timelineSlot group)
        (machine.runtimes group).record.instructionCount
    simp only [resetGroupInstructionReplayState_instructions,
      Machine.updateRuntime,
      Function.update_self, Function.update_idem, GroupRuntime.reset_record,
      twin.groupIndices, twin.record_eq]
    refine
      { cleared with
        configuration := replayed.configuration
        steady := ?_
        groupIndices := rfl
        runtimes := ?_
        timelines := ?_
        entries := ?_ }
    · rcases twin.steady with still | fadeless
      · exact Or.inl still
      · right
        intro index
        exact (replayed.kept index).isFade_eq.trans (fadeless index)
    · intro changed
      by_cases equal : changed = group
      · subst equal
        have depth :
            (Function.update other.runtimes changed
                (other.runtimes changed).reset parent).depth =
              (Function.update machine.runtimes changed
                (machine.runtimes changed).reset parent).depth := by
          have agree := congrArg GroupRuntime.depth (cleared.runtimes parent)
          rw [GroupRuntime.shift_depth] at agree
          exact agree
        simp only [Function.update_self, GroupRuntime.shift, if_true, depth]
        rfl
      · have agree := cleared.runtimes changed
        simp only [Machine.updateRuntime, Function.update_of_ne equal] at agree
        simp only [Function.update_of_ne equal]
        exact agree
    · intro changed active position below
      by_cases equal : changed = group
      · subst equal
        simp only [Function.update_self] at below
        simp only [timelineSlot, Function.update_self]
        exact replayed.reset position below
      · simp only [Function.update_of_ne equal] at active below
        simp only [timelineSlot, Function.update_of_ne equal]
        exact
          replayed.paired _ (twin.timelines changed active position below)
    · intro entry member
      exact replayed.paired _ (twin.entries entry member)

end Twin

end Machine

end PrismKit
