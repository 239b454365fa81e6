import PrismKit.Controller.Painting
import PrismKit.Timeline.Commit
import PrismKit.Timeline.Rerun

/-!
# Programs of colors

A program whose root only sets colors is drawn from the instruction with the
smallest mark to the one with the largest, and within a mark in the order of
insertion.  How often `Run` is called, how late, and how often the program
starts over makes no difference for what is drawn in the end.
-/

namespace PrismKit

open Library Relation

namespace Controller

/-- The root only sets colors. -/
def Colored (controller : Controller) : Prop :=
  ∀ index, index < controller.instructionCount →
    (controller.instructions index).getGroupId = 0 →
      (controller.instructions index).Colors

instance (controller : Controller) : Decidable controller.Colored :=
  inferInstanceAs (Decidable (∀ index, index < _ → _ → _))

/-- The instructions of the root, by mark and then by insertion. -/
def programOrder (controller : Controller) : List Nat :=
  (labelled controller.instructions controller.instructionCount 0).mergeSort
    fun left right => !decide (ProgramOrder controller.instructions right left)

/-- The `SetColor` calls of some instructions. -/
def drawing (controller : Controller) (strips : StripId → Strip)
    (slots : List Nat) : List PixelWrite :=
  slots.flatMap fun slot => (controller.instructions slot).coloring strips

theorem drawing_append (controller : Controller) (strips : StripId → Strip)
    (slots later : List Nat) :
    controller.drawing strips (slots ++ later) =
      controller.drawing strips slots ++ controller.drawing strips later :=
  List.flatMap_append

theorem programOrder_ordered (controller : Controller) :
    controller.programOrder.Pairwise fun left right =>
      ¬ ProgramOrder controller.instructions right left := by
  have sorted :=
    @List.pairwise_mergeSort _
      (fun left right =>
        !decide (ProgramOrder controller.instructions right left))
      (by
        intro first second third
        simp only [ProgramOrder, Bool.not_eq_true', decide_eq_false_iff_not,
          UInt16.lt_iff_toNat_lt, ← UInt16.toNat_inj]
        omega)
      (by
        intro first second
        simp only [ProgramOrder, Bool.or_eq_true, Bool.not_eq_true',
          decide_eq_false_iff_not, UInt16.lt_iff_toNat_lt, ← UInt16.toNat_inj]
        omega)
      (labelled controller.instructions controller.instructionCount 0)
  apply sorted.imp
  intro left right ordered
  simpa using ordered

variable {rank : Nat → Nat} {controller next : Controller}
  {strips : StripId → Strip} {timestamp : UInt32} {event : Event}

/-- The scheduler goes through the root in this order. -/
theorem Committed.timeline_root (committed : Committed rank controller) :
    controller.timeline 0 = controller.programOrder := by
  have perm := committed.timelinePerm 0 committed.nonempty
  rw [committed.root] at perm
  have ordered := committed.timelineOrdered 0 committed.nonempty
  apply
    List.Perm.eq_of_pairwise ?_ (ordered.imp ?_) controller.programOrder_ordered
      (perm.trans (List.mergeSort_perm _ _).symm)
  · intro left right _ _ before after
    simp only [ProgramOrder, UInt16.lt_iff_toNat_lt, ← UInt16.toNat_inj]
      at before after
    omega
  · intro left right before after
    simp only [ProgramOrder, UInt16.lt_iff_toNat_lt, ← UInt16.toNat_inj]
      at before after
    omega

theorem Colored.of_eq (colored : controller.Colored)
    (instructions : next.instructions = controller.instructions)
    (count : next.instructionCount = controller.instructionCount) :
    next.Colored := by
  unfold Colored
  rw [instructions, count]
  exact colored

theorem programOrder_of_eq
    (instructions : next.instructions = controller.instructions)
    (count : next.instructionCount = controller.instructionCount) :
    next.programOrder = controller.programOrder := by
  unfold programOrder
  rw [instructions, count]

theorem Colored.slot (colored : controller.Colored)
    (committed : Committed rank controller) {position : Nat}
    (inRange : position < controller.size 0) :
    (controller.instructions (controller.slotAt 0 position)).Colors := by
  obtain ⟨below, label⟩ := committed.slotAt_mem committed.nonempty inRange
  exact colored _ below (label.trans committed.root)

/-- The root calls no group, so it is the only one that is ever active. -/
theorem Colored.alone (colored : controller.Colored)
    (sound : controller.Sound rank) {group : Nat}
    (active : (controller.runtimes group).active) : group = 0 := by
  have byDepth :
      ∀ depth group, (controller.runtimes group).depth.toNat = depth →
        (controller.runtimes group).active → group = 0 := by
    intro depth
    induction depth with
    | zero =>
        intro group top active
        by_contra notRoot
        have deeper := (sound.tree.parent group active notRoot).2.2
        omega
    | succ depth inductionHypothesis =>
        intro group deep active
        by_contra notRoot
        obtain ⟨calls, parentActive, deeper⟩ :=
          sound.tree.parent group active notRoot
        have root := inductionHypothesis _ (by omega) parentActive
        rw [root] at calls
        obtain ⟨-, -, index, below, isRun, label, -⟩ := calls
        have plain :=
          (colored index below (label.trans sound.committed.root)).isRunGroup
        rw [plain] at isRun
        cases isRun
  exact byDepth _ group rfl active

/-- What a step of a program of colors does to the runtime of the root. -/
inductive Draws (timestamp : UInt32) (controller next : Controller) :
    Event → Prop
  | drawn (due : controller.Due timestamp 0)
      (active : (next.runtimes 0).active = true)
      (cursor :
        (next.runtimes 0).cursor = (controller.runtimes 0).cursor + 1)
      (startTime :
        (next.runtimes 0).startTime = (controller.runtimes 0).startTime)
      (repeats :
        (next.runtimes 0).repeatsRemaining =
          (controller.runtimes 0).repeatsRemaining)
      (shown :
        next.showRequested =
          (controller.showRequested ||
            (controller.instructions (controller.nextSlot 0)).requestsShow)) :
      Draws timestamp controller next
        (.executed 0 (controller.nextSlot 0) 0)
  | restarted (ready : controller.Ready 0)
      (again : (controller.runtimes 0).repeatsRemaining ≠ 0)
      (active : (next.runtimes 0).active = true)
      (cursor : (next.runtimes 0).cursor = 0)
      (shown : next.showRequested = controller.showRequested) :
      Draws timestamp controller next (.restarted 0)
  | ended (ready : controller.Ready 0)
      (inactive : (next.runtimes 0).active = false)
      (cursor : (next.runtimes 0).cursor = 0)
      (shown : next.showRequested = controller.showRequested) :
      Draws timestamp controller next (.ended 0)

/-- With nothing executing, a step of a program of colors draws one instruction,
starts over or ends; nothing is executing afterwards, and no instruction has
changed. -/
theorem Step.draws (colored : controller.Colored)
    (sound : controller.Sound rank) (idle : controller.executing = [])
    (step : controller.Step strips timestamp event next) :
    Draws timestamp controller next event ∧
      next.instructions = controller.instructions ∧ next.executing = [] := by
  have committed := sound.committed
  have plain :
      ∀ group, controller.Due timestamp group →
        group = 0 ∧
          (controller.instructions (controller.nextSlot group)).Colors := by
    intro group due
    cases colored.alone sound due.active
    exact ⟨rfl, colored.slot committed due.remaining⟩
  cases step with
  | resumedAgain position entry slot delay shown resumable =>
      have found := resumable.found
      rw [idle] at found
      cases found
  | resumedLast position entry slot shown resumable =>
      have found := resumable.found
      rw [idle] at found
      cases found
  | restarted group ready again observed =>
      cases colored.alone sound ready.active
      refine ⟨.restarted ready again ?_ ?_ rfl, ?_, idle⟩
      · simp [activate, updateRuntime]
      · simp [activate, updateRuntime]
      · funext index
        by_cases member : index ∈ controller.timeline 0
        · obtain ⟨position, inRange, rfl⟩ := List.mem_map.mp member
          have colors := colored.slot committed (List.mem_range.mp inRange)
          simp only [activate, if_pos member, colors.resetForReplay]
        · simp only [activate, if_neg member]
  | endedRoot ready final =>
      refine ⟨.ended ready ?_ ?_ rfl, rfl, idle⟩
      · simp [updateRuntime, GroupRuntime.reset]
      · simp [updateRuntime, GroupRuntime.reset]
  | endedChild group notRoot ready final =>
      exact absurd (colored.alone sound ready.active) notRoot
  | launched group child due settled isRun =>
      rw [(plain group due).2.isRunGroup] at isRun
      cases isRun
  | rejected group child due settled isRun =>
      rw [(plain group due).2.isRunGroup] at isRun
      cases isRun
  | executedNow group slot shown due settled notRun executes =>
      obtain ⟨rfl, colors⟩ := plain group due
      obtain ⟨writes, result⟩ := executes
      rw [colors.execute (fun id => rfl)] at result
      cases result
      refine ⟨.drawn due ?_ ?_ ?_ ?_ ?_, ?_, ?_⟩
      · rw [afterExecution, consume_runtime]
        exact due.active
      · rw [afterExecution, consume_runtime]
        rfl
      · rw [afterExecution, consume_runtime]
      · rw [afterExecution, consume_runtime]
      · rw [afterExecution, consume_eq]
      · rw [afterExecution, consume_instructions]
        exact Function.update_eq_self _ _
      · rw [afterExecution, consume_executing]
        exact idle
  | executedTimed group slot delay shown due settled notRun executes positive =>
      obtain ⟨rfl, colors⟩ := plain group due
      obtain ⟨writes, result⟩ := executes
      rw [colors.execute (fun id => rfl)] at result
      cases result
      exact absurd rfl positive

end Controller

/-! ### Calls since a start -/

/-- The call neither starts a program nor removes it. -/
def Operation.Continues : Operation → Prop
  | .start _ _ | .resetInstructions => False
  | _ => True

instance (operation : Operation) : Decidable operation.Continues := by
  unfold Operation.Continues
  split <;> infer_instance

namespace Machine

theorem Adjusted.refl (machine : Machine) : Adjusted machine machine :=
  ⟨rfl, rfl, rfl, rfl, rfl, rfl, rfl, rfl, rfl, rfl, rfl, Or.inl rfl⟩

theorem Chronicle.loaded {inside : Bool} {machine : Machine}
    (chronicle : Chronicle inside machine) : machine.state ≠ .editable := by
  obtain ⟨rank, sound⟩ := chronicle.sound
  rw [sound.tree.lifecycle]
  split <;> decide

/-- With a program loaded, a call that continues is a `Run` of the active
program or leaves the program alone. -/
theorem adjusted_or_runs {operation : Operation} {before after : Machine}
    {status : ControllerStatus} (continues : operation.Continues)
    (loaded : before.state ≠ .editable)
    (performs : Performs operation before after status) :
    (Adjusted before after ∧
        ∀ now, operation = .run now → before.state ≠ .active) ∨
      ∃ now fuel, operation = .run now ∧ before.state = .active ∧
        before.run fuel now = some (after, status) := by
  cases operation with
  | start | resetInstructions =>
      exact continues.elim
  | setStrip strip =>
      obtain ⟨rfl, -⟩ := performs
      refine Or.inl ⟨?_, fun _ => Operation.noConfusion⟩
      exact
        ⟨rfl, rfl, rfl, rfl, rfl, rfl, rfl, rfl, rfl, rfl, rfl, Or.inl rfl⟩
  | setTimestampCallback registered =>
      obtain ⟨rfl, -⟩ := performs
      refine Or.inl ⟨?_, fun _ => Operation.noConfusion⟩
      exact
        ⟨rfl, rfl, rfl, rfl, rfl, rfl, rfl, rfl, rfl, rfl, rfl, Or.inl rfl⟩
  | setScheduleCallback registered =>
      obtain ⟨rfl, -⟩ := performs
      refine Or.inl ⟨?_, fun _ => Operation.noConfusion⟩
      exact
        ⟨rfl, rfl, rfl, rfl, rfl, rfl, rfl, rfl, rfl, rfl, rfl, Or.inl rfl⟩
  | addInstruction instr =>
      have performs' : before.addInstruction instr = (after, status) := performs
      have refused : (before.addInstruction instr).1 = before := by
        unfold addInstruction
        cases instr with
        | none => rfl
        | some instr => simp only [if_pos loaded]
      rw [performs'] at refused
      cases refused
      exact Or.inl ⟨.refl _, fun _ => Operation.noConfusion⟩
  | setRefreshPeriodMs periodMs =>
      refine Or.inl ⟨?_, fun _ => Operation.noConfusion⟩
      have performs' : before.setRefreshPeriodMs periodMs = (after, status) :=
        performs
      unfold setRefreshPeriodMs at performs'
      split at performs'
      · cases performs'
        exact .refl before
      · rename_i valid
        split at performs'
        · cases performs'
          exact .refl before
        · rename_i inactive
          cases performs'
          have positive : periodMs ≠ 0 := fun zero => valid (Or.inl zero)
          exact
            ⟨rfl, rfl, rfl, rfl, rfl, rfl, rfl, rfl, rfl, rfl, rfl,
              Or.inr ⟨inactive, positive⟩⟩
  | run now =>
      obtain ⟨fuel, runs⟩ := performs
      by_cases active : before.state = .active
      · exact Or.inr ⟨now, fuel, rfl, active, runs⟩
      · unfold Machine.run at runs
        rw [if_pos active] at runs
        cases runs
        exact Or.inl ⟨.refl before, fun _ _ => active⟩

/-- What holds after a start, is kept by adjustments, and is carried through
every `Run` by its moves, holds as long as the program is loaded. -/
theorem Plays.invariant {outer inner : Machine → Prop}
    {operations : List Operation} {machine after : Machine}
    {observations : List (ControllerStatus × List Output)}
    (plays : Plays operations machine observations after)
    (continues : ∀ operation ∈ operations, operation.Continues)
    (chronicle : Chronicle false machine) (start : outer machine)
    (adjusts :
      ∀ before after, Adjusted before after → outer before → outer after)
    (begins :
      ∀ before now, before.state = .active → Chronicle false before →
        outer before → inner (before.beginRun now))
    (moves :
      ∀ before after, Move before.timestamp before after →
        Chronicle true before → inner before → inner after)
    (ends :
      ∀ machine, Quiescent machine.timestamp machine →
        Chronicle true machine → inner machine → outer machine) :
    Chronicle false after ∧ outer after := by
  induction plays with
  | done machine =>
      exact ⟨chronicle, start⟩
  | @call operation operations before middle after status observations performs
      rest inductionHypothesis =>
      have loaded := chronicle.loaded
      have goesOn : ∀ operation ∈ operations, operation.Continues :=
        fun operation member => continues operation (List.mem_cons_of_mem _ member)
      rcases adjusted_or_runs (continues _ List.mem_cons_self) loaded performs with
        ⟨adjusted, -⟩ | ⟨now, fuel, -, active, runs⟩
      · exact
          inductionHypothesis goesOn (.adjusted _ _ chronicle adjusted)
            (adjusts _ _ adjusted start)
      · obtain ⟨settled, running, moved, same, quiescent, rfl, -⟩ :=
          chronicle.run active runs
        have reached :
            ∀ machine,
              ReflTransGen (Move (before.getTimestamp now))
                  (before.beginRun now) machine →
                Chronicle true machine ∧
                  machine.timestamp = before.getTimestamp now ∧
                  inner machine := by
          intro machine moved
          induction moved with
          | refl =>
              exact
                ⟨.began before now chronicle active,
                  timestamp_beginRun before now,
                  begins before now active chronicle start⟩
          | tail _ move inductionHypothesis =>
              obtain ⟨earlier, same, holds⟩ := inductionHypothesis
              have move' := move
              rw [← same] at move'
              obtain ⟨rank, sound⟩ := earlier.sound
              obtain ⟨event, -, logged⟩ := move.step sound
              exact
                ⟨.moved _ _ earlier move', logged.timestamp_eq.trans same,
                  moves _ _ move' earlier holds⟩
        rw [← same] at quiescent
        have concluded :=
          adjusted_conclusion (before.getTimestamp now) settled
        exact
          inductionHypothesis goesOn
            (.adjusted _ _ (.finished settled running quiescent) concluded)
            (adjusts _ _ concluded
              (ends settled quiescent running (reached settled moved).2.2))

/-! ### The picture -/

variable {rank : Nat → Nat} {program : Controller} {strips : StripId → Strip}
  {machine after : Machine} {timestamp : UInt32}

/-- The machine plays a program that was loaded before its start, and nothing
is executing. -/
structure Loads (program : Controller) (strips : StripId → Strip)
    (machine : Machine) : Prop where
  instructions : machine.instructions = program.instructions
  instructionCount : machine.instructionCount = program.instructionCount
  executing : machine.executing = []
  lengths : ∀ id, (machine.strips id).ledCount = (strips id).ledCount

theorem Loads.adjusted (loads : Loads program strips machine)
    (adjusts : Adjusted machine after) : Loads program strips after := by
  constructor
  · rw [adjusts.instructions]
    exact loads.instructions
  · rw [adjusts.instructionCount]
    exact loads.instructionCount
  · rw [adjusts.executing]
    exact loads.executing
  · rw [adjusts.strips]
    exact loads.lengths

theorem Loads.colored (loads : Loads program strips machine)
    (colored : program.Colored) : machine.Colored :=
  colored.of_eq loads.instructions loads.instructionCount

/-- The instruction at the cursor is the next one in program order. -/
theorem Loads.timeline (loads : Loads program strips machine)
    (sound : machine.Sound rank) :
    machine.timeline 0 = program.programOrder :=
  sound.committed.timeline_root.trans
    (Controller.programOrder_of_eq loads.instructions loads.instructionCount)

theorem Loads.size (loads : Loads program strips machine)
    (sound : machine.Sound rank) :
    machine.size 0 = program.programOrder.length := by
  rw [← loads.timeline sound, Controller.timeline, List.length_map,
    List.length_range]

theorem Loads.slotAt (loads : Loads program strips machine)
    (sound : machine.Sound rank) (position : Nat)
    (below : position < program.programOrder.length) :
    machine.slotAt 0 position = program.programOrder[position] := by
  have timeline := loads.timeline sound
  have listed :
      program.programOrder[position]? = some (machine.slotAt 0 position) := by
    rw [← timeline, Controller.timeline, List.getElem?_map,
      List.getElem?_range (by rw [loads.size sound]; exact below)]
    rfl
  rw [List.getElem?_eq_getElem below] at listed
  exact (Option.some.inj listed).symm

/-- What a step of the scheduler does to the root. -/
theorem Loads.step {event : Event} (loads : Loads program strips machine)
    (colored : program.Colored) (sound : machine.Sound rank)
    (step :
      machine.toController.Step machine.strips timestamp event
        after.toController)
    (logged : Logged machine after event) :
    Controller.Draws timestamp machine.toController after.toController event ∧
      Loads program strips after := by
  obtain ⟨draws, instructions, executing⟩ :=
    step.draws (loads.colored colored) sound loads.executing
  refine ⟨draws, ?_, ?_, executing, ?_⟩
  · exact instructions.trans loads.instructions
  · exact step.sameProgram.instructionCount.trans loads.instructionCount
  · intro id
    exact (logged.around.leds id).trans (loads.lengths id)

/-- What a move of the scheduler does to the root and to the strips. -/
theorem Loads.move (loads : Loads program strips machine)
    (colored : program.Colored) (sound : machine.Sound rank)
    (move : Move timestamp machine after) :
    ∃ event,
      Controller.Draws timestamp machine.toController after.toController
          event ∧
        Loads program strips after ∧ after.clocks = machine.clocks ∧
        after.strips =
          paint machine.strips
            (program.drawing strips event.execution.toList) := by
  obtain ⟨event, step, logged⟩ := move.step sound
  obtain ⟨draws, loads'⟩ := loads.step colored sound step logged
  have painted := move.painted logged
  have writes :
      Moment.writes machine.strips timestamp
          ⟨machine.clocks.length - 1, event, machine.toController,
            after.toController⟩ =
        program.drawing strips event.execution.toList := by
    cases draws with
    | restarted | ended =>
        rfl
    | drawn due =>
        have colors :=
          (loads.colored colored).slot sound.committed due.remaining
        show ((machine.instructions (machine.nextSlot 0)).execute machine.strips
          machine.refreshPeriodMs timestamp).2.2.1 = _
        rw [Controller.nextSlot, colors.execute loads.lengths,
          loads.instructions]
        exact (List.flatMap_singleton _ _).symm
  rw [writes] at painted
  exact ⟨event, draws, loads', logged.around.clocks, painted⟩

/-- A program of colors right after its start. -/
theorem loads_of_start {before started : Machine} {repeats : LoopCount}
    {now : Nat} (loadable : before.Loadable) (colored : before.Colored)
    (starts : before.start repeats now = (started, .success)) :
    Loads before.toController before.strips started ∧
      started.clocks = [before.clockReading now] ∧
      started.strips = before.strips ∧ (started.runtimes 0).cursor = 0 ∧
      ((started.runtimes 0).active = true ↔ before.programOrder ≠ []) ∧
      ((started.runtimes 0).active = true →
        (started.runtimes 0).repeatsRemaining = repeats ∧
          (started.runtimes 0).startTime = before.getTimestamp now) := by
  obtain ⟨rank, build, committed, validated, controller, clocks, -, same⟩ :=
    start_success loadable starts
  have colored' : (before.committedStart build).Colored := colored
  have root :
      ∀ index, index ∈ (before.committedStart build).timeline 0 →
        (before.instructions index).Colors := by
    intro index member
    obtain ⟨position, inRange, rfl⟩ := List.mem_map.mp member
    exact colored'.slot committed (List.mem_range.mp inRange)
  have instructions : started.instructions = before.instructions := by
    rw [controller]
    unfold Controller.afterStart
    split
    · rfl
    · funext index
      by_cases member : index ∈ (before.committedStart build).timeline 0
      · simp only [Controller.activate, if_pos member]
        exact (root index member).resetForReplay
      · simp only [Controller.activate, if_neg member]
        rfl
  have loads : Loads before.toController before.strips started := by
    refine ⟨instructions, ?_, ?_, ?_⟩
    · rw [controller]
      exact (@Controller.afterStart_sameProgram build repeats _ _).instructionCount
    · exact (origin_of_start loadable starts).executing
    · intro id
      rw [same]
  have runtime :
      started.runtimes 0 =
        if 0 = 0 ∧ (before.committedStart build).size 0 ≠ 0 then
          { record := (before.committedStart build).groups 0
            startTime := before.getTimestamp now
            repeatsRemaining := repeats
            active := true }
        else
          { record := (before.committedStart build).groups 0 } := by
    rw [controller]
    exact Controller.afterStart_runtime 0
  have size :
      (before.committedStart build).size 0 = before.programOrder.length := by
    have ordered := committed.timeline_root
    rw [show (before.committedStart build).programOrder =
      before.programOrder from rfl] at ordered
    rw [← ordered, Controller.timeline, List.length_map, List.length_range]
  rw [size] at runtime
  refine ⟨loads, clocks, same, ?_, ?_, ?_⟩
  · rw [runtime]
    split <;> rfl
  · rw [runtime]
    split
    · rename_i nonempty
      exact
        ⟨fun _ => List.ne_nil_of_length_pos (Nat.pos_of_ne_zero nonempty.2),
          fun _ => rfl⟩
    · rename_i empty
      refine ⟨fun active => Bool.noConfusion active, fun nonempty => ?_⟩
      exact absurd ⟨rfl, mt List.length_eq_zero_iff.mp nonempty⟩ empty
  · intro active
    rw [runtime] at active ⊢
    split at active
    · rename_i nonempty
      rw [if_pos nonempty]
      exact ⟨rfl, rfl⟩
    · cases active

/-- The program was drawn some number of times, and then up to the cursor of
its root. -/
structure Painted (program : Controller) (strips : StripId → Strip)
    (passes : Nat) (machine : Machine) : Prop where
  picture :
    machine.strips =
      paint strips
        ((List.replicate passes
            (program.drawing strips program.programOrder)).flatten ++
          program.drawing strips
            (program.programOrder.take (machine.runtimes 0).cursor))
  ended :
    (machine.runtimes 0).active = false →
      0 < passes ∧ (machine.runtimes 0).cursor = 0

theorem take_succ_cursor (loads : Loads program strips machine)
    (sound : machine.Sound rank)
    (due : machine.Due timestamp 0) :
    program.programOrder.take ((machine.runtimes 0).cursor + 1) =
      program.programOrder.take (machine.runtimes 0).cursor ++
        [machine.nextSlot 0] := by
  have below := due.remaining
  rw [loads.size sound] at below
  rw [List.take_add_one, List.getElem?_eq_getElem below, Controller.nextSlot,
    loads.slotAt sound _ below]
  rfl

/-- At the end of a pass the whole program is drawn. -/
theorem take_of_ready (loads : Loads program strips machine)
    (sound : machine.Sound rank) (ready : machine.Ready 0) :
    program.programOrder.take (machine.runtimes 0).cursor =
      program.programOrder := by
  apply List.take_of_length_le
  rw [← loads.size sound]
  exact ready.dispatched

/-- One pass more. -/
private theorem flatten_replicate_succ (passes : Nat)
    (whole : List PixelWrite) :
    (List.replicate passes whole).flatten ++ whole =
      (List.replicate (passes + 1) whole).flatten := by
  rw [List.replicate_succ', List.flatten_append, List.flatten_singleton]

theorem Painted.move {passes : Nat} (painted : Painted program strips passes machine)
    (loads : Loads program strips machine) (colored : program.Colored)
    (sound : machine.Sound rank) (move : Move timestamp machine after) :
    ∃ passes, Painted program strips passes after := by
  obtain ⟨event, draws, -, -, drawn⟩ := loads.move colored sound move
  rw [painted.picture, ← paint_append, List.append_assoc] at drawn
  cases draws with
  | drawn due active cursor =>
      refine ⟨passes, ?_, fun inactive => ?_⟩
      · rw [drawn, cursor, take_succ_cursor loads sound due,
          Controller.drawing_append]
        rfl
      · rw [active] at inactive
        cases inactive
  | restarted ready again active cursor =>
      refine ⟨passes + 1, ?_, fun inactive => ?_⟩
      · rw [drawn, take_of_ready loads sound ready, cursor,
          ← flatten_replicate_succ, List.append_assoc]
        rfl
      · rw [active] at inactive
        cases inactive
  | ended ready inactive cursor =>
      refine ⟨passes + 1, ?_, fun _ => ⟨Nat.succ_pos _, cursor⟩⟩
      rw [drawn, take_of_ready loads sound ready, cursor,
        ← flatten_replicate_succ, List.append_assoc]
      rfl

/-- What holds of a program of colors between the moves of its scheduler. -/
structure Drawn (program : Controller) (strips : StripId → Strip)
    (machine : Machine) : Prop where
  loads : Loads program strips machine
  painted : ∃ passes, Painted program strips passes machine

theorem Drawn.adjusted (drawn : Drawn program strips machine)
    (adjusts : Adjusted machine after) : Drawn program strips after := by
  obtain ⟨loads, passes, picture, ended⟩ := drawn
  refine ⟨loads.adjusted adjusts, passes, ?_, ?_⟩
  · rw [adjusts.strips, adjusts.runtimes]
    exact picture
  · rw [adjusts.runtimes]
    exact ended

theorem Drawn.begun (drawn : Drawn program strips machine) (now : Nat) :
    Drawn program strips (machine.beginRun now) := by
  obtain ⟨loads, passes, picture, ended⟩ := drawn
  exact
    ⟨⟨loads.instructions, loads.instructionCount, loads.executing,
        loads.lengths⟩,
      passes, picture, ended⟩

theorem Drawn.move (drawn : Drawn program strips machine)
    (colored : program.Colored) (sound : machine.Sound rank)
    (move : Move timestamp machine after) : Drawn program strips after := by
  obtain ⟨loads, passes, painted⟩ := drawn
  obtain ⟨-, -, loads', -⟩ := loads.move colored sound move
  exact ⟨loads', painted.move loads colored sound move⟩

theorem drawn_of_start {before started : Machine} {repeats : LoopCount}
    {now : Nat} (loadable : before.Loadable) (colored : before.Colored)
    (starts : before.start repeats now = (started, .success)) :
    Drawn before.toController before.strips started := by
  obtain ⟨loads, -, same, cursor, active, -⟩ :=
    loads_of_start loadable colored starts
  refine ⟨loads, if before.programOrder = [] then 1 else 0, ?_, ?_⟩
  · rw [same, cursor]
    split
    · rename_i empty
      rw [empty]
      rfl
    · rfl
  · intro inactive
    have empty : before.programOrder = [] := by
      by_contra nonempty
      exact Bool.noConfusion (inactive.symm.trans (active.mpr nonempty))
    rw [if_pos empty]
    exact ⟨Nat.one_pos, cursor⟩

/-- However often and however late `Run` is called, and however often the
program starts over: a program of colors that has completed shows the picture
that its instructions paint in the order of their marks, and within a mark in
the order of their insertion, on what the strips showed at the start.  While it
is active, it shows the beginning of this picture, on what the strips showed or
on the whole picture. -/
theorem completed_picture {before started : Machine} {repeats : LoopCount}
    {now : Nat} {operations : List Operation}
    {observations : List (ControllerStatus × List Output)}
    (reachable : Reachable before) (colored : before.Colored)
    (starts : before.start repeats now = (started, .success))
    (continues : ∀ operation ∈ operations, operation.Continues)
    (plays : Plays operations started observations machine) :
    (machine.state = .completed →
        machine.strips =
          paint before.strips
            (before.drawing before.strips before.programOrder)) ∧
      (machine.state = .active →
        ∃ position,
          machine.strips =
              paint before.strips
                (before.drawing before.strips
                  (before.programOrder.take position)) ∨
            machine.strips =
              paint before.strips
                (before.drawing before.strips before.programOrder ++
                  before.drawing before.strips
                    (before.programOrder.take position))) := by
  have loadable := (legal_of_reachable reachable).loadable
  obtain ⟨chronicle, loads, passes, painted⟩ :=
    @Plays.invariant (Drawn before.toController before.strips)
      (Drawn before.toController before.strips) _ _ _ _ plays continues
      (.started before started repeats now loadable starts)
      (drawn_of_start loadable colored starts)
      (fun _ _ adjusts drawn => drawn.adjusted adjusts)
      (fun _ now _ _ drawn => drawn.begun now)
      (fun _ _ move chronicle drawn =>
        chronicle.sound.elim fun _ sound => drawn.move colored sound move)
      (fun _ _ _ drawn => drawn)
  obtain ⟨rank, sound⟩ := chronicle.sound
  have lifecycle := sound.tree.lifecycle
  refine ⟨fun completed => ?_, fun _ => ?_⟩
  · have inactive : (machine.runtimes 0).active = false := by
      by_contra active
      rw [if_pos (by simpa using active), completed] at lifecycle
      cases lifecycle
    obtain ⟨positive, begun⟩ := painted.ended inactive
    obtain ⟨earlier, rfl⟩ := Nat.exists_eq_add_of_lt positive
    rw [painted.picture, begun, Nat.zero_add, ← flatten_replicate_succ,
      List.take_zero]
    exact (congrArg _ (List.append_nil _)).trans (paint_again _ _ _)
  · refine ⟨(machine.runtimes 0).cursor, ?_⟩
    rw [painted.picture]
    cases passes with
    | zero =>
        exact Or.inl rfl
    | succ passes =>
        right
        rw [paint_append, ← flatten_replicate_succ, paint_again, ← paint_append]

theorem plays_of_observe {fuel : Nat} {operations : List Operation}
    (returns : (observe fuel operations machine).isSome) :
    ∃ observations,
      Plays operations machine observations
        (machine.afterCalls fuel operations) := by
  induction operations generalizing machine with
  | nil =>
      exact ⟨[], .done machine⟩
  | cons operation rest inductionHypothesis =>
      unfold observe at returns
      unfold afterCalls
      rw [List.foldl_cons]
      cases called : operation.call fuel machine with
      | none =>
          rw [called] at returns
          cases returns
      | some result =>
          obtain ⟨next, status⟩ := result
          rw [called] at returns
          obtain ⟨observations, plays⟩ :=
            @inductionHypothesis next (by simpa using returns)
          exact ⟨_, .call (Operation.performs_of_call called) plays⟩

/-- Four colors that are not stored in the order of their marks. -/
def fourColors : Machine :=
  hosted
    [{ kind := .setSingleColor ⟨1, 0, 0⟩ 0 },
      { mark := 20, kind := .setSingleColor ⟨2, 0, 0⟩ 1 },
      { mark := 20, kind := .setMultipleColor ⟨3, 0, 0⟩ ⟨1, 3⟩ },
      { mark := 10, kind := .setSingleColor ⟨4, 0, 0⟩ 2 }]
    []

theorem fourColors_colored : fourColors.Colored := by
  decide +kernel

theorem completed_picture_of_fourColors :
    ((fourColors.start 2 0).1.afterCalls 40
        [.run 0, .run 15, .run 25, .run 90, .run 500]).strips =
      paint fourColors.strips
        (fourColors.drawing fourColors.strips fourColors.programOrder) := by
  have reachable : Reachable fourColors := reachable_hosted _ _
  have status : (fourColors.start 2 0).2 = .success := by
    decide +kernel
  have starts :
      fourColors.start 2 0 = ((fourColors.start 2 0).1, .success) := by
    rw [← status]
  have continues :
      ∀ operation ∈
          ([.run 0, .run 15, .run 25, .run 90, .run 500] : List Operation),
        operation.Continues := by
    decide
  have returns :
      (observe 40 [.run 0, .run 15, .run 25, .run 90, .run 500]
          (fourColors.start 2 0).1).isSome := by
    decide +kernel
  have completed :
      ((fourColors.start 2 0).1.afterCalls 40
          [.run 0, .run 15, .run 25, .run 90, .run 500]).state =
        .completed := by
    decide +kernel
  obtain ⟨observations, plays⟩ := plays_of_observe returns
  have pictured :=
    completed_picture reachable fourColors_colored starts continues plays
  exact pictured.1 completed

end Machine

end PrismKit
