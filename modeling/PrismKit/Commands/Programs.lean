import PrismKit.Commands.Stream
import PrismKit.Timeline.Start

/-!
# Programs of the host

A program as the host sends it: a reset, its instructions and a start.  Carried
out in this order, the commands leave exactly these instructions in the
controller, and whether the start succeeds can be read off the list.
-/

namespace PrismKit

open Relation

structure HostProgram where
  stores : List HostCommand
  instructions : List ControllerInstruction
  asks : stores.map HostCommand.intent = instructions.map Intent.store
  launch : HostCommand
  repeats : LoopCount
  launches : launch.intent = .start repeats
  fits : instructions.length ≤ maxInstructions

/-- The commands in the order in which they are sent. -/
def HostProgram.commands (program : HostProgram) : List HostCommand :=
  .resetInstructions :: (program.stores ++ [program.launch])

theorem HostProgram.length_stores (program : HostProgram) :
    program.stores.length = program.instructions.length := by
  have lengths := congrArg List.length program.asks
  rw [List.length_map, List.length_map] at lengths
  exact lengths

theorem HostProgram.take_starts {program : HostProgram} {count : Nat}
    (below : count < program.commands.length) :
    ∀ command ∈ program.commands.take count, ∀ repeats,
      command.intent ≠ .start repeats := by
  have fits : count ≤ program.stores.length + 1 := by
    rw [HostProgram.commands, List.length_cons, List.length_append,
      List.length_singleton] at below
    omega
  rw [HostProgram.commands, ← List.cons_append,
    List.take_append_of_le_length (by rw [List.length_cons]; exact fits)]
  intro command member repeats starts
  rcases List.mem_cons.mp (List.mem_of_mem_take member) with rfl | among
  · cases starts
  · have intent := List.mem_map_of_mem (f := HostCommand.intent) among
    rw [program.asks, starts] at intent
    obtain ⟨instr, -, same⟩ := List.mem_map.mp intent
    cases same

namespace Controller

structure Contains (controller : Controller)
    (instructions : List ControllerInstruction) : Prop where
  editable : controller.state = .editable
  count : controller.instructionCount = instructions.length
  stored :
    ∀ index instr, instructions[index]? = some instr →
      controller.instructions index = .store instr controller.strip

variable {controller : Controller} {instructions : List ControllerInstruction}

/-- The next slot takes one more instruction. -/
theorem Contains.snoc (contains : controller.Contains instructions)
    (instr : ControllerInstruction) :
    Contains
      { controller with
        instructions :=
          Function.update controller.instructions controller.instructionCount
            (.store instr controller.strip)
        instructionCount := controller.instructionCount + 1 }
      (instructions ++ [instr]) where
  editable := contains.editable
  count := by
    rw [List.length_append, ← contains.count]
    rfl
  stored := by
    intro index other found
    show Function.update _ _ _ index = _
    rw [contains.count]
    by_cases last : index = instructions.length
    · rw [last, List.getElem?_concat_length] at found
      cases found
      rw [last, Function.update_self]
    · have below : index < instructions.length := by
        have bound := (List.getElem?_eq_some_iff.mp found).1
        rw [List.length_append, List.length_singleton] at bound
        omega
      rw [List.getElem?_append_left below] at found
      rw [Function.update_of_ne last]
      exact contains.stored index other found

/-- What the slots say is what the instructions say. -/
theorem Contains.exists_iff (contains : controller.Contains instructions)
    (property : InstructionMemorySlot → Prop) :
    (∃ index, index < controller.instructionCount ∧
        property (controller.instructions index)) ↔
      ∃ instr ∈ instructions, property (.store instr controller.strip) := by
  rw [contains.count]
  constructor
  · rintro ⟨index, below, has⟩
    have found := List.getElem?_eq_getElem below
    rw [contains.stored index _ found] at has
    exact ⟨_, List.getElem_mem below, has⟩
  · rintro ⟨instr, member, has⟩
    obtain ⟨index, found⟩ := List.getElem?_of_mem member
    refine ⟨index, (List.getElem?_eq_some_iff.mp found).1, ?_⟩
    rw [contains.stored index instr found]
    exact has

theorem Contains.slot (contains : controller.Contains instructions) {index : Nat}
    (below : index < controller.instructionCount) :
    ∃ instr ∈ instructions,
      controller.instructions index = .store instr controller.strip :=
  (contains.exists_iff fun slot => slot = controller.instructions index).mp
    ⟨index, below, rfl⟩ |>.imp fun _ ⟨member, same⟩ => ⟨member, same.symm⟩

end Controller

/-- The group has something that takes time. -/
def Lasts (instructions : List ControllerInstruction) (id : GroupId) : Prop :=
  ∃ instr ∈ instructions,
    instr.groupId = id ∧
      (instr.mark > 0 ∨ instr.hasPositiveSchedulingBoundary)

/-- Only the root group calls others, each of them has instructions, and what is
repeated takes time. -/
structure Shallow (instructions : List ControllerInstruction)
    (repeats : LoopCount) : Prop where
  root :
    ∀ instr ∈ instructions, instr.isRunGroup →
      instr.groupId = 0 ∧ instr.targetGroupId ≠ 0 ∧
        (∃ other ∈ instructions, other.groupId = instr.targetGroupId) ∧
        (instr.additionalRepeats ≠ 0 →
          Lasts instructions instr.targetGroupId)
  lasts : repeats ≠ 0 → Lasts instructions 0

namespace Controller

variable {controller : Controller} {instructions : List ControllerInstruction}
  {repeats : LoopCount}

theorem Contains.reachesBoundary (contains : controller.Contains instructions)
    {id : GroupId} (lasts : Lasts instructions id) :
    controller.ReachesBoundary id := by
  refine ⟨id, .refl, ?_⟩
  exact
    (contains.exists_iff fun slot =>
      slot.getGroupId = id ∧
        (slot.getMark > 0 ∨ slot.hasPositiveSchedulingBoundary)).mpr lasts

theorem Contains.calls (contains : controller.Contains instructions)
    (shallow : Shallow instructions repeats) {source target : GroupId}
    (calls : controller.Calls source target) : source = 0 ∧ target ≠ 0 := by
  obtain ⟨index, below, isRun, rfl, rfl⟩ := calls
  obtain ⟨instr, member, same⟩ := contains.slot below
  rw [same] at isRun ⊢
  obtain ⟨caller, other, -⟩ := shallow.root instr member isRun
  exact ⟨caller, other⟩

/-- A shallow program may start. -/
theorem Contains.acceptable (contains : controller.Contains instructions)
    (shallow : Shallow instructions repeats) :
    controller.Acceptable repeats where
  targets := by
    intro index below isRun
    obtain ⟨instr, member, same⟩ := contains.slot below
    rw [same] at isRun ⊢
    obtain ⟨-, other, owned, -⟩ := shallow.root instr member isRun
    refine ⟨other, ?_⟩
    exact
      (contains.exists_iff fun slot =>
        slot.getGroupId = instr.targetGroupId).mpr owned
  acyclic := by
    intro id cycle
    obtain ⟨_, first, -⟩ := TransGen.head'_iff.mp cycle
    obtain ⟨_, -, last⟩ := TransGen.tail'_iff.mp cycle
    exact (contains.calls shallow last).2 (contains.calls shallow first).1
  repeats := by
    intro index below isRun repeated
    obtain ⟨instr, member, same⟩ := contains.slot below
    rw [same] at isRun repeated ⊢
    obtain ⟨-, -, -, lasts⟩ := shallow.root instr member isRun
    exact contains.reachesBoundary (lasts repeated)
  root := fun repeated => contains.reachesBoundary (shallow.lasts repeated)

end Controller

/-- A `Start` with this program succeeds. -/
def HostProgram.Accepted (program : HostProgram) : Prop :=
  ∀ controller : Controller, controller.Contains program.instructions →
    controller.Acceptable program.repeats

theorem HostProgram.accepted {program : HostProgram}
    (shallow : Shallow program.instructions program.repeats) :
    program.Accepted :=
  fun _ contains => contains.acceptable shallow

namespace HostCommand

def instruction (command : HostCommand) : Option ControllerInstruction :=
  match command.intent with
  | .store instr => some instr
  | _ => none

def Sets : HostCommand → Prop
  | runGroup .. | resetInstructions | run | start _ => False
  | _ => True

theorem Sets.instruction {command : HostCommand} (sets : command.Sets) :
    ∃ instr,
      command.instruction = some instr ∧ instr.isRunGroup = false := by
  cases command with
  | runGroup | resetInstructions | run | start => exact sets.elim
  | _ => exact ⟨_, rfl, rfl⟩

end HostCommand

theorem map_intent {stores : List HostCommand}
    (stored : ∀ command ∈ stores, command.instruction.isSome) :
    stores.map HostCommand.intent =
      (stores.filterMap HostCommand.instruction).map Intent.store := by
  induction stores with
  | nil =>
      rfl
  | cons command rest inductionHypothesis =>
      have first := stored command List.mem_cons_self
      obtain ⟨instr, asks⟩ := Option.isSome_iff_exists.mp first
      have intent : command.intent = .store instr := by
        unfold HostCommand.instruction at asks
        split at asks
        · rename_i same
          cases asks
          exact same
        · cases asks
      rw [List.map_cons, List.filterMap_cons_some asks, List.map_cons, intent,
        inductionHypothesis fun other member =>
          stored other (List.mem_cons_of_mem _ member)]

def HostProgram.of (stores : List HostCommand)
    (stored : ∀ command ∈ stores, command.instruction.isSome)
    (fits : stores.length ≤ maxInstructions) (launch : HostCommand)
    (repeats : LoopCount) (launches : launch.intent = .start repeats) :
    HostProgram where
  stores := stores
  instructions := stores.filterMap HostCommand.instruction
  asks := map_intent stored
  launch := launch
  repeats := repeats
  launches := launches
  fits := (List.length_filterMap_le _ _).trans fits

/-- A program without calls is accepted if it is not repeated or takes time. -/
theorem accepted_of_sets {stores : List HostCommand}
    (sets : ∀ command ∈ stores, command.Sets)
    (fits : stores.length ≤ maxInstructions) (launch : HostCommand)
    (repeats : LoopCount) (launches : launch.intent = .start repeats)
    (lasts :
      repeats ≠ 0 → Lasts (stores.filterMap HostCommand.instruction) 0) :
    ∃ program : HostProgram,
      program.commands = .resetInstructions :: (stores ++ [launch]) ∧
        program.Accepted := by
  have stored : ∀ command ∈ stores, command.instruction.isSome := by
    intro command member
    obtain ⟨instr, asks, -⟩ := (sets command member).instruction
    rw [asks]
    rfl
  refine ⟨.of stores stored fits launch repeats launches, rfl, ?_⟩
  refine HostProgram.accepted ⟨?_, lasts⟩
  intro instr member isRun
  obtain ⟨command, among, asks⟩ := List.mem_filterMap.mp member
  obtain ⟨other, asks', flat⟩ := (sets command among).instruction
  cases Option.some.inj (asks.symm.trans asks')
  rw [flat] at isRun
  cases isRun

/-! ### Dispatching a program -/

section Dispatching

variable {fuel startTime runTime : Nat} {machine after : Machine}
  {command : HostCommand} {result : ControllerCommandResult}
  {instructions : List ControllerInstruction}

theorem HostCommand.dispatch_done
    (dispatches :
      dispatchControllerCommand fuel startTime runTime machine
          command.message =
        some (after, result)) :
    command.intent.Done fuel startTime runTime machine
      (some (after, result)) := by
  obtain ⟨tag, payload, id, understood⟩ := command.sends_message
  rw [← dispatches]
  exact understood.done fuel startTime runTime machine

theorem contains_reset
    (dispatches :
      dispatchControllerCommand fuel startTime runTime machine
          HostCommand.resetInstructions.message =
        some (after, result)) :
    after.Contains [] := by
  cases Option.some.inj (HostCommand.dispatch_done dispatches)
  exact ⟨rfl, rfl, fun _ _ found => nomatch found⟩

theorem contains_store {instr : ControllerInstruction}
    (contains : machine.Contains instructions)
    (space : instructions.length < maxInstructions)
    (asks : command.intent = .store instr)
    (dispatches :
      dispatchControllerCommand fuel startTime runTime machine
          command.message =
        some (after, result)) :
    after.Contains (instructions ++ [instr]) := by
  have done := HostCommand.dispatch_done dispatches
  rw [asks] at done
  cases Option.some.inj (done contains.editable (contains.count ▸ space))
  exact contains.snoc instr

/-- A tick does nothing before the start. -/
theorem contains_tick {status : ControllerStatus}
    (contains : machine.Contains instructions)
    (runs : machine.run fuel runTime = some (after, status)) :
    after.Contains instructions := by
  unfold Machine.run at runs
  rw [if_pos (by rw [contains.editable]; decide)] at runs
  cases runs
  exact contains

/-- A start with an acceptable program starts it and runs it once. -/
theorem start_accepted {repeats : LoopCount} (loadable : machine.Loadable)
    (contains : machine.Contains instructions)
    (asks : command.intent = .start repeats)
    (acceptable : machine.Acceptable repeats)
    (dispatches :
      dispatchControllerCommand fuel startTime runTime machine
          command.message =
        some (after, result)) :
    ∃ started status,
      machine.start repeats startTime = (started, .success) ∧
        started.run fuel runTime = some (after, status) ∧
        result.startAttempted = true ∧ result.startStatus = .success := by
  have done := HostCommand.dispatch_done dispatches
  rw [asks] at done
  rcases Machine.start_cases loadable repeats startTime with
    ⟨busy, -⟩ | ⟨-, refused, -⟩ | ⟨-, -, build, -, success, -⟩
  · rw [contains.editable] at busy
    cases busy
  · exact absurd acceptable refused
  · obtain ⟨⟨_, status⟩, runs, same⟩ :=
      Option.map_eq_some_iff.mp (done.2 success).symm
    cases same
    exact ⟨_, status, Prod.ext rfl success, runs, rfl, rfl⟩

theorem contains_start {repeats : LoopCount} (loadable : machine.Loadable)
    (contains : machine.Contains instructions)
    (asks : command.intent = .start repeats)
    (dispatches :
      dispatchControllerCommand fuel startTime runTime machine
          command.message =
        some (after, result)) :
    result.startAttempted = true ∧
      (result.startStatus = .success ↔ machine.Acceptable repeats) := by
  by_cases acceptable : machine.Acceptable repeats
  · obtain ⟨-, -, -, -, attempted, success⟩ :=
      start_accepted loadable contains asks acceptable dispatches
    exact ⟨attempted, fun _ => acceptable, fun _ => success⟩
  · have done := HostCommand.dispatch_done dispatches
    rw [asks] at done
    have failed : (machine.start repeats startTime).2 ≠ .success := by
      rcases Machine.start_cases loadable repeats startTime with
        ⟨-, starts⟩ | ⟨-, -, status, failure, starts⟩ | ⟨-, accepted, -⟩
      · rw [starts]
        exact ControllerStatus.noConfusion
      · rw [starts]
        exact failure
      · exact absurd accepted acceptable
    cases Option.some.inj (done.1 failed)
    exact
      ⟨rfl, fun success => absurd success failed, fun accepted =>
        absurd accepted acceptable⟩

end Dispatching

end PrismKit
