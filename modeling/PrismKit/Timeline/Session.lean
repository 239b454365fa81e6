import PrismKit.Timeline.Chronicle

/-!
# Sessions

The calls of an application in order, as a computation.  Every session of a
fresh controller ends in a reachable machine, so concrete states can be
obtained by evaluation.
-/

namespace PrismKit

namespace Operation

/-- The call as a function.  Only `Run` needs the bound on the iterations of
its loop, and returns nothing when the bound is too small. -/
def call (fuel : Nat) (operation : Operation) (machine : Machine) :
    Option (Machine × ControllerStatus) :=
  match operation with
  | .setStrip strip => some ({ machine with strip := strip }, .success)
  | .addInstruction instr => some (machine.addInstruction instr)
  | .start repeats now => some (machine.start repeats now)
  | .run now => machine.run fuel now
  | .resetInstructions => some (machine.resetInstructions, .success)
  | .setRefreshPeriodMs periodMs => some (machine.setRefreshPeriodMs periodMs)
  | .setTimestampCallback registered =>
      some ({ machine with timestampCallback := registered }, .success)
  | .setScheduleCallback registered =>
      some ({ machine with scheduleCallback := registered }, .success)

theorem performs_of_call {fuel : Nat} {operation : Operation}
    {before after : Machine} {status : ControllerStatus}
    (called : operation.call fuel before = some (after, status)) :
    Performs operation before after status := by
  cases operation with
  | run now =>
      exact ⟨fuel, called⟩
  | setStrip strip =>
      cases called
      exact ⟨rfl, rfl⟩
  | addInstruction instr =>
      exact Option.some.inj called
  | start repeats now =>
      exact Option.some.inj called
  | resetInstructions =>
      cases called
      exact ⟨rfl, rfl⟩
  | setRefreshPeriodMs periodMs =>
      exact Option.some.inj called
  | setTimestampCallback registered =>
      cases called
      exact ⟨rfl, rfl⟩
  | setScheduleCallback registered =>
      cases called
      exact ⟨rfl, rfl⟩

end Operation

namespace Machine

/-- The machine after a list of calls; a call that does not return within the
bound is left out. -/
def afterCalls (fuel : Nat) (operations : List Operation)
    (machine : Machine) : Machine :=
  operations.foldl
    (fun current operation =>
      match operation.call fuel current with
      | none => current
      | some (after, _) => after)
    machine

theorem reachable_afterCalls {fuel : Nat} {machine : Machine}
    (reachable : Reachable machine) (operations : List Operation) :
    Reachable (machine.afterCalls fuel operations) := by
  induction operations generalizing machine with
  | nil =>
      exact reachable
  | cons operation rest inductionHypothesis =>
      apply inductionHypothesis
      beta_reduce
      split
      · exact reachable
      · rename_i after status called
        exact .perform operation reachable (Operation.performs_of_call called)

/-- A host with one strip of seven lit pixels that registers both callbacks,
stores a program and makes some calls. -/
def hosted (program : List ControllerInstruction)
    (calls : List Operation) : Machine :=
  (fresh fun _ => ⟨7, true, fun _ => ⟨100, 50, 25⟩⟩).afterCalls 40
    ([.setStrip (some 0), .setTimestampCallback true,
        .setScheduleCallback true] ++
      program.map (fun instr => .addInstruction (some instr)) ++ calls)

theorem reachable_hosted (program : List ControllerInstruction)
    (calls : List Operation) : Reachable (hosted program calls) :=
  reachable_afterCalls (.fresh _) _

/-- A child with two additional repeats of one Fade, run to its end. -/
def repeatedFade : Machine :=
  hosted
    [{ kind := .runGroup 5 2 },
      { groupId := 5, kind := .fade { percent := 50, durationMs := 30 } }]
    [.start 0 0, .run 0, .run 30, .run 60, .run 90]

/-- Four colors that are not stored in the order of their marks. -/
def staggered : Machine :=
  hosted
    [{ kind := .setSingleColor ⟨1, 0, 0⟩ 0 },
      { mark := 20, kind := .setSingleColor ⟨2, 0, 0⟩ 1 },
      { mark := 20, kind := .setSingleColor ⟨3, 0, 0⟩ 1 },
      { mark := 10, kind := .setSingleColor ⟨4, 0, 0⟩ 2 }]
    [.start 0 0, .run 0, .run 15, .run 25]

end Machine

end PrismKit
