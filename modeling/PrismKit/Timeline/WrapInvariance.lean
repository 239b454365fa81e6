import PrismKit.Timeline.Rerun

/-!
# The clock may wrap

A program without `Fade` depends on the differences of clock readings only, so
moving every reading by the same amount, across the end of the counter or not,
changes nothing that the controller does.
-/

namespace PrismKit

open Library

namespace Operation

/-- The same call when the clock shows `delay` milliseconds more. -/
def shifted (delay : Nat) : Operation → Operation
  | .start repeats now => .start repeats (now + delay)
  | .run now => .run (now + delay)
  | operation => operation

/-- Whether the call stores a `Fade`. -/
def addsFade : Operation → Bool
  | .addInstruction (some instr) => instr.isFade
  | _ => false

/-- Whether the call may ask for the time. -/
def readsClock : Operation → Bool
  | .start _ _ => true
  | .run _ => true
  | _ => false

def registers (registered : Bool) : Operation → Bool
  | .setTimestampCallback registered' => registered'
  | _ => registered

/-- Every call that may ask for the time finds a clock. -/
def Clocked (registered : Bool) : List Operation → Prop
  | [] => True
  | operation :: rest =>
      (operation.readsClock = true → registered = true) ∧
        Clocked (operation.registers registered) rest

end Operation

namespace Machine

variable {delay : Nat} {lead lead' : List Output} {machine other : Machine}

theorem getTimestamp_shifted (registered : machine.timestampCallback = true)
    (registered' : other.timestampCallback = true) (now : Nat) :
    other.getTimestamp (now + delay) =
      machine.getTimestamp now + UInt32.ofNat delay := by
  simp only [getTimestamp, clockReading, registered, registered', if_true,
    UInt32.ofNat_add]

/-- An editable program has no pass under way, so its twin may get the same
instruction. -/
private theorem Twin.addInstruction
    (twin : Twin (UInt32.ofNat delay) lead lead' false machine other)
    (legal : Legal machine) (instr : Option ControllerInstruction)
    (fadeless : (Operation.addInstruction instr).addsFade = false) :
    (machine.addInstruction instr).2 = (other.addInstruction instr).2 ∧
      Twin (UInt32.ofNat delay) lead lead' false
        (machine.addInstruction instr).1 (other.addInstruction instr).1 := by
  unfold Machine.addInstruction
  cases instr with
  | none =>
      exact ⟨rfl, twin⟩
  | some instr =>
      simp only [twin.state, twin.instructionCount, twin.strip]
      split
      · exact ⟨rfl, twin⟩
      · rename_i editable
        have blank := legal.blank (not_not.mp editable)
        split
        · exact ⟨rfl, twin⟩
        · refine ⟨rfl, ?_⟩
          refine
            { twin with
              strip := rfl
              state := rfl
              instructionCount := rfl
              configuration := ?_
              steady := ?_
              timelines := ?_
              entries := ?_ }
          · intro index
            by_cases added : index = machine.instructionCount
            · subst added
              simp only [Function.update_self]
              rfl
            · simp only [Function.update_of_ne added]
              exact twin.configuration index
          · rcases twin.steady with still | others
            · exact Or.inl still
            · right
              intro index
              by_cases added : index = machine.instructionCount
              · subst added
                simp only [Function.update_self]
                exact fadeless
              · simp only [Function.update_of_ne added]
                exact others index
          · intro group active
            simp only [blank.runtimes] at active
            exact Bool.noConfusion active
          · intro entry member
            simp only [blank.executing] at member
            exact absurd member List.not_mem_nil

private theorem Twin.call
    (twin : Twin (UInt32.ofNat delay) lead lead' false machine other)
    (legal : Legal machine) (legal' : Legal other) (operation : Operation)
    (fadeless : operation.addsFade = false)
    (clocked :
      operation.readsClock = true → machine.timestampCallback = true)
    (fuel : Nat) :
    (operation.call fuel machine = none ∧
        (operation.shifted delay).call fuel other = none) ∨
      ∃ after after' status,
        operation.call fuel machine = some (after, status) ∧
          (operation.shifted delay).call fuel other = some (after', status) ∧
            Twin (UInt32.ofNat delay) lead lead' false after after' := by
  cases operation with
  | setStrip strip =>
      exact Or.inr ⟨_, _, _, rfl, rfl, { twin with strip := rfl }⟩
  | addInstruction instr =>
      have added := twin.addInstruction legal instr fadeless
      refine
        Or.inr
          ⟨_, _, (machine.addInstruction instr).2, rfl, ?_, added.2⟩
      rw [added.1]
      rfl
  | start repeats now =>
      right
      by_cases busy : machine.state = .active
      · have busy' : other.state = .active := twin.state.trans busy
        refine ⟨machine, other, .busy, ?_, ?_, twin⟩
        · simp only [Operation.call, Machine.start, if_pos busy]
        · simp only [Operation.shifted, Operation.call, Machine.start,
            if_pos busy']
      · have busy' : ¬ other.state = .active := by
          rw [twin.state]
          exact busy
        have clock : machine.timestampCallback = true := clocked rfl
        have clock' : other.timestampCallback = true := by
          rw [twin.timestampCallback]
          exact clock
        rcases
          twin.toAlike.start legal.loadable legal'.loadable busy busy' repeats
            (getTimestamp_shifted clock clock' now) with
          ⟨status, refused, refused'⟩ |
            ⟨after, after', starts, starts', agree⟩
        · exact
            ⟨machine, other, status, congrArg some refused,
              congrArg some refused', twin⟩
        · exact
            ⟨after, after', .success, congrArg some starts,
              congrArg some starts', agree⟩
  | run now =>
      have clock : machine.timestampCallback = true := clocked rfl
      have clock' : other.timestampCallback = true := by
        rw [twin.timestampCallback]
        exact clock
      exact twin.run fuel (getTimestamp_shifted clock clock' now)
  | resetInstructions =>
      refine Or.inr ⟨_, _, _, rfl, rfl, ?_⟩
      refine
        { twin with
          instructionCount := rfl
          configuration := fun _ => rfl
          steady := Or.inr fun _ => rfl
          state := rfl
          showRequested := rfl
          minScheduledTimeout := rfl
          groupCount := rfl
          groups := rfl
          groupIndices := rfl
          runtimes := fun _ => rfl
          executing := rfl
          timelines := ?_
          entries := ?_ }
      · intro group active
        exact Bool.noConfusion active
      · intro entry member
        exact absurd member List.not_mem_nil
  | setRefreshPeriodMs periodMs =>
      right
      simp only [Operation.shifted, Operation.call, setRefreshPeriodMs,
        twin.state]
      split
      · exact ⟨_, _, _, rfl, rfl, twin⟩
      · split
        · exact ⟨_, _, _, rfl, rfl, twin⟩
        · exact
            ⟨_, _, _, rfl, rfl,
              { twin with state := rfl, refreshPeriodMs := rfl }⟩
  | setTimestampCallback registered =>
      exact
        Or.inr ⟨_, _, _, rfl, rfl, { twin with timestampCallback := rfl }⟩
  | setScheduleCallback registered =>
      exact
        Or.inr ⟨_, _, _, rfl, rfl, { twin with scheduleCallback := rfl }⟩

theorem timestampCallback_call {fuel : Nat} {operation : Operation}
    {before after : Machine} {status : ControllerStatus}
    (legal : Legal before)
    (called : operation.call fuel before = some (after, status)) :
    after.timestampCallback =
      operation.registers before.timestampCallback := by
  cases operation with
  | addInstruction instr =>
      have added : before.addInstruction instr = (after, status) :=
        Option.some.inj called
      have kept :
          (before.addInstruction instr).1.timestampCallback =
            before.timestampCallback := by
        unfold Machine.addInstruction
        cases instr with
        | none =>
            rfl
        | some instr =>
            simp only
            split
            · rfl
            · split <;> rfl
      rw [added] at kept
      exact kept
  | start repeats now =>
      have starts : before.start repeats now = (after, status) :=
        Option.some.inj called
      exact (keeps_of_start legal.loadable starts).timestampCallback
  | run now =>
      exact (keeps_of_run legal called).timestampCallback
  | setRefreshPeriodMs periodMs =>
      have set : before.setRefreshPeriodMs periodMs = (after, status) :=
        Option.some.inj called
      unfold Machine.setRefreshPeriodMs at set
      split at set
      · cases set
        rfl
      · split at set
        · cases set
          rfl
        · cases set
          rfl
  | _ =>
      cases called
      rfl

/-- Twins show the same from here on. -/
private theorem Twin.shows
    (twin : Twin (UInt32.ofNat delay) lead lead' false machine other)
    (reachable : Reachable machine) (reachable' : Reachable other)
    (operations : List Operation)
    (fadeless : ∀ operation ∈ operations, operation.addsFade = false)
    (clocked : Operation.Clocked machine.timestampCallback operations)
    (observations : List (ControllerStatus × List Output)) :
    Shows operations machine observations ↔
      Shows (operations.map (Operation.shifted delay)) other observations := by
  induction operations generalizing machine other lead lead' observations with
  | nil =>
      rw [List.map_nil, shows_nil_iff, shows_nil_iff]
  | cons operation rest inductionHypothesis =>
      have legal := legal_of_reachable reachable
      have legal' := legal_of_reachable reachable'
      have first := fadeless operation List.mem_cons_self
      obtain ⟨reads, later⟩ := clocked
      rw [List.map_cons]
      apply shows_cons_congr
      intro fuel
      rcases twin.rebase.call legal legal' operation first reads fuel with
        stuck | ⟨after, after', status, called, called', agree⟩
      · exact Or.inl stuck
      · right
        refine ⟨after, after', status, called, called', agree.toAlike, ?_⟩
        intro remaining
        apply inductionHypothesis agree
        · exact
            .perform operation reachable (Operation.performs_of_call called)
        · exact
            .perform (operation.shifted delay) reachable'
              (Operation.performs_of_call called')
        · intro other member
          exact fadeless other (List.mem_cons_of_mem _ member)
        · rw [timestampCallback_call legal called]
          exact later

/-- A fresh machine is its own twin on every clock. -/
private theorem twin_fresh (strips : StripId → Strip) (offset : UInt32) :
    Twin offset [] [] false (fresh strips) (fresh strips) := by
  refine
    { strip := rfl
      strips := rfl
      instructionCount := rfl
      refreshPeriodMs := rfl
      timestampCallback := rfl
      scheduleCallback := rfl
      configuration := fun _ => rfl
      steady := Or.inr fun _ => rfl
      outputs := ⟨[], rfl, rfl⟩
      state := rfl
      showRequested := rfl
      minScheduledTimeout := rfl
      groupCount := rfl
      groups := rfl
      groupIndices := rfl
      runtimes := fun _ => rfl
      executing := rfl
      timelines := ?_
      entries := ?_
      runStatus := fun _ => rfl }
  · intro group active
    exact Bool.noConfusion active
  · intro entry member
    exact absurd member List.not_mem_nil

/-- Calls that store no `Fade` are answered alike whatever the clock showed at
the first of them: call by call the same status and the same writes, shows and
scheduled delays. -/
theorem wrap_invisible (strips : StripId → Strip) (delay : Nat)
    (operations : List Operation)
    (fadeless : ∀ operation ∈ operations, operation.addsFade = false)
    (clocked : Operation.Clocked false operations)
    (observations : List (ControllerStatus × List Output)) :
    Shows operations (fresh strips) observations ↔
      Shows (operations.map (Operation.shifted delay)) (fresh strips)
        observations :=
  (twin_fresh strips (UInt32.ofNat delay)).shows (.fresh strips)
    (.fresh strips) operations fadeless clocked observations

def litStrip : StripId → Strip :=
  fun _ => ⟨7, true, fun _ => ⟨100, 50, 25⟩⟩

def glow : List Operation :=
  [.setStrip (some 0), .setTimestampCallback true, .setScheduleCallback true,
    .addInstruction
      (some
        { kind := .gradient { target := ⟨9, 8, 7⟩, durationMs := 40 } }),
    .start 0 100, .run 100, .run 120, .run 140]

/-- The same when the counter overflows ten milliseconds after the start. -/
theorem wrap_invisible_of_glow :
    ∃ observations,
      observe 40 glow (fresh litStrip) = some observations ∧
        Shows (glow.map (Operation.shifted (2 ^ 32 - 110))) (fresh litStrip)
          observations := by
  have returns : (observe 40 glow (fresh litStrip)).isSome = true := by
    decide +kernel
  obtain ⟨observations, observed⟩ := Option.isSome_iff_exists.mp returns
  refine ⟨observations, observed, ?_⟩
  have fadeless : ∀ operation ∈ glow, operation.addsFade = false := by
    decide +kernel
  have clocked : Operation.Clocked false glow := by
    simp [glow, Operation.Clocked, Operation.readsClock, Operation.registers]
  exact
    (wrap_invisible litStrip (2 ^ 32 - 110) glow fadeless clocked
      observations).mp (shows_of_observe observed)

end Machine

end PrismKit
