import PrismKit.Timeline.Painting
import PrismKit.Timeline.WrapInvariance

/-!
# The picture at an instant

A program of colors that is started without repeats shows, between two calls,
exactly the instructions whose marks were reached in some `Run` since, and it
completes in the first `Run` that reaches the last mark.
-/

namespace PrismKit

open Library Relation

/-- Whether a `Run` at one of these clock readings reaches the mark of a program
that was started at another one. -/
def reachedMark (start : Nat) (runs : List Nat) (mark : Mark) : Bool :=
  runs.any fun now =>
    mark.toUInt32 ≤ UInt32.ofNat now - UInt32.ofNat start

theorem reachedMark_append (start : Nat) (runs later : List Nat) (mark : Mark) :
    reachedMark start (runs ++ later) mark =
      (reachedMark start runs mark || reachedMark start later mark) :=
  List.any_append

theorem reachedMark_mono {start : Nat} {runs more : List Nat} {mark : Mark}
    (sublist : runs.Sublist more) (reached : reachedMark start runs mark) :
    reachedMark start more mark := by
  obtain ⟨now, member, late⟩ := List.any_eq_true.mp reached
  exact List.any_eq_true.mpr ⟨now, sublist.subset member, late⟩

namespace Machine

variable {rank : Nat → Nat} {program : Controller} {strips : StripId → Strip}
  {machine after : Machine} {start : Nat} {runs passed : List Nat}

/-- With all instructions dispatched, nothing keeps the root of a program of
colors from being ready. -/
theorem Loads.ready (loads : Loads program strips machine)
    (colored : program.Colored) (sound : machine.Sound rank)
    (active : (machine.runtimes 0).active)
    (dispatched : machine.size 0 ≤ (machine.runtimes 0).cursor) :
    machine.Ready 0 := by
  refine
    ⟨sound.committed.nonempty, active, dispatched, ?_, ?_⟩
  · rw [sound.work.counts, Controller.outstanding, loads.executing]
    rfl
  · rw [sound.tree.children 0 (by simp [maxGroups]), countBelow_eq_zero_iff]
    intro child _
    by_contra isChild
    simp only [Controller.isChild, Bool.not_eq_false, Bool.and_eq_true,
      decide_eq_true_eq] at isChild
    rw [(loads.colored colored).alone sound isChild.1,
      (sound.tree.root active).1] at isChild
    exact absurd isChild.2 (by simp [maxGroups])

/-- The instructions that are drawn of a program without repeats. -/
def progress (program : Controller) (machine : Machine) : Nat :=
  if (machine.runtimes 0).active then
    (machine.runtimes 0).cursor
  else
    program.programOrder.length

/-- What holds of a program of colors without repeats that was started at some
clock reading, and run at others; the marks of what is not drawn were not
reached in the passed ones of them. -/
structure Once (program : Controller) (strips : StripId → Strip) (start : Nat)
    (runs passed : List Nat) (machine : Machine) : Prop where
  loads : Loads program strips machine
  clocks : machine.clocks = start :: runs
  single :
    (machine.runtimes 0).active →
      (machine.runtimes 0).repeatsRemaining = 0 ∧
        (machine.runtimes 0).startTime = UInt32.ofNat start
  picture :
    machine.strips =
      paint strips
        (program.drawing strips
          (program.programOrder.take (machine.progress program)))
  reached :
    ∀ slot ∈ program.programOrder.take (machine.progress program),
      reachedMark start runs (program.instructions slot).getMark = true
  ahead :
    ∀ slot ∈ program.programOrder.drop (machine.progress program),
      reachedMark start passed (program.instructions slot).getMark = false

theorem Once.adjusted (once : Once program strips start runs passed machine)
    (adjusts : Adjusted machine after) :
    Once program strips start runs passed after := by
  have progress : after.progress program = machine.progress program := by
    unfold Machine.progress
    rw [adjusts.runtimes]
  constructor
  · exact once.loads.adjusted adjusts
  · rw [adjusts.clocks]
    exact once.clocks
  · rw [adjusts.runtimes]
    exact once.single
  · rw [adjusts.strips, progress]
    exact once.picture
  · rw [progress]
    exact once.reached
  · rw [progress]
    exact once.ahead

theorem Once.begun (once : Once program strips start runs passed machine)
    (now : Nat) :
    Once program strips start (runs ++ [machine.clockReading now]) passed
      (machine.beginRun now) := by
  obtain ⟨loads, clocks, single, picture, reached, ahead⟩ := once
  refine ⟨⟨loads.instructions, loads.instructionCount, loads.executing,
    loads.lengths⟩, ?_, single, picture, ?_, ahead⟩
  · show machine.clocks ++ [machine.clockReading now] = _
    rw [clocks]
    rfl
  · intro slot member
    exact
      reachedMark_mono (List.sublist_append_left _ _) (reached slot member)

theorem Once.move {now : Nat}
    (once : Once program strips start (passed ++ [now]) passed machine)
    (colored : program.Colored) (sound : machine.Sound rank)
    (move : Move machine.timestamp machine after) :
    Once program strips start (passed ++ [now]) passed after := by
  have loads := once.loads
  obtain ⟨event, draws, loads', clocks, painted⟩ :=
    loads.move colored sound move
  have timestamp : machine.timestamp = UInt32.ofNat now := by
    rw [Machine.timestamp, once.clocks, ← List.cons_append,
      List.getLast?_concat]
    rfl
  rw [once.picture, ← paint_append] at painted
  cases draws with
  | drawn due active cursor startTime repeats =>
      have before : machine.progress program = (machine.runtimes 0).cursor :=
        if_pos due.active
      have next : after.progress program = (machine.runtimes 0).cursor + 1 :=
        (if_pos active).trans cursor
      have taken := take_succ_cursor loads sound due
      refine ⟨loads', clocks.trans once.clocks, ?_, ?_, ?_, ?_⟩
      · intro _
        rw [repeats, startTime]
        exact once.single due.active
      · rw [painted, next, taken, before, Controller.drawing_append]
        rfl
      · rw [next, taken]
        intro slot member
        rcases List.mem_append.mp member with earlier | latest
        · rw [← before] at earlier
          exact once.reached slot earlier
        · -- The instruction is due, so this `Run` reaches its mark.
          rw [List.mem_singleton.mp latest, reachedMark_append]
          have late := due.reached
          rw [timestamp, (once.single due.active).2, loads.instructions] at late
          simp [reachedMark, late]
      · rw [next]
        intro slot member
        apply once.ahead slot
        rw [before]
        rw [← List.drop_drop] at member
        exact List.mem_of_mem_drop member
  | restarted ready again =>
      exact absurd (once.single ready.active).1 again
  | ended ready inactive =>
      have before : machine.progress program = (machine.runtimes 0).cursor :=
        if_pos ready.active
      have next : after.progress program = program.programOrder.length := by
        unfold Machine.progress
        rw [inactive]
        rfl
      have taken := take_of_ready loads sound ready
      refine ⟨loads', clocks.trans once.clocks, ?_, ?_, ?_, ?_⟩
      · intro active
        rw [inactive] at active
        cases active
      · rw [painted, next, before, taken, List.take_length]
        exact congrArg _ (List.append_nil _)
      · rw [next, List.take_length, ← taken, ← before]
        exact once.reached
      · rw [next, List.drop_length]
        intro slot member
        cases member

/-- At the end of a `Run` no instruction that is left has a mark that it
reaches. -/
theorem Once.settles {now : Nat}
    (once : Once program strips start (passed ++ [now]) passed machine)
    (sound : machine.Sound rank)
    (quiescent : Quiescent machine.timestamp machine) :
    Once program strips start (passed ++ [now]) (passed ++ [now]) machine := by
  refine
    ⟨once.loads, once.clocks, once.single, once.picture, once.reached, ?_⟩
  intro slot member
  have timestamp : machine.timestamp = UInt32.ofNat now := by
    rw [Machine.timestamp, once.clocks, ← List.cons_append,
      List.getLast?_concat]
    rfl
  rw [reachedMark_append, once.ahead slot member, Bool.false_or]
  by_cases active : (machine.runtimes 0).active = true
  · have before : machine.progress program = (machine.runtimes 0).cursor :=
      if_pos active
    rw [before] at member
    obtain ⟨offset, inRange, rfl⟩ := List.mem_drop_iff_getElem.mp member
    have below : (machine.runtimes 0).cursor + offset < machine.size 0 := by
      rw [once.loads.size sound]
      omega
    have ordered :=
      sound.committed.getMark_le sound.committed.nonempty
        (Nat.le_add_right (machine.runtimes 0).cursor offset) below
    have slot :=
      once.loads.slotAt sound ((machine.runtimes 0).cursor + offset) (by omega)
    rw [slot, once.loads.instructions] at ordered
    by_contra reached
    have late :
        (program.instructions
            program.programOrder[(machine.runtimes 0).cursor +
              offset]).getMark.toUInt32 ≤
          UInt32.ofNat now - UInt32.ofNat start := by
      simpa [reachedMark] using reached
    apply quiescent.not_due sound 0
    refine ⟨sound.committed.nonempty, active, by omega, ?_⟩
    rw [timestamp, (once.single active).2, once.loads.instructions]
    refine UInt32.le_trans ?_ late
    rw [UInt32.le_iff_toNat_le, UInt16.toNat_toUInt32, UInt16.toNat_toUInt32]
    exact UInt16.le_iff_toNat_le.mp ordered
  · have finished :
        machine.progress program = program.programOrder.length :=
      if_neg active
    rw [finished, List.drop_length] at member
    cases member

/-- What holds of a program of colors without repeats between two calls. -/
def Pictured (program : Controller) (strips : StripId → Strip) (start : Nat)
    (machine : Machine) : Prop :=
  ∃ runs,
    Once program strips start runs runs machine ∧
      ((machine.runtimes 0).active = true →
        (machine.runtimes 0).cursor < program.programOrder.length)

theorem pictured_of_start {before started : Machine} {now : Nat}
    (loadable : before.Loadable) (colored : before.Colored)
    (starts : before.start 0 now = (started, .success)) :
    Pictured before.toController before.strips (before.clockReading now)
      started := by
  obtain ⟨loads, clocks, same, cursor, active, single⟩ :=
    loads_of_start loadable colored starts
  have begun :
      before.programOrder.take (started.progress before.toController) = [] := by
    unfold progress
    split
    · rw [cursor]
      rfl
    · rename_i inactive
      rw [List.take_length]
      by_contra nonempty
      exact inactive (active.mpr nonempty)
  refine ⟨[], ⟨loads, clocks, single, ?_, ?_, ?_⟩, ?_⟩
  · rw [begun, same]
    rfl
  · rw [begun]
    intro slot member
    cases member
  · intro slot _
    rfl
  · intro running
    rw [cursor]
    exact List.length_pos_iff.mpr (active.mp running)

theorem Plays.pictured {before started : Machine} {now : Nat}
    {operations : List Operation}
    {observations : List (ControllerStatus × List Output)}
    (loadable : before.Loadable) (colored : before.Colored)
    (starts : before.start 0 now = (started, .success))
    (continues : ∀ operation ∈ operations, operation.Continues)
    (plays : Plays operations started observations machine) :
    Chronicle false machine ∧
      Pictured before.toController before.strips (before.clockReading now)
        machine := by
  refine
    @Plays.invariant
      (Pictured before.toController before.strips (before.clockReading now))
      (fun machine =>
        ∃ passed now',
          Once before.toController before.strips (before.clockReading now)
            (passed ++ [now']) passed machine)
      _ _ _ _ plays continues (.started before started 0 now loadable starts)
      (pictured_of_start loadable colored starts) ?_ ?_ ?_ ?_
  · rintro machine after adjusts ⟨runs, once, unfinished⟩
    refine ⟨runs, once.adjusted adjusts, ?_⟩
    rw [adjusts.runtimes]
    exact unfinished
  · rintro machine now' - - ⟨runs, once, -⟩
    exact ⟨runs, _, once.begun now'⟩
  · rintro machine after move chronicle ⟨passed, now', once⟩
    obtain ⟨rank, sound⟩ := chronicle.sound
    exact ⟨passed, now', once.move colored sound move⟩
  · rintro machine quiescent chronicle ⟨passed, now', once⟩
    obtain ⟨rank, sound⟩ := chronicle.sound
    refine ⟨_, once.settles sound quiescent, ?_⟩
    intro active
    by_contra dispatched
    rw [← once.loads.size sound] at dispatched
    exact
      quiescent.not_ready sound 0
        (once.loads.ready colored sound active (by omega))

/-- What the calls of `Run` read from the clock; without a timestamp callback
they read zero. -/
def readings : Bool → List Operation → List Nat
  | _, [] => []
  | registered, .run now :: rest =>
      (if registered then now else 0) :: readings registered rest
  | registered, operation :: rest =>
      readings (operation.registers registered) rest

private theorem readings_rest (registered : Bool) (operation : Operation)
    (rest : List Operation) :
    (readings (operation.registers registered) rest).Sublist
      (readings registered (operation :: rest)) := by
  cases operation with
  | run now => exact List.sublist_cons_self _ _
  | _ => exact .refl _

private theorem clocks_of_run {before : Machine} {fuel now : Nat}
    {status : ControllerStatus} (chronicle : Chronicle false before)
    (active : before.state = .active)
    (runs : before.run fuel now = some (after, status)) :
    after.clocks = before.clocks ++ [before.clockReading now] := by
  obtain ⟨settled, -, moves, -, -, rfl, -⟩ := chronicle.run active runs
  have same : settled.clocks = (before.beginRun now).clocks := by
    have begun := Chronicle.began before now chronicle active
    rw [← timestamp_beginRun] at moves
    clear runs
    induction moves with
    | refl => rfl
    | tail earlier move inductionHypothesis =>
        obtain ⟨running, same⟩ := begun.moves earlier
        obtain ⟨rank, sound⟩ := running.sound
        obtain ⟨event, -, logged⟩ := move.step sound
        exact logged.around.clocks.trans inductionHypothesis
  exact (adjusted_conclusion _ settled).clocks.trans same

/-- As long as the program is active, the machine records what its runs read;
when it has completed, nothing more. -/
theorem Plays.clocks {operations : List Operation}
    {observations : List (ControllerStatus × List Output)}
    (plays : Plays operations machine observations after)
    (continues : ∀ operation ∈ operations, operation.Continues)
    (reachable : Reachable machine) (loaded : machine.state ≠ .editable) :
    ∃ recorded,
      after.clocks = machine.clocks ++ recorded ∧
        recorded.Sublist (readings machine.timestampCallback operations) ∧
        (after.state = .active →
          machine.state = .active ∧
            recorded = readings machine.timestampCallback operations) := by
  induction plays with
  | done machine =>
      exact ⟨[], (List.append_nil _).symm, .refl _, fun active => ⟨active, rfl⟩⟩
  | @call operation operations before middle after status observations performs
      rest inductionHypothesis =>
      have legal := legal_of_reachable reachable
      have chronicle := legal.chronicle loaded
      have reachable' := Reachable.perform operation reachable performs
      obtain ⟨fuel, called⟩ := performs_iff_call.mp performs
      have callback := timestampCallback_call legal called
      have goesOn : ∀ operation ∈ operations, operation.Continues :=
        fun operation member => continues operation (List.mem_cons_of_mem _ member)
      have continued := continues operation List.mem_cons_self
      rcases adjusted_or_runs continued loaded performs with
        ⟨adjusts, quiet⟩ | ⟨now, fuel', rfl, active, runs⟩
      · rw [← adjusts.state] at loaded
        obtain ⟨recorded, clocks, sublist, all⟩ :=
          inductionHypothesis goesOn reachable' loaded
        rw [adjusts.clocks] at clocks
        rw [adjusts.state, callback] at all
        rw [callback] at sublist
        refine ⟨recorded, clocks, ?_, ?_⟩
        · exact sublist.trans (readings_rest _ _ _)
        · intro running
          obtain ⟨active, same⟩ := all running
          refine ⟨active, same.trans ?_⟩
          cases operation with
          | run now => exact absurd active (quiet now rfl)
          | _ => rfl
      · have clocked := clocks_of_run chronicle active runs
        have loaded' : middle.state ≠ .editable := by
          obtain ⟨settled, begun, -, same, quiescent, rfl, -⟩ :=
            chronicle.run active runs
          rw [← same] at quiescent
          exact
            (Chronicle.adjusted _ _ (.finished settled begun quiescent)
              (adjusted_conclusion _ settled)).loaded
        obtain ⟨recorded, clocks, sublist, all⟩ :=
          inductionHypothesis goesOn reachable' loaded'
        rw [callback] at sublist all
        refine ⟨before.clockReading now :: recorded, ?_, ?_, ?_⟩
        · rw [clocks, clocked, List.append_assoc]
          rfl
        · exact sublist.cons_cons _
        · intro running
          exact ⟨active, congrArg _ (all running).2⟩

/-! ### The picture -/

private theorem Once.filter_reached
    (once : Once program strips start runs runs machine) :
    (program.programOrder.filter fun slot =>
        reachedMark start runs (program.instructions slot).getMark) =
      program.programOrder.take (machine.progress program) := by
  calc
    program.programOrder.filter _ =
        (program.programOrder.take (machine.progress program) ++
          program.programOrder.drop (machine.progress program)).filter _ := by
      rw [List.take_append_drop]
    _ = program.programOrder.take (machine.progress program) := by
      rw [List.filter_append, List.filter_eq_self.mpr once.reached,
        List.filter_eq_nil_iff.mpr fun slot member =>
          Bool.eq_false_iff.mp (once.ahead slot member),
        List.append_nil]

/-- Between two calls, the marks of the drawn instructions are those that some
recorded `Run` reached; what the machine read after its program had completed
makes no difference. -/
theorem Pictured.so_far {reads recorded : List Nat}
    (pictured : Pictured program strips start machine)
    (sound : machine.Sound rank)
    (clocks : machine.clocks = start :: recorded)
    (sublist : recorded.Sublist reads)
    (all : machine.state = .active → recorded = reads) :
    machine.strips =
        paint strips
          (program.drawing strips
            (program.programOrder.filter fun slot =>
              reachedMark start reads (program.instructions slot).getMark)) ∧
      (machine.state = .completed ↔
        ∀ slot ∈ program.programOrder,
          reachedMark start reads (program.instructions slot).getMark =
            true) := by
  obtain ⟨runs, once, unfinished⟩ := pictured
  have same : recorded = runs := by
    rw [once.clocks] at clocks
    exact (List.cons.inj clocks).2.symm
  rw [same] at sublist all
  have lifecycle := sound.tree.lifecycle
  by_cases active : (machine.runtimes 0).active = true
  · rw [if_pos active] at lifecycle
    rw [← all lifecycle, once.picture, once.filter_reached, lifecycle]
    refine ⟨rfl, ProgramState.noConfusion, fun complete => ?_⟩
    have below := unfinished active
    have left :
        program.programOrder[(machine.runtimes 0).cursor] ∈
          program.programOrder.drop (machine.progress program) := by
      rw [show machine.progress program = (machine.runtimes 0).cursor from
        if_pos active, List.drop_eq_getElem_cons below]
      exact List.mem_cons_self
    have reached := complete _ (List.getElem_mem below)
    rw [once.ahead _ left] at reached
    cases reached
  · rw [if_neg active] at lifecycle
    have finished :
        machine.progress program = program.programOrder.length :=
      if_neg active
    have drawn := once.picture
    have reached := once.reached
    rw [finished, List.take_length] at drawn reached
    have complete :
        ∀ slot ∈ program.programOrder,
          reachedMark start reads (program.instructions slot).getMark = true :=
      fun slot member => reachedMark_mono sublist (reached slot member)
    rw [List.filter_eq_self.mpr complete]
    exact ⟨drawn, fun _ => complete, fun _ => lifecycle⟩

/-- A program of colors that was started without repeats shows between two
calls, on what the strips showed at the start, exactly the instructions whose
marks were reached by some `Run` since, in the order of the marks and of the
insertion.  It has completed if and only if all marks were reached. -/
theorem picture_so_far {before started : Machine} {now : Nat}
    {operations : List Operation}
    {observations : List (ControllerStatus × List Output)}
    (reachable : Reachable before) (colored : before.Colored)
    (starts : before.start 0 now = (started, .success))
    (continues : ∀ operation ∈ operations, operation.Continues)
    (plays : Plays operations started observations machine) :
    machine.strips =
        paint before.strips
          (before.drawing before.strips
            (before.programOrder.filter fun slot =>
              reachedMark (before.clockReading now)
                (readings before.timestampCallback operations)
                (before.instructions slot).getMark)) ∧
      (machine.state = .completed ↔
        ∀ slot ∈ before.programOrder,
          reachedMark (before.clockReading now)
            (readings before.timestampCallback operations)
            (before.instructions slot).getMark = true) := by
  have loadable := (legal_of_reachable reachable).loadable
  obtain ⟨-, first, -⟩ := loads_of_start loadable colored starts
  obtain ⟨chronicle, pictured⟩ :=
    plays.pictured loadable colored starts continues
  obtain ⟨recorded, clocks, sublist, all⟩ :=
    plays.clocks continues (.perform (.start 0 now) reachable starts)
      (Chronicle.started before started 0 now loadable starts).loaded
  rw [first] at clocks
  rw [(keeps_of_start loadable starts).timestampCallback] at sublist all
  obtain ⟨rank, sound⟩ := chronicle.sound
  exact pictured.so_far sound clocks sublist fun active => (all active).2

theorem picture_so_far_of_fourColors :
    ((fourColors.start 0 4294967290).1.afterCalls 40
        [.run 4294967290, .run 4294967311, .setRefreshPeriodMs 7]).strips =
      paint fourColors.strips
        (fourColors.drawing fourColors.strips
          (fourColors.programOrder.filter fun slot =>
            reachedMark 4294967290 [4294967290, 4294967311]
              (fourColors.instructions slot).getMark)) := by
  have reachable : Reachable fourColors := reachable_hosted _ _
  have status : (fourColors.start 0 4294967290).2 = .success := by
    decide +kernel
  have starts :
      fourColors.start 0 4294967290 =
        ((fourColors.start 0 4294967290).1, .success) := by
    rw [← status]
  have continues :
      ∀ operation ∈
          ([.run 4294967290, .run 4294967311, .setRefreshPeriodMs 7] :
            List Operation),
        operation.Continues := by
    decide
  have returns :
      (observe 40 [.run 4294967290, .run 4294967311, .setRefreshPeriodMs 7]
          (fourColors.start 0 4294967290).1).isSome := by
    decide +kernel
  obtain ⟨observations, plays⟩ := plays_of_observe returns
  have pictured :=
    picture_so_far reachable fourColors_colored starts continues plays
  exact pictured.1

/-- A program of colors that completes in a `Run` has the strip show it. -/
theorem shows_of_completed {before : Machine} {fuel now : Nat}
    {status : ControllerStatus} (chronicle : Chronicle false before)
    (loads : Loads program strips before) (colored : program.Colored)
    (requests :
      ∀ slot ∈ program.programOrder,
        (program.instructions slot).requestsShow = true)
    (active : before.state = .active) (cursor : (before.runtimes 0).cursor = 0)
    (nonempty : program.programOrder ≠ []) (completed : after.state = .completed)
    (runs : before.run fuel now = some (after, status)) {id : StripId}
    (strip : before.strip = some id) :
    .show id ∈ after.outputs.drop before.outputs.length := by
  obtain ⟨settled, running, moves, -, -, rfl, -⟩ := chronicle.run active runs
  have begun := Chronicle.began before now chronicle active
  obtain ⟨moments, writes, emits⟩ := moves_emit moves
  rw [← timestamp_beginRun] at moves
  have drawn :
      Loads program strips settled ∧
        ((settled.runtimes 0).active = true ∧
            (settled.runtimes 0).cursor = 0 ∨
          settled.showRequested = true) := by
    apply
      begun.moves_invariant
        (fun machine =>
          Loads program strips machine ∧
            ((machine.runtimes 0).active = true ∧
                (machine.runtimes 0).cursor = 0 ∨
              machine.showRequested = true))
        moves
    · obtain ⟨rank, sound⟩ := chronicle.sound
      have lifecycle := sound.tree.lifecycle
      rw [active] at lifecycle
      have running : (before.runtimes 0).active = true := by
        by_contra idle
        rw [if_neg idle] at lifecycle
        cases lifecycle
      exact
        ⟨⟨loads.instructions, loads.instructionCount, loads.executing,
          loads.lengths⟩, Or.inl ⟨running, cursor⟩⟩
    · rintro rank current next event - - sound step logged ⟨loads, progress⟩
      obtain ⟨draws, loads'⟩ := loads.step colored sound step logged
      refine ⟨loads', ?_⟩
      cases draws with
      | drawn due _ _ _ _ shown =>
          right
          have below := due.remaining
          rw [loads.size sound] at below
          have slot : current.nextSlot 0 ∈ program.programOrder := by
            rw [Controller.nextSlot, loads.slotAt sound _ below]
            exact List.getElem_mem below
          rw [shown, loads.instructions, requests _ slot, Bool.or_true]
      | restarted ready again active cursor shown =>
          exact Or.inl ⟨active, cursor⟩
      | ended ready inactive cursor shown =>
          right
          rw [shown]
          refine progress.resolve_left fun starting => nonempty ?_
          have begun := starting.2
          have dispatched := ready.dispatched
          rw [begun, loads.size sound] at dispatched
          exact List.length_eq_zero_iff.mp (Nat.le_zero.mp dispatched)
  obtain ⟨timeout, calls, scheduled, -⟩ :=
    scheduleNextRun_frame (before.getTimestamp now) settled
  rw [commitShow_eq, scheduled] at completed ⊢
  obtain ⟨rank, sound⟩ := running.sound
  have lifecycle := sound.tree.lifecycle
  have requested : settled.showRequested = true := by
    refine drawn.2.resolve_left fun starting => ?_
    rw [if_pos starting.1, show settled.state = .completed from completed]
      at lifecycle
    cases lifecycle
  have bound : settled.strip = some id := emits.strip.trans strip
  have outputs :
      settled.outputs = before.outputs ++ writes.map Output.setColor :=
    emits.outputs
  simp only [requested, bound, outputs, if_true, List.append_assoc,
    List.drop_left]
  simp

end Machine

end PrismKit
