import PrismKit.Timeline.Observation
import PrismKit.Timeline.Wakeup

/-!
# `Run` returns

Within one `Run` every group can start over at most once after the pass it was
in: a pass that begins at the timestamp of the `Run` has nothing due that is a
positive boundary, and neither have the passes below it.  So the late entries,
the passes that began earlier and the instructions that are left to dispatch
along the acyclic call graph run out.
-/

namespace PrismKit

open Library Relation

def Event.resumes : Event → Bool
  | .resumed _ _ _ => true
  | _ => false

namespace Controller

variable {rank : Nat → Nat} {controller next : Controller}
  {strips : StripId → Strip} {timestamp : UInt32} {event : Event}

/-- The groups of `begun` started their pass in this `Run`: they are at its
timestamp, nothing below them waits for an instant that has passed, and so
they have not observed a boundary. -/
structure Begun (timestamp : UInt32) (begun : Nat → Bool)
    (controller : Controller) : Prop where
  startTime :
    ∀ group, begun group = true → (controller.runtimes group).active = true →
      (controller.runtimes group).startTime = timestamp
  unobserved :
    ∀ group, begun group = true → (controller.runtimes group).active = true →
      (controller.runtimes group).positiveBoundaryObserved = false
  undue :
    ∀ entry ∈ controller.executing, begun entry.runtimeIndex = true →
      deadlineReached timestamp entry.deadline = false
  children :
    ∀ child, (controller.runtimes child).active = true →
      begun (controller.runtimes child).parentGroupIndex = true →
        begun child = true

/-- The groups that have begun a pass after one more event. -/
def beginning (begun : Nat → Bool) (event : Event) (group : Nat) : Bool :=
  begun group || event.opens group

/-- A group below which a pass of this `Run` lies began in this `Run` as
well. -/
private theorem Begun.of_mem_ancestors {begun : Nat → Bool}
    (began : controller.Begun timestamp begun) {group : Nat}
    (member : begun group = true) (fuel : Nat) :
    ∀ start, group ∈ controller.ancestors fuel start →
      begun start = true ∧ (controller.runtimes start).active = true := by
  induction fuel with
  | zero =>
      intro start above
      exact absurd above List.not_mem_nil
  | succ fuel inductionHypothesis =>
      intro start above
      rw [ancestors] at above
      split at above
      · rename_i condition
        rcases List.mem_cons.mp above with same | higher
        · rw [← same]
          exact ⟨member, same ▸ condition.2⟩
        · have parent := (inductionHypothesis _ higher).1
          exact ⟨began.children start condition.2 parent, condition.2⟩
      · exact absurd above List.not_mem_nil

private theorem Due.unmarked {group : Nat}
    (due : controller.Due timestamp group)
    (startTime : (controller.runtimes group).startTime = timestamp) :
    ¬ (controller.instructions (controller.nextSlot group)).getMark > 0 := by
  intro marked
  have reached := due.reached
  rw [startTime, UInt32.sub_self, UInt32.le_iff_toNat_le,
    UInt16.toNat_toUInt32, UInt32.toNat_zero] at reached
  have positive :
      0 < (controller.instructions
        (controller.nextSlot group)).getMark.toNat :=
    UInt16.lt_iff_toNat_lt.mp marked
  omega

/-- The boundaries of a `Run` are observed by earlier passes only. -/
private theorem Begun.not_observes {begun : Nat → Bool}
    (began : controller.Begun timestamp begun)
    (step : Step strips timestamp controller event next) {source : Nat}
    (observes : event.observes controller = some source)
    (member : begun source = true)
    (active : (controller.runtimes source).active = true) : False := by
  have enabled := step.enabled
  have startTime := began.startTime source member active
  have dispatched (parent slot : Nat) (due : controller.Due timestamp parent)
      (slotEq : slot = controller.nextSlot parent)
      (marked :
        (if (controller.instructions slot).getMark > 0 then some parent
          else none) = some source) : False := by
    split at marked
    · rename_i positive
      cases marked
      rw [slotEq] at positive
      exact due.unmarked startTime positive
    · cases marked
  cases event with
  | resumed group slot delay =>
      obtain ⟨position, entry, resumable, sameGroup, -⟩ := enabled
      cases observes
      have waits :=
        began.undue entry (List.mem_of_getElem? resumable.found)
          (sameGroup ▸ member)
      rw [resumable.reached] at waits
      exact Bool.noConfusion waits
  | launched parent slot child repeats =>
      exact dispatched parent slot enabled.1 enabled.2.2.1 observes
  | rejected parent slot status =>
      exact dispatched parent slot enabled.1 enabled.2.2.1 observes
  | executed parent slot delay =>
      exact dispatched parent slot enabled.1 enabled.2.2.1 observes
  | _ =>
      cases observes

private theorem Begun.not_observed {begun : Nat → Bool}
    (began : controller.Begun timestamp begun)
    (step : Step strips timestamp controller event next) {group : Nat}
    (member : begun group = true) :
    controller.observedBy event group = false := by
  unfold observedBy
  cases observes : event.observes controller with
  | none =>
      rfl
  | some source =>
      simp only [decide_eq_false_iff_not]
      intro above
      obtain ⟨sourceMember, active⟩ :=
        began.of_mem_ancestors member _ source above
      exact began.not_observes step observes sourceMember active

/-- A step keeps what is known about the passes of its `Run`. -/
theorem Begun.step {begun : Nat → Bool} (sound : controller.Sound rank)
    (began : controller.Begun timestamp begun)
    (step : Step strips timestamp controller event next) :
    next.Begun timestamp (beginning begun event) := by
  -- A group that runs on was running in the same pass.
  have continues :
      ∀ group, (next.runtimes group).active = true →
        event.opens group = false →
          (controller.runtimes group).active = true ∧
            event.closes group = false ∧
            (next.runtimes group).startTime =
              (controller.runtimes group).startTime ∧
            (next.runtimes group).parentGroupIndex =
              (controller.runtimes group).parentGroupIndex := by
    intro group active unopened
    cases step.passStep group with
    | opened activation opens closes quiet after cursor startTime =>
        rw [unopened] at opens
        exact Bool.noConfusion opens
    | ended event_eq after =>
        rw [GroupRuntime.activation_eq_none_iff.mp after] at active
        exact Bool.noConfusion active
    | dispatched activation due dispatches opens closes before after =>
        obtain ⟨wasActive, -, started, -, parent⟩ := activation_eq_some before
        obtain ⟨-, -, started', -, parent'⟩ := activation_eq_some after
        exact
          ⟨wasActive, closes, started'.trans started.symm,
            parent'.trans parent.symm⟩
    | untouched opens closes quiet after =>
        have now := GroupRuntime.activation_of_active active
        obtain ⟨wasActive, -, started, -, parent⟩ :=
          activation_eq_some (after.symm.trans now)
        exact ⟨wasActive, closes, started.symm, parent.symm⟩
  constructor
  · intro group member active
    cases opens : event.opens group with
    | true =>
        cases step.passStep group with
        | opened activation _ closes quiet after cursor startTime =>
            rw [(activation_eq_some after).2.2.1, startTime]
        | ended event_eq after =>
            rw [GroupRuntime.activation_eq_none_iff.mp after] at active
            exact Bool.noConfusion active
        | dispatched activation due dispatches unopened closes before after =>
            rw [opens] at unopened
            exact Bool.noConfusion unopened
        | untouched unopened closes quiet after =>
            rw [opens] at unopened
            exact Bool.noConfusion unopened
    | false =>
        simp only [beginning, opens, Bool.or_false] at member
        obtain ⟨wasActive, -, started, -⟩ := continues group active opens
        rw [started]
        exact began.startTime group member wasActive
  · intro group member active
    rw [step.flag]
    cases opens : event.opens group with
    | true =>
        rfl
    | false =>
        simp only [beginning, opens, Bool.or_false] at member
        obtain ⟨wasActive, closes, -⟩ := continues group active opens
        rw [closes, began.unobserved group member wasActive,
          began.not_observed step member]
        rfl
  · intro entry listed member
    rcases step.armed entry listed with old | ahead
    · cases opens : event.opens entry.runtimeIndex with
      | true =>
          -- A group that opens a pass has no entries.
          have outstanding :
              (entry.runtimeIndex, entry.instructionIndex) ∈
                controller.outstanding :=
            List.mem_map.mpr ⟨entry, old, rfl⟩
          exact
            absurd outstanding ((sound.idle_of_opens step opens).1 _)
      | false =>
          simp only [beginning, opens, Bool.or_false] at member
          exact began.undue entry old member
    · exact not_reached_of_ahead ahead
  · intro child active member
    cases opens : event.opens child with
    | true =>
        simp only [beginning, opens, Bool.or_true]
    | false =>
        obtain ⟨wasActive, -, -, parent⟩ := continues child active opens
        rw [parent] at member
        simp only [beginning, Bool.or_eq_true] at member ⊢
        rcases member with before | opened
        · exact Or.inl (began.children child wasActive before)
        · -- A group that opens a pass has no children.
          have childless :=
            (sound.idle_of_opens step opened).2 child
          simp [isChild, wasActive] at childless

/-! ### What is left to do -/

/-- The timed instructions whose deadline has arrived. -/
def lateCount (timestamp : UInt32) (controller : Controller) : Nat :=
  controller.executing.countP fun entry =>
    deadlineReached timestamp entry.deadline

/-- What a pass can still cause in this `Run`: a constant times the
instructions it has not dispatched, the constant growing with the rank, and as
much again for the next pass unless the pass began in this `Run`. -/
def passWeight (rank : Nat → Nat) (begun : Nat → Bool)
    (controller : Controller) (group : Nat) : Nat :=
  match controller.activation group with
  | none => 0
  | some activation =>
      1 + (controller.size group - activation.cursor) * 30 ^ rank group +
        if begun group then 0 else 30 ^ (rank group + 1)

/-- A bound on the steps that are left in this `Run`. -/
def effort (rank : Nat → Nat) (begun : Nat → Bool) (timestamp : UInt32)
    (controller : Controller) : Nat :=
  controller.lateCount timestamp +
    total (controller.passWeight rank begun) controller.groupCount

/-- A resumption uses up a late entry, and no other step makes one. -/
private theorem Step.lateCount
    (step : Step strips timestamp controller event next) :
    if event.resumes then
      next.lateCount timestamp < controller.lateCount timestamp
    else
      next.lateCount timestamp = controller.lateCount timestamp := by
  unfold Controller.lateCount
  cases step with
  | resumedAgain position entry slot delay shown resumable executes positive =>
      have waits :=
        not_reached_of_ahead (ahead_of_delay executes positive)
      obtain ⟨rest, before, after⟩ :=
        set_perm { entry with deadline := timestamp + delay } resumable.found
      simp only [Event.resumes, if_true]
      rw [before.countP_eq, after.countP_eq, List.countP_cons,
        List.countP_cons]
      simp [waits, resumable.reached]
  | resumedLast position entry slot shown resumable executes =>
      simp only [Event.resumes, if_true]
      rw [(swapRemove_perm resumable.found).countP_eq, List.countP_cons]
      simp [resumable.reached, updateRuntime]
  | executedTimed group slot delay shown due settled notRun executes
      positive =>
      have waits :=
        not_reached_of_ahead (ahead_of_delay executes positive)
      simp [Event.resumes, updateRuntime, waits]
  | restarted group ready again observed =>
      rfl
  | endedRoot ready final =>
      rfl
  | endedChild group notRoot ready final =>
      rfl
  | launched group child due settled isRun target calls notRoot inactive =>
      simp [Event.resumes, updateRuntime, activate]
  | rejected group child due settled isRun target calls notRoot busy =>
      simp [Event.resumes]
  | executedNow group slot shown due settled notRun executes =>
      simp [Event.resumes, afterExecution]

private theorem passWeight_congr {begun begun' : Nat → Bool} {group : Nat}
    (step : Step strips timestamp controller event next)
    (activation : next.activation group = controller.activation group)
    (same : begun' group = begun group) :
    next.passWeight rank begun' group =
      controller.passWeight rank begun group := by
  unfold passWeight
  rw [activation, step.sameProgram.size_eq, same]

private theorem passWeight_of_none {begun : Nat → Bool} {group : Nat}
    (inactive : controller.activation group = none) :
    controller.passWeight rank begun group = 0 := by
  unfold passWeight
  rw [inactive]

private theorem passWeight_of_some {begun : Nat → Bool} {group : Nat}
    {activation : Activation}
    (active : controller.activation group = some activation) :
    controller.passWeight rank begun group =
      1 + (controller.size group - activation.cursor) * 30 ^ rank group +
        if begun group then 0 else 30 ^ (rank group + 1) := by
  unfold passWeight
  rw [active]

private theorem passWeight_of_dispatch {begun : Nat → Bool} {group : Nat}
    (step : Step strips timestamp controller event next)
    (due : controller.Due timestamp group)
    (after :
      next.activation group =
        (controller.activation group).map Activation.consume)
    (unopened : event.opens group = false) :
    next.passWeight rank (beginning begun event) group + 30 ^ rank group =
      controller.passWeight rank begun group := by
  have before : controller.activation group = some _ :=
    GroupRuntime.activation_of_active due.active
  rw [before] at after
  have remaining := due.remaining
  have fewer :
      controller.size group - (controller.runtimes group).cursor =
        controller.size group - ((controller.runtimes group).cursor + 1) +
          1 := by
    omega
  rw [passWeight_of_some before, passWeight_of_some after,
    step.sameProgram.size_eq]
  simp only [Activation.consume, beginning, unopened, Bool.or_false, fewer,
    Nat.succ_mul]
  omega

/-- A pass that begins in this `Run` weighs less than any pass above it may
still cause by one dispatch. -/
private theorem passWeight_of_opened {begun : Nat → Bool} {group : Nat}
    (committed : Committed rank controller)
    (step : Step strips timestamp controller event next)
    {activation : Activation} (after : next.activation group = some activation)
    (cursor : activation.cursor = 0) (opens : event.opens group = true) :
    next.passWeight rank (beginning begun event) group <
      30 ^ (rank group + 1) := by
  have size := committed.size_le group
  have bounded :
      controller.size group * 30 ^ rank group ≤ 28 * 30 ^ rank group :=
    Nat.mul_le_mul_right _ size
  have positive : 0 < 30 ^ rank group := Nat.pow_pos (by decide)
  rw [passWeight_of_some after, step.sameProgram.size_eq, cursor, Nat.pow_succ]
  simp only [beginning, opens, Bool.or_true, if_true, Nat.sub_zero]
  omega

/-- A step about one group lightens the passes when it lightens the pass of
that group. -/
private theorem total_of_one {begun : Nat → Bool} {changed : Nat}
    (step : Step strips timestamp controller event next)
    (below : changed < controller.groupCount)
    (others :
      ∀ group, group ≠ changed →
        next.activation group = controller.activation group ∧
          event.opens group = false)
    (lighter :
      next.passWeight rank (beginning begun event) changed <
        controller.passWeight rank begun changed) :
    total (next.passWeight rank (beginning begun event))
        controller.groupCount <
      total (controller.passWeight rank begun) controller.groupCount := by
  have change :=
    @total_change _ _ (next.passWeight rank (beginning begun event))
      (controller.passWeight rank begun) below (by
        intro group different
        obtain ⟨activation, unopened⟩ := others group different
        apply passWeight_congr step activation
        simp only [beginning, unopened, Bool.or_false])
  omega

/-- Every step of a `Run` uses up some of the effort that is left. -/
theorem Step.effort_lt {begun : Nat → Bool} (sound : controller.Sound rank)
    (began : controller.Begun timestamp begun)
    (step : Step strips timestamp controller event next) :
    next.effort rank (beginning begun event) timestamp <
      controller.effort rank begun timestamp := by
  have late := step.lateCount
  have enabled := step.enabled
  have activation := step.activation
  unfold effort
  rw [step.sameProgram.groupCount]
  have dispatched (parent : Nat) (due : controller.Due timestamp parent)
      (unopened : ∀ group, event.opens group = false)
      (after :
        ∀ group,
          next.activation group =
            if group = parent then
              (controller.activation group).map Activation.consume
            else
              controller.activation group) :
      total (next.passWeight rank (beginning begun event))
          controller.groupCount <
        total (controller.passWeight rank begun) controller.groupCount := by
    apply total_of_one step due.below
    · intro group different
      exact ⟨by rw [after, if_neg different], unopened group⟩
    · have self := after parent
      rw [if_pos rfl] at self
      have lighter :=
        @passWeight_of_dispatch rank _ _ _ _ _ begun _ step due self
          (unopened parent)
      have positive : 0 < 30 ^ rank parent := Nat.pow_pos (by decide)
      omega
  cases event with
  | started repeats =>
      exact enabled.elim
  | discarded group slot =>
      exact enabled.elim
  | resumed group slot delay =>
      have same :
          total
              (next.passWeight rank
                (beginning begun (.resumed group slot delay)))
              controller.groupCount =
            total (controller.passWeight rank begun)
              controller.groupCount := by
        apply total_congr
        intro other _
        apply passWeight_congr step (activation other)
        simp [beginning, Event.opens]
      simp only [Event.resumes, if_true] at late
      omega
  | rejected parent slot status =>
      have lighter := dispatched parent enabled.1 (fun _ => rfl) activation
      simp only [Event.resumes, Bool.false_eq_true, if_false] at late
      omega
  | executed parent slot delay =>
      have lighter := dispatched parent enabled.1 (fun _ => rfl) activation
      simp only [Event.resumes, Bool.false_eq_true, if_false] at late
      omega
  | launched parent slot child repeats =>
      obtain ⟨due, -, -, -, -, -, calls, -, inactive⟩ := enabled
      have apart : parent ≠ child := by
        intro equal
        have active := due.active
        rw [equal, inactive] at active
        exact Bool.noConfusion active
      have parentAfter := activation parent
      have childAfter := activation child
      simp only [Event.advance, if_neg apart, if_true] at parentAfter childAfter
      have opens (group : Nat) :
          (Event.launched parent slot child repeats).opens group =
            decide (group = child) :=
        rfl
      have payer :=
        @passWeight_of_dispatch rank _ _ _ _ _ begun _ step due parentAfter
          (by rw [opens, decide_eq_false apart])
      have payee :=
        @passWeight_of_opened rank _ _ _ _ _ begun _ sound.committed step _
          childAfter rfl (by rw [opens, decide_eq_true rfl])
      have before : controller.passWeight rank begun child = 0 :=
        passWeight_of_none (GroupRuntime.activation_eq_none_iff.mpr inactive)
      have price : 30 ^ (rank child + 1) ≤ 30 ^ rank parent :=
        Nat.pow_le_pow_right (by decide)
          (sound.committed.rank_lt parent child calls)
      have exchange :=
        @total_exchange _ _ _
          (next.passWeight rank
            (beginning begun (.launched parent slot child repeats)))
          (controller.passWeight rank begun) calls.1 calls.2.1 apart (by
            intro group notParent notChild
            apply passWeight_congr step
            · rw [activation, Event.advance, if_neg notChild,
                if_neg notParent]
            · simp only [beginning, opens, decide_eq_false notChild,
                Bool.or_false])
      simp only [Event.resumes, Bool.false_eq_true, if_false] at late
      omega
  | restarted group =>
      obtain ⟨ready, -, observed⟩ := enabled
      have opens (other : Nat) :
          (Event.restarted group).opens other = decide (other = group) :=
        rfl
      have earlier : begun group = false := by
        rw [← Bool.not_eq_true]
        intro member
        rw [began.unobserved group member ready.active] at observed
        exact Bool.noConfusion observed
      have before : controller.activation group = some _ :=
        GroupRuntime.activation_of_active ready.active
      have after := activation group
      simp only [Event.advance, if_true, before, Option.map_some] at after
      have lighter :
          next.passWeight rank (beginning begun (.restarted group)) group <
            controller.passWeight rank begun group := by
        have opened :=
          @passWeight_of_opened rank _ _ _ _ _ begun _ sound.committed step _
            after rfl (by rw [opens, decide_eq_true rfl])
        rw [passWeight_of_some before, earlier, if_neg Bool.false_ne_true]
        omega
      have total :=
        total_of_one step ready.below (by
          intro other different
          refine ⟨?_, ?_⟩
          · rw [activation, Event.advance, if_neg different]
          · rw [opens, decide_eq_false different]) lighter
      simp only [Event.resumes, Bool.false_eq_true, if_false] at late
      omega
  | ended group =>
      obtain ⟨ready, -⟩ := enabled
      have before : controller.activation group = some _ :=
        GroupRuntime.activation_of_active ready.active
      have after := activation group
      simp only [Event.advance, if_true] at after
      have lighter :
          next.passWeight rank (beginning begun (.ended group)) group <
            controller.passWeight rank begun group := by
        rw [passWeight_of_none after, passWeight_of_some before]
        omega
      have total :=
        total_of_one step ready.below (by
          intro other different
          refine ⟨?_, rfl⟩
          rw [activation, Event.advance, if_neg different]) lighter
      simp only [Event.resumes, Bool.false_eq_true, if_false] at late
      omega

end Controller

namespace Machine

variable {rank : Nat → Nat} {timestamp : UInt32}

private theorem effort_of_moves {machine settled : Machine}
    {begun : Nat → Bool} (sound : machine.Sound rank)
    (began : machine.Begun timestamp begun)
    (moves : TransGen (Move timestamp) machine settled) :
    settled.Sound rank ∧
      ∃ begun', settled.Begun timestamp begun' ∧
        settled.effort rank begun' timestamp <
          machine.effort rank begun timestamp := by
  induction moves with
  | single move =>
      obtain ⟨event, step, -⟩ := move.step sound
      exact
        ⟨sound.step step, _, began.step sound step,
          step.effort_lt sound began⟩
  | tail _ move inductionHypothesis =>
      obtain ⟨sound', begun', began', less⟩ := inductionHypothesis
      obtain ⟨event, step, -⟩ := move.step sound'
      exact
        ⟨sound'.step step, _, began'.step sound' step,
          Nat.lt_trans (step.effort_lt sound' began') less⟩

/-- The loop of `Run` stops after at most as many iterations as there is
effort left, and the one that finds nothing to do. -/
theorem runLoop_returns (fuel : Nat) {machine : Machine} {begun : Nat → Bool}
    (sound : machine.Sound rank) (began : machine.Begun timestamp begun)
    (enough : machine.effort rank begun timestamp < fuel) :
    ∃ settled, machine.runLoop timestamp fuel = some settled := by
  induction fuel generalizing machine begun with
  | zero =>
      exact absurd enough (Nat.not_lt_zero _)
  | succ fuel inductionHypothesis =>
      have iteration := iteration_spec timestamp machine
      rw [runLoop]
      simp only at iteration ⊢
      split
      · rename_i progress
        rw [if_pos progress] at iteration
        obtain ⟨sound', begun', began', less⟩ :=
          effort_of_moves sound began iteration
        exact inductionHypothesis sound' began' (by omega)
      · exact ⟨_, rfl⟩

/-- Before the loop of a `Run` no pass has begun in it. -/
private theorem begun_nothing (machine : Machine) :
    machine.Begun timestamp fun _ => false := by
  refine ⟨?_, ?_, ?_, ?_⟩
  · intro group member
    exact Bool.noConfusion member
  · intro group member
    exact Bool.noConfusion member
  · intro entry _ member
    exact Bool.noConfusion member
  · intro child _ member
    exact Bool.noConfusion member

/-- `Run` returns, whatever the program and whatever the clock shows. -/
theorem run_returns {machine : Machine} (reachable : Reachable machine)
    (now : Nat) :
    ∃ fuel after status, machine.run fuel now = some (after, status) := by
  by_cases active : machine.state = .active
  · have loaded : machine.state ≠ .editable := by
      rw [active]
      decide
    have chronicle := (legal_of_reachable reachable).chronicle loaded
    obtain ⟨rank, sound⟩ := chronicle.sound
    have stops :
        ∃ fuel settled,
          (machine.beginRun now).runLoop (machine.getTimestamp now) fuel =
            some settled :=
      ⟨_,
        @runLoop_returns rank (machine.getTimestamp now) _ _ _
          (beginRun_sound now sound) (begun_nothing (machine.beginRun now))
          (Nat.lt_succ_self _)⟩
    obtain ⟨fuel, settled, returns⟩ := stops
    have runs :
        machine.run fuel now =
          some
            ((settled.scheduleNextRun (machine.getTimestamp now)).commitShow,
              (settled.scheduleNextRun
                (machine.getTimestamp now)).commitShow.runStatus) := by
      unfold Machine.run
      rw [if_neg (not_not.mpr active)]
      simp only [returns]
    exact ⟨fuel, _, _, runs⟩
  · refine ⟨0, machine, .success, ?_⟩
    unfold Machine.run
    rw [if_pos active]

/-- A program that repeats forever. -/
theorem run_returns_of_repeatedFade :
    ∃ fuel after status,
      (repeatedFade.afterCalls 40 [.start 0xFFFF 0]).run fuel 100 =
        some (after, status) :=
  run_returns (reachable_afterCalls (reachable_hosted _ _) _) 100

end Machine

end PrismKit
