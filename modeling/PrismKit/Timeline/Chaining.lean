import PrismKit.Timeline.Commit
import PrismKit.Timeline.Underway
import PrismKit.Timeline.Wakeup

/-!
# Chained transitions

Fades and Gradients of one group that follow each other on a pixel.  Marks
count from the start of the pass and durations from the activation, so a
transition that is activated late can still be under way when the mark of its
successor is reached.  Where the successor is activated at least a duration
after its predecessor, the predecessor has completed, and the successor starts
from the color at which it ended.
-/

namespace PrismKit

open Library Relation

namespace Controller

/-- The moment activates an instruction of the group that writes the pixel. -/
def Activates (controller : Controller) (group : Nat) (id : StripId)
    (pixel : Nat) (moment : Moment) : Prop :=
  ∃ slot delay, moment.event = .executed group slot delay ∧
    (controller.instructions slot).Covers id pixel

theorem activates_iff {controller : Controller} {group : Nat} {id : StripId}
    {pixel : Nat} {moment : Moment} :
    controller.Activates group id pixel moment ↔
      ∃ dispatch ∈ moment.event.dispatches,
        dispatch.1 = group ∧ moment.event.execution = some dispatch.2 ∧
          (controller.instructions dispatch.2).Covers id pixel := by
  unfold Activates
  cases moment.event <;> simp [Event.dispatches, Event.execution, eq_comm]

instance (controller : Controller) (group : Nat) (id : StripId)
    (pixel : Nat) (moment : Moment) :
    Decidable (controller.Activates group id pixel moment) :=
  decidable_of_iff _ activates_iff.symm

/-- The last activation on the pixel in a log, and what came since. -/
def Latest (controller : Controller) (group : Nat) (id : StripId)
    (pixel : Nat) (log : List Moment) (activation : Moment)
    (since : List Moment) : Prop :=
  Since (controller.Activates group id pixel)
    (controller.Activates group id pixel) log activation since

/-- The only instructions that write the pixel are Fades and Gradients of the
group, and each is marked at least its duration before those that follow. -/
structure BackToBack (controller : Controller) (group : Nat) (id : StripId)
    (pixel : Nat) : Prop where
  transitions :
    ∀ slot, slot < controller.instructionCount →
      (controller.instructions slot).Covers id pixel →
        (controller.instructions slot).getGroupId =
            (controller.groups group).id ∧
          ∃ transition,
            (controller.instructions slot).transition = some transition
  marks :
    ∀ slot later transition, slot < controller.instructionCount →
      later < controller.instructionCount →
        (controller.instructions slot).Covers id pixel →
          (controller.instructions later).Covers id pixel →
            ProgramOrder controller.instructions slot later →
              (controller.instructions slot).transition = some transition →
                controller.markOf slot + transition.durationMs.toNat ≤
                  controller.markOf later

/-- In the pass that begins with `front`, the moment `next` activates `later`
on the pixel, and `first` is the activation before it, of `slot`. -/
structure Succession (controller : Controller) (group : Nat) (id : StripId)
    (pixel : Nat) (front : List Moment) (first next : Moment)
    (slot later : Nat) (transition : Transition) : Prop where
  latest : ∃ since, controller.Latest group id pixel front first since
  first : ∃ delay, first.event = .executed group slot delay
  next : ∃ delay, next.event = .executed group later delay
  covers : (controller.instructions later).Covers id pixel
  found : (controller.instructions slot).transition = some transition

/-- The predecessor writes the pixel as well. -/
theorem Succession.covers_first {controller : Controller} {group : Nat}
    {id : StripId} {pixel : Nat} {front : List Moment} {first next : Moment}
    {slot later : Nat} {transition : Transition}
    (succession :
      controller.Succession group id pixel front first next slot later
        transition) :
    (controller.instructions slot).Covers id pixel := by
  obtain ⟨since, -, -, ⟨owned, _, activated, covers⟩, -⟩ := succession.latest
  obtain ⟨delay, event⟩ := succession.first
  rw [event] at activated
  cases activated
  exact covers

section SameStored

variable {before after : Controller} {group : Nat} {id : StripId}
  {pixel : Nat}

theorem activates_congr (same : Machine.SameStored before after) :
    after.Activates group id pixel = before.Activates group id pixel := by
  funext moment
  simp only [Activates, (same.configuration _).covers_iff]

theorem latest_congr (same : Machine.SameStored before after) :
    after.Latest group id pixel = before.Latest group id pixel := by
  funext log activation since
  simp only [Latest, activates_congr same]

theorem BackToBack.congr (same : Machine.SameStored before after)
    (chain : after.BackToBack group id pixel) :
    before.BackToBack group id pixel := by
  have configuration := same.configuration
  have order :
      ∀ slot later,
        ProgramOrder after.instructions slot later ↔
          ProgramOrder before.instructions slot later :=
    fun slot later => ProgramOrder.congr configuration slot later
  constructor
  · intro slot below covers
    rw [← same.groups, ← (configuration slot).getGroupId_eq,
      ← (configuration slot).transition_eq]
    rw [← same.instructionCount] at below
    rw [← (configuration slot).covers_iff] at covers
    exact chain.transitions slot below covers
  · intro slot later transition below laterBelow covers laterCovers ordered
      found
    rw [← same.instructionCount] at below laterBelow
    rw [← (configuration _).covers_iff] at covers laterCovers
    rw [← (configuration slot).transition_eq] at found
    have marks :=
      chain.marks slot later transition below laterBelow covers laterCovers
        ((order slot later).mpr ordered) found
    simp only [markOf, (configuration _).getMark_eq] at marks
    exact marks

theorem Succession.congr (same : Machine.SameStored before after)
    {front : List Moment} {first next : Moment} {slot later : Nat}
    {transition : Transition} :
    after.Succession group id pixel front first next slot later transition ↔
      before.Succession group id pixel front first next slot later
        transition := by
  have configuration := same.configuration
  constructor
  · rintro ⟨latest, event, nextEvent, covers, found⟩
    rw [latest_congr same] at latest
    rw [(configuration later).covers_iff] at covers
    rw [(configuration slot).transition_eq] at found
    exact ⟨latest, event, nextEvent, covers, found⟩
  · rintro ⟨latest, event, nextEvent, covers, found⟩
    rw [← latest_congr same] at latest
    rw [← (configuration later).covers_iff] at covers
    rw [← (configuration slot).transition_eq] at found
    exact ⟨latest, event, nextEvent, covers, found⟩

end SameStored

section Logs

variable {controller : Controller} {group : Nat} {id : StripId} {pixel : Nat}
  {log since : List Moment} {moment activation : Moment}

theorem latest_append_of_silent
    (silent : ¬ controller.Activates group id pixel moment) :
    controller.Latest group id pixel (log ++ [moment]) activation since ↔
      ∃ shorter, since = shorter ++ [moment] ∧
        controller.Latest group id pixel log activation shorter := by
  unfold Latest
  rw [since_append_singleton]
  constructor
  · rintro (⟨activates, -⟩ | ⟨-, earlier⟩)
    · exact absurd activates silent
    · exact earlier
  · intro earlier
    exact Or.inr ⟨silent, earlier⟩

theorem latest_append_of_activates
    (activates : controller.Activates group id pixel moment) :
    controller.Latest group id pixel (log ++ [moment]) activation since ↔
      activation = moment ∧ since = [] := by
  unfold Latest
  rw [since_append_singleton]
  constructor
  · rintro (⟨-, newest⟩ | ⟨silent, -⟩)
    · exact newest
    · exact absurd activates silent
  · intro newest
    exact Or.inl ⟨activates, newest⟩

end Logs

section Step

variable {rank : Nat → Nat} {controller next : Controller}
  {strips : StripId → Strip} {timestamp : UInt32} {event : Event}
  {group index : Nat} {id : StripId} {pixel : Nat}

private theorem Event.executed_of_execution
    (execution : event.execution = some index) :
    ∃ owner delay,
      event = .resumed owner index delay ∨
        event = .executed owner index delay := by
  cases event with
  | executed owner slot delay =>
      cases execution
      exact ⟨owner, delay, Or.inr rfl⟩
  | resumed owner slot delay =>
      cases execution
      exact ⟨owner, delay, Or.inl rfl⟩
  | _ =>
      cases execution

theorem BackToBack.owner (chain : controller.BackToBack group id pixel)
    (sound : controller.Sound rank)
    (step : Step strips timestamp controller event next)
    (below : group < controller.groupCount)
    (execution : event.execution = some index)
    (covers : (controller.instructions index).Covers id pixel) :
    ∃ delay,
      event = .resumed group index delay ∨
        event = .executed group index delay := by
  obtain ⟨owner, delay, executed⟩ := Event.executed_of_execution execution
  obtain ⟨active, position, slotEq, inRange, -⟩ :=
    step.position_of_executed sound.work executed
  have ownerBelow := sound.tree.inRange owner active
  obtain ⟨stored, label⟩ := sound.committed.slotAt_mem ownerBelow inRange
  rw [slotEq] at stored label
  have same := (chain.transitions index stored covers).1
  rw [label] at same
  have equal := sound.committed.injective owner ownerBelow group below same
  rw [equal] at executed
  exact ⟨delay, executed⟩

end Step

end Controller

namespace Machine

/-- The later activation comes at least the duration of the transition after
the earlier one. -/
def Spaced (readings : List Nat) (first next : Moment)
    (transition : Transition) : Prop :=
  readings.getD first.run 0 + transition.durationMs.toNat ≤
    readings.getD next.run 0

instance (readings : List Nat) (first next : Moment)
    (transition : Transition) :
    Decidable (Spaced readings first next transition) :=
  inferInstanceAs (Decidable (_ ≤ _))

/-- Every transition of the pass on the pixel is activated after its
predecessor has completed, and captures the color with which that ended. -/
def Chained (controller : Controller) (group : Nat) (id : StripId)
    (pixel : Nat) (during : List Moment) : Prop :=
  ∀ front first next rest slot later transition,
    during = front ++ next :: rest →
      controller.Succession group id pixel front first next slot later
          transition →
        ¬ Pending group slot front ∧
          ∃ captured, (first.after.instructions slot).Captured captured ∧
            (next.after.instructions later).Captured
              (transition.endColor captured)

def AllSpaced (readings : List Nat) (controller : Controller) (group : Nat)
    (id : StripId) (pixel : Nat) (during : List Moment) : Prop :=
  ∀ front first next rest slot later transition,
    during = front ++ next :: rest →
      controller.Succession group id pixel front first next slot later
          transition →
        Spaced readings first next transition

/-! ### The staged color -/

/-- Of the transitions on the pixel only the last one activated may be under
way, and once it has completed, the pixel has its end color. -/
structure Tracked (machine : Machine) (group : Nat) (id : StripId)
    (pixel : Nat) (during : List Moment) : Prop where
  alone :
    ∀ slot, (group, slot) ∈ machine.outstanding →
      (machine.instructions slot).Covers id pixel →
        ∃ first since delay,
          machine.Latest group id pixel during first since ∧
            first.event = .executed group slot delay
  staged :
    ∀ first since slot delay transition captured,
      machine.Latest group id pixel during first since →
        first.event = .executed group slot delay →
          (machine.instructions slot).transition = some transition →
            (first.after.instructions slot).Captured captured →
              (group, slot) ∉ machine.outstanding →
                (machine.strips id).color pixel =
                  transition.endColor captured

theorem Tracked.resting {before after : Machine} {group : Nat} {id : StripId}
    {pixel : Nat} {during : List Moment} (rests : Resting before after)
    (tracked : Tracked before group id pixel during) :
    Tracked after group id pixel during := by
  have latest := @Controller.latest_congr _ _ group id pixel rests.sameStored
  constructor
  · rw [rests.outstanding_eq, rests.instructions, latest]
    exact tracked.alone
  · rw [rests.outstanding_eq, rests.instructions, rests.strips, latest]
    exact tracked.staged

section Step

variable {rank : Nat → Nat} {before after : Machine} {event : Event}
  {group slot : Nat} {id : StripId} {pixel : Nat} {delay : UInt32}
  {during : List Moment}

/-- The transition that a step records. -/
private def stepped (before after : Machine) (event : Event) : Moment :=
  ⟨before.clocks.length - 1, event, before.toController, after.toController⟩

/-- A step that executes no instruction on the pixel. -/
private theorem Tracked.quiet (sound : before.Sound rank)
    (step :
      before.toController.Step before.strips before.timestamp event
        after.toController)
    (painted :
      after.strips =
        paint before.strips
          ((stepped before after event).writes before.strips
            before.timestamp))
    (below : group < before.groupCount)
    (chain : before.BackToBack group id pixel)
    (quiet :
      ∀ slot delay,
        event = .resumed group slot delay ∨
            event = .executed group slot delay →
          ¬ (before.instructions slot).Covers id pixel)
    (tracked : Tracked before group id pixel during) :
    Tracked after group id pixel (during ++ [stepped before after event]) := by
  have same := sameStored_of_step step
  have silent :
      ¬ before.Activates group id pixel (stepped before after event) := by
    rintro ⟨slot, delay, executed, covers⟩
    exact quiet slot delay (Or.inr executed) covers
  have elsewhere :
      ∀ write ∈
          (stepped before after event).writes before.strips before.timestamp,
        ¬ (write.strip = id ∧ write.index = pixel) := by
    rintro write member ⟨rfl, rfl⟩
    unfold Moment.writes at member
    split at member
    · cases member
    · rename_i index execution
      have covers := InstructionMemorySlot.covers_of_write member
      obtain ⟨delay, executed⟩ :=
        chain.owner sound step below execution covers
      exact quiet index delay executed covers
  have color :
      (after.strips id).color pixel = (before.strips id).color pixel := by
    rw [painted]
    exact paint_color elsewhere before.strips
  have still :
      ∀ slot, (before.instructions slot).Covers id pixel →
        ((group, slot) ∈ after.outstanding ↔
          (group, slot) ∈ before.outstanding) := by
    intro slot covers
    rw [step.mem_outstanding_iff sound.work]
    constructor
    · rintro (⟨delay, -, executed⟩ | ⟨old, -⟩)
      · exact absurd covers (quiet slot delay (Or.inr executed))
      · exact old
    · intro old
      refine Or.inr ⟨old, ?_⟩
      intro resumed
      exact quiet slot 0 (Or.inl resumed) covers
  constructor
  · intro slot outstanding covers
    rw [(same.configuration slot).covers_iff] at covers
    obtain ⟨first, since, delay, latest, executed⟩ :=
      tracked.alone slot ((still slot covers).mp outstanding) covers
    refine ⟨first, since ++ [stepped before after event], delay, ?_, executed⟩
    rw [Controller.latest_congr same,
      Controller.latest_append_of_silent silent]
    exact ⟨since, rfl, latest⟩
  · intro first since slot delay transition captured latest executed found
      kept idle
    rw [Controller.latest_congr same,
      Controller.latest_append_of_silent silent] at latest
    rw [(same.configuration slot).transition_eq] at found
    obtain ⟨shorter, -, latest⟩ := latest
    have covers : (before.instructions slot).Covers id pixel := by
      obtain ⟨-, -, ⟨covered, _, event', covers⟩, -⟩ := latest
      rw [executed] at event'
      cases event'
      exact covers
    rw [still slot covers] at idle
    rw [color]
    exact
      tracked.staged first shorter slot delay transition captured latest
        executed found kept idle

private theorem stored_of_outstanding (sound : before.Sound rank)
    (outstanding : (group, slot) ∈ before.outstanding) :
    slot < before.instructionCount :=
  List.mem_range.mp
    (sound.work.stored sound.committed sound.tree
      (List.mem_map.mpr ⟨(group, slot), outstanding, rfl⟩))

/-- The last activation of a pass is one of its moments. -/
private theorem mem_of_latest {controller : Controller} {first : Moment}
    {since : List Moment}
    (latest : controller.Latest group id pixel during first since) :
    first ∈ during := by
  obtain ⟨earlier, shape, -⟩ := latest
  rw [shape]
  simp

/-- The transition on the pixel is resumed. -/
private theorem Tracked.resumed {opening : Moment}
    (chronicle : Chronicle true before) (timely : Timely before.clocks)
    (sound : before.Sound rank)
    (step :
      before.toController.Step before.strips before.timestamp
        (.resumed group slot delay) after.toController)
    (painted :
      after.strips =
        paint before.strips
          ((stepped before after (.resumed group slot delay)).writes
            before.strips before.timestamp))
    (lit : pixel < (before.strips id).ledCount)
    (ready : (before.strips id).ready = true)
    (chain : before.BackToBack group id pixel)
    (covers : (before.instructions slot).Covers id pixel)
    (pass : Pass group before.history opening during)
    (tracked : Tracked before group id pixel during) :
    Tracked after group id pixel
      (during ++ [stepped before after (.resumed group slot delay)]) := by
  have same := sameStored_of_step step
  have begins := step.mem_outstanding_iff sound.work
  have outstanding : (group, slot) ∈ before.outstanding := by
    obtain ⟨position, entry, resumable, rfl, rfl⟩ := step.enabled
    exact List.mem_map.mpr ⟨entry, List.mem_of_getElem? resumable.found, rfl⟩
  obtain ⟨-, transition, found⟩ :=
    chain.transitions slot (stored_of_outstanding sound outstanding) covers
  obtain ⟨first, since, began, latest, executed⟩ :=
    tracked.alone slot outstanding covers
  have timed :=
    chronicle.timed timely lit group opening during pass first
      (mem_of_latest latest) slot began transition executed covers found
  obtain ⟨kept, ⟨captured, running⟩, -⟩ := timed.underway outstanding
  obtain ⟨-, -, -, color, writes, ends⟩ :=
    step.resumes sound chronicle.loadable running covers found lit
  have staged : (after.strips id).color pixel = color := by
    have written :
        (stepped before after (.resumed group slot delay)).writes
            before.strips before.timestamp =
          [⟨id, pixel, color⟩] :=
      writes
    rw [painted, written]
    exact paint_singleton ready pixel color
  have silent :
      ¬ before.Activates group id pixel
        (stepped before after (.resumed group slot delay)) := by
    rintro ⟨other, otherDelay, impossible, -⟩
    cases impossible
  constructor
  · intro other otherOutstanding otherCovers
    rw [(same.configuration other).covers_iff] at otherCovers
    rcases (begins group other).mp otherOutstanding with
      ⟨_, -, impossible⟩ | ⟨old, -⟩
    · cases impossible
    · obtain ⟨first, since, delay', latest, executed⟩ :=
        tracked.alone other old otherCovers
      have grown :
          after.Latest group id pixel
            (during ++ [stepped before after (.resumed group slot delay)])
            first
            (since ++ [stepped before after (.resumed group slot delay)]) := by
        rw [Controller.latest_congr same,
          Controller.latest_append_of_silent silent]
        exact ⟨since, rfl, latest⟩
      exact ⟨first, _, delay', grown, executed⟩
  · intro other otherSince otherSlot otherDelay otherTransition otherCaptured
      otherLatest otherExecuted otherFound otherKept idle
    rw [Controller.latest_congr same,
      Controller.latest_append_of_silent silent] at otherLatest
    obtain ⟨shorter, -, otherLatest⟩ := otherLatest
    obtain ⟨rfl, -⟩ := Since.unique (fun _ opens => opens) latest otherLatest
    rw [executed] at otherExecuted
    cases otherExecuted
    rw [(same.configuration slot).transition_eq, found] at otherFound
    cases otherFound
    have finished : delay = 0 := by
      by_contra nonzero
      apply idle
      refine (begins group slot).mpr (Or.inr ⟨outstanding, ?_⟩)
      intro equal
      cases equal
      exact nonzero rfl
    rw [← kept] at otherKept
    rw [staged, ends finished]
    exact
      InstructionMemorySlot.Captured.endColor_eq found running.captured
        otherKept

/-- A transition on the pixel is activated. -/
private theorem Tracked.activated {opening : Moment} {readings : List Nat}
    (chronicle : Chronicle true before) (timely : Timely before.clocks)
    (grows : before.clocks <+: readings) (sound : before.Sound rank)
    (step :
      before.toController.Step before.strips before.timestamp
        (.executed group slot delay) after.toController)
    (painted :
      after.strips =
        paint before.strips
          ((stepped before after (.executed group slot delay)).writes
            before.strips before.timestamp))
    (lit : pixel < (before.strips id).ledCount)
    (ready : (before.strips id).ready = true)
    (chain : before.BackToBack group id pixel)
    (covers : (before.instructions slot).Covers id pixel)
    (pass : Pass group before.history opening during)
    (spaced :
      AllSpaced readings before.toController group id pixel
        (during ++ [stepped before after (.executed group slot delay)]))
    (tracked : Tracked before group id pixel during) :
    Tracked after group id pixel
      (during ++ [stepped before after (.executed group slot delay)]) := by
  have same := sameStored_of_step step
  have begins := step.mem_outstanding_iff sound.work
  obtain ⟨due, settled, slotEq, -⟩ := step.enabled
  have stored : slot < before.instructionCount := by
    rw [slotEq]
    exact (sound.committed.slotAt_mem due.below due.remaining).1
  obtain ⟨-, transition, found⟩ := chain.transitions slot stored covers
  obtain ⟨captures, -, timing⟩ :=
    step.activates sound chronicle.loadable (chronicle.fresh group due.active)
      covers found lit
  have activates :
      before.Activates group id pixel
        (stepped before after (.executed group slot delay)) :=
    ⟨slot, delay, rfl, covers⟩
  constructor
  · intro other otherOutstanding otherCovers
    rw [(same.configuration other).covers_iff] at otherCovers
    rcases (begins group other).mp otherOutstanding with
      ⟨_, -, equal⟩ | ⟨old, -⟩
    · cases equal
      have newest :
          after.Latest group id pixel
            (during ++ [stepped before after (.executed group slot delay)])
            (stepped before after (.executed group slot delay)) [] := by
        rw [Controller.latest_congr same,
          Controller.latest_append_of_activates activates]
        exact ⟨rfl, rfl⟩
      exact ⟨_, [], delay, newest, rfl⟩
    · -- The predecessor has completed, since the activations are spaced.
      exfalso
      obtain ⟨first, since, began, latest, executed⟩ :=
        tracked.alone other old otherCovers
      obtain ⟨-, earlier, otherFound⟩ :=
        chain.transitions other (stored_of_outstanding sound old) otherCovers
      have timed :=
        chronicle.timed timely lit group opening during pass first
          (mem_of_latest latest) other began earlier executed otherCovers
          otherFound
      have apart :=
        spaced during first _ [] other slot earlier rfl
          ⟨⟨since, latest⟩, ⟨began, executed⟩, ⟨delay, rfl⟩, covers,
            otherFound⟩
      have unfinished :=
        (timed.outstanding_iff chronicle timely settled).mp old
      have last : before.clocks.length - 1 < before.clocks.length :=
        Nat.sub_lt chronicle.clocks_length.1 Nat.one_pos
      have began : readings.getD first.run 0 = before.clocks.getD first.run 0 :=
        getD_of_isPrefix grows timed.read
      unfold Spaced at apart
      rw [began] at apart
      have reading :
          readings.getD (before.clocks.length - 1) 0 =
            before.clocks.getD (before.clocks.length - 1) 0 :=
        getD_of_isPrefix grows last
      have reached :
          before.clocks.getD first.run 0 + earlier.durationMs.toNat ≤
            readings.getD (before.clocks.length - 1) 0 :=
        apart
      omega
  · intro first since otherSlot otherDelay otherTransition otherCaptured
      latest executed otherFound kept idle
    rw [Controller.latest_congr same,
      Controller.latest_append_of_activates activates] at latest
    obtain ⟨rfl, -⟩ := latest
    cases executed
    have configuration := (same.configuration slot).transition_eq
    rw [configuration, found] at otherFound
    cases otherFound
    have zero : transition.durationMs = 0 := by
      by_contra timed
      rw [if_neg timed] at timing
      exact
        idle ((begins group slot).mpr (Or.inl ⟨delay, timing.2.1, rfl⟩))
    rw [if_pos zero] at timing
    have written :
        (stepped before after (.executed group slot delay)).writes
            before.strips before.timestamp =
          [⟨id, pixel,
            transition.endColor ((before.strips id).color pixel)⟩] :=
      timing.1
    rw [painted, written, paint_singleton ready]
    exact
      InstructionMemorySlot.Captured.endColor_eq (configuration.trans found)
        captures kept

end Step

theorem AllSpaced.front {readings : List Nat} {before after : Controller}
    {group : Nat} {id : StripId} {pixel : Nat} {during later : List Moment}
    (same : SameStored before after)
    (spaced : AllSpaced readings after group id pixel (during ++ later)) :
    AllSpaced readings before group id pixel during := by
  intro front first next rest slot successor transition shape succession
  apply
    spaced front first next (rest ++ later) slot successor transition ?_
      ((Controller.Succession.congr same).mpr succession)
  rw [shape, List.append_assoc]
  rfl

/-- A pass that just began has nothing under way. -/
private theorem tracked_nil {machine : Machine} {group : Nat} {id : StripId}
    {pixel : Nat} {opening : Moment}
    (record : machine.PassRecord group opening []) :
    Tracked machine group id pixel [] := by
  constructor
  · intro slot outstanding
    exact absurd ((record.timed slot).mp outstanding) not_openSince_nil
  · intro first since slot delay transition captured latest
    exact absurd latest (not_since_nil first since)

/-- Along a chronicle with timely clock readings and spaced activations every
pass is tracked. -/
theorem Chronicle.tracked {inside : Bool} {machine : Machine}
    (chronicle : Chronicle inside machine) (timely : Timely machine.clocks)
    {readings : List Nat} (grows : machine.clocks <+: readings) {group : Nat}
    {id : StripId} {pixel : Nat}
    (lit : pixel < (machine.strips id).ledCount)
    (ready : (machine.strips id).ready = true)
    (chain : machine.BackToBack group id pixel) :
    ∀ opening during, Pass group machine.history opening during →
      AllSpaced readings machine.toController group id pixel during →
        Tracked machine group id pixel during := by
  revert timely grows lit ready chain
  refine
    chronicle.move_invariant
      (fun machine =>
        Timely machine.clocks → machine.clocks <+: readings →
          pixel < (machine.strips id).ledCount →
            (machine.strips id).ready = true →
              machine.BackToBack group id pixel →
                ∀ opening during, Pass group machine.history opening during →
                  AllSpaced readings machine.toController group id pixel
                      during →
                    Tracked machine group id pixel during)
      ?_ ?_ ?_
  · intro repeats machine chronicle origin _ _ _ _ _ opening during pass _
    obtain ⟨-, -, -, rfl, -⟩ := origin.of_since pass
    exact tracked_nil (chronicle.passes.accurate group opening [] pass)
  · intro before after rests inductionHypothesis timely grows lit ready chain
      opening during pass spaced
    rw [rests.history] at pass
    rw [rests.strips] at lit ready
    rw [← List.append_nil during] at spaced
    exact
      (inductionHypothesis (timely.of_prefix rests.clocks)
        (rests.clocks.trans grows) lit ready (chain.congr rests.sameStored)
        opening during pass (spaced.front rests.sameStored)).resting rests
  · intro before after earlier move inductionHypothesis timely grows lit ready
      chain opening during pass spaced
    have chronicle := Chronicle.moved before after earlier move
    obtain ⟨rank, sound⟩ := earlier.sound
    obtain ⟨event, step, logged⟩ := move.step sound
    have painted := move.painted logged
    have whole := pass
    rw [logged.around.clocks] at timely grows
    rw [logged.history] at pass
    rw [logged.around.leds] at lit
    rw [logged.around.ready] at ready
    have same := sameStored_of_step step
    have chain' := chain.congr same
    rcases since_append_singleton.mp pass with
      ⟨-, -, rfl⟩ | ⟨-, shorter, rfl, current⟩
    · exact tracked_nil (chronicle.passes.accurate group opening [] whole)
    · have tracked :=
        inductionHypothesis timely grows lit ready chain' opening shorter
          current (spaced.front same)
      by_cases hits :
          ∃ slot delay,
            (event = .resumed group slot delay ∨
              event = .executed group slot delay) ∧
              (before.instructions slot).Covers id pixel
      · obtain ⟨slot, delay, rfl | rfl, covers⟩ := hits
        · exact
            tracked.resumed earlier timely sound step painted lit ready
              chain' covers current
        · rw [← List.append_nil (shorter ++ _)] at spaced
          exact
            tracked.activated earlier timely grows sound step painted lit
              ready chain' covers current (spaced.front same)
      · have record := earlier.passes.accurate group opening shorter current
        exact
          tracked.quiet sound step painted
            (sound.tree.inRange group record.active) chain'
            fun slot delay executed covers =>
              hits ⟨slot, delay, executed, covers⟩

/-! ### Successions in a recorded pass -/

section Recorded

variable {machine : Machine} {group slot : Nat} {id : StripId} {pixel : Nat}
  {log remaining front rest : List Moment} {opening moment : Moment}
  {transition : Transition}

private structure Before (machine before : Machine) (group slot : Nat)
    (id : StripId) (pixel : Nat) (front : List Moment)
    (opening moment : Moment) : Prop where
  chronicle : Chronicle true before
  pass : Pass group before.history opening front
  stored : SameStored before.toController machine.toController
  clocks : before.clocks <+: machine.clocks
  run : moment.run + 1 = before.clocks.length
  leds : ∀ id, (before.strips id).ledCount = (machine.strips id).ledCount
  ready : ∀ id, (before.strips id).ready = (machine.strips id).ready
  settled : before.Settled before.timestamp
  captured :
    (moment.after.instructions slot).Captured ((before.strips id).color pixel)

private theorem exists_before (reachable : Reachable machine)
    (split : machine.history = log ++ remaining)
    (pass : Pass group log opening (front ++ moment :: rest))
    (lit : pixel < (machine.strips id).ledCount)
    (chain : machine.BackToBack group id pixel)
    (executed : ∃ delay, moment.event = .executed group slot delay)
    (covers : (machine.instructions slot).Covers id pixel) :
    ∃ before, Before machine before group slot id pixel front opening moment := by
  obtain ⟨earlier, shape, current⟩ := pass.cut
  have whole : machine.history = earlier ++ moment :: (rest ++ remaining) := by
    rw [split, shape]
    simp
  have chronicle :=
    (legal_of_reachable reachable).chronicle_of_history (by rw [whole]; simp)
  rcases chronicle.recorded earlier moment _ whole with
    ⟨rfl, -⟩ | ⟨before, snapshot⟩
  · exact absurd current (not_since_nil opening front)
  · have stored := snapshot.sameStored chronicle whole
    obtain ⟨rank, sound, step⟩ := snapshot.step
    obtain ⟨delay, event⟩ := executed
    rw [event] at step
    obtain ⟨due, settled, slotEq, -⟩ := step.enabled
    have below : slot < before.instructionCount := by
      rw [slotEq]
      exact (sound.committed.slotAt_mem due.below due.remaining).1
    rw [(stored.configuration slot).covers_iff] at covers
    obtain ⟨-, transition, found⟩ :=
      (chain.congr stored).transitions slot below covers
    rw [← snapshot.leds] at lit
    rw [← snapshot.history] at current
    obtain ⟨captured, -⟩ :=
      step.activates sound snapshot.chronicle.loadable
        (snapshot.chronicle.fresh group due.active) covers found lit
    exact
      ⟨before, snapshot.chronicle, current, stored, snapshot.clocks,
        snapshot.run, snapshot.leds, snapshot.ready, settled, captured⟩

/-- A transition has completed if and only if its end is over. -/
private theorem completed_iff {before : Machine} {later : Nat}
    {first next : Moment}
    (at' : Before machine before group later id pixel front opening next)
    (timely : Timely machine.clocks)
    (lit : pixel < (machine.strips id).ledCount)
    (succession :
      machine.Succession group id pixel front first next slot later
        transition) :
    ((group, slot) ∈ before.outstanding ↔ Pending group slot front) ∧
      (¬ Pending group slot front ↔
        Spaced machine.clocks first next transition) := by
  have record := at'.chronicle.passes.accurate group opening front at'.pass
  have timely' := timely.of_prefix at'.clocks
  have lit' := lit
  rw [← at'.leds] at lit'
  have earlier := (Controller.Succession.congr at'.stored).mp succession
  obtain ⟨since, latest⟩ := earlier.latest
  obtain ⟨delay, event⟩ := earlier.first
  have timed :=
    at'.chronicle.timed timely' lit' group opening front at'.pass first
      (mem_of_latest latest) slot delay transition event earlier.covers_first
      earlier.found
  have unfinished := timed.outstanding_iff at'.chronicle timely' at'.settled
  have run := at'.run
  have last : before.clocks.length - 1 = next.run := by omega
  rw [last] at unfinished
  refine ⟨record.timed slot, ?_⟩
  rw [← record.timed slot, unfinished, Nat.not_lt]
  have began :
      machine.clocks.getD first.run 0 = before.clocks.getD first.run 0 :=
    getD_of_isPrefix at'.clocks timed.read
  have reached :
      machine.clocks.getD next.run 0 = before.clocks.getD next.run 0 :=
    getD_of_isPrefix at'.clocks (by omega)
  unfold Spaced
  rw [began, reached]

/-- A transition that is activated right at its mark is spaced. -/
private theorem spaced_of_punctual (reachable : Reachable machine)
    (timely : Timely machine.clocks)
    (split : machine.history = log ++ remaining) {next first : Moment}
    {later : Nat}
    (pass : Pass group log opening (front ++ next :: rest))
    (chain : machine.BackToBack group id pixel)
    (succession :
      machine.Succession group id pixel front first next slot later
        transition)
    (punctual :
      machine.clocks.getD first.run 0 =
        machine.clocks.getD opening.run 0 + machine.markOf slot) :
    Spaced machine.clocks first next transition := by
  obtain ⟨left, schedule, -⟩ :=
    dispatch_schedule reachable timely split pass
  obtain ⟨since, latest⟩ := succession.latest
  obtain ⟨began, firstEvent⟩ := succession.first
  obtain ⟨delay, nextEvent⟩ := succession.next
  have dispatches : next.event.dispatches = some (group, later) := by
    rw [nextEvent]
    rfl
  have member : next ∈ front ++ next :: rest := by simp
  have reached :=
    (schedule.times next member later dispatches).1.reached
  have dispatchedFirst : slot ∈ dispatched group front := by
    apply mem_dispatched.mpr
    refine ⟨first, mem_of_latest latest, ?_⟩
    rw [firstEvent]
    rfl
  have shape :
      dispatched group (front ++ next :: rest) ++ left =
        dispatched group front ++
          later :: (dispatched group rest ++ left) := by
    simp [dispatched, nextEvent, Event.dispatches]
  have stored :
      ∀ index ∈ dispatched group (front ++ next :: rest) ++ left,
        index < machine.instructionCount := by
    intro index listed
    have labels := schedule.everything.mem_iff.mp listed
    exact ((mem_labelled machine.instructions).mp labels).1
  rw [shape] at stored
  have ordered := schedule.ordered
  rw [shape] at ordered
  have order :=
    (List.pairwise_append.mp ordered).2.2 slot dispatchedFirst later
      List.mem_cons_self
  have marks :=
    chain.marks slot later transition
      (stored slot (List.mem_append_left _ dispatchedFirst))
      (stored later (List.mem_append_right _ List.mem_cons_self))
      succession.covers_first succession.covers order succession.found
  unfold Spaced
  omega

end Recorded

/-- Transitions of a pass on a pixel that is written by Fades and Gradients of
the group alone, each marked at least its duration before the next.  A
transition has completed before its successor is activated if and only if the
`Run` that activates the successor comes at least its duration after the `Run`
that activated it, in particular if it was activated right at its mark.  Where
all transitions of the pass are so spaced, each captures the exact color with
which its predecessor ended. -/
theorem transitions_chain {machine : Machine} (reachable : Reachable machine)
    (timely : Timely machine.clocks) {group : Nat}
    {log remaining : List Moment} {opening : Moment} {during : List Moment}
    (split : machine.history = log ++ remaining)
    (pass : Pass group log opening during) {id : StripId} {pixel : Nat}
    (lit : pixel < (machine.strips id).ledCount)
    (ready : (machine.strips id).ready = true)
    (chain : machine.BackToBack group id pixel) :
    (∀ front first next rest slot later transition,
      during = front ++ next :: rest →
        machine.Succession group id pixel front first next slot later
            transition →
          (¬ Pending group slot front ↔
              Spaced machine.clocks first next transition) ∧
            (machine.clocks.getD first.run 0 =
                machine.clocks.getD opening.run 0 + machine.markOf slot →
              Spaced machine.clocks first next transition)) ∧
      (AllSpaced machine.clocks machine.toController group id pixel during →
        Chained machine.toController group id pixel during) := by
  constructor
  · rintro front first next rest slot later transition rfl succession
    obtain ⟨before, at'⟩ :=
      exists_before reachable split pass lit chain succession.next
        succession.covers
    refine ⟨(completed_iff at' timely lit succession).2, ?_⟩
    exact spaced_of_punctual reachable timely split pass chain succession
  · rintro spaced front first next rest slot later transition rfl succession
    obtain ⟨before, at'⟩ :=
      exists_before reachable split pass lit chain succession.next
        succession.covers
    obtain ⟨pending, completed⟩ := completed_iff at' timely lit succession
    have apart :=
      spaced front first next rest slot later transition rfl succession
    have ended := completed.mpr apart
    obtain ⟨since, earlier, rfl, activates, quiet⟩ := succession.latest
    obtain ⟨began, event⟩ := succession.first
    rw [List.append_assoc, List.cons_append] at pass
    obtain ⟨_, origin⟩ :=
      exists_before reachable split pass lit chain succession.first
        succession.covers_first
    have tracked :=
      at'.chronicle.tracked (timely.of_prefix at'.clocks) at'.clocks
        (at'.leds id ▸ lit) (at'.ready id ▸ ready) (chain.congr at'.stored)
        opening _ at'.pass (spaced.front at'.stored)
    have latest :
        machine.Latest group id pixel (earlier ++ first :: since) first
          since :=
      ⟨earlier, rfl, activates, quiet⟩
    rw [Controller.latest_congr at'.stored] at latest
    have found := succession.found
    rw [(at'.stored.configuration slot).transition_eq] at found
    have staged :=
      tracked.staged first since slot began transition _ latest event found
        origin.captured fun outstanding => ended (pending.mp outstanding)
    have captured := at'.captured
    rw [staged] at captured
    exact ⟨ended, _, origin.captured, captured⟩

/-! ### Two transitions on one pixel -/

/-- A program of transitions of one group, each marked at least its duration
before those that follow, is back to back on every pixel. -/
private theorem backToBack_of_all {controller : Controller} {group : Nat}
    (transitions :
      ∀ slot < controller.instructionCount,
        (controller.instructions slot).getGroupId =
            (controller.groups group).id ∧
          (controller.instructions slot).transition.isSome = true)
    (marks :
      ∀ slot < controller.instructionCount,
        ∀ later < controller.instructionCount,
          ProgramOrder controller.instructions slot later →
            controller.markOf slot +
                (controller.instructions slot).transition.elim 0
                  (fun transition => transition.durationMs.toNat) ≤
              controller.markOf later)
    (id : StripId) (pixel : Nat) :
    controller.BackToBack group id pixel := by
  constructor
  · intro slot below covers
    obtain ⟨label, isTransition⟩ := transitions slot below
    exact ⟨label, Option.isSome_iff_exists.mp isTransition⟩
  · intro slot later transition below laterBelow covers laterCovers ordered
      found
    have apart := marks slot below later laterBelow ordered
    rw [found] at apart
    exact apart

def spacedApart (machine : Machine) (first next : Moment) : Bool :=
  match first.event, next.event with
  | .executed _ slot _, .executed _ _ _ =>
      (machine.instructions slot).transition.all fun transition =>
        decide (Spaced machine.clocks first next transition)
  | _, _ => true

/-- A Gradient and, right at its end, a Fade of the same pixel. -/
def crossfade : Machine :=
  hosted
    [{ kind := .gradient { target := ⟨200, 100, 0⟩, durationMs := 100 } },
      { mark := 100, kind := .fade { percent := 50, durationMs := 60 } }]
    (.start 0 0 :: [0, 20, 130].map .run)

/-- The Fade is activated thirty milliseconds late, and starts from the color
with which the Gradient ended. -/
theorem transitions_chain_of_crossfade :
    Chained crossfade.toController 0 0 0 (crossfade.history.drop 1) := by
  have reachable : Reachable crossfade := reachable_hosted _ _
  have timely : Timely crossfade.clocks := by decide +kernel
  have lit : 0 < (crossfade.strips 0).ledCount := by decide +kernel
  have ready : (crossfade.strips 0).ready = true := by decide +kernel
  have chain : crossfade.BackToBack 0 0 0 :=
    backToBack_of_all (by decide +kernel) (by decide +kernel) 0 0
  have pass :
      Pass 0 crossfade.history
        (crossfade.history.get ⟨0, by decide +kernel⟩)
        (crossfade.history.drop 1) :=
    ⟨crossfade.history.take 0,
      split_at crossfade.history 0 (by decide +kernel), by decide +kernel,
      by decide +kernel⟩
  have apart :
      (crossfade.history.drop 1).Pairwise fun first next =>
        spacedApart crossfade first next = true := by
    decide +kernel
  apply
    (transitions_chain reachable timely
      (List.append_nil crossfade.history).symm pass lit ready chain).2
  intro front first next rest slot later transition shape succession
  obtain ⟨since, latest⟩ := succession.latest
  obtain ⟨began, firstEvent⟩ := succession.first
  obtain ⟨delay, nextEvent⟩ := succession.next
  rw [shape] at apart
  have spaced :=
    (List.pairwise_append.mp apart).2.2 first (mem_of_latest latest) next
      List.mem_cons_self
  unfold spacedApart at spaced
  rw [firstEvent, nextEvent] at spaced
  simpa [succession.found] using spaced

/-- A session of `Run`s at the given times. -/
def ticked (program : List ControllerInstruction) (start : Nat)
    (ticks : List Nat) : Machine :=
  hosted program (.start 0 start :: ticks.map .run)

/-- No `Run` comes before the wakeup that was last scheduled. -/
def Awaits (program : List ControllerInstruction) (start : Nat)
    (ticks : List Nat) : Prop :=
  ∀ count < ticks.length,
    (ticked program start (ticks.take count)).clocks.getLast?.getD 0 +
        (((ticked program start (ticks.take count)).outputs.filterMap
          Output.wakeup).getLast?.elim 0 UInt32.toNat) ≤
      ticks.getD count 0

/-- A Fade and, right at its end, a Gradient of the same pixel. -/
def lateFade : List ControllerInstruction :=
  [{ kind := .fade { percent := 20, durationMs := 100 } },
    { mark := 100,
      kind := .gradient { target := ⟨9, 8, 7⟩, durationMs := 60 } }]

/-- The first `Run` comes fifty milliseconds late, the others on time. -/
def lateSession : Machine :=
  ticked lateFade 0 [50, 60, 80, 100]

/-- Where the first `Run` is late, the Fade is still under way when the
Gradient is activated. -/
theorem not_chained_whatever_the_lateness :
    ¬ ∀ (program : List ControllerInstruction) (start : Nat)
        (ticks : List Nat) (machine : Machine),
      Awaits program start ticks → machine = ticked program start ticks →
        Timely machine.clocks →
          ∀ group opening during id pixel,
            Pass group machine.history opening during →
              pixel < (machine.strips id).ledCount →
                (machine.strips id).ready = true →
                  machine.BackToBack group id pixel →
                    Chained machine.toController group id pixel during := by
  intro claim
  have awaits : Awaits lateFade 0 [50, 60, 80, 100] := by
    unfold Awaits
    decide +kernel
  have timely : Timely lateSession.clocks := by decide +kernel
  have pass :
      Pass 0 lateSession.history
        (lateSession.history.get ⟨0, by decide +kernel⟩)
        (lateSession.history.drop 1) :=
    ⟨lateSession.history.take 0,
      split_at lateSession.history 0 (by decide +kernel), by decide +kernel,
      by decide +kernel⟩
  have lit : 0 < (lateSession.strips 0).ledCount := by decide +kernel
  have ready : (lateSession.strips 0).ready = true := by decide +kernel
  have chain : lateSession.BackToBack 0 0 0 :=
    backToBack_of_all (by decide +kernel) (by decide +kernel) 0 0
  have chained :=
    claim lateFade 0 [50, 60, 80, 100] lateSession awaits rfl timely 0 _ _ 0 0
      pass lit ready chain
  have fading : Pending 0 0 ((lateSession.history.drop 1).take 4) :=
    ⟨((lateSession.history.drop 1).take 4).get ⟨0, by decide +kernel⟩,
      ((lateSession.history.drop 1).take 4).drop 1,
      ((lateSession.history.drop 1).take 4).take 0,
      split_at ((lateSession.history.drop 1).take 4) 0 (by decide +kernel),
      ⟨10, by decide, by decide +kernel⟩, by decide +kernel⟩
  have latest :
      lateSession.Latest 0 0 0 ((lateSession.history.drop 1).take 4)
        (((lateSession.history.drop 1).take 4).get ⟨0, by decide +kernel⟩)
        (((lateSession.history.drop 1).take 4).drop 1) :=
    ⟨((lateSession.history.drop 1).take 4).take 0,
      split_at ((lateSession.history.drop 1).take 4) 0 (by decide +kernel),
      by decide +kernel, by decide +kernel⟩
  have isTransition : (lateSession.instructions 0).transition.isSome = true := by
    decide +kernel
  obtain ⟨transition, found⟩ := Option.isSome_iff_exists.mp isTransition
  obtain ⟨completed, -⟩ :=
    chained ((lateSession.history.drop 1).take 4) _ _ _ 0 1 transition
      (split_at (lateSession.history.drop 1) 4 (by decide +kernel))
      ⟨⟨_, latest⟩, ⟨10, by decide +kernel⟩, ⟨20, by decide +kernel⟩,
        by decide +kernel, found⟩
  exact completed fading

end Machine

end PrismKit
