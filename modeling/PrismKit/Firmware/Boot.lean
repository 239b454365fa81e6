import PrismKit.Firmware.Pictures

/-!
# The default picture

What the strip shows from the boot of the firmware to the first command.
-/

namespace PrismKit

open Library Machine

universe u v w x

/-- Instructions that are added one after the other are all stored. -/
theorem contains_additions {machine : Machine}
    {stored : List ControllerInstruction} (contains : machine.Contains stored)
    {program : List ControllerInstruction}
    (fits : stored.length + program.length ≤ maxInstructions) :
    Controller.Contains
      (program.foldl
        (fun current instr => (current.addInstruction (some instr)).1)
        machine).toController
      (stored ++ program) := by
  induction program generalizing machine stored with
  | nil =>
      rw [List.append_nil]
      exact contains
  | cons instr rest inductionHypothesis =>
      rw [List.length_cons] at fits
      have space : ¬ machine.instructionCount ≥ maxInstructions := by
        rw [contains.count]
        omega
      have added :
          ((machine.addInstruction (some instr)).1).Contains
            (stored ++ [instr]) := by
        rw [Machine.addInstruction]
        rw [if_neg (not_not.mpr contains.editable), if_neg space]
        exact contains.snoc instr
      rw [List.foldl_cons, ← List.singleton_append, ← List.append_assoc]
      apply inductionHypothesis added
      rw [List.length_append, List.length_singleton]
      omega

/-- Instructions of the root without marks are drawn in their order. -/
theorem Controller.Contains.programOrder {controller : Controller}
    {instructions : List ControllerInstruction}
    (contains : controller.Contains instructions)
    (plain : ∀ instr ∈ instructions, instr.groupId = 0 ∧ instr.mark = 0) :
    controller.programOrder = List.range instructions.length := by
  have slot :
      ∀ index, index < controller.instructionCount →
        (controller.instructions index).getGroupId = 0 ∧
          (controller.instructions index).getMark = 0 := by
    intro index below
    obtain ⟨instr, member, same⟩ := contains.slot below
    rw [same]
    exact plain instr member
  have root :
      labelled controller.instructions controller.instructionCount 0 =
        List.range controller.instructionCount := by
    apply List.filter_eq_self.mpr
    intro index member
    exact decide_eq_true (slot index (List.mem_range.mp member)).1
  rw [Controller.programOrder, root, ← contains.count]
  apply List.mergeSort_of_pairwise
  apply List.pairwise_lt_range.imp_of_mem
  intro left right member member' before
  rw [Bool.not_eq_true', decide_eq_false_iff_not, ProgramOrder,
    (slot left (List.mem_range.mp member)).2,
    (slot right (List.mem_range.mp member')).2]
  rintro (smaller | ⟨-, earlier⟩)
  · exact absurd smaller (by decide)
  · omega

theorem Controller.Contains.drawn {controller : Controller}
    {instructions : List ControllerInstruction}
    (contains : controller.Contains instructions)
    (plain : ∀ instr ∈ instructions, instr.groupId = 0 ∧ instr.mark = 0)
    {slot : Nat} (member : slot ∈ controller.programOrder) :
    ∃ instr ∈ instructions,
      controller.instructions slot = .store instr controller.strip := by
  rw [contains.programOrder plain, List.mem_range, ← contains.count] at member
  exact contains.slot member

theorem Controller.Contains.reached {controller : Controller}
    {instructions : List ControllerInstruction}
    (contains : controller.Contains instructions)
    (plain : ∀ instr ∈ instructions, instr.groupId = 0 ∧ instr.mark = 0)
    (startTime reading : Nat) (later : List Nat) :
    ∀ slot ∈ controller.programOrder,
      reachedMark startTime (reading :: later)
          (controller.instructions slot).getMark =
        true := by
  intro slot member
  obtain ⟨instr, stored, same⟩ := contains.drawn plain member
  have unmarked : (controller.instructions slot).getMark = 0 := by
    rw [same]
    exact (plain instr stored).2
  rw [unmarked]
  simp [reachedMark]

theorem paint_zipIdx {strips : StripId → Strip} {id : StripId}
    (ready : (strips id).ready = true) (colors : List RgbColor) (pixel : Nat) :
    (paint strips
        (colors.zipIdx.map fun (color, index) => ⟨id, index, color⟩)
        id).color pixel =
      (colors[pixel]?).getD ((strips id).color pixel) := by
  induction colors using List.reverseRecOn with
  | nil =>
      rfl
  | append_singleton colors color inductionHypothesis =>
      have kept :=
        (paint_shape strips
          (colors.zipIdx.map fun (color, index) => ⟨id, index, color⟩) id).2
      rw [List.zipIdx_append, List.map_append, paint_append]
      by_cases last : pixel = colors.length
      · rw [last, List.getElem?_concat_length, Option.getD_some]
        have written :=
          @paint_singleton _ id (kept.trans ready) colors.length color
        simpa using written
      · have others :
            (paint
                (paint strips
                  (colors.zipIdx.map fun (color, index) =>
                    ⟨id, index, color⟩))
                (([color].zipIdx (0 + colors.length)).map
                  fun (color, index) => ⟨id, index, color⟩)
                id).color pixel =
              (paint strips
                (colors.zipIdx.map fun (color, index) => ⟨id, index, color⟩)
                id).color pixel := by
          apply paint_color
          intro write member
          simp only [List.zipIdx_cons, List.zipIdx_nil, List.map_cons,
            List.map_nil, List.mem_singleton] at member
          rw [member]
          rintro ⟨-, same⟩
          simp only at same
          omega
        rw [others, inductionHypothesis]
        congr 1
        by_cases before : pixel < colors.length
        · rw [List.getElem?_append_left before]
        · rw [List.getElem?_eq_none (by omega),
            List.getElem?_eq_none (by simp; omega)]

/-- One color for each pixel, from the first one on. -/
def singleColors (colors : List RgbColor) : List ControllerInstruction :=
  colors.zipIdx.map fun (color, index) =>
    SetSingleColorPayload.instruction
      ⟨0, color.red, color.green, color.blue, UInt8.ofNat index⟩

theorem length_singleColors (colors : List RgbColor) :
    (singleColors colors).length = colors.length := by
  rw [singleColors, List.length_map, List.length_zipIdx]

theorem singleColors_plain {colors : List RgbColor} :
    ∀ instr ∈ singleColors colors,
      instr.Colors ∧ instr.groupId = 0 ∧ instr.mark = 0 := by
  intro instr member
  obtain ⟨⟨color, index⟩, -, rfl⟩ := List.mem_map.mp member
  exact ⟨True.intro, rfl, rfl⟩

/-- Drawn in their order, the stored instructions make their calls one after the
other. -/
theorem Controller.Contains.drawing {controller : Controller}
    {instructions : List ControllerInstruction}
    (contains : controller.Contains instructions) (strips : StripId → Strip) :
    controller.drawing strips (List.range instructions.length) =
      instructions.flatMap fun instr =>
        InstructionMemorySlot.coloring strips
          (.store instr controller.strip) := by
  have upTo :
      ∀ count, count ≤ instructions.length →
        controller.drawing strips (List.range count) =
          (instructions.take count).flatMap fun instr =>
            InstructionMemorySlot.coloring strips
              (.store instr controller.strip) := by
    intro count
    induction count with
    | zero =>
        intro _
        rfl
    | succ count inductionHypothesis =>
        intro fits
        have found := List.getElem?_eq_getElem (Nat.lt_of_succ_le fits)
        rw [List.range_succ, Controller.drawing_append,
          inductionHypothesis (Nat.le_of_succ_le fits), List.take_add_one,
          found, List.flatMap_append]
        congr 1
        simp [Controller.drawing, contains.stored count _ found]
  rw [upTo _ (Nat.le_refl _), List.take_length]

/-- Numbered entries up to a bound are the entries in front of it. -/
theorem flatMap_zipIdx_below {α β : Type} (entries : List α) (bound : Nat)
    (f : α × Nat → β) :
    (entries.zipIdx.flatMap fun entry =>
        if entry.2 < bound then [f entry] else []) =
      (entries.take bound).zipIdx.map f := by
  induction entries using List.reverseRecOn with
  | nil =>
      rw [List.take_nil]
      rfl
  | append_singleton entries last inductionHypothesis =>
      rw [List.zipIdx_append, List.flatMap_append, inductionHypothesis,
        List.take_append]
      by_cases below : entries.length < bound
      · obtain ⟨more, same⟩ := Nat.exists_eq_add_of_lt below
        have whole : bound - entries.length = more + 1 := by omega
        rw [whole, List.take_succ_cons, List.take_nil,
          List.take_of_length_le (Nat.le_of_lt below), List.zipIdx_append,
          List.map_append]
        simp [below]
      · have none : bound - entries.length = 0 := by omega
        rw [none, List.take_zero, List.append_nil]
        simp [below]

theorem drawing_singleColors {controller : Controller}
    {strips : StripId → Strip} {colors : List RgbColor}
    (short : colors.length ≤ maxInstructions)
    (contains : controller.Contains (singleColors colors))
    (strip : controller.strip = some 0) :
    controller.drawing strips (List.range (singleColors colors).length) =
      (colors.take (strips 0).ledCount).zipIdx.map
        fun (color, index) => ⟨0, index, color⟩ := by
  rw [contains.drawing, ← flatMap_zipIdx_below, singleColors, List.flatMap_map]
  apply List.flatMap_congr
  rintro ⟨color, index⟩ member
  have bound := List.snd_lt_of_mem_zipIdx member
  simp only [maxInstructions] at short
  have same : (UInt8.ofNat index).toNat = index := by
    rw [UInt8.toNat_ofNat']
    omega
  rw [strip]
  show ControllerInstruction.writeLed 0 (strips 0) color
    (UInt8.ofNat index).toNat = _
  rw [same, ControllerInstruction.writeLed, Strip.led]
  by_cases below : index < (strips 0).ledCount
  · rw [if_neg (by omega), if_pos below]
  · rw [if_pos (by omega), if_neg below]

theorem paint_singleColors {controller : Controller}
    {strips : StripId → Strip} {colors : List RgbColor}
    (short : colors.length ≤ maxInstructions)
    (contains : controller.Contains (singleColors colors))
    (strip : controller.strip = some 0) (ready : (strips 0).ready = true)
    {pixel : Nat} (below : pixel < (strips 0).ledCount) :
    (paint strips
          (controller.drawing strips
            (List.range (singleColors colors).length)) 0).color pixel =
      (colors[pixel]?).getD ((strips 0).color pixel) := by
  rw [drawing_singleColors short contains strip, paint_zipIdx ready,
    List.getElem?_take_of_lt below]

/-- The default program colors every pixel that has a color of its own. -/
theorem defaultProgram_eq {ledCount : Nat}
    (small : ledCount ≤ sharedFrameCapacity) :
    defaultProgram (UInt8.ofNat ledCount) =
      singleColors (rainbowColors.take ledCount) := by
  have same : (UInt8.ofNat ledCount).toNat = ledCount := by
    simp only [sharedFrameCapacity] at small
    rw [UInt8.toNat_ofNat']
    omega
  unfold defaultProgram
  rw [same]
  by_cases short : ledCount < rainbowColors.length
  · rw [if_pos short]
    rfl
  · have whole := List.take_of_length_le (Nat.le_of_not_lt short)
    have cut : rainbowColors.take rainbowColors.length = rainbowColors :=
      List.take_length
    rw [if_neg short, whole]
    simp only [cut]
    rfl

def defaultColor (strip : Strip) (index : Nat) : RgbColor :=
  (rainbowColors[index]?).getD (strip.color index)

/-- What `Setup` leaves behind: the default picture has been drawn and, unless
the strip is empty, shown. -/
structure Welcomed (strips : StripId → Strip) (machine : Machine) : Prop where
  completed : machine.state = .completed
  length : (machine.strips 0).ledCount = (strips 0).ledCount
  picture :
    ∀ index, index < (strips 0).ledCount →
      (machine.strips 0).color index = defaultColor (strips 0) index
  shown : 0 < (strips 0).ledCount → .show 0 ∈ machine.outputs

theorem welcomed_of_begin {strips : StripId → Strip} {machine : Machine}
    {fuel startTime runTime : Nat}
    (small : (strips 0).ledCount ≤ sharedFrameCapacity)
    (ready : (strips 0).ready = true)
    (performs :
      (Call.begin startTime runTime).perform fuel
          (Call.bound (Machine.fresh strips)) =
        some machine) :
    Welcomed strips machine := by
  let colors := rainbowColors.take (strips 0).ledCount
  let program := singleColors colors
  let loaded := Call.loaded (Call.bound (Machine.fresh strips))
  have hosted : Hosted loaded :=
    (Call.hosted_loaded (Firmware.hosted_bound strips)).1
  have unpainted : loaded.strips = strips :=
    (Call.hosted_loaded (Firmware.hosted_bound strips)).2.2.1
  have loadable := (legal_of_reachable hosted.reachable).loadable
  have short : colors.length ≤ maxInstructions := by
    rw [List.length_take]
    simp [rainbowColors, maxInstructions]
  have contains : loaded.Contains program := by
    have empty : (Call.bound (Machine.fresh strips)).Contains [] :=
      ⟨rfl, rfl, fun _ _ found => by cases found⟩
    rw [show program = _ from (defaultProgram_eq small).symm]
    refine contains_additions empty ?_
    rw [List.length_nil, Nat.zero_add]
    show (defaultProgram (UInt8.ofNat (strips 0).ledCount)).length ≤ _
    rw [defaultProgram_eq small, length_singleColors]
    exact short
  have plain := @singleColors_plain colors
  have colored : loaded.Colored :=
    contains.colored fun instr member => (plain instr member).1
  have unmarked :
      ∀ instr ∈ program, instr.groupId = 0 ∧ instr.mark = 0 :=
    fun instr member => (plain instr member).2
  have order : loaded.programOrder = List.range program.length :=
    contains.programOrder unmarked
  have accepted : loaded.Acceptable 0 := by
    refine contains.acceptable ⟨?_, fun repeated => absurd rfl repeated⟩
    intro instr member isRun
    rw [(plain instr member).1.isRunGroup] at isRun
    cases isRun
  obtain ⟨⟨_, result⟩, dispatches, rfl⟩ := Option.map_eq_some_iff.mp performs
  obtain ⟨started, status, starts, runs, -⟩ :=
    @start_accepted _ _ _ _ _ (.start 0) _ _ _ loadable contains rfl accepted
      dispatches
  obtain ⟨loads, -, -, cursor, active, -⟩ :=
    loads_of_start loadable colored starts
  have performs : Performs (.run runTime) started _ status := ⟨fuel, runs⟩
  obtain ⟨drawn, complete⟩ :=
    @Hosted.pictured _ _ _ startTime [runTime] _ hosted colored starts
      (.call performs (.done _))
  have reached := contains.reached unmarked startTime runTime []
  rw [List.filter_eq_self.mpr reached, order, unpainted] at drawn
  have completed := complete.mpr reached
  refine ⟨completed, ?_, ?_, ?_⟩
  · rw [drawn]
    exact (paint_shape strips _ 0).1
  · intro index below
    have strip : loaded.strip = some 0 := hosted.strip
    rw [drawn, paint_singleColors short contains strip ready below,
      defaultColor, List.getElem?_take_of_lt below]
  · intro lit
    have begun := Chronicle.started _ _ 0 _ loadable starts
    have nonempty : loaded.programOrder ≠ [] := by
      rw [order, Ne, List.range_eq_nil, length_singleColors, List.length_take]
      simp only [rainbowColors, List.length_cons, List.length_nil]
      omega
    have running : started.state = .active := by
      obtain ⟨rank, sound⟩ := begun.sound
      rw [sound.tree.lifecycle, if_pos (active.mpr nonempty)]
    have bound : started.strip = some 0 := by
      rcases hosted.start 0 startTime with ⟨failed, -⟩ | ⟨-, hosted', -⟩
      · rw [starts] at failed
        exact absurd rfl failed
      · rw [starts] at hosted'
        exact hosted'.strip
    have requests :
        ∀ slot ∈ loaded.programOrder,
          (loaded.instructions slot).requestsShow = true := by
      intro slot member
      obtain ⟨instr, -, same⟩ := contains.drawn unmarked member
      rw [same, show loaded.strip = some 0 from hosted.strip]
      rfl
    exact
      List.mem_of_mem_drop
        (shows_of_completed begun loads colored requests running cursor nonempty
          completed runs bound)

/-! ### The firmware until the first command -/

namespace Firmware

variable {σ : Type u} {φ : Type v} {β : Type w} {τ : Type x}
  {platform : Platform σ φ β τ}
  {contents : σ → List ControllerCommandMessage}
  {frames : φ → List SharedFrame}
  {start before after firmware : Firmware σ φ β τ}
  {staged displayed : β → Nat → RgbColor} {strips : StripId → Strip}

theorem Carried.sends {now finish : Nat} {writes : List PixelWrite}
    {wakeup : Option UInt32}
    (carried : Carried platform now finish before after writes wakeup true)
    (ready : (after.machine.strips 0).ready = true) :
    ∃ frame : SharedFrame,
      frame.Carries (after.machine.strips 0) ∧
        after.strip.mailbox =
          (before.strip.mailbox.send platform.frameBox frame).1 := by
  obtain ⟨manager, mailbox, stages, strip⟩ := carried.strip
  refine ⟨manager.committed, stages.carries, ?_⟩
  rw [strip, if_pos rfl, StripManager.show,
    if_neg (not_not.mpr (stages.ready.trans ready)), ← mailbox]

/-- A call that shows the strip is seen in what it lets out. -/
theorem Carried.shown_of_mem {now finish : Nat} {writes : List PixelWrite}
    {wakeup : Option UInt32} {shown : Bool}
    (carried : Carried platform now finish before after writes wakeup shown)
    (silent : .show 0 ∉ before.machine.outputs)
    (member : .show 0 ∈ after.machine.outputs) : shown = true := by
  rw [carried.leads.lets.outputs] at member
  cases shown with
  | true =>
      rfl
  | false =>
      refine absurd member ?_
      simp [silent]

/-- The firmware has shown the default picture, and nothing else, until its
first command. -/
structure Greeting (strips : StripId → Strip) (firmware : Firmware σ φ β τ) :
    Prop where
  unbound :
    firmware.app = .setup → firmware.machine = Machine.fresh strips
  bound :
    firmware.app = .bound →
      firmware.machine = Call.bound (Machine.fresh strips)
  silent :
    firmware.app = .setup ∨ firmware.app = .bound →
      firmware.strip.mailbox.accepted = []
  begun :
    firmware.app ≠ .setup → firmware.app ≠ .bound →
      firmware.calls.filterMap Call.message = [] →
        Welcomed strips firmware.machine ∧
          ∃ frame : SharedFrame,
            firmware.strip.mailbox.accepted = [frame] ∧
              frame.Carries (firmware.machine.strips 0)

/-- After `Setup` only the welcome is left to say. -/
theorem Greeting.of_begun (started : firmware.app ≠ .setup)
    (begun : firmware.app ≠ .bound)
    (welcomed :
      firmware.calls.filterMap Call.message = [] →
        Welcomed strips firmware.machine ∧
          ∃ frame : SharedFrame,
            firmware.strip.mailbox.accepted = [frame] ∧
              frame.Carries (firmware.machine.strips 0)) :
    Greeting strips firmware where
  unbound := fun point => absurd point started
  bound := fun point => absurd point begun
  silent := fun point => (point.elim started begun).elim
  begun := fun _ _ => welcomed

theorem Greeting.of_same (greeting : Greeting strips before)
    (machine : after.machine = before.machine)
    (calls : after.calls = before.calls)
    (accepted :
      after.strip.mailbox.accepted = before.strip.mailbox.accepted)
    (app :
      after.app = before.app ∨
        (before.app ≠ .setup ∧ before.app ≠ .bound) ∧
          after.app ≠ .setup ∧ after.app ≠ .bound) :
    Greeting strips after := by
  rcases app with same | ⟨⟨started, begun⟩, started', begun'⟩
  · constructor
    · rw [same, machine]
      exact greeting.unbound
    · rw [same, machine]
      exact greeting.bound
    · rw [same, accepted]
      exact greeting.silent
    · rw [same, machine, calls, accepted]
      exact greeting.begun
  · apply Greeting.of_begun started' begun'
    rw [machine, calls, accepted]
    exact greeting.begun started begun

theorem Greeting.begin {fuel startTime runTime finish : Nat}
    (lawful : platform.Lawful contents frames)
    (greeting : Greeting strips before) (staging : before.Staging)
    (tended : before.Tended platform contents frames)
    (ready : (strips 0).ready = true) (lit : 0 < (strips 0).ledCount)
    (point : before.app = .bound)
    (executed :
      Executed platform fuel finish (.begin startTime runTime) .waiting before
        after) :
    Greeting strips after := by
  have machine := greeting.bound point
  have app : after.app = .waiting := by
    rw [executed.eq]
  have small : (strips 0).ledCount ≤ sharedFrameCapacity := by
    have lengths := staging.stages.ledCount
    rw [machine] at lengths
    rw [← show before.strip.ledCount = (strips 0).ledCount from lengths]
    exact before.strip.fits
  have performs := executed.performs
  rw [machine] at performs
  have welcomed := welcomed_of_begin small ready performs
  obtain ⟨writes, wakeup, shown, carried⟩ :=
    executed.carried (staging.hosted (by simp [point])) Call.noConfusion
      staging.stages
  have none : before.machine.outputs = [] := by
    rw [machine]
    rfl
  cases
    carried.shown_of_mem (by rw [none]; exact List.not_mem_nil)
      (welcomed.shown lit)
  have ready' : (after.machine.strips 0).ready = true := by
    rw [carried.leads.lets.painted, machine]
    exact (paint_shape strips writes 0).2.trans ready
  obtain ⟨frame, carries, mailbox⟩ := carried.sends ready'
  have empty : frames before.strip.mailbox.state = [] := by
    have conserved := tended.frames.conserved
    rw [greeting.silent (Or.inr point)] at conserved
    exact (List.append_eq_nil_iff.mp conserved).2
  have accepted : after.strip.mailbox.accepted = [frame] := by
    have kept :=
      @Channel.sendAll_space _ _ platform.frameBox frames 1
        before.strip.mailbox lawful.frameBox [frame] (by rw [empty]; rfl)
    rw [mailbox]
    exact kept.trans (by rw [greeting.silent (Or.inr point)]; rfl)
  exact
    .of_begun (by simp [app]) (by simp [app]) fun _ =>
      ⟨welcomed, frame, accepted, carries⟩

/-- A tick does nothing after the default program. -/
theorem Greeting.tick {fuel now finish : Nat}
    (greeting : Greeting strips before) (point : before.app = .ticking)
    (executed :
      Executed platform fuel finish (.tick now) .waiting before after) :
    Greeting strips after := by
  have started : before.app ≠ .setup := by simp [point]
  have begun : before.app ≠ .bound := by simp [point]
  have app : after.app = .waiting := by
    rw [executed.eq]
  have calls : after.calls = before.calls ++ [.tick now] := by
    rw [executed.eq]
  apply Greeting.of_begun (by simp [app]) (by simp [app])
  intro quiet
  rw [calls, List.filterMap_append] at quiet
  have welcomed :=
    greeting.begun started begun (List.append_eq_nil_iff.mp quiet).1
  obtain ⟨⟨_, status⟩, runs, same⟩ :=
    Option.map_eq_some_iff.mp executed.performs
  unfold Machine.run at runs
  rw [if_pos (by rw [welcomed.1.completed]; exact ProgramState.noConfusion)]
    at runs
  cases runs
  have machine : after.machine = before.machine := same.symm
  have strip : after.strip = before.strip := by
    rw [executed.strip, machine, List.drop_length]
    rfl
  rw [machine, strip]
  exact welcomed

theorem Greeting.moves (lawful : platform.Lawful contents frames)
    (ready : (strips 0).ready = true) (lit : 0 < (strips 0).ledCount)
    (moves : Moves platform before after) (staging : before.Staging)
    (tended : before.Tended platform contents frames)
    (greeting : Greeting strips before) : Greeting strips after := by
  cases moves with
  | elapse | expire | deliver | delivered | apply | failed | blink =>
      exact greeting.of_same rfl rfl rfl (Or.inl rfl)
  | collect frame point received =>
      exact
        greeting.of_same rfl rfl (Channel.receive_of_some received).2.1
          (Or.inl rfl)
  | collected point empty =>
      exact
        greeting.of_same rfl rfl (Channel.receive_of_none empty).2.1
          (Or.inl rfl)
  | idle frame | listen chunks frame =>
      cases frame <;> exact greeting.of_same rfl rfl rfl (Or.inl rfl)
  | wakeCommands point | wakeTimeout point | receive timeout message point =>
      refine greeting.of_same rfl rfl rfl (Or.inr ⟨?_, ?_⟩)
      · rw [point]
        exact ⟨AppPoint.noConfusion, AppPoint.noConfusion⟩
      · exact ⟨AppPoint.noConfusion, AppPoint.noConfusion⟩
  | drained timeout point =>
      refine greeting.of_same rfl rfl rfl (Or.inr ⟨?_, ?_⟩)
      · rw [point]
        exact ⟨AppPoint.noConfusion, AppPoint.noConfusion⟩
      · cases timeout <;>
          exact ⟨AppPoint.noConfusion, AppPoint.noConfusion⟩
  | @bind bound finish point executes =>
      have effect := executed executes
      obtain ⟨machine, strip, -⟩ := effect.of_bind
      have app : bound.app = .bound := by
        rw [effect.eq]
      constructor
      · intro setup
        exact AppPoint.noConfusion (app.symm.trans setup)
      · intro _
        rw [← greeting.unbound point]
        exact machine
      · intro _
        show bound.strip.mailbox.accepted = []
        rw [strip]
        exact greeting.silent (Or.inl point)
      · exact fun _ begun => absurd app begun
  | begin fuel startTime runTime finish point executes =>
      exact
        greeting.begin lawful staging tended ready lit point
          (executed executes)
  | dispatch fuel startTime runTime finish message timeout point executes =>
      have effect := (executed executes).eq
      have app : after.app = .draining timeout := by
        rw [effect]
      apply Greeting.of_begun (by simp [app]) (by simp [app])
      intro quiet
      rw [effect, List.filterMap_append] at quiet
      cases (List.append_eq_nil_iff.mp quiet).2
  | tick fuel now finish point executes =>
      exact greeting.tick point (executed executes)

/-- From the end of `Setup` to the first command, a sleeping hardware task
displays the default picture on every strip, in every interleaving. -/
theorem default_picture (lawful : platform.Lawful contents frames)
    (driver : platform.driver.Lawful staged displayed)
    (initial : Initial contents frames platform start)
    (runs : Runs platform start firmware) (started : firmware.app ≠ .setup)
    (begun : firmware.app ≠ .bound)
    (quiet : firmware.calls.filterMap Call.message = [])
    (sleeps : firmware.hw = .waiting)
    (silent :
      platform.frameBox.posted firmware.strip.mailbox.state = false)
    (index : Nat) (below : index < (start.machine.strips 0).ledCount) :
    displayed firmware.driver index =
      defaultColor (start.machine.strips 0) index := by
  have ready : (start.machine.strips 0).ready = true :=
    initial.stages.ready.symm.trans initial.ready
  have first : Greeting start.machine.strips start := by
    constructor
    · exact fun _ => initial.machine
    · intro bound
      rw [initial.app] at bound
      cases bound
    · exact fun _ => initial.frames.2.1
    · exact fun started => absurd initial.app started
  have both :=
    runs.invariant
      (fun firmware =>
        firmware.Consistent platform contents frames start.machine ∧
          Greeting start.machine.strips firmware)
      ⟨.initial initial, first⟩
      fun _ _ moves holds =>
        ⟨holds.1.moves lawful moves,
          holds.2.moves lawful ready (Nat.zero_lt_of_lt below) moves
            holds.1.staging holds.1.tended⟩
  obtain ⟨welcomed, frame, accepted, carries⟩ := both.2.begun started begun quiet
  have latest : firmware.strip.mailbox.accepted.getLast? = some frame := by
    rw [accepted]
    rfl
  have displays :=
    runs.displayed_last lawful driver initial sleeps silent latest
  have within : index < (firmware.machine.strips 0).ledCount := by
    rw [welcomed.length]
    exact below
  rw [displays index (by rw [carries.1]; exact within), carries.2 index within]
  exact welcomed.picture index below

theorem default_picture_of_latchActions :
    ∃ firmware,
      Runs fakePlatform (fakeStart 9 (by decide)) firmware ∧
        firmware.driver.displayed 1 = ⟨255, 40, 0⟩ := by
  have ends :
      ((fakeStart 9 (by decide)).course fakePlatform
            (.bind 0 :: .begin 40 1 1 2 :: latchActions)).any
          (fun firmware =>
            decide
              (firmware.app = .waiting ∧
                firmware.calls.filterMap Call.message = [] ∧
                firmware.hw = .waiting ∧
                fakePlatform.frameBox.posted firmware.strip.mailbox.state =
                  false)) =
        true := by
    decide +kernel
  obtain ⟨firmware, courses, holds⟩ := (Option.any_eq_true _ _).mp ends
  obtain ⟨app, quiet, sleeps, silent⟩ := of_decide_eq_true holds
  have runs := Runs.start.course courses
  have displays :=
    default_picture fakePlatform_lawful FakeStrip.driver_lawful
      (fakeStart_initial 9 (by decide)) runs (by simp [app]) (by simp [app])
      quiet sleeps silent 1 (by decide)
  exact ⟨firmware, runs, displays⟩

end Firmware

end PrismKit
