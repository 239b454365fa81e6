import PrismKit.Firmware.Boot

/-!
# The pictures of the scripts

What the strip displays after a script that sets one color for each pixel.
-/

namespace PrismKit

open Library Machine Host

universe u v w x

/-- The color with these channels. -/
def Host.Rgb.color (color : Rgb) : RgbColor :=
  ⟨.ofNat color.1, .ofNat color.2.1, .ofNat color.2.2⟩

/-- The picture that a script sets, if it sets one color for each pixel. -/
def Script.picture : Script → Option (List Rgb)
  | rainbowStep step =>
      some
        (Host.rainbowColors.zipIdx.map fun (color, ledIdx) =>
          if ledIdx ≤ step then color else (0, 0, 0))
  | setColor index color =>
      some
        ((List.range ledCount).map fun (ledIndex : Nat) =>
          let pixelColor := if ledIndex = index then color else (0, 0, 0)
          (pixelColor.1.toNat, pixelColor.2.1.toNat, pixelColor.2.2.toNat))
  | _ => none

def pictureStores (colors : List Rgb) : List HostCommand :=
  colors.zipIdx.map fun (color, index) => .ofSingleColor color index 0

theorem pictureStores_stored (colors : List Rgb) :
    ∀ command ∈ pictureStores colors, command.instruction.isSome := by
  intro command member
  obtain ⟨entry, -, rfl⟩ := List.mem_map.mp member
  rfl

theorem pictureStores_instructions (colors : List Rgb) :
    (pictureStores colors).filterMap HostCommand.instruction =
      singleColors (colors.map Rgb.color) := by
  rw [pictureStores, singleColors, List.zipIdx_map, List.filterMap_map,
    List.map_map, ← List.filterMap_eq_map]
  rfl

theorem Script.picture_program {script : Script} {written : List Built}
    {colors : List Rgb} (accepts : script.frames = some written)
    (pictured : script.picture = some colors) :
    ∃ program : HostProgram,
      written = program.commands.map HostCommand.frame ∧
        program.instructions = singleColors (colors.map Rgb.color) ∧
        program.repeats = 0 := by
  have all :
      colors.length = 7 ∧ (∀ color ∈ colors, IsBytes color) ∧
        written =
          buildResetInstructionsFrame ::
            ((colors.zipIdx.map fun (color, index) =>
                buildSetSingleColorFrame color.1 color.2.1 color.2.2 index
                  0) ++
              [buildRunFrame]) := by
    cases script with
    | rainbowStep step =>
        cases accepts
        cases pictured
        refine ⟨rfl, ?_, rfl⟩
        intro color member
        obtain ⟨⟨shown, ledIdx⟩, among, rfl⟩ := List.mem_map.mp member
        simp only
        split
        · exact (rainbowColors_bytes _ among).1
        · decide
    | setColor index color =>
        cases pictured
        change Host.setColor index color = some written at accepts
        unfold Host.setColor at accepts
        split at accepts
        · cases accepts
        split at accepts
        · cases accepts
        rename_i valid
        rw [not_not] at valid
        cases accepts
        obtain ⟨red, green, blue⟩ := valid
        refine ⟨rfl, ?_, rfl⟩
        intro shown member
        obtain ⟨ledIndex, -, rfl⟩ := List.mem_map.mp member
        simp only
        split
        · refine ⟨?_, ?_, ?_⟩ <;> simp only <;> omega
        · decide
    | _ => cases pictured
  obtain ⟨seven, bytes, written⟩ := all
  have fits : (pictureStores colors).length ≤ maxInstructions := by
    rw [pictureStores, List.length_map, List.length_zipIdx, seven]
    simp [maxInstructions]
  refine
    ⟨.of _ (pictureStores_stored colors) fits .run 0 rfl, ?_,
      pictureStores_instructions colors, rfl⟩
  rw [written]
  show _ = _ :: (pictureStores colors ++ [HostCommand.run]).map _
  rw [List.map_append, pictureStores, List.map_map]
  refine congrArg _ (congrArg (· ++ [buildRunFrame]) ?_)
  apply List.map_congr_left
  rintro ⟨color, index⟩ member
  have bound := List.snd_lt_of_mem_zipIdx member
  have among := bytes color (List.fst_mem_of_mem_zipIdx member)
  exact
    (HostCommand.frame_ofSingleColor among (by omega) (by decide)).symm

/-! ### Sessions paint -/

theorem Session.painted {initial final : Machine} {calls : List Call}
    {shows : List Strip} (session : Session initial calls final shows)
    (hosted : Hosted initial) (started : ∀ call ∈ calls, call ≠ .bind) :
    ∃ writes, final.strips = paint initial.strips writes := by
  induction session with
  | nil =>
      exact ⟨[], rfl⟩
  | @snoc calls _ _ _ _ earlier fuel performs inductionHypothesis =>
      have before : ∀ call ∈ calls, call ≠ .bind := fun call member =>
        started call (List.mem_append_left _ member)
      obtain ⟨writes, same⟩ := inductionHypothesis before
      obtain ⟨more, wakeup, shown, leads⟩ :=
        Call.leads (earlier.hosted hosted before)
          (started _ (List.mem_append_right _ (List.mem_singleton_self _)))
          performs
      refine ⟨writes ++ more, ?_⟩
      rw [paint_append, ← same]
      exact leads.lets.painted

theorem Session.painted_since_boot {strips : StripId → Strip}
    {final : Machine} {rest : List Call} {shows : List Strip}
    (session : Session (Machine.fresh strips) (.bind :: rest) final shows)
    (started : ∀ call ∈ rest, call ≠ .bind) :
    ∃ writes, final.strips = paint strips writes := by
  obtain ⟨bound, _, _, first, second⟩ :=
    @Session.split _ _ [.bind] rest _ session
  obtain ⟨fuel, performs⟩ := first.single
  cases Option.some.inj performs
  exact second.painted (Firmware.hosted_bound strips) started

/-- A started program of single colors has completed, and the strip shows
them. -/
theorem Launch.Ends.single_colors {launch : Launch} {program : HostProgram}
    {initial final : Machine} {calls : List Call} {colors : List RgbColor}
    (ends : launch.Ends program initial calls final)
    (instructions : program.instructions = singleColors colors)
    (single : program.repeats = 0)
    (ready : (launch.loaded.strips 0).ready = true) :
    final.state = .completed ∧
      ∀ pixel, pixel < (final.strips 0).ledCount →
        (final.strips 0).color pixel =
          (colors[pixel]?).getD ((launch.loaded.strips 0).color pixel) := by
  have contains := ends.contains
  have fits := program.fits
  rw [instructions] at contains fits
  have plain := @singleColors_plain colors
  obtain ⟨-, drawn, complete⟩ :=
    ends.pictured
      (by
        rw [instructions]
        exact fun instr member => (plain instr member).1)
      single
  have unmarked :
      ∀ instr ∈ singleColors colors, instr.groupId = 0 ∧ instr.mark = 0 :=
    fun instr member => (plain instr member).2
  have order := contains.programOrder unmarked
  have reached :
      ∀ slot ∈ launch.loaded.programOrder,
        reachedMark launch.startTime launch.reads
            (launch.loaded.instructions slot).getMark =
          true :=
    contains.reached unmarked launch.startTime launch.runTime _
  refine ⟨complete.mpr reached, ?_⟩
  intro pixel below
  rw [drawn, Launch.drawn, List.filter_eq_self.mpr reached, order] at below ⊢
  rw [(paint_shape _ _ 0).1] at below
  rw [length_singleColors] at fits
  exact paint_singleColors fits contains ends.hosted.strip ready below

namespace Firmware

variable {σ : Type u} {φ : Type v} {β : Type w} {τ : Type x}
  {platform : Platform σ φ β τ}
  {contents : σ → List ControllerCommandMessage}
  {frames : φ → List SharedFrame}
  {start middle firmware : Firmware σ φ β τ}
  {staged displayed : β → Nat → RgbColor}

theorem Transmission.ready (lawful : platform.Lawful contents frames)
    (initial : Initial contents frames platform start) {bytes : List UInt8}
    (sent : Transmission platform start middle firmware bytes)
    {launch : Launch} {program : HostProgram}
    (ends :
      launch.Ends program start.machine firmware.calls firmware.machine) :
    (launch.loaded.strips 0).ready = true := by
  obtain ⟨startTime, runTime, later, shows, calls, serves, -⟩ :=
    sent.session lawful initial
  obtain ⟨seen, found⟩ := ends.found
  have same := calls.symm.trans ends.calls
  rw [initial.machine] at found
  generalize launch.earlier = earlier at same found
  cases earlier with
  | nil =>
      cases (List.cons.inj same).1
  | cons first rest =>
      obtain ⟨rfl, tail⟩ := List.cons.inj same
      have started : ∀ call ∈ rest, call ≠ .bind := by
        intro call member
        have among : call ∈ Call.begin startTime runTime :: later := by
          rw [tail]
          exact List.mem_append_left _ member
        rcases List.mem_cons.mp among with rfl | late
        · exact Call.noConfusion
        · exact (serves call late).ne_bind
      obtain ⟨writes, painted⟩ := found.painted_since_boot started
      rw [painted]
      exact
        (paint_shape _ _ 0).2.trans
          (initial.stages.ready.symm.trans initial.ready)

/-- A script that sets one color for each pixel and comes to its end: the
device stages its picture, and once the hardware task sleeps and the mailbox
accepted the frame with it, the strip displays it. -/
theorem script_displayed (lawful : platform.Lawful contents frames)
    (driver : platform.driver.Lawful staged displayed)
    (initial : Initial contents frames platform start) {script : Script}
    {written : List Built} {colors : List Rgb}
    (accepts : script.frames = some written)
    (pictured : script.picture = some colors)
    {port : SerialPort} (careful : script.checked = true ∨ port.Whole)
    (complete : (writeFrames script.checked port 0 written).2 = true)
    (sent :
      Transmission platform start middle firmware
        (writeFrames script.checked port 0 written).1)
    (space :
      (contents middle.commands.state).length + written.length ≤ 32) :
    firmware.machine.state = .completed ∧
      ∀ pixel color, colors[pixel]? = some color →
        pixel < (firmware.machine.strips 0).ledCount →
          (firmware.machine.strips 0).color pixel = color.color ∧
            (firmware.hw = .waiting →
              platform.frameBox.posted firmware.strip.mailbox.state = false →
                ∀ frame,
                  firmware.strip.mailbox.accepted.getLast? = some frame →
                    frame.Carries (firmware.machine.strips 0) →
                      displayed firmware.driver pixel = color.color) := by
  obtain ⟨program, rfl, instructions, single⟩ :=
    script.picture_program accepts pictured
  have whole :=
    writeFrames_spec careful program.commands (Or.inl rfl : [] = [] ∨ _) 0
  rw [List.append_nil] at whole
  rw [(whole.2 complete).2] at sent
  rw [List.length_map] at space
  obtain ⟨launch, ends⟩ := sent.launch lawful initial space
  obtain ⟨completed, shows⟩ :=
    ends.single_colors instructions single (sent.ready lawful initial ends)
  refine ⟨completed, ?_⟩
  intro pixel color found below
  have shown : (firmware.machine.strips 0).color pixel = color.color := by
    rw [shows pixel below, List.getElem?_map, found]
    rfl
  refine ⟨shown, ?_⟩
  intro sleeps silent frame latest carries
  have displays :=
    (sent.runs.trans sent.later).displayed_last lawful driver initial sleeps
      silent latest
  rw [displays pixel (by rw [carries.1]; exact below),
    carries.2 pixel below, shown]

/-- The bytes of a `set_color` of the third pixel. -/
def setColorChunks : List Chunk :=
    [⟨[0xAA, 0x02, 0x01, 0x00, 0x00, 0x03, 0xAA, 0x01, 0x01, 0x06, 0x00,
          0x00, 0x00, 0x00, 0x00, 0x00],
        by decide, by decide⟩,
      ⟨[0x00, 0x06, 0xAA, 0x01, 0x01, 0x06, 0x00, 0x00, 0x00, 0x00, 0x00,
          0x00, 0x01, 0x07, 0xAA, 0x01],
        by decide, by decide⟩,
      ⟨[0x01, 0x06, 0x00, 0x00, 0x00, 0x09, 0x08, 0x07, 0x02, 0x02, 0xAA,
          0x01, 0x01, 0x06, 0x00, 0x00],
        by decide, by decide⟩,
      ⟨[0x00, 0x00, 0x00, 0x00, 0x03, 0x05, 0xAA, 0x01, 0x01, 0x06, 0x00,
          0x00, 0x00, 0x00, 0x00, 0x00],
        by decide, by decide⟩,
      ⟨[0x04, 0x02, 0xAA, 0x01, 0x01, 0x06, 0x00, 0x00, 0x00, 0x00, 0x00,
          0x00, 0x05, 0x03, 0xAA, 0x01],
        by decide, by decide⟩,
      ⟨[0x01, 0x06, 0x00, 0x00, 0x00, 0x00, 0x00, 0x00, 0x06, 0x00, 0xAA,
          0x03, 0x01, 0x00, 0x00, 0x02],
        by decide, by decide⟩]

/-- The commands in these bytes, as the handlers get them. -/
def setColorInvocations : List Invocation :=
  [⟨.external 2, []⟩, ⟨.external 1, [0, 0, 0, 0, 0, 0]⟩,
    ⟨.external 1, [0, 0, 0, 0, 0, 1]⟩, ⟨.external 1, [0, 0, 9, 8, 7, 2]⟩,
    ⟨.external 1, [0, 0, 0, 0, 0, 3]⟩, ⟨.external 1, [0, 0, 0, 0, 0, 4]⟩,
    ⟨.external 1, [0, 0, 0, 0, 0, 5]⟩, ⟨.external 1, [0, 0, 0, 0, 0, 6]⟩,
    ⟨.external 3, []⟩]

/-- The firmware after the boot, and after the bytes have arrived. -/
def welcoming : FakeFirmware :=
  ((fakeStart 8 (by decide)).course fakePlatform
      (.bind 0 :: .begin 60 1 1 2 :: latchActions)).get (by decide +kernel)

def listening : FakeFirmware :=
  (welcoming.course fakePlatform [.listen (some setColorChunks)]).get
    (by decide +kernel)

/-- The program is stored, started and shown. -/
def setColorActions : List Action :=
  List.replicate 10 .deliver ++ [.blink true, .wake] ++
    (List.replicate 8 [.receive, .dispatch 0 3 3 3]).flatten ++
    [.receive, .dispatch 60 5 5 5, .receive] ++ latchActions

/-- To put the hardware task where it is changes nothing. -/
theorem set_hw_eq {point : HwPoint} (same : firmware.hw = point) :
    { firmware with hw := point } = firmware := by
  rw [← same]

theorem script_displayed_of_setColorActions :
    ∃ firmware,
      Runs fakePlatform (fakeStart 8 (by decide)) firmware ∧
        firmware.machine.state = .completed ∧
        firmware.driver.displayed 2 = ⟨9, 8, 7⟩ := by
  let port : SerialPort := fun _ length => ⟨length, false⟩
  let script : Script := .setColor 2 (9, 8, 7)
  let written := script.frames.getD []
  have accepts : script.frames = some written := by
    decide +kernel
  have pictured :
      script.picture =
        some
          [(0, 0, 0), (0, 0, 0), (9, 8, 7), (0, 0, 0), (0, 0, 0), (0, 0, 0),
            (0, 0, 0)] := by
    decide +kernel
  have complete : (writeFrames true port 0 written).2 = true := by
    decide +kernel
  have out :
      (writeFrames true port 0 written).1 =
        setColorChunks.flatMap Chunk.bytes := by
    decide +kernel
  have boots : Runs fakePlatform (fakeStart 8 (by decide)) welcoming :=
    Runs.start.course (Option.some_get _).symm
  have hears : Runs fakePlatform welcoming listening :=
    Runs.start.course (Option.some_get _).symm
  have ready :
      welcoming.app = .waiting ∧ welcoming.hw = .waiting ∧
        welcoming.bytes = [] ∧ welcoming.commands.state.1.count = 0 := by
    decide +kernel
  have asked : listening.hw = .delivering setColorInvocations false := by
    decide +kernel
  have ends :
      (({ listening with hw := .delivering setColorInvocations false } :
            FakeFirmware).course
          fakePlatform setColorActions).any
          (fun firmware =>
            decide
              (firmware.bytes = setColorChunks.flatMap Chunk.bytes ∧
                firmware.hw.pending = [] ∧ firmware.app = .waiting ∧
                fakePlatform.commandBox.posted firmware.commands.state =
                  false ∧
                firmware.Latched ∧
                (firmware.machine.strips 0).ledCount = 8)) =
        true := by
    decide +kernel
  rw [set_hw_eq asked] at ends
  obtain ⟨firmware, courses, holds⟩ := (Option.any_eq_true _ _).mp ends
  obtain ⟨arrived, delivered, app, quiet, latched, length⟩ :=
    of_decide_eq_true holds
  obtain ⟨⟨sleeps, silent⟩, frame, last, carries⟩ := latched
  obtain ⟨started, settled, silence, empty⟩ := ready
  have sent :
      Transmission fakePlatform (fakeStart 8 (by decide)) welcoming firmware
        (writeFrames true port 0 written).1 := by
    refine
      ⟨boots, by simp [started], by rw [settled]; rfl, by rw [silence]; rfl,
        hears.course courses, ?_, delivered, app, quiet⟩
    rw [arrived, silence, List.nil_append, out]
  obtain ⟨completed, shows⟩ :=
    script_displayed fakePlatform_lawful FakeStrip.driver_lawful
      (fakeStart_initial 8 (by decide)) accepts pictured (Or.inl rfl) complete
      sent (by rw [Ring.contents_length, empty]; decide +kernel)
  obtain ⟨-, displays⟩ :=
    shows 2 (9, 8, 7) rfl (by rw [length]; decide)
  exact
    ⟨firmware, boots.trans sent.later, completed,
      displays sleeps silent frame last carries⟩

end Firmware

end PrismKit
