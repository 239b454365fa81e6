import PrismKit.Commands.Programs
import Mathlib.Data.Rat.Floor

/-!
# The scripts of the host

The scripts under `scripts/device` that send programs: the frames that they
write to the serial port, one after the other, and what of them goes out.  `none`
among the frames stands for an encoder that raises.  Quotients of Python floats
are exact here; none of the values that are rounded is close to a tie.
-/

namespace PrismKit.Host

/-- A frame, or the exception that its encoder raises. -/
abbrev Built := Option (List UInt8)

abbrev Rgb := Nat × Nat × Nat

/-- What one call of `port.write` does: how many bytes go out, and whether it
raises. -/
structure WriteOutcome where
  taken : Nat
  raised : Bool
  deriving DecidableEq, Repr

/-- The serial port of the host: the outcome of each `write` call, by its number
and the length of the frame. -/
abbrev SerialPort := Nat → Nat → WriteOutcome

/-- Write the frames up to the first exception, and return what went out and
whether there was none.  With `checked` a short write raises, as in
`_write_frame`. -/
def writeFrames (checked : Bool) (port : SerialPort) :
    Nat → List Built → List UInt8 × Bool
  | _, [] => ([], true)
  | _, none :: _ => ([], false)
  | call, some frame :: rest =>
      let outcome := port call frame.length
      let sent := frame.take outcome.taken
      if outcome.raised || (checked && outcome.taken != frame.length) then
        (sent, false)
      else
        let (more, complete) := writeFrames checked port (call + 1) rest
        (sent ++ more, complete)

/-- `round`: to the nearest integer, ties to even. -/
def round (value : ℚ) : Nat :=
  let below := value.floor
  let rest := value - below
  if rest < 1 / 2 then below.toNat
  else if rest > 1 / 2 then (below + 1).toNat
  else if below % 2 = 0 then below.toNat
  else (below + 1).toNat

/-- `colorsys.hsv_to_rgb`. -/
def hsvToRgb (h s v : ℚ) : ℚ × ℚ × ℚ :=
  if s = 0 then
    (v, v, v)
  else
    let i := (h * 6).floor
    let f := h * 6 - i
    let p := v * (1 - s)
    let q := v * (1 - s * f)
    let t := v * (1 - s * (1 - f))
    match (i % 6).toNat with
    | 0 => (v, t, p)
    | 1 => (q, v, p)
    | 2 => (p, v, t)
    | 3 => (p, q, v)
    | 4 => (t, p, v)
    | _ => (v, p, q)

def hsvToSrgb (hueDegrees : Nat) : Rgb :=
  let (red, green, blue) := hsvToRgb (hueDegrees / 360) 1 (3 / 4)
  (round (red * 255), round (green * 255), round (blue * 255))

def rainbowColors : List Rgb :=
  [(255, 0, 0), (255, 40, 0), (180, 60, 0), (0, 80, 0), (0, 0, 255),
    (40, 0, 160), (140, 0, 255)]

def ledCount : Nat := 7

def rootGroupId : Nat := 0

/-- `FOREVER_REPEATS`, and `ROOT_REPEAT_FOREVER`. -/
def foreverRepeats : Nat := 0xFFFF

/-! ### The sequences of frames -/

/-- One pass of the loop in `run_rainbow_sequence`. -/
def rainbowStep (step : Nat) : List Built :=
  buildResetInstructionsFrame ::
    (rainbowColors.zipIdx.map fun (color, ledIdx) =>
        let (r, g, b) := if ledIdx ≤ step then color else (0, 0, 0)
        buildSetSingleColorFrame r g b ledIdx 0) ++
      [buildRunFrame]

/-- `run_rainbow2_sequence`.  A negative mark raises like one that is too
large. -/
def rainbow2 (stepDelayMs : Int) : List Built :=
  buildResetInstructionsFrame ::
    buildSetMultipleColorFrame 0 0 0 0 rainbowColors.length 0 ::
      (rainbowColors.zipIdx.map fun ((r, g, b), ledIdx) =>
          (ledIdx * stepDelayMs).toNat?.bind fun mark =>
            buildSetSingleColorFrame r g b ledIdx mark) ++
        [buildRunFrame]

/-- `run_rainbow3_sequence`, which refuses arguments out of range. -/
def rainbow3 (stepDelayMs rootAdditionalRepeats : Int) :
    Option (List Built) :=
  if ¬ (0 ≤ rootAdditionalRepeats ∧
      rootAdditionalRepeats ≤ foreverRepeats) then
    none
  else if ¬ (1 ≤ stepDelayMs ∧ stepDelayMs ≤ 9362) then
    none
  else
    let stepDelayMs := stepDelayMs.toNat
    some
      (buildResetInstructionsFrame ::
        buildSetMultipleColorGroupedFrame 0 0 0 0 rainbowColors.length 0 0 ::
          (rainbowColors.zipIdx.map fun ((red, green, blue), index) =>
              buildSetSingleColorGroupedFrame red green blue index 0
                (index * stepDelayMs)) ++
            [buildSetMultipleColorGroupedFrame 0 0 0 0 rainbowColors.length 0
                (7 * stepDelayMs),
              buildStartFrame rootAdditionalRepeats.toNat])

def rootMarks : List Nat :=
  (List.range 7).map fun index =>
    round (index * 2000 / rainbowColors.length)

/-- `run_rainbow4_sequence`. -/
def rainbow4 : List Built :=
  buildResetInstructionsFrame ::
    ((rainbowColors.zip rootMarks).zipIdx.flatMap
        fun (((red, green, blue), mark), index) =>
          [buildSetSingleColorGroupedFrame red green blue index rootGroupId
              mark,
            buildRunGroupFrame rootGroupId mark (index + 1)
              foreverRepeats]) ++
      ((List.range rainbowColors.length).flatMap fun index =>
        [buildFadeGroupedFrame 0 33 200 index (index + 1),
          buildFadeGroupedFrame 200 (10000 / 33) 200 index (index + 1)]) ++
      [buildStartFrame 0]

def validateMapping (ringIndices : List Int) (centerIndex : Int) :
    Option (List Nat × Nat) :=
  let indices := ringIndices ++ [centerIndex]
  if ringIndices.length ≠ 6 then none
  else if indices.any fun index => index < 0 ∨ index ≥ ledCount then none
  else if ringIndices.dedup.length ≠ 6 then none
  else if centerIndex ∈ ringIndices then none
  else if ¬ ∀ index ∈ List.range ledCount, (index : Int) ∈ indices then none
  else some (ringIndices.map Int.toNat, centerIndex.toNat)

/-- The center of the ring at a waypoint, for the two marks that have one. -/
def centerColor (mark : Nat) : Option Rgb :=
  if mark = 0 then some (0xFF, 0xF0, 0xD6)
  else if mark = 3000 then some (0xC8, 0xB8, 0xFF)
  else none

def buildFrames (ringIndices : List Nat) (centerIndex : Nat) : List Built :=
  buildResetInstructionsFrame ::
    ([0, 1500, 3000, 4500].zipIdx.flatMap fun (mark, waypoint) =>
        (ringIndices.zipIdx.map fun (ledIndex, logicalPosition) =>
            let hue := (60 * logicalPosition - 90 * waypoint : Int) % 360
            let (red, green, blue) := hsvToSrgb hue.toNat
            buildGradientGroupedFrame mark red green blue 1500 ledIndex
              rootGroupId) ++
          (centerColor mark).toList.map fun (red, green, blue) =>
            buildGradientGroupedFrame mark red green blue 3000 centerIndex
              rootGroupId) ++
      [buildStartFrame foreverRepeats]

/-- `run_rainbow5_sequence`: all frames are built before the first is written. -/
def rainbow5 (ringIndices : List Int) (centerIndex : Int) :
    Option (List Built) :=
  (validateMapping ringIndices centerIndex).bind fun (ring, center) =>
    ((buildFrames ring center).mapM id).map fun frames => frames.map some

/-- The channels of a color are bytes. -/
def validColor (color : Int × Int × Int) : Prop :=
  (0 ≤ color.1 ∧ color.1 ≤ 255) ∧ (0 ≤ color.2.1 ∧ color.2.1 ≤ 255) ∧
    (0 ≤ color.2.2 ∧ color.2.2 ≤ 255)

instance (color : Int × Int × Int) : Decidable (validColor color) :=
  inferInstanceAs (Decidable (_ ∧ _ ∧ _))

/-- `run_gradient_sequence`. -/
def gradient (index : Int) (target : Int × Int × Int) (durationMs mark : Int) :
    Option (List Built) :=
  if ¬ (0 ≤ index ∧ index < ledCount) then none
  else if ¬ validColor target then none
  else if ¬ (0 ≤ durationMs ∧ durationMs ≤ 0xFFFF) then none
  else if ¬ (0 ≤ mark ∧ mark ≤ 0xFFFF) then none
  else
    some
      [buildResetInstructionsFrame,
        buildGradientGroupedFrame mark.toNat target.1.toNat target.2.1.toNat
          target.2.2.toNat durationMs.toNat index.toNat rootGroupId,
        buildStartFrame 0]

/-- `run_fade_sequence`. -/
def fade : List Built :=
  buildResetInstructionsFrame ::
    buildSetMultipleColorGroupedFrame 0 0 128 0 rainbowColors.length
        rootGroupId 0 ::
      ((List.range rainbowColors.length).map fun index =>
          buildFadeGroupedFrame 0 5 1000 index rootGroupId) ++
        ((List.range rainbowColors.length).map fun index =>
          buildFadeGroupedFrame 1000 2000 1000 index rootGroupId) ++
        [buildStartFrame foreverRepeats]

/-- `run_set_color`. -/
def setColor (index : Int) (color : Int × Int × Int) : Option (List Built) :=
  if ¬ (0 ≤ index ∧ index < ledCount) then none
  else if ¬ validColor color then none
  else
    some
      (buildResetInstructionsFrame ::
        ((List.range ledCount).map fun (ledIndex : Nat) =>
            let pixelColor := if ledIndex = index then color else (0, 0, 0)
            buildSetSingleColorFrame pixelColor.1.toNat pixelColor.2.1.toNat
              pixelColor.2.2.toNat ledIndex 0) ++
          [buildRunFrame])

end PrismKit.Host

namespace PrismKit

/-- A call of a script with its arguments; of `run_rainbow_sequence`, one pass
of its loop. -/
inductive Script where
  | rainbowStep (step : Nat)
  | rainbow2 (stepDelayMs : Int)
  | rainbow3 (stepDelayMs rootAdditionalRepeats : Int)
  | rainbow4
  | rainbow5 (ringIndices : List Int) (centerIndex : Int)
  | gradient (index : Int) (target : Int × Int × Int) (durationMs mark : Int)
  | fade
  | setColor (index : Int) (color : Int × Int × Int)

namespace Script

/-- The frames that are written, unless the arguments are refused before the
port is opened. -/
def frames : Script → Option (List Host.Built)
  | rainbowStep step => some (Host.rainbowStep step)
  | rainbow2 stepDelayMs => some (Host.rainbow2 stepDelayMs)
  | rainbow3 stepDelayMs repeats => Host.rainbow3 stepDelayMs repeats
  | rainbow4 => some Host.rainbow4
  | rainbow5 ringIndices centerIndex => Host.rainbow5 ringIndices centerIndex
  | gradient index target durationMs mark =>
      Host.gradient index target durationMs mark
  | fade => some Host.fade
  | setColor index color => Host.setColor index color

/-- Whether a short write raises. -/
def checked : Script → Bool
  | rainbowStep _ | rainbow2 _ => false
  | _ => true

end Script

open Host

def Host.SerialPort.Whole (port : SerialPort) : Prop :=
  ∀ call length, (port call length).raised = true ∨
    (port call length).taken = length

/-- What goes out is the beginning of what was to be written, and all of it if
the script comes to its end. -/
theorem writeFrames_spec {checked : Bool} {port : SerialPort}
    (careful : checked = true ∨ port.Whole) (commands : List HostCommand)
    {rest : List Built} (stops : rest = [] ∨ rest.head? = some none)
    (call : Nat) :
    let written :=
      writeFrames checked port call
        (commands.map HostCommand.frame ++ rest)
    written.1 <+: stream commands ∧
      (written.2 = true → rest = [] ∧ written.1 = stream commands) := by
  induction commands generalizing call with
  | nil =>
      rcases stops with rfl | stops
      · exact ⟨List.prefix_refl _, fun _ => ⟨rfl, rfl⟩⟩
      · obtain ⟨rest, rfl⟩ := List.head?_eq_some_iff.mp stops
        exact ⟨List.prefix_refl _, fun complete => nomatch complete⟩
  | cons command later inductionHypothesis =>
      rw [List.map_cons, List.cons_append, command.frame_eq]
      simp only [writeFrames]
      have first := List.take_prefix (port call command.bytes.length).taken
        command.bytes
      split
      · refine ⟨first.trans (List.prefix_append _ _), fun complete => ?_⟩
        cases complete
      · rename_i goesOn
        have whole :
            (port call command.bytes.length).taken = command.bytes.length := by
          rw [Bool.or_eq_true, Bool.and_eq_true, not_or] at goesOn
          rcases careful with checks | whole
          · simpa [checks] using goesOn.2
          · exact (whole call command.bytes.length).resolve_left goesOn.1
        rw [whole, List.take_length]
        obtain ⟨begins, ends⟩ := inductionHypothesis (call + 1)
        refine ⟨(List.prefix_append_right_inj _).mpr begins, ?_⟩
        intro complete
        exact ⟨(ends complete).1, congrArg _ (ends complete).2⟩

def Host.IsBytes (color : Rgb) : Prop :=
  color.1 < 256 ∧ color.2.1 < 256 ∧ color.2.2 < 256

instance (color : Rgb) : Decidable (IsBytes color) :=
  inferInstanceAs (Decidable (_ ∧ _ ∧ _))

namespace HostCommand

/-- The command with the arguments of `build_set_single_color_frame`. -/
def ofSingleColor (color : Rgb) (index mark : Nat) : HostCommand :=
  .setSingleColor (.ofNat color.1) (.ofNat color.2.1) (.ofNat color.2.2)
    (.ofNat index) (.ofNat mark)

def ofSingleColorGrouped (color : Rgb) (index mark : Nat) : HostCommand :=
  .setSingleColorGrouped (.ofNat color.1) (.ofNat color.2.1)
    (.ofNat color.2.2) (.ofNat index) 0 (.ofNat mark)

def ofGradientGrouped (mark : Nat) (color : Rgb) (durationMs index : Nat) :
    HostCommand :=
  .gradientGrouped (.ofNat mark) (.ofNat color.1) (.ofNat color.2.1)
    (.ofNat color.2.2) (.ofNat durationMs) (.ofNat index) 0

variable {color : Rgb} {index mark durationMs : Nat}

theorem frame_ofSingleColor (bytes : IsBytes color) (below : index < 256)
    (early : mark < 65536) :
    (ofSingleColor color index mark).frame =
      buildSetSingleColorFrame color.1 color.2.1 color.2.2 index mark := by
  simp only [ofSingleColor, frame, UInt8.toNat_ofNat_of_lt' bytes.1,
    UInt8.toNat_ofNat_of_lt' bytes.2.1, UInt8.toNat_ofNat_of_lt' bytes.2.2,
    UInt8.toNat_ofNat_of_lt' below, UInt16.toNat_ofNat_of_lt' early]

theorem frame_ofSingleColorGrouped (bytes : IsBytes color)
    (below : index < 256) (early : mark < 65536) :
    (ofSingleColorGrouped color index mark).frame =
      buildSetSingleColorGroupedFrame color.1 color.2.1 color.2.2 index 0
        mark := by
  simp only [ofSingleColorGrouped, frame, UInt8.toNat_ofNat_of_lt' bytes.1,
    UInt8.toNat_ofNat_of_lt' bytes.2.1, UInt8.toNat_ofNat_of_lt' bytes.2.2,
    UInt8.toNat_ofNat_of_lt' below, UInt16.toNat_ofNat_of_lt' early]
  rfl

theorem frame_ofGradientGrouped (bytes : IsBytes color) (below : index < 256)
    (early : mark < 65536) (short : durationMs < 65536) :
    (ofGradientGrouped mark color durationMs index).frame =
      buildGradientGroupedFrame mark color.1 color.2.1 color.2.2 durationMs
        index 0 := by
  simp only [ofGradientGrouped, frame, UInt8.toNat_ofNat_of_lt' bytes.1,
    UInt8.toNat_ofNat_of_lt' bytes.2.1, UInt8.toNat_ofNat_of_lt' bytes.2.2,
    UInt8.toNat_ofNat_of_lt' below, UInt16.toNat_ofNat_of_lt' early,
    UInt16.toNat_ofNat_of_lt' short]
  rfl

end HostCommand

/-! ### The programs of the scripts -/

def Sends (frames : List Built) : Prop :=
  ∃ program : HostProgram,
    frames = program.commands.map HostCommand.frame ∧ program.Accepted

theorem sends_of_sets {frames : List Built} (stores : List HostCommand)
    (launch : HostCommand) (repeats : LoopCount)
    (launches : launch.intent = .start repeats)
    (sets : ∀ command ∈ stores, command.Sets)
    (fits : stores.length ≤ maxInstructions)
    (lasts :
      repeats ≠ 0 → Lasts (stores.filterMap HostCommand.instruction) 0)
    (written :
      frames =
        HostCommand.resetInstructions.frame ::
          (stores.map HostCommand.frame ++ [launch.frame])) :
    Sends frames := by
  obtain ⟨program, commands, accepted⟩ :=
    accepted_of_sets sets fits launch repeats launches lasts
  refine ⟨program, ?_, accepted⟩
  rw [commands, List.map_cons, List.map_append]
  exact written

/-- An instruction of a program that takes time. -/
theorem lasts_of_mem {stores : List HostCommand} {command : HostCommand}
    (member : command ∈ stores) {instr : ControllerInstruction}
    (asks : command.instruction = some instr) (root : instr.groupId = 0)
    (long : instr.mark > 0 ∨ instr.hasPositiveSchedulingBoundary) :
    Lasts (stores.filterMap HostCommand.instruction) 0 :=
  ⟨instr, List.mem_filterMap.mpr ⟨command, member, asks⟩, root, long⟩

theorem rainbowColors_bytes :
    ∀ entry ∈ Host.rainbowColors.zipIdx, IsBytes entry.1 ∧ entry.2 < 7 := by
  decide

theorem rainbowStep_sends (step : Nat) : Sends (rainbowStep step) := by
  let shown (entry : Rgb × Nat) : Rgb :=
    if entry.2 ≤ step then entry.1 else (0, 0, 0)
  refine
    sends_of_sets
      (Host.rainbowColors.zipIdx.map fun entry =>
        .ofSingleColor (shown entry) entry.2 0)
      .run 0 rfl ?_ (by simp [Host.rainbowColors, maxInstructions])
      (fun repeated => absurd rfl repeated) ?_
  · intro command member
    obtain ⟨entry, -, rfl⟩ := List.mem_map.mp member
    exact trivial
  · rw [rainbowStep, List.map_map]
    refine congrArg _ (congrArg (· ++ [buildRunFrame]) ?_)
    apply List.map_congr_left
    rintro ⟨color, ledIdx⟩ member
    obtain ⟨bytes, below⟩ := rainbowColors_bytes _ member
    have shownBytes : IsBytes (shown (color, ledIdx)) := by
      unfold shown
      split
      · exact bytes
      · decide
    exact
      (HostCommand.frame_ofSingleColor shownBytes (by omega) (by decide)).symm

theorem rainbow3_sends {stepDelayMs repeats : Int} {frames : List Built}
    (accepts : rainbow3 stepDelayMs repeats = some frames) : Sends frames := by
  unfold rainbow3 at accepts
  split at accepts
  · cases accepts
  rename_i repeatsInRange
  split at accepts
  · cases accepts
  rename_i stepInRange
  rw [not_not] at repeatsInRange stepInRange
  cases accepts
  obtain ⟨lowest, highest⟩ := repeatsInRange
  obtain ⟨shortest, longest⟩ := stepInRange
  obtain ⟨step, rfl⟩ := Int.eq_ofNat_of_zero_le (by omega : 0 ≤ stepDelayMs)
  obtain ⟨count, rfl⟩ := Int.eq_ofNat_of_zero_le lowest
  simp only [Int.toNat_natCast] at *
  have few : count < 65536 := by
    unfold foreverRepeats at highest
    omega
  have last : 7 * step < 65536 := by omega
  let black (mark : Nat) : HostCommand :=
    .setMultipleColorGrouped 0 0 0 0 7 0 (.ofNat mark)
  refine
    sends_of_sets
      (black 0 ::
        (Host.rainbowColors.zipIdx.map fun entry =>
            .ofSingleColorGrouped entry.1 entry.2 (entry.2 * step)) ++
          [black (7 * step)])
      (.start (.ofNat count)) (.ofNat count) rfl ?_
      (by simp [Host.rainbowColors, maxInstructions]) ?_ ?_
  · intro command member
    simp only [List.mem_append, List.mem_cons, List.mem_map] at member
    rcases member with (rfl | ⟨entry, -, rfl⟩) | rfl | absent
    · exact trivial
    · exact trivial
    · exact trivial
    · cases absent
  · intro _
    refine
      lasts_of_mem (List.mem_append_right _ (List.mem_singleton_self _)) rfl rfl
        (Or.inl ?_)
    show UInt16.ofNat (7 * step) > 0
    rw [gt_iff_lt, UInt16.lt_iff_toNat_lt, UInt16.toNat_ofNat_of_lt' last]
    show 0 < 7 * step
    omega
  · simp only [List.map_cons, List.map_append, List.map_map, List.map_nil]
    have middle :
        (Host.rainbowColors.zipIdx.map fun ((red, green, blue), index) =>
            buildSetSingleColorGroupedFrame red green blue index 0
              (index * step)) =
          Host.rainbowColors.zipIdx.map
            (HostCommand.frame ∘ fun entry =>
              .ofSingleColorGrouped entry.1 entry.2 (entry.2 * step)) := by
      apply List.map_congr_left
      rintro ⟨color, index⟩ member
      obtain ⟨bytes, below⟩ := rainbowColors_bytes _ member
      simp only at bytes below
      have early : index * step < 65536 := by
        have bound : index * step ≤ 6 * step := Nat.mul_le_mul_right step (by omega)
        omega
      exact
        (HostCommand.frame_ofSingleColorGrouped bytes (by omega) early).symm
    have blackFrame :
        (black (7 * step)).frame =
          buildSetMultipleColorGroupedFrame 0 0 0 0 7 0 (7 * step) := by
      simp only [black, HostCommand.frame, UInt16.toNat_ofNat_of_lt' last]
      rfl
    have startFrame :
        (HostCommand.start (.ofNat count)).frame = buildStartFrame count := by
      simp only [HostCommand.frame, UInt16.toNat_ofNat_of_lt' few]
    rw [middle, blackFrame, startFrame]
    simp only [List.cons_append, List.append_assoc, List.nil_append]
    rfl

/-- The frames begin with a reset and stores, and then an encoder raises. -/
def Stops (frames : List Built) : Prop :=
  ∃ (commands : List HostCommand) (rest : List Built),
    frames =
        (HostCommand.resetInstructions :: commands).map HostCommand.frame ++
          none :: rest ∧
      commands.length ≤ maxInstructions ∧ ∀ command ∈ commands, command.Sets

/-- A loop of encoders is passed, or one of them raises. -/
theorem passes_or_stops {ι : Type} (entries : List ι) (built : ι → Built)
    (command : ι → HostCommand)
    (each :
      ∀ entry ∈ entries,
        built entry = (command entry).frame ∨ built entry = none) :
    entries.map built = (entries.map command).map HostCommand.frame ∨
      none ∈ entries.map built ∧
        ∃ (passed : List ι) (rest : List Built),
          passed.length ≤ entries.length ∧
            entries.map built =
              (passed.map command).map HostCommand.frame ++ none :: rest := by
  induction entries with
  | nil =>
      exact Or.inl rfl
  | cons entry later inductionHypothesis =>
      rcases each entry List.mem_cons_self with first | first
      · rcases inductionHypothesis fun other member =>
          each other (List.mem_cons_of_mem _ member) with
          all | ⟨raises, passed, rest, fewer, stops⟩
        · left
          rw [List.map_cons, List.map_cons, List.map_cons, first, all]
        · right
          refine
            ⟨List.mem_cons_of_mem _ raises, entry :: passed, rest,
              Nat.succ_le_succ fewer, ?_⟩
          rw [List.map_cons, first, stops]
          rfl
      · right
        rw [List.map_cons, first]
        exact
          ⟨List.mem_cons_self, [], later.map built, Nat.zero_le _, rfl⟩

theorem rainbow2_cases (stepDelayMs : Int) :
    Sends (rainbow2 stepDelayMs) ∨
      Stops (rainbow2 stepDelayMs) ∧
        ¬ (0 ≤ stepDelayMs ∧ stepDelayMs ≤ 10922) := by
  let built (entry : Rgb × Nat) : Built :=
    (entry.2 * stepDelayMs).toNat?.bind fun mark =>
      buildSetSingleColorFrame entry.1.1 entry.1.2.1 entry.1.2.2 entry.2 mark
  let command (entry : Rgb × Nat) : HostCommand :=
    .ofSingleColor entry.1 entry.2 (entry.2 * stepDelayMs).toNat
  let black : HostCommand := .setMultipleColor 0 0 0 0 7 0
  have frames :
      rainbow2 stepDelayMs =
        [HostCommand.resetInstructions.frame, black.frame] ++
          Host.rainbowColors.zipIdx.map built ++ [HostCommand.run.frame] :=
    rfl
  have each :
      ∀ entry ∈ Host.rainbowColors.zipIdx,
        built entry = (command entry).frame ∨
          built entry = none ∧
            ¬ (0 ≤ stepDelayMs ∧ stepDelayMs ≤ 10922) := by
    intro entry member
    obtain ⟨bytes, below⟩ := rainbowColors_bytes entry member
    by_cases negative : (entry.2 : Int) * stepDelayMs < 0
    · right
      refine ⟨?_, fun inside => ?_⟩
      · obtain ⟨below, mark⟩ := Int.eq_negSucc_of_lt_zero negative
        simp only [built, mark, Int.toNat?, Option.bind_none]
      · have := Int.mul_nonneg (Int.natCast_nonneg entry.2) inside.1
        omega
    · obtain ⟨mark, marks⟩ := Int.eq_ofNat_of_zero_le (Int.not_lt.mp negative)
      have passes :
          built entry =
            buildSetSingleColorFrame entry.1.1 entry.1.2.1 entry.1.2.2 entry.2
              mark := by
        simp only [built, Int.mem_toNat?.mpr marks, Option.bind_some]
      rw [passes]
      by_cases early : mark < 65536
      · left
        simp only [command, marks, Int.toNat_natCast]
        exact
          (HostCommand.frame_ofSingleColor bytes (by omega) early).symm
      · right
        refine ⟨?_, fun inside => ?_⟩
        · have raises : toBytes mark 2 = none := if_neg early
          rw [buildSetSingleColorFrame, raises]
          rfl
        · have := Int.mul_le_mul_of_nonneg_left inside.2
            (Int.natCast_nonneg entry.2)
          omega
  rcases passes_or_stops Host.rainbowColors.zipIdx built command
      fun entry member => (each entry member).imp_right And.left with
    all | ⟨raises, passed, rest, fewer, stops⟩
  · left
    refine
      sends_of_sets (black :: Host.rainbowColors.zipIdx.map command) .run 0 rfl
        ?_ (by simp [Host.rainbowColors, maxInstructions])
        (fun repeated => absurd rfl repeated) ?_
    · intro other member
      rcases List.mem_cons.mp member with rfl | member
      · exact trivial
      · obtain ⟨entry, -, rfl⟩ := List.mem_map.mp member
        exact trivial
    · rw [frames, all]
      rfl
  · right
    refine
      ⟨⟨black :: passed.map command, rest ++ [buildRunFrame], ?_, ?_, ?_⟩, ?_⟩
    · rw [frames, stops]
      simp only [List.map_cons, List.cons_append, List.nil_append,
        List.append_assoc]
      rfl
    · rw [List.length_cons, List.length_map]
      exact Nat.succ_le_of_lt (Nat.lt_of_le_of_lt fewer (by decide))
    · intro other member
      rcases List.mem_cons.mp member with rfl | member
      · exact trivial
      · obtain ⟨entry, -, rfl⟩ := List.mem_map.mp member
        exact trivial
    · obtain ⟨entry, member, raised⟩ := List.mem_map.mp raises
      rcases each entry member with passes | ⟨-, outside⟩
      · rw [passes, HostCommand.frame_eq] at raised
        cases raised
      · exact outside

theorem gradient_sends {index durationMs mark : Int} {target : Int × Int × Int}
    {frames : List Built}
    (accepts : Host.gradient index target durationMs mark = some frames) :
    Sends frames := by
  unfold Host.gradient at accepts
  split at accepts
  · cases accepts
  rename_i indexInRange
  split at accepts
  · cases accepts
  rename_i valid
  split at accepts
  · cases accepts
  rename_i durationInRange
  split at accepts
  · cases accepts
  rename_i markInRange
  rw [not_not] at indexInRange valid durationInRange markInRange
  cases accepts
  obtain ⟨red, green, blue⟩ := valid
  unfold ledCount at indexInRange
  let color : Rgb := (target.1.toNat, target.2.1.toNat, target.2.2.toNat)
  have bytes : IsBytes color := by
    refine ⟨?_, ?_, ?_⟩ <;> simp only [color] <;> omega
  refine
    sends_of_sets
      [.ofGradientGrouped mark.toNat color durationMs.toNat index.toNat]
      (.start 0) 0 rfl ?_ (by simp [maxInstructions])
      (fun repeated => absurd rfl repeated) ?_
  · intro command member
    cases List.mem_singleton.mp member
    exact trivial
  · rw [List.map_singleton,
      HostCommand.frame_ofGradientGrouped bytes (by omega) (by omega)
        (by omega)]
    rfl

theorem setColor_sends {index : Int} {color : Int × Int × Int}
    {frames : List Built} (accepts : setColor index color = some frames) :
    Sends frames := by
  unfold setColor at accepts
  split at accepts
  · cases accepts
  split at accepts
  · cases accepts
  rename_i valid
  rw [not_not] at valid
  cases accepts
  obtain ⟨red, green, blue⟩ := valid
  let shown (ledIndex : Nat) : Rgb :=
    let pixelColor := if ledIndex = index then color else (0, 0, 0)
    (pixelColor.1.toNat, pixelColor.2.1.toNat, pixelColor.2.2.toNat)
  have bytes (ledIndex : Nat) : IsBytes (shown ledIndex) := by
    unfold shown
    split
    · refine ⟨?_, ?_, ?_⟩ <;> simp only <;> omega
    · decide
  refine
    sends_of_sets
      ((List.range ledCount).map fun ledIndex =>
        .ofSingleColor (shown ledIndex) ledIndex 0)
      .run 0 rfl ?_ (by simp [ledCount, maxInstructions])
      (fun repeated => absurd rfl repeated) ?_
  · intro command member
    obtain ⟨ledIndex, -, rfl⟩ := List.mem_map.mp member
    exact trivial
  · rw [List.map_map]
    refine congrArg _ (congrArg (· ++ [buildRunFrame]) ?_)
    apply List.map_congr_left
    intro ledIndex member
    have below := List.mem_range.mp member
    unfold ledCount at below
    exact
      (HostCommand.frame_ofSingleColor (bytes ledIndex) (by omega)
        (by decide)).symm

theorem fade_sends : Sends fade := by
  let faded (mark percent : UInt16) : List HostCommand :=
    (List.range 7).map fun index =>
      .fadeGrouped mark percent 1000 (.ofNat index) 0
  refine
    sends_of_sets
      (.setMultipleColorGrouped 0 0 128 0 7 0 0 :: faded 0 5 ++ faded 1000 2000)
      (.start 0xFFFF) 0xFFFF rfl ?_ (by decide) ?_ (by decide +kernel)
  · intro command member
    simp only [faded, List.mem_append, List.mem_cons, List.mem_map] at member
    rcases member with (rfl | ⟨index, -, rfl⟩) | ⟨index, -, rfl⟩
    · exact trivial
    · exact trivial
    · exact trivial
  · intro _
    have member : HostCommand.fadeGrouped 0 5 1000 0 0 ∈ faded 0 5 := by decide
    exact
      lasts_of_mem
        (List.mem_append_left _ (List.mem_cons_of_mem _ member)) rfl rfl
        (Or.inr rfl)

instance (instructions : List ControllerInstruction) (id : GroupId) :
    Decidable (Lasts instructions id) :=
  inferInstanceAs (Decidable (∃ instr ∈ instructions, _ ∧ (_ ∨ _)))

/-- The commands of `run_rainbow4_sequence` that store instructions. -/
def rainbow4Stores : List HostCommand :=
  ((Host.rainbowColors.zip rootMarks).zipIdx.flatMap
      fun ((color, mark), index) =>
        [.ofSingleColorGrouped color index mark,
          .runGroup 0 (.ofNat mark) (.ofNat (index + 1)) 0xFFFF]) ++
    (List.range Host.rainbowColors.length).flatMap fun index =>
      [.fadeGrouped 0 33 200 (.ofNat index) (.ofNat (index + 1)),
        .fadeGrouped 200 303 200 (.ofNat index) (.ofNat (index + 1))]

theorem rainbow4_sends : Sends rainbow4 := by
  let program : HostProgram :=
    .of rainbow4Stores (by decide +kernel) (by decide +kernel) (.start 0) 0 rfl
  have shallow : Shallow program.instructions program.repeats :=
    ⟨by decide +kernel, fun repeated => absurd rfl repeated⟩
  exact ⟨program, by decide +kernel, HostProgram.accepted shallow⟩

/-- A validated mapping names every pixel once. -/
theorem validateMapping_spec {ringIndices : List Int} {centerIndex : Int}
    {ring : List Nat} {center : Nat}
    (valid : validateMapping ringIndices centerIndex = some (ring, center)) :
    ring.length = 6 ∧ ∀ index ∈ ring ++ [center], index < 7 := by
  unfold validateMapping at valid
  simp only at valid
  split at valid
  · cases valid
  rename_i six
  split at valid
  · cases valid
  rename_i inRange
  rw [Bool.not_eq_true, List.any_eq_false] at inRange
  split at valid
  · cases valid
  split at valid
  · cases valid
  split at valid
  · cases valid
  cases valid
  refine ⟨(List.length_map _).trans (not_not.mp six), ?_⟩
  intro index member
  have mapped : index ∈ (ringIndices ++ [centerIndex]).map Int.toNat := by
    rw [List.map_append]
    exact member
  obtain ⟨original, among, rfl⟩ := List.mem_map.mp mapped
  have bounds := inRange original among
  unfold ledCount at bounds
  simp only [decide_eq_true_eq, not_or, not_lt, ge_iff_le, not_le] at bounds
  omega

theorem mapM_id {frames : List Built} {built : List (List UInt8)}
    (all : frames.mapM id = some built) : frames = built.map some := by
  induction frames generalizing built with
  | nil =>
      cases all
      rfl
  | cons frame rest inductionHypothesis =>
      rw [List.mapM_cons] at all
      obtain ⟨first, found, all⟩ := Option.bind_eq_some_iff.mp all
      obtain ⟨others, rest', all⟩ := Option.bind_eq_some_iff.mp all
      cases all
      rw [List.map_cons, ← inductionHypothesis rest', ← found]
      rfl

theorem hsvToSrgb_bytes :
    ∀ position ∈ List.range 6, ∀ waypoint ∈ List.range 4,
      IsBytes
        (hsvToSrgb ((60 * position - 90 * waypoint : Int) % 360).toNat) := by
  decide +kernel

theorem rainbow5_sends {ringIndices : List Int} {centerIndex : Int}
    {frames : List Built}
    (accepts : rainbow5 ringIndices centerIndex = some frames) :
    Sends frames := by
  obtain ⟨⟨ring, center⟩, valid, accepts⟩ :=
    Option.bind_eq_some_iff.mp accepts
  obtain ⟨built, all, rfl⟩ := Option.map_eq_some_iff.mp accepts
  obtain ⟨six, below⟩ := validateMapping_spec valid
  rw [← mapM_id all]
  let hue (position waypoint : Nat) : Rgb :=
    hsvToSrgb ((60 * position - 90 * waypoint : Int) % 360).toNat
  let ringStores (mark waypoint : Nat) : List HostCommand :=
    ring.zipIdx.map fun (ledIndex, position) =>
      .ofGradientGrouped mark (hue position waypoint) 1500 ledIndex
  let centerStore (mark : Nat) (color : Rgb) : HostCommand :=
    .ofGradientGrouped mark color 3000 center
  let warm : Rgb := (0xFF, 0xF0, 0xD6)
  let lavender : Rgb := (0xC8, 0xB8, 0xFF)
  have centerBelow : center < 7 :=
    below center (List.mem_append_right _ (List.mem_singleton_self _))
  have ringFrames :
      ∀ mark, mark < 65536 → ∀ waypoint, waypoint < 4 →
        (ring.zipIdx.map fun (ledIndex, position) =>
            let (red, green, blue) := hue position waypoint
            buildGradientGroupedFrame mark red green blue 1500 ledIndex
              rootGroupId) =
          (ringStores mark waypoint).map HostCommand.frame := by
    intro mark early waypoint few
    rw [List.map_map]
    apply List.map_congr_left
    rintro ⟨ledIndex, position⟩ member
    have place : position < 6 := by
      have bound := List.snd_lt_of_mem_zipIdx member
      rw [six] at bound
      simpa using bound
    have led : ledIndex < 7 :=
      below ledIndex
        (List.mem_append_left _ (List.fst_mem_of_mem_zipIdx member))
    exact
      (HostCommand.frame_ofGradientGrouped
        (hsvToSrgb_bytes position (List.mem_range.mpr place) waypoint
          (List.mem_range.mpr few))
        (by omega) early (by decide)).symm
  have centerFrame :
      ∀ mark, mark < 65536 → ∀ color, IsBytes color →
        buildGradientGroupedFrame mark color.1 color.2.1 color.2.2 3000 center
            rootGroupId =
          (centerStore mark color).frame := by
    intro mark early color bytes
    exact
      (HostCommand.frame_ofGradientGrouped bytes (by omega) early
        (by decide)).symm
  refine
    sends_of_sets
      (ringStores 0 0 ++ [centerStore 0 warm] ++ ringStores 1500 1 ++
        ringStores 3000 2 ++ [centerStore 3000 lavender] ++ ringStores 4500 3)
      (.start 0xFFFF) 0xFFFF rfl ?_ ?_ ?_ ?_
  · intro command member
    simp only [ringStores, List.mem_append, List.mem_singleton,
      List.mem_map] at member
    rcases member with
      ((((⟨_, -, rfl⟩ | rfl) | ⟨_, -, rfl⟩) | ⟨_, -, rfl⟩) | rfl) |
        ⟨_, -, rfl⟩ <;>
      exact trivial
  · simp [ringStores, six, maxInstructions]
  · intro _
    refine
      @lasts_of_mem _ (centerStore 0 warm) ?_ _ rfl rfl (Or.inr rfl)
    simp
  · simp only [List.map_append, List.map_cons, List.map_nil,
      ← ringFrames 0 (by decide) 0 (by decide),
      ← ringFrames 1500 (by decide) 1 (by decide),
      ← ringFrames 3000 (by decide) 2 (by decide),
      ← ringFrames 4500 (by decide) 3 (by decide),
      ← centerFrame 0 (by decide) warm (by decide),
      ← centerFrame 3000 (by decide) lavender (by decide)]
    simp [buildFrames, centerColor, List.flatMap, hue, warm, lavender]
    exact ⟨rfl, rfl⟩

/-- With another delay some mark does not fit into its field. -/
theorem rainbow2_raises {stepDelayMs : Int}
    (outside : ¬ (0 ≤ stepDelayMs ∧ stepDelayMs ≤ 10922)) :
    none ∈ rainbow2 stepDelayMs := by
  let built (entry : Rgb × Nat) : Built :=
    (entry.2 * stepDelayMs).toNat?.bind fun mark =>
      buildSetSingleColorFrame entry.1.1 entry.1.2.1 entry.1.2.2 entry.2 mark
  have among :
      ∀ entry ∈ Host.rainbowColors.zipIdx,
        built entry ∈ rainbow2 stepDelayMs := by
    intro entry member
    refine List.mem_cons_of_mem _ (List.mem_cons_of_mem _ ?_)
    exact List.mem_append_left _ (List.mem_map_of_mem member)
  by_cases negative : stepDelayMs < 0
  · obtain ⟨below, rfl⟩ := Int.eq_negSucc_of_lt_zero negative
    have second := among ((255, 40, 0), 1) (by decide)
    have raises : built ((255, 40, 0), 1) = none := by
      simp only [built, Nat.cast_one, one_mul, Int.toNat?, Option.bind_none]
    rw [← raises]
    exact second
  · obtain ⟨step, rfl⟩ := Int.eq_ofNat_of_zero_le (Int.not_lt.mp negative)
    have last := among ((140, 0, 255), 6) (by decide)
    have late : ¬ 6 * step < 65536 := by omega
    have raises : built ((140, 0, 255), 6) = none := by
      have mark : ((6 : Nat) * (step : Int)).toNat? = some (6 * step) :=
        Int.mem_toNat?.mpr (by push_cast; ring)
      have field : toBytes (6 * step) 2 = none := if_neg late
      simp only [built, mark, Option.bind_some, buildSetSingleColorFrame, field]
      rfl
    rw [← raises]
    exact last

theorem Sends.length_le {frames : List Built} (sends : Sends frames) :
    frames.length ≤ maxInstructions + 2 := by
  obtain ⟨program, rfl, -⟩ := sends
  rw [List.length_map, HostProgram.commands, List.length_cons,
    List.length_append, program.length_stores, List.length_singleton]
  exact Nat.succ_le_succ (Nat.succ_le_succ program.fits)

theorem Sends.built {frames : List Built} (sends : Sends frames) :
    none ∉ frames := by
  obtain ⟨program, rfl, -⟩ := sends
  intro raises
  obtain ⟨command, -, none⟩ := List.mem_map.mp raises
  rw [command.frame_eq] at none
  cases none

/-- What a script writes is an accepted program, or the encoders of `rainbow2`
stop it. -/
theorem Script.cases {script : Script} {frames : List Built}
    (accepts : script.frames = some frames) :
    Sends frames ∨
      Stops frames ∧
        ∃ stepDelayMs, script = .rainbow2 stepDelayMs ∧
          ¬ (0 ≤ stepDelayMs ∧ stepDelayMs ≤ 10922) := by
  cases script with
  | rainbow2 stepDelayMs =>
      cases accepts
      rcases rainbow2_cases stepDelayMs with sends | ⟨stops, outside⟩
      · exact Or.inl sends
      · exact Or.inr ⟨stops, stepDelayMs, rfl, outside⟩
  | rainbowStep step =>
      cases accepts
      exact Or.inl (rainbowStep_sends step)
  | rainbow3 => exact Or.inl (rainbow3_sends accepts)
  | rainbow4 =>
      cases accepts
      exact Or.inl rainbow4_sends
  | rainbow5 => exact Or.inl (rainbow5_sends accepts)
  | gradient => exact Or.inl (gradient_sends accepts)
  | fade =>
      cases accepts
      exact Or.inl fade_sends
  | setColor => exact Or.inl (setColor_sends accepts)

/-- Whatever the arguments, a script that does not refuse them writes an
accepted program that fits into the mailbox and into the controller; the one
exception is a delay of `rainbow2` with a mark beyond its field. -/
theorem scripts_accepted {script : Script} {frames : List Built}
    (accepts : script.frames = some frames) :
    (∃ program : HostProgram,
        frames = program.commands.map HostCommand.frame ∧
          program.commands.length ≤ 30 ∧ program.Accepted) ↔
      ∀ stepDelayMs, script = .rainbow2 stepDelayMs →
        0 ≤ stepDelayMs ∧ stepDelayMs ≤ 10922 := by
  constructor
  · rintro ⟨program, written, -, accepted⟩ stepDelayMs rfl
    by_contra outside
    cases accepts
    exact Sends.built ⟨program, written, accepted⟩ (rainbow2_raises outside)
  · intro inside
    rcases script.cases accepts with
      ⟨program, written, accepted⟩ | ⟨-, stepDelayMs, same, outside⟩
    · refine ⟨program, written, ?_, accepted⟩
      have short := Sends.length_le ⟨program, written, accepted⟩
      rw [written, List.length_map] at short
      exact short
    · exact absurd (inside stepDelayMs same) outside

theorem scripts_accepted_of_rainbow2 :
    ∃ program : HostProgram,
      Host.rainbow2 300 = program.commands.map HostCommand.frame ∧
        program.commands.length ≤ 30 ∧ program.Accepted := by
  refine (@scripts_accepted (.rainbow2 300) _ rfl).mpr ?_
  intro stepDelayMs same
  cases same
  decide

end PrismKit
