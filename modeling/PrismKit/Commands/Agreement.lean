import PrismKit.Commands.Dispatch
import PrismKit.Commands.HostParser

/-!
# Agreement of host and firmware

Every frame that a host encoder builds makes one message in the mailbox, and
dispatching this message does to the controller what the arguments say.
-/

namespace PrismKit

universe u

open Library Scanner ControllerCommandSink

/-- A call of a host encoder with arguments within their field widths. -/
inductive HostCommand where
  | setSingleColor (r g b index : UInt8) (mark : UInt16)
  | setMultipleColor (r g b start «end» : UInt8) (mark : UInt16)
  | setMultipleColorGrouped (r g b start «end» : UInt8) (groupId : UInt32)
      (mark : UInt16)
  | setSingleColorGrouped (r g b index : UInt8) (groupId : UInt32)
      (mark : UInt16)
  | runGroup (parentGroupId : UInt32) (mark : UInt16)
      (targetGroupId : UInt32) (additionalRepeats : UInt16)
  | fadeGrouped (mark percent durationMs : UInt16) (index : UInt8)
      (groupId : UInt32)
  | gradientGrouped (mark : UInt16) (r g b : UInt8) (durationMs : UInt16)
      (index : UInt8) (groupId : UInt32)
  | resetInstructions
  | setSingleColorHsv (h s v index : UInt8) (mark : UInt16)
  | setMultipleColorHsv (h s v start «end» : UInt8) (mark : UInt16)
  | run
  | start (rootAdditionalRepeats : UInt16)
  deriving DecidableEq, Repr

namespace HostCommand

def frame : HostCommand → Option (List UInt8)
  | setSingleColor r g b index mark =>
      Host.buildSetSingleColorFrame r.toNat g.toNat b.toNat index.toNat
        mark.toNat
  | setMultipleColor r g b first last mark =>
      Host.buildSetMultipleColorFrame r.toNat g.toNat b.toNat first.toNat
        last.toNat mark.toNat
  | setMultipleColorGrouped r g b first last groupId mark =>
      Host.buildSetMultipleColorGroupedFrame r.toNat g.toNat b.toNat
        first.toNat last.toNat groupId.toNat mark.toNat
  | setSingleColorGrouped r g b index groupId mark =>
      Host.buildSetSingleColorGroupedFrame r.toNat g.toNat b.toNat index.toNat
        groupId.toNat mark.toNat
  | runGroup parentGroupId mark targetGroupId additionalRepeats =>
      Host.buildRunGroupFrame parentGroupId.toNat mark.toNat
        targetGroupId.toNat additionalRepeats.toNat
  | fadeGrouped mark percent durationMs index groupId =>
      Host.buildFadeGroupedFrame mark.toNat percent.toNat durationMs.toNat
        index.toNat groupId.toNat
  | gradientGrouped mark r g b durationMs index groupId =>
      Host.buildGradientGroupedFrame mark.toNat r.toNat g.toNat b.toNat
        durationMs.toNat index.toNat groupId.toNat
  | resetInstructions => Host.buildResetInstructionsFrame
  | setSingleColorHsv h s v index mark =>
      Host.buildSetSingleColorHsvFrame h.toNat s.toNat v.toNat index.toNat
        mark.toNat
  | setMultipleColorHsv h s v first last mark =>
      Host.buildSetMultipleColorHsvFrame h.toNat s.toNat v.toNat first.toNat
        last.toNat mark.toNat
  | run => Host.buildRunFrame
  | start rootAdditionalRepeats =>
      Host.buildStartFrame rootAdditionalRepeats.toNat

end HostCommand

/-- What a command is for. -/
inductive Intent where
  | store (instruction : ControllerInstruction)
  | reset
  | start (repeats : LoopCount)

/-- What the arguments of a command ask for. -/
def HostCommand.intent : HostCommand → Intent
  | setSingleColor r g b index mark =>
      .store { mark := mark, kind := .setSingleColor ⟨r, g, b⟩ index }
  | setMultipleColor r g b first last mark =>
      .store
        { mark := mark, kind := .setMultipleColor ⟨r, g, b⟩ ⟨first, last⟩ }
  | setMultipleColorGrouped r g b first last groupId mark =>
      .store
        { mark := mark
          groupId := groupId
          kind := .setMultipleColor ⟨r, g, b⟩ ⟨first, last⟩ }
  | setSingleColorGrouped r g b index groupId mark =>
      .store
        { mark := mark
          groupId := groupId
          kind := .setSingleColor ⟨r, g, b⟩ index }
  | runGroup parentGroupId mark targetGroupId additionalRepeats =>
      .store
        { mark := mark
          groupId := parentGroupId
          kind := .runGroup targetGroupId additionalRepeats }
  | fadeGrouped mark percent durationMs index groupId =>
      .store
        { mark := mark
          groupId := groupId
          kind :=
            .fade
              { percent := percent
                durationMs := durationMs
                index := index } }
  | gradientGrouped mark r g b durationMs index groupId =>
      .store
        { mark := mark
          groupId := groupId
          kind :=
            .gradient
              { target := ⟨r, g, b⟩
                durationMs := durationMs
                index := index } }
  | resetInstructions => .reset
  | setSingleColorHsv h s v index mark =>
      .store { mark := mark, kind := .setSingleColorHsv ⟨h, s, v⟩ index }
  | setMultipleColorHsv h s v first last mark =>
      .store
        { mark := mark, kind := .setMultipleColorHsv ⟨h, s, v⟩ ⟨first, last⟩ }
  | run => .start 0
  | start rootAdditionalRepeats => .start rootAdditionalRepeats

/-- The outcome of a dispatch is what was asked for.  An instruction goes into
the next slot of an editable program with space, and nothing else changes; a
start is followed by a tick exactly when it succeeds. -/
def Intent.Done (fuel startTime runTime : Nat) (controller : Machine)
    (outcome : Option (Machine × ControllerCommandResult)) : Intent → Prop
  | .store instruction =>
      controller.state = .editable →
        controller.instructionCount < maxInstructions →
          outcome =
            some
              ({ controller with
                  instructions :=
                    Function.update controller.instructions
                      controller.instructionCount
                      (.store instruction controller.strip)
                  instructionCount := controller.instructionCount + 1 },
                { mutationAttempted := true, mutationStatus := .success })
  | .reset => outcome = some (controller.resetInstructions, {})
  | .start repeats =>
      ((controller.start repeats startTime).2 ≠ .success →
          outcome =
            some
              ((controller.start repeats startTime).1,
                { startAttempted := true
                  startStatus := (controller.start repeats startTime).2 })) ∧
        ((controller.start repeats startTime).2 = .success →
          outcome =
            ((controller.start repeats startTime).1.run fuel runTime).map
              fun ran =>
                (ran.1,
                  { startAttempted := true
                    initialRunAttempted := true
                    initialRunStatus := ran.2 }))

/-- The four bytes of a 32-bit field. -/
def le32 (value : UInt32) : List UInt8 :=
  [UInt8.ofNat value.toNat, UInt8.ofNat (value.toNat / 256),
    UInt8.ofNat (value.toNat / 65536), UInt8.ofNat (value.toNat / 16777216)]

@[simp]
theorem toBytes_32 (value : UInt32) :
    Host.toBytes value.toNat 4 = some (le32 value) := by
  have bound : value.toNat < 256 ^ 4 := value.toNat_lt
  rw [Host.toBytes, if_pos bound]
  simp [List.range_succ, le32]

@[simp]
theorem bytes_nil : Host.bytes [] = some [] :=
  rfl

@[simp]
theorem bytes_cons (byte : UInt8) (values : List Nat) :
    Host.bytes (byte.toNat :: values) =
      (Host.bytes values).map fun rest => byte :: rest := by
  rw [Host.bytes, if_pos byte.toNat_lt]
  simp only [UInt8.ofNat_toNat]

theorem join16_le16 (value : UInt16) :
    (UInt8.ofNat value.toNat).toUInt16 |||
        (UInt8.ofNat (value.toNat / 256)).toUInt16 <<< 8 =
      value := by
  have bound := value.toNat_lt
  rw [← UInt16.toNat_inj, toNat_join16, UInt8.toNat_ofNat',
    UInt8.toNat_ofNat']
  omega

theorem join32_le32 (value : UInt32) :
    (UInt8.ofNat value.toNat).toUInt32 |||
          (UInt8.ofNat (value.toNat / 256)).toUInt32 <<< 8 |||
          (UInt8.ofNat (value.toNat / 65536)).toUInt32 <<< 16 |||
        (UInt8.ofNat (value.toNat / 16777216)).toUInt32 <<< 24 =
      value := by
  have bound := value.toNat_lt
  rw [← UInt32.toNat_inj, toNat_join32, UInt8.toNat_ofNat',
    UInt8.toNat_ofNat', UInt8.toNat_ofNat', UInt8.toNat_ofNat']
  omega

section

variable (fuel startTime runTime : Nat) (controller : Machine)

theorem addCommand_done (instruction : ControllerInstruction) :
    (Intent.store instruction).Done fuel startTime runTime controller
      (addCommand controller instruction) := by
  intro editable space
  rw [addCommand, Machine.addInstruction]
  rw [if_neg (not_not.mpr editable), if_neg (Nat.not_le.mpr space)]

theorem startAndTick_done (repeats : LoopCount) :
    (Intent.start repeats).Done fuel startTime runTime controller
      (startAndTick fuel startTime runTime controller repeats) := by
  cases outcome : controller.start repeats startTime with
  | mk started status =>
      simp only [Intent.Done, startAndTick, outcome]
      constructor
      · intro failed
        exact if_pos failed
      · intro succeeded
        rw [succeeded]
        exact if_neg (not_not.mpr rfl)

end

/-! ### Every command -/

/-- The handler table after `Register`. -/
def commandTable {σ : Type u} (mailbox : ControllerCommandMailbox σ) :
    List HandlerEntry :=
  ⟨Tag.loopback, .loopback⟩ :: ControllerCommandSink.entries mailbox

/-- How a command travels: its wire format, the one handler that is called,
the message this handler sends, and what its dispatch does. -/
structure Understood {σ : Type u} (mailbox : ControllerCommandMailbox σ)
    (command : HostCommand) (tag : Tag) (payload : List UInt8) (id : Nat)
    (message : ControllerCommandMessage) : Prop where
  frame : command.frame = some (wire tag payload)
  short : payload.length ≤ maxFrameDataLength
  answers :
    Dispatch.answers ⟨tag, payload, commandTable mailbox⟩ =
      [⟨.external id, payload⟩]
  sends :
    ∀ box,
      ControllerCommandSink.receive mailbox (some box)
          ⟨.external id, payload⟩ =
        some (mailbox.send message box)
  done :
    ∀ fuel startTime runTime controller,
      command.intent.Done fuel startTime runTime controller
        (dispatchControllerCommand fuel startTime runTime controller message)

section

variable {σ : Type u} (mailbox : ControllerCommandMailbox σ)

variable {mailbox} in
/-- A command is understood if its frame is built from the payload and the
handler of its tag reads the message back from it. -/
theorem Understood.of_payload {command : HostCommand} {number : Nat}
    {tag : Tag} {payload : List UInt8} {id : Nat}
    {read message : ControllerCommandMessage}
    (built : command.frame = Host.buildFrame number payload)
    (same : number = tag.toNat) (short : payload.length ≤ maxFrameDataLength)
    (answers :
      Dispatch.answers ⟨tag, payload, commandTable mailbox⟩ =
        [⟨.external id, payload⟩])
    (decoded : read = message)
    (receives :
      ∀ box,
        ControllerCommandSink.receive mailbox (some box)
            ⟨.external id, payload⟩ =
          some (mailbox.send read box))
    (done :
      ∀ fuel startTime runTime controller,
        command.intent.Done fuel startTime runTime controller
          (dispatchControllerCommand fuel startTime runTime controller
            message)) :
    Understood mailbox command tag payload id message where
  frame := by
    rw [built]
    exact
      buildFrame_eq_wire same
        (Nat.le_trans short (by decide : maxFrameDataLength ≤ 65535))
  short := short
  answers := answers
  sends := by
    rw [← decoded]
    exact receives
  done := done

theorem understood_setSingleColor (r g b index : UInt8) (mark : UInt16) :
    Understood mailbox (.setSingleColor r g b index mark) 0x0101
      (le16 mark ++ [r, g, b, index]) 1
      ⟨.setSingleColor, .setSingle ⟨mark, r, g, b, index⟩⟩ := by
  let data := le16 mark ++ [r, g, b, index]
  have built :
      HostCommand.frame (.setSingleColor r g b index mark) =
        Host.buildFrame 0x0101 data := by
    simp -implicitDefEqProofs only [HostCommand.frame,
      Host.buildSetSingleColorFrame, toBytes_16, bytes_cons, bytes_nil,
      Option.map_some, Option.bind_eq_bind, Option.bind_some]
    rfl
  have sameMark : readLe16 data 0 = mark := join16_le16 mark
  have decoded :
      (⟨.setSingleColor,
          .setSingle ⟨readLe16 data 0, r, g, b, index⟩⟩ :
        ControllerCommandMessage) =
        ⟨.setSingleColor, .setSingle ⟨mark, r, g, b, index⟩⟩ := by
    rw [sameMark]
  exact
    .of_payload built rfl (by decide : 6 ≤ maxFrameDataLength) rfl decoded
      (fun _ => rfl) fun fuel startTime runTime controller =>
        addCommand_done fuel startTime runTime controller _

theorem understood_setMultipleColor (r g b first last : UInt8) (mark : UInt16) :
    Understood mailbox (.setMultipleColor r g b first last mark) 0x0100
      (le16 mark ++ [r, g, b, first, last]) 0
      ⟨.setMultipleColor, .setMultiple ⟨mark, r, g, b, ⟨first, last⟩⟩⟩ := by
  let data := le16 mark ++ [r, g, b, first, last]
  have built :
      HostCommand.frame (.setMultipleColor r g b first last mark) =
        Host.buildFrame 0x0100 data := by
    simp -implicitDefEqProofs only [HostCommand.frame,
      Host.buildSetMultipleColorFrame, toBytes_16, bytes_cons, bytes_nil,
      Option.map_some, Option.bind_eq_bind, Option.bind_some]
    rfl
  have sameMark : readLe16 data 0 = mark := join16_le16 mark
  have decoded :
      (⟨.setMultipleColor,
          .setMultiple ⟨readLe16 data 0, r, g, b, ⟨first, last⟩⟩⟩ :
        ControllerCommandMessage) =
        ⟨.setMultipleColor, .setMultiple ⟨mark, r, g, b, ⟨first, last⟩⟩⟩ := by
    rw [sameMark]
  exact
    .of_payload built rfl (by decide : 7 ≤ maxFrameDataLength) rfl decoded
      (fun _ => rfl) fun fuel startTime runTime controller =>
        addCommand_done fuel startTime runTime controller _

theorem understood_setMultipleColorGrouped (r g b first last : UInt8)
    (groupId : UInt32) (mark : UInt16) :
    Understood mailbox
      (.setMultipleColorGrouped r g b first last groupId mark) 0x0107
      (le16 mark ++ [r, g, b, first, last] ++ le32 groupId) 6
      ⟨.setMultipleColorGrouped,
        .groupedSetMultiple ⟨mark, r, g, b, ⟨first, last⟩, groupId⟩⟩ := by
  let data := le16 mark ++ [r, g, b, first, last] ++ le32 groupId
  have built :
      HostCommand.frame
          (.setMultipleColorGrouped r g b first last groupId mark) =
        Host.buildFrame 0x0107 data := by
    simp -implicitDefEqProofs only [HostCommand.frame,
      Host.buildSetMultipleColorGroupedFrame, toBytes_16, toBytes_32,
      bytes_cons, bytes_nil, Option.map_some, Option.bind_eq_bind,
      Option.bind_some]
    rfl
  have sameMark : readLe16 data 0 = mark := join16_le16 mark
  have sameGroup : readLe32 data 7 = groupId := join32_le32 groupId
  have decoded :
      (⟨.setMultipleColorGrouped,
          .groupedSetMultiple
            ⟨readLe16 data 0, r, g, b, ⟨first, last⟩, readLe32 data 7⟩⟩ :
        ControllerCommandMessage) =
        ⟨.setMultipleColorGrouped,
          .groupedSetMultiple ⟨mark, r, g, b, ⟨first, last⟩, groupId⟩⟩ := by
    rw [sameMark, sameGroup]
  exact
    .of_payload built rfl (by decide : 11 ≤ maxFrameDataLength) rfl decoded
      (fun _ => rfl) fun fuel startTime runTime controller =>
        addCommand_done fuel startTime runTime controller _

theorem understood_setSingleColorGrouped (r g b index : UInt8) (groupId : UInt32)
    (mark : UInt16) :
    Understood mailbox (.setSingleColorGrouped r g b index groupId mark) 0x0108
      (le16 mark ++ [r, g, b, index] ++ le32 groupId) 7
      ⟨.setSingleColorGrouped,
        .groupedSetSingle ⟨mark, r, g, b, index, groupId⟩⟩ := by
  let data := le16 mark ++ [r, g, b, index] ++ le32 groupId
  have built :
      HostCommand.frame (.setSingleColorGrouped r g b index groupId mark) =
        Host.buildFrame 0x0108 data := by
    simp -implicitDefEqProofs only [HostCommand.frame,
      Host.buildSetSingleColorGroupedFrame, toBytes_16, toBytes_32,
      bytes_cons, bytes_nil, Option.map_some, Option.bind_eq_bind,
      Option.bind_some]
    rfl
  have sameMark : readLe16 data 0 = mark := join16_le16 mark
  have sameGroup : readLe32 data 6 = groupId := join32_le32 groupId
  have decoded :
      (⟨.setSingleColorGrouped,
          .groupedSetSingle
            ⟨readLe16 data 0, r, g, b, index, readLe32 data 6⟩⟩ :
        ControllerCommandMessage) =
        ⟨.setSingleColorGrouped,
          .groupedSetSingle ⟨mark, r, g, b, index, groupId⟩⟩ := by
    rw [sameMark, sameGroup]
  exact
    .of_payload built rfl (by decide : 10 ≤ maxFrameDataLength) rfl decoded
      (fun _ => rfl) fun fuel startTime runTime controller =>
        addCommand_done fuel startTime runTime controller _

theorem understood_runGroup (parentGroupId : UInt32) (mark : UInt16)
    (targetGroupId : UInt32) (additionalRepeats : UInt16) :
    Understood mailbox
      (.runGroup parentGroupId mark targetGroupId additionalRepeats) 0x010B
      (le32 parentGroupId ++ le16 mark ++ le32 targetGroupId ++
        le16 additionalRepeats) 10
      ⟨.runGroup,
        .runGroup ⟨parentGroupId, mark, targetGroupId, additionalRepeats⟩⟩ := by
  let data :=
    le32 parentGroupId ++ le16 mark ++ le32 targetGroupId ++
      le16 additionalRepeats
  have built :
      HostCommand.frame
          (.runGroup parentGroupId mark targetGroupId additionalRepeats) =
        Host.buildFrame 0x010B data := by
    simp -implicitDefEqProofs only [HostCommand.frame,
      Host.buildRunGroupFrame, toBytes_16, toBytes_32, Option.bind_eq_bind,
      Option.bind_some]
    rfl
  have sameParent : readLe32 data 0 = parentGroupId :=
    join32_le32 parentGroupId
  have sameMark : readLe16 data 4 = mark := join16_le16 mark
  have sameTarget : readLe32 data 6 = targetGroupId :=
    join32_le32 targetGroupId
  have sameRepeats : readLe16 data 10 = additionalRepeats :=
    join16_le16 additionalRepeats
  have decoded :
      (⟨.runGroup,
          .runGroup
            ⟨readLe32 data 0, readLe16 data 4, readLe32 data 6,
              readLe16 data 10⟩⟩ :
        ControllerCommandMessage) =
        ⟨.runGroup,
          .runGroup
            ⟨parentGroupId, mark, targetGroupId, additionalRepeats⟩⟩ := by
    rw [sameParent, sameMark, sameTarget, sameRepeats]
  exact
    .of_payload built rfl (by decide : 12 ≤ maxFrameDataLength) rfl decoded
      (fun _ => rfl) fun fuel startTime runTime controller =>
        addCommand_done fuel startTime runTime controller _

theorem understood_fadeGrouped (mark percent durationMs : UInt16)
    (index : UInt8) (groupId : UInt32) :
    Understood mailbox
      (.fadeGrouped mark percent durationMs index groupId) 0x010D
      (le16 mark ++ le16 percent ++ le16 durationMs ++ [index] ++
        le32 groupId) 12
      ⟨.fade, .fade ⟨mark, percent, durationMs, index, groupId⟩⟩ := by
  let data :=
    le16 mark ++ le16 percent ++ le16 durationMs ++ [index] ++ le32 groupId
  have built :
      HostCommand.frame (.fadeGrouped mark percent durationMs index groupId) =
        Host.buildFrame 0x010D data := by
    simp -implicitDefEqProofs only [HostCommand.frame,
      Host.buildFadeGroupedFrame, toBytes_16, toBytes_32, bytes_cons,
      bytes_nil, Option.map_some, Option.bind_eq_bind, Option.bind_some]
    rfl
  have sameMark : readLe16 data 0 = mark := join16_le16 mark
  have samePercent : readLe16 data 2 = percent := join16_le16 percent
  have sameDuration : readLe16 data 4 = durationMs := join16_le16 durationMs
  have sameGroup : readLe32 data 7 = groupId := join32_le32 groupId
  have decoded :
      (⟨.fade,
          .fade
            ⟨readLe16 data 0, readLe16 data 2, readLe16 data 4, index,
              readLe32 data 7⟩⟩ :
        ControllerCommandMessage) =
        ⟨.fade, .fade ⟨mark, percent, durationMs, index, groupId⟩⟩ := by
    rw [sameMark, samePercent, sameDuration, sameGroup]
  exact
    .of_payload built rfl (by decide : 11 ≤ maxFrameDataLength) rfl decoded
      (fun _ => rfl) fun fuel startTime runTime controller =>
        addCommand_done fuel startTime runTime controller _

theorem understood_gradientGrouped (mark : UInt16) (r g b : UInt8)
    (durationMs : UInt16) (index : UInt8) (groupId : UInt32) :
    Understood mailbox
      (.gradientGrouped mark r g b durationMs index groupId) 0x010E
      (le16 mark ++ [r, g, b] ++ le16 durationMs ++ [index] ++ le32 groupId) 13
      ⟨.gradient, .gradient ⟨mark, r, g, b, durationMs, index, groupId⟩⟩ := by
  let data :=
    le16 mark ++ [r, g, b] ++ le16 durationMs ++ [index] ++ le32 groupId
  have built :
      HostCommand.frame (.gradientGrouped mark r g b durationMs index groupId) =
        Host.buildFrame 0x010E data := by
    simp -implicitDefEqProofs only [HostCommand.frame,
      Host.buildGradientGroupedFrame, toBytes_16, toBytes_32, bytes_cons,
      bytes_nil, Option.map_some, Option.bind_eq_bind, Option.bind_some]
    rfl
  have sameMark : readLe16 data 0 = mark := join16_le16 mark
  have sameDuration : readLe16 data 5 = durationMs := join16_le16 durationMs
  have sameGroup : readLe32 data 8 = groupId := join32_le32 groupId
  have decoded :
      (⟨.gradient,
          .gradient
            ⟨readLe16 data 0, r, g, b, readLe16 data 5, index,
              readLe32 data 8⟩⟩ :
        ControllerCommandMessage) =
        ⟨.gradient, .gradient ⟨mark, r, g, b, durationMs, index, groupId⟩⟩ := by
    rw [sameMark, sameDuration, sameGroup]
  exact
    .of_payload built rfl (by decide : 12 ≤ maxFrameDataLength) rfl decoded
      (fun _ => rfl) fun fuel startTime runTime controller =>
        addCommand_done fuel startTime runTime controller _

theorem understood_resetInstructions :
    Understood mailbox .resetInstructions 0x0102
      [] 2
      ⟨.resetInstructions, .unset⟩ where
  frame := buildFrame_eq_wire (by decide) (by decide : 0 ≤ 65535)
  short := (by decide : 0 ≤ maxFrameDataLength)
  answers := rfl
  sends := by
    intro box
    rfl
  done := by
    intro fuel startTime runTime controller
    exact rfl

theorem understood_setSingleColorHsv (h s v index : UInt8) (mark : UInt16) :
    Understood mailbox (.setSingleColorHsv h s v index mark) 0x0105
      (le16 mark ++ [h, s, v, index]) 4
      ⟨.setSingleColorHsv, .setSingleHsv ⟨mark, h, s, v, index⟩⟩ := by
  let data := le16 mark ++ [h, s, v, index]
  have built :
      HostCommand.frame (.setSingleColorHsv h s v index mark) =
        Host.buildFrame 0x0105 data := by
    simp -implicitDefEqProofs only [HostCommand.frame,
      Host.buildSetSingleColorHsvFrame, toBytes_16, bytes_cons, bytes_nil,
      Option.map_some, Option.bind_eq_bind, Option.bind_some]
    rfl
  have sameMark : readLe16 data 0 = mark := join16_le16 mark
  have decoded :
      (⟨.setSingleColorHsv,
          .setSingleHsv ⟨readLe16 data 0, h, s, v, index⟩⟩ :
        ControllerCommandMessage) =
        ⟨.setSingleColorHsv, .setSingleHsv ⟨mark, h, s, v, index⟩⟩ := by
    rw [sameMark]
  exact
    .of_payload built rfl (by decide : 6 ≤ maxFrameDataLength) rfl decoded
      (fun _ => rfl) fun fuel startTime runTime controller =>
        addCommand_done fuel startTime runTime controller _

theorem understood_setMultipleColorHsv (h s v first last : UInt8)
    (mark : UInt16) :
    Understood mailbox (.setMultipleColorHsv h s v first last mark) 0x0106
      (le16 mark ++ [h, s, v, first, last]) 5
      ⟨.setMultipleColorHsv,
        .setMultipleHsv ⟨mark, h, s, v, ⟨first, last⟩⟩⟩ := by
  let data := le16 mark ++ [h, s, v, first, last]
  have built :
      HostCommand.frame (.setMultipleColorHsv h s v first last mark) =
        Host.buildFrame 0x0106 data := by
    simp -implicitDefEqProofs only [HostCommand.frame,
      Host.buildSetMultipleColorHsvFrame, toBytes_16, bytes_cons, bytes_nil,
      Option.map_some, Option.bind_eq_bind, Option.bind_some]
    rfl
  have sameMark : readLe16 data 0 = mark := join16_le16 mark
  have decoded :
      (⟨.setMultipleColorHsv,
          .setMultipleHsv ⟨readLe16 data 0, h, s, v, ⟨first, last⟩⟩⟩ :
        ControllerCommandMessage) =
        ⟨.setMultipleColorHsv,
          .setMultipleHsv ⟨mark, h, s, v, ⟨first, last⟩⟩⟩ := by
    rw [sameMark]
  exact
    .of_payload built rfl (by decide : 7 ≤ maxFrameDataLength) rfl decoded
      (fun _ => rfl) fun fuel startTime runTime controller =>
        addCommand_done fuel startTime runTime controller _

theorem understood_run :
    Understood mailbox .run 0x0103
      [] 3
      ⟨.run, .unset⟩ where
  frame := buildFrame_eq_wire (by decide) (by decide : 0 ≤ 65535)
  short := (by decide : 0 ≤ maxFrameDataLength)
  answers := rfl
  sends := by
    intro box
    rfl
  done := by
    intro fuel startTime runTime controller
    exact startAndTick_done fuel startTime runTime controller 0

theorem understood_start (repeats : UInt16) :
    Understood mailbox (.start repeats) 0x010C
      (le16 repeats) 11
      ⟨.start, .start ⟨repeats⟩⟩ := by
  let data := le16 repeats
  have built :
      HostCommand.frame (.start repeats) =
        Host.buildFrame 0x010C data := by
    simp -implicitDefEqProofs only [HostCommand.frame,
      Host.buildStartFrame, toBytes_16, Option.bind_eq_bind, Option.bind_some]
    rfl
  have sameRepeats : readLe16 data 0 = repeats := join16_le16 repeats
  have decoded :
      (⟨.start, .start ⟨readLe16 data 0⟩⟩ : ControllerCommandMessage) =
        ⟨.start, .start ⟨repeats⟩⟩ := by
    rw [sameRepeats]
  exact
    .of_payload built rfl (by decide : 2 ≤ maxFrameDataLength) rfl decoded
      (fun _ => rfl) fun fuel startTime runTime controller =>
        startAndTick_done fuel startTime runTime controller _

theorem HostCommand.understood (command : HostCommand) :
    ∃ tag payload id message,
      Understood mailbox command tag payload id message := by
  cases command with
  | setSingleColor r g b index mark =>
      exact ⟨_, _, _, _, understood_setSingleColor mailbox r g b index mark⟩
  | setMultipleColor r g b first last mark =>
      exact
        ⟨_, _, _, _,
          understood_setMultipleColor mailbox r g b first last mark⟩
  | setMultipleColorGrouped r g b first last groupId mark =>
      exact
        ⟨_, _, _, _,
          understood_setMultipleColorGrouped mailbox r g b first last groupId
            mark⟩
  | setSingleColorGrouped r g b index groupId mark =>
      exact
        ⟨_, _, _, _,
          understood_setSingleColorGrouped mailbox r g b index groupId mark⟩
  | runGroup parentGroupId mark targetGroupId additionalRepeats =>
      exact
        ⟨_, _, _, _,
          understood_runGroup mailbox parentGroupId mark targetGroupId
            additionalRepeats⟩
  | fadeGrouped mark percent durationMs index groupId =>
      exact
        ⟨_, _, _, _,
          understood_fadeGrouped mailbox mark percent durationMs index groupId⟩
  | gradientGrouped mark r g b durationMs index groupId =>
      exact
        ⟨_, _, _, _,
          understood_gradientGrouped mailbox mark r g b durationMs index
            groupId⟩
  | resetInstructions =>
      exact ⟨_, _, _, _, understood_resetInstructions mailbox⟩
  | setSingleColorHsv h s v index mark =>
      exact ⟨_, _, _, _, understood_setSingleColorHsv mailbox h s v index mark⟩
  | setMultipleColorHsv h s v first last mark =>
      exact
        ⟨_, _, _, _,
          understood_setMultipleColorHsv mailbox h s v first last mark⟩
  | run =>
      exact ⟨_, _, _, _, understood_run mailbox⟩
  | start repeats =>
      exact ⟨_, _, _, _, understood_start mailbox repeats⟩

/-! ### Registration -/

/-- Entries with new tags all find a place in a table with enough space. -/
theorem registerAll_distinct {entries : List HandlerEntry} {protocol : Protocol}
    (distinct : ((protocol.handlers ++ entries).map HandlerEntry.tag).Nodup)
    (space : (protocol.handlers ++ entries).length ≤ maxHandlers) :
    registerAll entries protocol =
      ({ protocol with handlers := protocol.handlers ++ entries }, true) := by
  induction entries generalizing protocol with
  | nil =>
      rw [registerAll, List.append_nil]
  | cons entry rest inductionHypothesis =>
      have room : ¬ protocol.handlers.length ≥ maxHandlers := by
        rw [List.length_append, List.length_cons] at space
        omega
      have unused :
          ¬ (protocol.handlers.any fun other => other.tag = entry.tag) := by
        intro used
        rw [List.any_eq_true] at used
        obtain ⟨other, member, same⟩ := used
        rw [List.map_append, List.nodup_append] at distinct
        exact
          distinct.2.2 other.tag (List.mem_map_of_mem member) entry.tag
            List.mem_cons_self (of_decide_eq_true same)
      have added :
          protocol.addHandler entry.tag (some entry.handler) =
            ({ protocol with handlers := protocol.handlers ++ [entry] },
              true) := by
        simp only [Protocol.addHandler, if_neg room, if_neg unused]
      rw [List.append_cons] at distinct space ⊢
      rw [registerAll, added, if_pos rfl]
      exact inductionHypothesis distinct space

theorem commandTable_distinct :
    ((commandTable mailbox).map HandlerEntry.tag).Nodup := by
  show
    ([0x0000, 0x0100, 0x0101, 0x0102, 0x0103, 0x0105, 0x0106, 0x0107, 0x0108,
      0x0109, 0x010A, 0x010B, 0x010C, 0x010D, 0x010E] : List UInt16).Nodup
  decide

/-- `Register` on a fresh instance succeeds and fills the table. -/
theorem register_create (config : ProtocolConfig) :
    register mailbox (Protocol.create config) =
      ({ Protocol.create config with handlers := commandTable mailbox },
        true) :=
  registerAll_distinct (commandTable_distinct mailbox)
    (by decide : 15 ≤ maxHandlers)

/-- An instance with the command handlers. -/
def commandLink (config : ProtocolConfig) : Link :=
  { toProtocol := (register mailbox (Protocol.create config)).1 }

/-- The frame of one packet makes exactly the calls registered for it. -/
theorem invocations_of_wire (environment : Environment)
    {config : ProtocolConfig} (reads : config.read = true)
    (untimed : config.frameTimeout = 0 ∨ config.timestamp = false)
    {tag : Tag} {payload : List UInt8}
    (short : payload.length ≤ maxFrameDataLength) {deliveries : List Delivery}
    (arrives : deliveries.flatMap Delivery.bytes = wire tag payload) :
    ((commandLink mailbox config).session environment
        (deliveries.map Delivery.call)).invocations =
      Dispatch.answers ⟨tag, payload, commandTable mailbox⟩ := by
  let fresh : Link :=
    { toProtocol :=
        { Protocol.create config with handlers := commandTable mailbox } }
  have same : commandLink mailbox config = fresh := by
    rw [commandLink, register_create]
  have parsing : fresh.Parsing := True.intro
  have received :
      Link.Received (deliveries.flatMap Delivery.bytes) fresh
        (fresh.session environment (deliveries.map Delivery.call)) :=
    Link.session_received environment parsing reads untimed (view_zero _ _)
  have packets :
      (fresh.session environment (deliveries.map Delivery.call)).packets =
        [(tag, payload)] := by
    rw [received.packets, arrives]
    exact congrArg Prod.snd (feedAll_wire tag short)
  have started : fresh.Answered fun table => table = commandTable mailbox :=
    ⟨rfl, (fun _ member => nomatch member), rfl⟩
  have answered :=
    started.session environment
      (tableProperty_full (commandTable_distinct mailbox) rfl)
      (deliveries.map Delivery.call)
  rw [same, answered.invocations]
  obtain ⟨dispatch, alone, packet⟩ := List.map_eq_singleton_iff.mp packets
  have table := answered.tables dispatch (alone ▸ List.mem_singleton_self _)
  rw [alone, List.flatMap_singleton]
  cases dispatch with
  | mk dispatchTag dispatchPayload dispatchTable =>
      cases packet
      cases table
      rfl

end

/-- Host and firmware agree.  Whatever the command, its frame can be built, and
delivered in any way to an instance with the command handlers it puts one
message into the mailbox, whose dispatch does what the arguments ask for. -/
theorem host_agrees {σ : Type u} {mailbox : ControllerCommandMailbox σ}
    {contents : σ → List ControllerCommandMessage} {capacity : Nat}
    (fifo : mailbox.Fifo contents capacity) (command : HostCommand) :
    ∃ bytes,
      command.frame = some bytes ∧
        ∀ (environment : Environment) (config : ProtocolConfig),
          config.read = true →
            config.frameTimeout = 0 ∨ config.timestamp = false →
              (register mailbox (Protocol.create config)).2 = true ∧
                ∀ (deliveries : List Delivery) (box : σ),
                  deliveries.flatMap Delivery.bytes = bytes →
                    (contents box).length < capacity →
                      ∃ message after,
                        ((commandLink mailbox config).session environment
                              (deliveries.map
                                Delivery.call)).invocations.foldl
                            (receive mailbox) (some box) =
                          some after ∧
                        contents after = contents box ++ [message] ∧
                        ∀ fuel startTime runTime controller,
                          command.intent.Done fuel startTime runTime controller
                            (dispatchControllerCommand fuel startTime runTime
                              controller message) := by
  obtain ⟨tag, payload, id, message, understood⟩ :=
    command.understood mailbox
  refine ⟨wire tag payload, understood.frame, ?_⟩
  intro environment config reads untimed
  refine ⟨?_, ?_⟩
  · rw [register_create]
  · intro deliveries box arrives space
    refine ⟨message, mailbox.send message box, ?_, ?_, understood.done⟩
    · rw [invocations_of_wire mailbox environment reads untimed
        understood.short arrives, understood.answers]
      exact understood.sends box
    · exact fifo.send message box space

def listMailbox : ControllerCommandMailbox (List ControllerCommandMessage) where
  send := fun message box => box ++ [message]

theorem listMailbox_fifo : listMailbox.Fifo id 32 where
  send := fun _ _ _ => rfl

/-- The frame for pixel 5 at mark `0x1234`. -/
def singleFrame : List Delivery :=
  [.run
    [⟨[0xAA, 0x01, 0x01, 0x06, 0x00, 0x34, 0x12, 0x0A, 0x0B, 0x0C, 0x05, 0x28],
      by decide, by decide⟩]]

theorem host_agrees_of_singleFrame :
    ∃ message after,
      ((commandLink listMailbox {}).session {}
            (singleFrame.map Delivery.call)).invocations.foldl
          (receive listMailbox) (some []) =
        some [message] ∧
      dispatchControllerCommand 0 0 0
          (Machine.fresh fun _ => ⟨0, false, fun _ => ⟨0, 0, 0⟩⟩) message =
        some (after, { mutationAttempted := true }) ∧
      after.instructions 0 =
        .store
          { mark := 0x1234
            kind := .setSingleColor ⟨0x0A, 0x0B, 0x0C⟩ 0x05 } none := by
  obtain ⟨bytes, built, agrees⟩ :=
    host_agrees listMailbox_fifo
      (.setSingleColor 0x0A 0x0B 0x0C 0x05 0x1234)
  have same : singleFrame.flatMap Delivery.bytes = bytes := by
    apply Option.some.inj
    rw [← built]
    decide +kernel
  obtain ⟨message, after, calls, sent, done⟩ :=
    (agrees {} {} rfl (Or.inl rfl)).2 singleFrame [] same (by decide)
  have contents : after = [message] := sent
  rw [contents] at calls
  exact ⟨message, _, calls, done 0 0 0 _ rfl (by decide), rfl⟩

end PrismKit
