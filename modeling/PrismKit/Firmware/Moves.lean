import PrismKit.Firmware.Calls

/-!
# Moves of the tasks

What one step of the firmware can be, case by case, and the rule that carries
an invariant through every interleaving.
-/

namespace PrismKit

open Library Machine

universe u v w x

variable {σ : Type u} {φ : Type v} {β : Type w} {τ : Type x}

namespace Firmware

theorem foldl_emit_writes (box : Mailbox φ SharedFrame)
    (writes : List PixelWrite) {manager : StripManager φ}
    {strips : StripId → Strip} (stages : manager.Stages (strips 0)) :
    ∃ staged : StripManager φ,
      (writes.map Output.setColor).foldl (emit box) manager = staged ∧
        staged.mailbox = manager.mailbox ∧
        staged.Stages (paint strips writes 0) := by
  induction writes generalizing manager strips with
  | nil =>
      exact ⟨manager, rfl, rfl, stages⟩
  | cons write rest inductionHypothesis =>
      let painted : StripId → Strip :=
        Function.update strips write.strip
          ((strips write.strip).setColor write.index write.color)
      have step :
          (emit box manager (.setColor write)).Stages (painted 0) ∧
            (emit box manager (.setColor write)).mailbox = manager.mailbox := by
        unfold emit
        by_cases ours : write.strip = 0
        · have here :
              painted 0 = (strips 0).setColor write.index write.color := by
            simp only [painted, ours, Function.update_self]
          rw [here]
          simp only [if_pos ours]
          refine ⟨stages.setLedColor write.index write.color, ?_⟩
          unfold StripManager.setLedColor
          split
          · rfl
          · split <;> rfl
        · have elsewhere : painted 0 = strips 0 :=
            Function.update_of_ne (Ne.symm ours) _ _
          rw [elsewhere]
          simp only [if_neg ours]
          exact ⟨stages, trivial⟩
      obtain ⟨staged, folded, mailbox, stages'⟩ := inductionHypothesis step.1
      exact ⟨staged, folded, mailbox.trans step.2, stages'⟩

/-- What the outputs of a call do to the strip manager: the writes are staged,
and then the frame may be committed. -/
theorem foldl_emit (box : Mailbox φ SharedFrame) {before after : Machine}
    {writes : List PixelWrite} {wakeup : Option UInt32} {shown : Bool}
    (lets : Lets before after writes wakeup shown) {manager : StripManager φ}
    (stages : manager.Stages (before.strips 0)) :
    ∃ staged : StripManager φ,
      staged.mailbox = manager.mailbox ∧
        staged.Stages (after.strips 0) ∧
        (after.outputs.drop before.outputs.length).foldl (emit box) manager =
          if shown then (staged.show box).1 else staged := by
  obtain ⟨staged, folded, mailbox, stages'⟩ :=
    foldl_emit_writes box writes stages
  rw [← lets.painted] at stages'
  refine ⟨staged, mailbox, stages', ?_⟩
  have silent :
      (wakeup.toList.map Output.schedule).foldl (emit box) staged = staged := by
    cases wakeup <;> rfl
  rw [lets.outputs, List.drop_left, List.foldl_append, folded,
    List.foldl_append, silent]
  cases shown <;> rfl

/-- What they do to the timer: it is started anew for the wake-up, if there is
one. -/
theorem foldl_rearm (timer : TimedEvent τ) (finish : Nat)
    {before after : Machine}
    {writes : List PixelWrite} {wakeup : Option UInt32} {shown : Bool}
    (lets : Lets before after writes wakeup shown) (state : τ) :
    (after.outputs.drop before.outputs.length).foldl (rearm timer finish)
        state =
      wakeup.elim state fun delay => timer.start finish delay state := by
  have written :
      ∀ writes : List PixelWrite,
        (writes.map Output.setColor).foldl (rearm timer finish) state =
          state := by
    intro writes
    induction writes with
    | nil => rfl
    | cons write rest inductionHypothesis => exact inductionHypothesis
  rw [lets.outputs, List.drop_left, List.foldl_append, written,
    List.foldl_append]
  cases wakeup <;> cases shown <;> rfl

/-! ### Cases of a step -/

/-- One move of a task or of the platform. -/
inductive Moves (platform : Platform σ φ β τ) :
    Firmware σ φ β τ → Firmware σ φ β τ → Prop
  | elapse {firmware} (now : Nat) (later : firmware.clock ≤ now) :
      Moves platform firmware { firmware with clock := now }
  | expire {firmware} (due : Nat)
      (armed : platform.timer.due firmware.timer = some due) :
      Moves platform firmware
        { firmware with timer := platform.timer.expire firmware.timer }
  | bind {firmware after} (finish : Nat) (point : firmware.app = .setup)
      (executes : execute platform 0 finish .bind .bound firmware = some after) :
      Moves platform firmware { after with wired := true }
  | begin {firmware after} (fuel startTime runTime finish : Nat)
      (point : firmware.app = .bound)
      (executes :
        execute platform fuel finish (.begin startTime runTime) .waiting
            firmware =
          some after) :
      Moves platform firmware after
  | wakeCommands {firmware} (point : firmware.app = .waiting)
      (posted : platform.commandBox.posted firmware.commands.state = true) :
      Moves platform firmware
        { firmware with
          commands := firmware.commands.wake platform.commandBox
          timer := platform.timer.consume firmware.timer
          app := .draining (platform.timer.posted firmware.timer) }
  | wakeTimeout {firmware} (point : firmware.app = .waiting)
      (expired : platform.timer.posted firmware.timer = true) :
      Moves platform firmware
        { firmware with
          timer := platform.timer.consume firmware.timer
          app := .ticking }
  | receive {firmware} (timeout : Bool) (message : ControllerCommandMessage)
      (point : firmware.app = .draining timeout)
      (received :
        (firmware.commands.receive platform.commandBox).2 = some message) :
      Moves platform firmware
        { firmware with
          commands := (firmware.commands.receive platform.commandBox).1
          app := .dispatching message timeout }
  | drained {firmware} (timeout : Bool)
      (point : firmware.app = .draining timeout)
      (empty : (firmware.commands.receive platform.commandBox).2 = none) :
      Moves platform firmware
        { firmware with
          commands := (firmware.commands.receive platform.commandBox).1
          app := drained timeout }
  | dispatch {firmware after} (fuel startTime runTime finish : Nat)
      (message : ControllerCommandMessage) (timeout : Bool)
      (point : firmware.app = .dispatching message timeout)
      (executes :
        execute platform fuel finish (.command message startTime runTime)
            (.draining timeout) firmware =
          some after) :
      Moves platform firmware after
  | tick {firmware after} (fuel now finish : Nat)
      (point : firmware.app = .ticking)
      (executes :
        execute platform fuel finish (.tick now) .waiting firmware =
          some after) :
      Moves platform firmware after
  | idle {firmware} (frame : Bool) (point : firmware.hw = .waiting)
      (posted :
        platform.frameBox.posted firmware.strip.mailbox.state = frame) :
      Moves platform firmware
        { firmware with
          strip :=
            if frame then
              { firmware.strip with
                mailbox := firmware.strip.mailbox.wake platform.frameBox }
            else
              firmware.strip
          hw := .delivering [] frame }
  | listen {firmware} (chunks : List Chunk) (frame : Bool)
      (point : firmware.hw = .waiting)
      (posted :
        platform.frameBox.posted firmware.strip.mailbox.state = frame) :
      Moves platform firmware
        { firmware with
          link :=
            firmware.link.run (environment platform)
              (chunks.map Chunk.result)
          bytes := firmware.bytes ++ chunks.flatMap Chunk.bytes
          strip :=
            if frame then
              { firmware.strip with
                mailbox := firmware.strip.mailbox.wake platform.frameBox }
            else
              firmware.strip
          hw :=
            .delivering
              ((firmware.link.run (environment platform)
                    (chunks.map Chunk.result)).invocations.drop
                firmware.link.invocations.length)
              frame }
  | deliver {firmware} (invocation : Invocation) (rest : List Invocation)
      (frame : Bool)
      (point : firmware.hw = .delivering (invocation :: rest) frame) :
      Moves platform firmware
        { firmware with
          commands := firmware.handled platform invocation
          hw := .delivering rest frame }
  | delivered {firmware} (frame : Bool)
      (point : firmware.hw = .delivering [] frame) :
      Moves platform firmware
        { firmware with hw := if frame then .draining else .blinking }
  | collect {firmware} (frame : SharedFrame)
      (point : firmware.hw = .draining)
      (received :
        (firmware.strip.mailbox.receive platform.frameBox).2 = some frame) :
      Moves platform firmware
        { firmware with
          strip :=
            { firmware.strip with
              mailbox :=
                (firmware.strip.mailbox.receive platform.frameBox).1 }
          hw := .applying frame }
  | collected {firmware} (point : firmware.hw = .draining)
      (empty :
        (firmware.strip.mailbox.receive platform.frameBox).2 = none) :
      Moves platform firmware
        { firmware with
          strip :=
            { firmware.strip with
              mailbox :=
                (firmware.strip.mailbox.receive platform.frameBox).1 }
          hw := .blinking }
  | apply {firmware} (frame : SharedFrame)
      (point : firmware.hw = .applying frame)
      (ok :
        (applyFrame platform.driver frame firmware.driver).2 = .ok) :
      Moves platform firmware
        { firmware with
          driver := (applyFrame platform.driver frame firmware.driver).1
          applied := firmware.applied ++ [frame]
          hw := .draining }
  | failed {firmware} (frame : SharedFrame)
      (point : firmware.hw = .applying frame)
      (failed :
        (applyFrame platform.driver frame firmware.driver).2 ≠ .ok) :
      Moves platform firmware
        { firmware with
          driver := (applyFrame platform.driver frame firmware.driver).1
          hw := .exited }
  | blink {firmware} (led : StatusLed) (next : HwPoint)
      (point : firmware.hw = .blinking)
      (ends : next = .waiting ∨ next = .exited) :
      Moves platform firmware
        { firmware with statusLed := led, hw := next }

theorem moves_of_step {platform : Platform σ φ β τ}
    {before after : Firmware σ φ β τ} {action : Action}
    (steps : before.step platform action = some after) :
    Moves platform before after := by
  cases action with
  | elapse now =>
      simp only [step, Option.ite_none_right_eq_some, Option.some.injEq] at steps
      obtain ⟨later, rfl⟩ := steps
      exact .elapse now later
  | expire =>
      simp only [step] at steps
      split at steps
      · cases steps
      · rename_i due armed
        cases steps
        exact .expire due armed
  | bind finish =>
      simp only [step] at steps
      split at steps
      · rename_i point
        obtain ⟨bound, executes, rfl⟩ := Option.map_eq_some_iff.mp steps
        exact .bind finish point executes
      · cases steps
  | begin fuel startTime runTime finish =>
      simp only [step] at steps
      split at steps
      · rename_i point
        exact .begin fuel startTime runTime finish point steps
      · cases steps
  | wake =>
      simp only [step] at steps
      split at steps
      · rename_i point
        split at steps
        · rename_i posted
          cases steps
          exact .wakeCommands point posted
        · simp only [Option.ite_none_right_eq_some, Option.some.injEq] at steps
          obtain ⟨expired, rfl⟩ := steps
          exact .wakeTimeout point expired
      · cases steps
  | receive =>
      simp only [step] at steps
      split at steps
      · rename_i timeout point
        split at steps
        · rename_i rest message result
          cases steps
          have moves : Moves platform before _ :=
            .receive timeout message point
              (congrArg Prod.snd result)
          rw [result] at moves
          exact moves
        · rename_i rest result
          cases steps
          have moves : Moves platform before _ :=
            .drained timeout point
              (congrArg Prod.snd result)
          rw [result] at moves
          exact moves
      · cases steps
  | dispatch fuel startTime runTime finish =>
      simp only [step] at steps
      split at steps
      · rename_i message timeout point
        exact
          .dispatch fuel startTime runTime finish message timeout point steps
      · cases steps
  | tick fuel now finish =>
      simp only [step] at steps
      split at steps
      · rename_i point
        exact .tick fuel now finish point steps
      · cases steps
  | listen arrived =>
      simp only [step] at steps
      split at steps
      · rename_i point
        cases steps
        cases arrived with
        | none =>
            simp only [List.drop_length, arrivedBytes, Option.getD_none,
              List.flatMap_nil, List.append_nil]
            exact .idle _ point rfl
        | some chunks =>
            exact .listen chunks _ point rfl
      · cases steps
  | deliver =>
      simp only [step] at steps
      split at steps
      · rename_i invocation rest frame point
        cases steps
        exact .deliver invocation rest frame point
      · rename_i frame point
        cases steps
        exact .delivered frame point
      · cases steps
  | collect =>
      simp only [step] at steps
      split at steps
      · rename_i point
        split at steps
        · rename_i rest frame result
          cases steps
          have moves : Moves platform before _ :=
            .collect frame point
              (congrArg Prod.snd result)
          rw [result] at moves
          exact moves
        · rename_i rest result
          cases steps
          have moves : Moves platform before _ :=
            .collected point
              (congrArg Prod.snd result)
          rw [result] at moves
          exact moves
      · cases steps
  | apply =>
      simp only [step] at steps
      split at steps
      · rename_i frame point
        split at steps
        · rename_i driver result
          cases steps
          have moves : Moves platform before _ :=
            .apply frame point
              (congrArg Prod.snd result)
          rw [result] at moves
          exact moves
        · rename_i driver status bad result
          cases steps
          have failure : status ≠ .ok := fun ok => bad ok
          have moves : Moves platform before _ :=
            .failed frame point
              (by rw [result]; exact failure)
          rw [result] at moves
          exact moves
      · cases steps
  | blink toggled =>
      simp only [step] at steps
      split at steps
      · rename_i point
        cases steps
        apply Moves.blink _ _ point
        split
        · exact Or.inr rfl
        · exact Or.inl rfl
      · cases steps

/-- What holds at the start and is kept by every move holds in every state of
every run. -/
theorem Runs.invariant {platform : Platform σ φ β τ}
    {start firmware : Firmware σ φ β τ} (runs : Runs platform start firmware)
    (property : Firmware σ φ β τ → Prop) (initial : property start)
    (step :
      ∀ before after, Moves platform before after → property before →
        property after) :
    property firmware := by
  induction runs with
  | start =>
      exact initial
  | step action earlier moves inductionHypothesis =>
      exact step _ _ (moves_of_step moves) inductionHypothesis

end Firmware

end PrismKit
