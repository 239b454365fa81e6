import PrismKit.Protocol.Transmit
import Mathlib.Logic.Function.Iterate

/-!
# Retransmission

A frame whose transmission fails stays in the slot, and `TxPhase` writes it
again from its first byte.  The peer has then read the chunks that went through
before the failure as the start of a frame.  It gets the frame if these chunks
leave it waiting for a sync byte, in particular if there are none.
-/

namespace PrismKit

open Library Scanner

/-- A frame that an idle sender accepted and wrote until it went through. -/
structure Retry where
  sender : Link
  environment : Environment
  tag : Tag
  payload : List UInt8
  attempts : Nat
  writes : sender.write = true
  idle : sender.txData = none
  short : payload.length ≤ maxFrameDataLength
  cleared :
    ((Link.txPhase environment)^[attempts]
        (sender.perform (.send (frameOf tag payload)))).txData = none

namespace Retry

def final (retry : Retry) : Link :=
  (Link.txPhase retry.environment)^[retry.attempts]
    (retry.sender.perform (.send (frameOf retry.tag retry.payload)))

/-- The bytes that went through since the frame was accepted. -/
def accepted (retry : Retry) : List UInt8 :=
  retry.final.written.drop retry.sender.written.length

/-- A fresh receiver gets exactly this frame, once, however the bytes reach
it. -/
def Delivered (retry : Retry) : Prop :=
  ∀ (receiving : Environment) (config : ProtocolConfig),
    config.read = true →
      config.frameTimeout = 0 ∨ config.timestamp = false →
        ∀ deliveries : List Delivery,
          deliveries.flatMap Delivery.bytes = retry.accepted →
            ((Link.create config).session receiving
                (deliveries.map Delivery.call)).packets =
              [(retry.tag, retry.payload)]

def chunks (retry : Retry) : List (List UInt8) :=
  batches Link.chunkSize [] (wire retry.tag retry.payload)

/-- No attempt failed after one of its chunks went through: after some refused
first chunks the write callback takes the whole frame. -/
def Straight (retry : Retry) : Prop :=
  Library.Straight retry.environment.accepts retry.sender.chunks.length
    retry.chunks.length

/-- What went through before the complete copy of the frame. -/
def partials (retry : Retry) : List UInt8 :=
  retry.accepted.take
    (retry.accepted.length - (wire retry.tag retry.payload).length)

/-- When the complete copy begins, the receiver waits for a sync byte and has
found nothing. -/
def Resting (retry : Retry) : Prop :=
  feedAll none retry.partials = (none, [])

/-- The frame is on the line only as the complete copy. -/
def Lone (retry : Retry) : Prop :=
  ∀ front back,
    retry.accepted = front ++ wire retry.tag retry.payload ++ back → back = []

end Retry

namespace Link

variable {environment : Environment}

theorem txPhase_offered {link : Link} {data : List UInt8}
    {log : List (List UInt8 × Bool)} {ok : Bool} (writes : link.write = true)
    (pending : link.txData = some data)
    (offered :
      offer environment.accepts link.chunks.length
          (batches chunkSize [] (wire link.txTag data)) = (log, ok)) :
    link.txPhase environment =
      { link with
        chunks := link.chunks ++ log
        txData := if ok then none else some data } := by
  rw [txPhase_attempt environment writes pending, attempt, offered]

theorem txPhase_iterate_idle {link : Link} (idle : link.txData = none)
    (attempts : Nat) :
    (txPhase environment)^[attempts] link = link :=
  Function.iterate_fixed (txPhase_idle environment idle) attempts

/-- Attempts until the frame has gone through: parts of it, then all of it. -/
theorem txPhase_iterate_cleared {attempts : Nat} {link : Link}
    {payload : List UInt8} (writes : link.write = true)
    (pending : link.txData = some payload)
    (cleared : ((txPhase environment)^[attempts] link).txData = none) :
    ∃ partials,
      ((txPhase environment)^[attempts] link).written =
          link.written ++ (partials ++ wire link.txTag payload) ∧
        ((batches chunkSize [] (wire link.txTag payload)).length ≤ 1 →
          partials = []) ∧
        (Straight environment.accepts link.chunks.length
            (batches chunkSize [] (wire link.txTag payload)).length →
          partials = []) := by
  induction attempts generalizing link with
  | zero =>
      rw [Function.iterate_zero, id, pending] at cleared
      cases cleared
  | succ attempts inductionHypothesis =>
      rw [Function.iterate_succ_apply] at cleared ⊢
      have attempted := txPhase_attempt environment writes pending
      obtain ⟨count, front, whole, part⟩ :=
        taken_offer environment.accepts link.chunks.length
          (batches chunkSize [] (wire link.txTag payload))
      have bytes :
          (link.txPhase environment).written =
            link.written ++
              ((batches chunkSize [] (wire link.txTag payload)).take
                count).flatten := by
        rw [attempted, written, taken_append, List.flatten_append, attempt,
          front]
        rfl
      cases ok : (link.attempt environment payload).2 with
      | true =>
          have done : (link.txPhase environment).txData = none := by
            rw [attempted]
            simp only [ok, if_true]
          rw [txPhase_iterate_idle done]
          refine ⟨[], ?_, fun _ => rfl, fun _ => rfl⟩
          rw [bytes, whole ok, flatten_batches]
      | false =>
          have kept : (link.txPhase environment).txData = some payload := by
            rw [attempted]
            simp only [ok, Bool.false_eq_true, if_false]
          have sameTag : (link.txPhase environment).txTag = link.txTag := by
            rw [attempted]
          have sameWrite : (link.txPhase environment).write = true := by
            rw [attempted]
            exact writes
          obtain ⟨partials, rest, single, straight⟩ :=
            inductionHypothesis sameWrite kept cleared
          rw [sameTag] at rest single straight
          refine
            ⟨((batches chunkSize [] (wire link.txTag payload)).take
                count).flatten ++ partials, ?_, ?_, ?_⟩
          · rw [rest, bytes, List.append_assoc, List.append_assoc]
          · intro one
            have none : count = 0 := by
              have fewer := part ok
              omega
            rw [none, single one]
            rfl
          · intro followed
            obtain ⟨⟨item, log⟩, left⟩ := followed.of_refused ok
            have nothing :
                (batches chunkSize [] (wire link.txTag payload)).take count =
                  [] := by
              rw [← front, log]
              rfl
            have calls :
                (link.txPhase environment).chunks.length =
                  link.chunks.length + 1 := by
              rw [attempted, attempt, log]
              exact List.length_append
            rw [nothing, straight (calls ▸ left)]
            rfl

end Link

namespace Retry

theorem accepted_eq (retry : Retry) :
    retry.accepted = retry.partials ++ wire retry.tag retry.payload ∧
      (retry.chunks.length ≤ 1 → retry.partials = []) ∧
      (retry.Straight → retry.partials = []) := by
  have sent := Link.perform_send retry.idle retry.tag retry.short
  have writes :
      (retry.sender.perform
        (.send (frameOf retry.tag retry.payload))).write = true := by
    rw [sent]
    exact retry.writes
  have pending :
      (retry.sender.perform
        (.send (frameOf retry.tag retry.payload))).txData =
          some retry.payload := by
    rw [sent]
  obtain ⟨front, bytes, single, straight⟩ :=
    Link.txPhase_iterate_cleared writes pending retry.cleared
  have whole :
      retry.accepted = front ++ wire retry.tag retry.payload := by
    rw [accepted, final, bytes, sent]
    exact List.drop_left
  rw [sent] at single straight
  have same : retry.partials = front := by
    rw [partials, whole, List.length_append, Nat.add_sub_cancel]
    exact List.take_left
  rw [same]
  exact ⟨whole, single, straight⟩

/-- A receiver that reads the bytes one by one tells what all receivers
dispatch. -/
theorem delivered_iff (retry : Retry) :
    retry.Delivered ↔
      (feedAll none retry.accepted).2 = [(retry.tag, retry.payload)] := by
  constructor
  · intro delivered
    let chunks : List Chunk :=
      retry.accepted.map fun byte =>
        ⟨[byte], List.cons_ne_nil _ _,
          (by decide : 1 ≤ Link.readaheadSize)⟩
    have arrives :
        [Delivery.run chunks].flatMap Delivery.bytes = retry.accepted := by
      rw [List.flatMap_singleton, Delivery.bytes, List.flatMap_map]
      exact List.flatMap_singleton' _
    have received :=
      @Link.session_fresh {} {} rfl (Or.inl rfl) [Delivery.run chunks]
    rw [← delivered {} {} rfl (Or.inl rfl) [Delivery.run chunks] arrives,
      received.packets, arrives]
    rfl
  · intro found receiving config reads untimed deliveries arrives
    have received := Link.session_fresh receiving reads untimed deliveries
    rw [received.packets, arrives]
    exact found

/-- A receiver at rest gets the complete copy. -/
theorem delivered_of_resting (retry : Retry) (resting : retry.Resting) :
    retry.Delivered := by
  rw [delivered_iff, retry.accepted_eq.1, feedAll_append, resting,
    feedAll_wire retry.tag retry.short]
  rfl

theorem resting_of_partials {retry : Retry} (none : retry.partials = []) :
    retry.Resting := by
  rw [Resting, none]
  rfl

/-- A frame that arrives and is on the line only once found the receiver at
rest. -/
theorem resting_of_delivered {retry : Retry} (lone : retry.Lone)
    (delivered : retry.Delivered) : retry.Resting := by
  rw [delivered_iff] at delivered
  have member :
      (retry.tag, retry.payload) ∈ (feedAll none retry.accepted).2 := by
    rw [delivered]
    exact List.mem_singleton_self _
  obtain ⟨front, back, split, idle, _⟩ := feedAll_mem member
  have last := lone front back split
  rw [last, List.append_nil] at split
  have same : front = retry.partials :=
    List.append_cancel_right (split.symm.trans retry.accepted_eq.1)
  have nothing : (feedAll none front).2 = [] := by
    rw [split, feedAll_append, idle, feedAll_wire retry.tag retry.short]
      at delivered
    exact List.append_left_eq_self.mp delivered
  rw [Resting, ← same]
  exact Prod.ext idle nothing

end Retry

/-! ### A write that fails in the middle of a frame -/

/-- Only the second write fails. -/
def interrupting : Environment where
  accepts := fun call => call ≠ 1

/-- A fresh sender with one interrupted attempt: the first chunk has gone
through twice. -/
theorem Link.interrupted {payload : List UInt8}
    (short : payload.length ≤ maxFrameDataLength)
    (long : chunkSize < (wire 1 payload).length) :
    ((txPhase interrupting)^[2]
          ((create {}).perform (.send (frameOf 1 payload)))).txData = none ∧
      ((txPhase interrupting)^[2]
          ((create {}).perform (.send (frameOf 1 payload)))).written =
        (wire 1 payload).take chunkSize ++ wire 1 payload := by
  have first :
      batches chunkSize [] (wire 1 payload) =
        (wire 1 payload).take chunkSize ::
          batches chunkSize [] ((wire 1 payload).drop chunkSize) := by
    apply batches_of_overflow (by decide) (Nat.zero_le _)
    rw [List.length_nil, Nat.zero_add]
    exact long
  have more : batches chunkSize [] ((wire 1 payload).drop chunkSize) ≠ [] := by
    apply batches_ne_nil
    rw [List.nil_append, Ne, List.drop_eq_nil_iff]
    omega
  obtain ⟨second, rest, second_eq⟩ := List.exists_cons_of_ne_nil more
  have failed :
      offer interrupting.accepts 0 (batches chunkSize [] (wire 1 payload)) =
        ([((wire 1 payload).take chunkSize, true), (second, false)],
          false) := by
    rw [first, second_eq]
    rfl
  have passed :
      (offer interrupting.accepts 2
        (batches chunkSize [] (wire 1 payload))).2 = true := by
    apply offer_of_accepting
    intro call _
    exact decide_eq_true (by omega)
  obtain ⟨count, front, whole, _⟩ :=
    taken_offer interrupting.accepts 2 (batches chunkSize [] (wire 1 payload))
  rw [whole passed] at front
  let pending : Link := { create {} with txTag := 1, txData := some payload }
  have sent : (create {}).perform (.send (frameOf 1 payload)) = pending :=
    perform_send rfl 1 short
  let stopped : Link :=
    { pending with
      chunks := [((wire 1 payload).take chunkSize, true), (second, false)] }
  have attempted : pending.txPhase interrupting = stopped :=
    @txPhase_offered interrupting pending payload _ _ rfl rfl failed
  have finished :=
    @txPhase_offered interrupting stopped payload _ true rfl rfl
      (Prod.ext rfl passed)
  rw [Function.iterate_succ_apply, Function.iterate_succ_apply,
    Function.iterate_zero, id, sent, attempted, finished]
  refine ⟨rfl, ?_⟩
  have again :
      (taken
          (offer interrupting.accepts stopped.chunks.length
            (batches chunkSize [] (wire stopped.txTag payload))).1).flatten =
        wire 1 payload :=
    (congrArg List.flatten front).trans (flatten_batches _ _ _)
  rw [written, taken_append, List.flatten_append, again]
  simp [stopped, taken]

namespace Retry

private theorem zeros_short {length : Nat}
    (short : length ≤ maxFrameDataLength) :
    (List.replicate length (0 : UInt8)).length ≤ maxFrameDataLength := by
  rw [List.length_replicate]
  exact short

private theorem zeros_long {length : Nat}
    (long : Link.chunkSize < length + 6) :
    Link.chunkSize < (wire 1 (List.replicate length 0)).length := by
  rw [length_wire, List.length_replicate]
  exact long

def interrupted (length : Nat) (short : length ≤ maxFrameDataLength)
    (long : Link.chunkSize < length + 6) : Retry where
  sender := Link.create {}
  environment := interrupting
  tag := 1
  payload := List.replicate length 0
  attempts := 2
  writes := rfl
  idle := rfl
  short := zeros_short short
  cleared := (Link.interrupted (zeros_short short) (zeros_long long)).1

/-- A later place in the frame does not look like its first two bytes. -/
private theorem zeros_unlike {length place : Nat}
    (short : length ≤ maxFrameDataLength)
    (long : Link.chunkSize < length + 6) (later : 0 < place)
    (inside : place ≤ Link.chunkSize)
    (sync :
      (wire 1 (List.replicate length 0)).getD place 0 = syncByte)
    (tag :
      place + 1 < length + 6 →
        (wire 1 (List.replicate length 0)).getD (place + 1) 0 = 1) :
    False := by
  unfold Link.chunkSize at inside long
  unfold maxFrameDataLength at short
  have size :
      (UInt16.ofNat (List.replicate length (0 : UInt8)).length).toNat =
        length := by
    rw [List.length_replicate, UInt16.toNat_ofNat']
    omega
  have payload :
      ∀ index, index < length →
        (wire 1 (List.replicate length 0)).getD (index + 5) 0 = 0 := by
    intro index below
    show
      (List.replicate length (0 : UInt8) ++ [_]).getD index 0 = 0
    rw [List.getD_eq_getElem?_getD, List.getElem?_append_left (by simpa),
      List.getElem?_replicate, if_pos below]
    rfl
  rcases Nat.lt_or_ge place 5 with header | behind
  · have cases : place = 1 ∨ place = 2 ∨ place = 3 ∨ place = 4 := by omega
    rcases cases with rfl | rfl | rfl | rfl
    · have one : (1 : UInt8) = syncByte := sync
      exact absurd one (by decide)
    · have zero : (0 : UInt8) = syncByte := sync
      exact absurd zero (by decide)
    · have low := congrArg UInt8.toNat sync
      have high := congrArg UInt8.toNat (tag (by omega))
      rw [show
          ((wire 1 (List.replicate length 0)).getD 3 0).toNat = length % 256
        from (toNat_low16 _).trans (by rw [size])] at low
      rw [show
          ((wire 1 (List.replicate length 0)).getD 4 0).toNat = length / 256
        from (toNat_high16 _).trans (by rw [size])] at high
      change length % 256 = 170 at low
      change length / 256 = 1 at high
      omega
    · have high := congrArg UInt8.toNat sync
      rw [show
          ((wire 1 (List.replicate length 0)).getD 4 0).toNat = length / 256
        from (toNat_high16 _).trans (by rw [size])] at high
      change length / 256 = 170 at high
      omega
  · rcases Nat.lt_or_ge place (length + 5) with data | checksum
    · have zero := payload (place - 5) (by omega)
      rw [Nat.sub_add_cancel behind, sync] at zero
      exact absurd zero (by decide)
    · have last : place = 64 := by omega
      have least : length = 59 := by omega
      rw [last, least] at sync
      exact absurd sync (by decide +kernel)

section

variable {length : Nat} (short : length ≤ maxFrameDataLength)
  (long : Link.chunkSize < length + 6)

theorem interrupted_partials :
    (interrupted length short long).partials =
      (wire 1 (List.replicate length 0)).take Link.chunkSize := by
  have written :
      (interrupted length short long).accepted =
        (wire 1 (List.replicate length 0)).take Link.chunkSize ++
          wire 1 (List.replicate length 0) :=
    (Link.interrupted (zeros_short short) (zeros_long long)).2
  exact
    List.append_cancel_right
      ((interrupted length short long).accepted_eq.1.symm.trans written)

/-- The receiver is in the middle of the frame. -/
theorem interrupted_not_resting :
    ¬ (interrupted length short long).Resting := by
  intro resting
  rw [Resting, interrupted_partials] at resting
  have size : (UInt16.ofNat length).toNat = length := by
    rw [UInt16.toNat_ofNat']
    unfold maxFrameDataLength at short
    omega
  let head := Link.txHeader 1 (UInt16.ofNat length)
  let rest :=
    List.replicate length 0 ++
      [computeChecksum head (List.replicate length 0)]
  have front :
      (wire 1 (List.replicate length 0)).take Link.chunkSize =
        syncByte :: (head ++ rest.take 59) := by
    rw [wire, List.length_replicate]
    rfl
  have unfinished : Unfinished ([] ++ (head ++ rest.take 59)) := by
    right
    rw [List.nil_append, declared, header_txHeader, size, List.length_append,
      List.length_take]
    refine ⟨short, ?_⟩
    have four : head.length = headerSize := rfl
    unfold Link.chunkSize at long
    omega
  rw [front, feedAll, feed, if_pos rfl] at resting
  simp only at resting
  rw [feedAll_unfinished unfinished] at resting
  cases congrArg Prod.fst resting

private theorem getD_middle {front middle : List UInt8} (back : List UInt8)
    {index : Nat} (inside : index < middle.length) :
    (front ++ middle ++ back).getD (front.length + index) 0 =
      middle.getD index 0 := by
  rw [List.getD_eq_getElem?_getD, List.getD_eq_getElem?_getD,
    List.append_assoc, List.getElem?_append_right (by omega),
    Nat.add_sub_cancel_left, List.getElem?_append_left inside]

theorem interrupted_lone : (interrupted length short long).Lone := by
  intro front back split
  have written := (interrupted length short long).accepted_eq.1
  rw [split, interrupted_partials] at written
  change
    front ++ wire 1 (List.replicate length 0) ++ back =
      (wire 1 (List.replicate length 0)).take Link.chunkSize ++
        wire 1 (List.replicate length 0) at written
  have whole : (wire 1 (List.replicate length 0)).length = length + 6 := by
    rw [length_wire, List.length_replicate]
  have covered :
      ((wire 1 (List.replicate length 0)).take Link.chunkSize).length =
        Link.chunkSize := by
    rw [List.length_take]
    omega
  have lengths := congrArg List.length written
  rw [List.length_append, List.length_append, List.length_append, covered]
    at lengths
  rcases Nat.eq_zero_or_pos back.length with none | some
  · exact List.eq_nil_of_length_eq_zero none
  · exfalso
    -- a copy that starts earlier has the start of the last copy inside it
    have same :
        ∀ index, index < length + 6 → back.length + index < length + 6 →
          (wire 1 (List.replicate length 0)).getD (back.length + index) 0 =
            (wire 1 (List.replicate length 0)).getD index 0 := by
      intro index below inside
      have left := @getD_middle front _ back (back.length + index)
        (whole ▸ inside)
      have right := @getD_middle
        ((wire 1 (List.replicate length 0)).take Link.chunkSize) _ [] index
        (whole ▸ below)
      rw [List.append_nil, covered] at right
      rw [← left, ← right, written]
      congr 1
      omega
    apply zeros_unlike short long some (by omega)
    · exact same 0 (by omega) (by omega)
    · exact same 1 (by omega)

end

/-- When the accepted chunks deliver the frame.  For a given payload length
every run of attempts does so exactly if the frame fits into one chunk.  A
single run does so if it has no interrupted attempt or, more generally, if the
receiver is at rest when the complete copy begins, and for a frame that is not
on the line by coincidence before, only then. -/
theorem delivered_after_retries (length : Nat)
    (short : length ≤ maxFrameDataLength) :
    ((∀ retry : Retry, retry.payload.length = length → retry.Delivered) ↔
        length + 6 ≤ Link.chunkSize) ∧
      ∀ retry : Retry, retry.payload.length = length →
        (retry.Straight → retry.Delivered) ∧
          (retry.Resting → retry.Delivered) ∧
          (retry.Lone → (retry.Delivered ↔ retry.Resting)) := by
  refine ⟨?_, ?_⟩
  · constructor
    · intro always
      by_contra long
      have long' : Link.chunkSize < length + 6 := by omega
      have delivered :=
        always (interrupted length short long') List.length_replicate
      exact
        interrupted_not_resting short long'
          (resting_of_delivered (interrupted_lone short long') delivered)
    · intro fits retry same
      apply delivered_of_resting
      apply resting_of_partials
      apply retry.accepted_eq.2.1
      have nonempty : [] ++ wire retry.tag retry.payload ≠ [] :=
        List.cons_ne_nil _ _
      rw [chunks, batches_of_fit _ nonempty]
      · exact Nat.le_refl 1
      · rw [List.length_nil, Nat.zero_add, length_wire, same]
        exact fits
  · intro retry _
    refine ⟨?_, delivered_of_resting retry, ?_⟩
    · intro straight
      apply delivered_of_resting
      exact resting_of_partials (retry.accepted_eq.2.2 straight)
    · intro lone
      exact ⟨resting_of_delivered lone, delivered_of_resting retry⟩

/-- Frames with 60 bytes of payload, in contrast to those with 58, do not all
arrive. -/
theorem delivered_after_retries_of_sixty :
    (∀ retry : Retry, retry.payload.length = 58 → retry.Delivered) ∧
      ¬ ∀ retry : Retry, retry.payload.length = 60 → retry.Delivered := by
  refine ⟨(delivered_after_retries 58 (by decide)).1.mpr (by decide), ?_⟩
  intro always
  exact
    absurd ((delivered_after_retries 60 (by decide)).1.mp always) (by decide)

/-- A payload of 60 zeros after an interrupted attempt does not arrive. -/
theorem not_every_retry_delivered : ¬ ∀ retry : Retry, retry.Delivered := by
  intro always
  have short : 60 ≤ maxFrameDataLength := by
    decide
  have long : Link.chunkSize < 60 + 6 := by
    decide
  exact
    interrupted_not_resting short long
      (resting_of_delivered (interrupted_lone short long) (always _))

end Retry

end PrismKit
