import PrismKit.Library.Clock
import PrismKit.Protocol.Delivery
import Mathlib.Data.List.Induction
import Mathlib.Order.Monotone.Defs

/-!
# The frame timeout

`Run` compares the age of an unfinished frame with the timeout once, before it
reads.  Dropping the frame there cuts the stream: what was read before and what
is read afterwards are parsed on their own, as by a parser without a timeout.

The clock is a count of ticks that does not wrap, and the callback shows its
lower 32 bits.
-/

namespace PrismKit

open Library Scanner

/-! ### Clock readings -/

/-- Clock readings while bytes are read: none, and the frame that is open
afterwards was open before; or the last one was for the sync byte of the frame
that is open afterwards. -/
inductive Clocked (environment : Environment) (before after : Link) : Prop
  | kept (reads : after.clockReads = before.clockReads)
      (stamp :
        after.state ≠ .waitingForSync →
          before.state ≠ .waitingForSync ∧
            after.frameStartTs = before.frameStartTs)
  | stamped (reads : before.clockReads < after.clockReads)
      (stamp :
        after.state ≠ .waitingForSync →
          after.frameStartTs = environment.clock (after.clockReads - 1))

namespace Clocked

variable {environment : Environment}

theorem refl (link : Link) : Clocked environment link link :=
  kept rfl fun unfinished => ⟨unfinished, rfl⟩

theorem trans {before middle after : Link}
    (first : Clocked environment before middle)
    (second : Clocked environment middle after) :
    Clocked environment before after := by
  cases second with
  | kept reads stamp =>
      cases first with
      | kept reads' stamp' =>
          refine kept (reads.trans reads') ?_
          intro unfinished
          obtain ⟨before, same⟩ := stamp unfinished
          obtain ⟨before', same'⟩ := stamp' before
          exact ⟨before', same.trans same'⟩
      | stamped reads' stamp' =>
          refine stamped (reads ▸ reads') ?_
          intro unfinished
          obtain ⟨before, same⟩ := stamp unfinished
          rw [same, reads]
          exact stamp' before
  | stamped reads stamp =>
      refine stamped ?_ stamp
      cases first with
      | kept reads' _ =>
          omega
      | stamped reads' _ =>
          omega

end Clocked

namespace Link

variable {environment : Environment}

/-- Only a sync byte that starts a frame makes the parser read the clock. -/
theorem consumeByte_clocked (raw : UInt8) {link : Link}
    (timed : link.timestamp = true) :
    Clocked environment link (link.consumeByte environment raw) := by
  cases state : link.state with
  | waitingForSync =>
      simp only [consumeByte, state]
      split
      · simp only [Protocol.resetParser, timed, if_true, readClock]
        exact Clocked.stamped (Nat.lt_succ_self _) fun _ => rfl
      · exact Clocked.refl link
  | readingHeader =>
      have unfinished : link.state ≠ .waitingForSync := by
        rw [state]
        decide
      simp only [consumeByte, state]
      split
      · split
        · exact Clocked.kept rfl fun reset => absurd rfl reset
        · exact Clocked.kept rfl fun _ => ⟨unfinished, rfl⟩
      · exact Clocked.kept rfl fun _ => ⟨unfinished, rfl⟩
  | readingData =>
      have unfinished : link.state ≠ .waitingForSync := by
        rw [state]
        decide
      simp only [consumeByte, state]
      split
      · exact Clocked.kept rfl fun _ => ⟨unfinished, rfl⟩
      · exact Clocked.kept rfl fun _ => ⟨unfinished, rfl⟩
  | readingChecksum =>
      obtain ⟨_, _, _, _, dispatched, _⟩ := dispatchFrame_eq environment link
      simp only [consumeByte, state]
      split
      · rw [dispatched]
        exact Clocked.kept rfl fun reset => absurd rfl reset
      · exact Clocked.kept rfl fun reset => absurd rfl reset

theorem Absorbs.clocked {bytes : List UInt8} {before after : Link}
    (absorbs : Absorbs environment bytes before after)
    (parsing : before.Parsing) (timed : before.timestamp = true) :
    Clocked environment before after := by
  induction absorbs with
  | done link =>
      exact Clocked.refl link
  | cache readahead readaheadIdx readaheadCnt _ inductionHypothesis =>
      have later := inductionHypothesis parsing timed
      cases later with
      | kept reads stamp =>
          exact Clocked.kept reads stamp
      | stamped reads stamp =>
          exact Clocked.stamped reads stamp
  | byte raw _ inductionHypothesis =>
      have consumed := consumeByte_consumed environment raw parsing
      exact
        (consumeByte_clocked raw timed).trans
          (inductionHypothesis consumed.parsing
            (consumed.timestamp.trans timed))

/-- Without bytes nothing happens. -/
theorem Absorbs.of_nil {before after : Link}
    (absorbs : Absorbs environment [] before after) :
    after.clockReads = before.clockReads := by
  generalize empty : ([] : List UInt8) = bytes at absorbs
  induction absorbs with
  | done link =>
      rfl
  | cache _ _ _ _ inductionHypothesis =>
      exact inductionHypothesis empty
  | byte raw _ _ =>
      cases empty

/-- An instance after the timeout check at the start of `Run`. -/
def checked (environment : Environment) (link : Link) : Link :=
  (link.txPhase environment).checkTimeout environment

/-- The check drops the open frame, if its age shows to be over the timeout. -/
inductive Checks (environment : Environment) (link : Link) : Link → Prop
  | idle (state : link.state = .waitingForSync)
      (chunks : List (List UInt8 × Bool)) (txData : Option (List UInt8)) :
      Checks environment link { link with chunks, txData }
  | dropped (state : link.state ≠ .waitingForSync)
      (old :
        link.frameTimeout <
          environment.clock link.clockReads - link.frameStartTs)
      (chunks : List (List UInt8 × Bool)) (txData : Option (List UInt8)) :
      Checks environment link
        { link with
          chunks
          txData
          clockReads := link.clockReads + 1
          state := .waitingForSync
          rxIndex := 0
          rxDataLength := 0
          rxTag := 0
          frameStartTs := 0 }
  | kept (state : link.state ≠ .waitingForSync)
      (young :
        ¬ link.frameTimeout <
          environment.clock link.clockReads - link.frameStartTs)
      (chunks : List (List UInt8 × Bool)) (txData : Option (List UInt8)) :
      Checks environment link
        { link with chunks, txData, clockReads := link.clockReads + 1 }

theorem checks_checked {link : Link} (timed : link.timestamp = true)
    (positive : link.frameTimeout > 0) :
    Checks environment link (link.checked environment) := by
  obtain ⟨chunks, txData, same, _⟩ := txPhase_eq environment link
  rw [checked, same]
  by_cases idle : link.state = .waitingForSync
  · have unchecked :
        ¬ (link.frameTimeout > 0 ∧ link.timestamp ∧
            link.state ≠ .waitingForSync) := by
      rintro ⟨_, _, unfinished⟩
      exact unfinished idle
    rw [checkTimeout, if_neg unchecked]
    exact Checks.idle idle chunks txData
  · have tested :
        link.frameTimeout > 0 ∧ link.timestamp ∧
          link.state ≠ .waitingForSync :=
      ⟨positive, timed, idle⟩
    rw [checkTimeout, if_pos tested]
    show
      Checks environment link
        (if environment.clock link.clockReads - link.frameStartTs >
            link.frameTimeout then
          _
        else
          _)
    by_cases old :
        environment.clock link.clockReads - link.frameStartTs >
          link.frameTimeout
    · rw [if_pos old]
      exact Checks.dropped idle old chunks txData
    · rw [if_neg old]
      exact Checks.kept idle old chunks txData

theorem run_checked (chunks : List Chunk) {link : Link}
    (parsing : (link.checked environment).Parsing)
    (reads : (link.checked environment).read = true)
    (timed : (link.checked environment).timestamp = true)
    (drained : (link.checked environment).cached = []) :
    Received (chunks.flatMap Chunk.bytes) (link.checked environment)
        (link.run environment (chunks.map Chunk.result)) ∧
      (link.run environment (chunks.map Chunk.result)).cached = [] ∧
      Clocked environment (link.checked environment)
        (link.run environment (chunks.map Chunk.result)) ∧
      (chunks = [] →
        (link.run environment (chunks.map Chunk.result)).clockReads =
          (link.checked environment).clockReads) := by
  obtain ⟨bytes, absorbs, empty, delivered⟩ :=
    receive_absorbs environment
      (Nat.le_refl
        ((link.checked environment).available (chunks.map Chunk.result)))
  have same := delivered chunks rfl reads
  rw [drained, List.nil_append] at same
  rw [same] at absorbs
  have received := absorbs.received environment parsing
  have clocked := absorbs.clocked parsing timed
  have silent :
      chunks = [] →
        (receive environment
            ((link.checked environment).available (chunks.map Chunk.result))
            (chunks.map Chunk.result) (link.checked environment)).clockReads =
          (link.checked environment).clockReads := by
    intro nothing
    rw [nothing] at absorbs ⊢
    exact absorbs.of_nil
  have ran :
      link.run environment (chunks.map Chunk.result) =
        (receive environment
          ((link.checked environment).available (chunks.map Chunk.result))
          (chunks.map Chunk.result) (link.checked environment)).txPhase
          environment :=
    rfl
  rw [ran]
  generalize
    receive environment
      ((link.checked environment).available (chunks.map Chunk.result))
      (chunks.map Chunk.result) (link.checked environment) = middle at *
  obtain ⟨last, kept⟩ := txPhase_received environment received.parsing
  have whole := received.append last
  rw [List.append_nil] at whole
  obtain ⟨_, _, same', _⟩ := txPhase_eq environment middle
  refine ⟨whole, kept.trans empty, ?_, ?_⟩
  · rw [same']
    cases clocked with
    | kept reads stamp =>
        exact Clocked.kept reads stamp
    | stamped reads stamp =>
        exact Clocked.stamped reads stamp
  · rw [same']
    exact silent

end Link

/-- An instance while a stream arrives.  `seen` is the number of the clock call
for the sync byte of the frame that is open; `closed` and `segment` are the
pieces of the stream that were cut off, and what came since then. -/
structure Watch where
  link : Link
  seen : Nat := 0
  closed : List (List UInt8) := []
  segment : List UInt8 := []

namespace Watch

variable (environment : Environment) (time : Nat → Nat)

/-- The next call of the clock, at the start of a `Run`, shows that the open
frame is older than the timeout. -/
def Expired (watch : Watch) : Prop :=
  watch.link.state ≠ .waitingForSync ∧
    time watch.seen + watch.link.frameTimeout.toNat <
      time watch.link.clockReads

instance (watch : Watch) : Decidable (watch.Expired time) :=
  inferInstanceAs (Decidable (_ ∧ _))

/-- One call of the public interface.  Besides its check, a `Run` reads the
clock for sync bytes only, so its last reading is the one for the frame that it
leaves open. -/
def step (watch : Watch) (delivery : Delivery) : Watch :=
  let after := watch.link.call environment delivery.call
  match delivery with
  | .run _ =>
      { link := after
        seen :=
          if (watch.link.checked environment).clockReads < after.clockReads then
            after.clockReads - 1
          else
            watch.seen
        closed :=
          if watch.Expired time then watch.closed ++ [watch.segment]
          else watch.closed
        segment :=
          if watch.Expired time then delivery.bytes
          else watch.segment ++ delivery.bytes }
  | _ => { watch with link := after }

/-- Calls one after the other. -/
def after (watch : Watch) (deliveries : List Delivery) : Watch :=
  deliveries.foldl (step environment time) watch

/-- All pieces of the stream. -/
def segments (watch : Watch) : List (List UInt8) :=
  watch.closed ++ [watch.segment]

/-- Every byte that goes into an open frame is read by a `Run` that starts less
than a full turn of the clock after the sync byte. -/
def Spans (watch : Watch) (deliveries : List Delivery) : Prop :=
  ∀ front chunks back,
    deliveries = front ++ Delivery.run chunks :: back →
      chunks ≠ [] →
        ((watch.after environment time front).link.checked environment).state ≠
            .waitingForSync →
          time (watch.after environment time front).link.clockReads <
            time (watch.after environment time front).seen + 2 ^ 32

/-- What holds between two calls.  `stale` is a frame that is too old and was
not noticed because the difference of the readings wrapped; it takes no more
bytes. -/
structure Follows (watch : Watch) : Prop where
  parsing : watch.link.Parsing
  read : watch.link.read = true
  timed : watch.link.timestamp = true
  positive : watch.link.frameTimeout > 0
  cached : watch.link.cached = []
  stamp :
    watch.link.state ≠ .waitingForSync →
      watch.link.frameStartTs = environment.clock watch.seen ∧
        watch.seen < watch.link.clockReads
  packets : watch.link.packets = watch.segments.flatMap scan
  pending :
    watch.link.pending = (feedAll none watch.segment).1 ∨
      watch.segment = [] ∧ watch.link.state ≠ .waitingForSync ∧
        ∀ call, watch.link.clockReads ≤ call →
          time watch.seen + watch.link.frameTimeout.toNat < time call

/-! ### One call -/

variable {environment : Environment} {time : Nat → Nat}

/-- After a `Run` the stamp is that of the frame it leaves open. -/
theorem stamp_of_clocked {watch : Watch} {chunks : List Chunk} {middle : Link}
    (stamp :
      middle.state ≠ .waitingForSync →
        middle.frameStartTs = environment.clock watch.seen ∧
          watch.seen < middle.clockReads)
    (start : watch.link.checked environment = middle)
    (clocked :
      Clocked environment middle
        (watch.step environment time (.run chunks)).link)
    (unfinished :
      (watch.step environment time (.run chunks)).link.state ≠
        .waitingForSync) :
    (watch.step environment time (.run chunks)).link.frameStartTs =
        environment.clock
          (watch.step environment time (.run chunks)).seen ∧
      (watch.step environment time (.run chunks)).seen <
        (watch.step environment time (.run chunks)).link.clockReads := by
  cases clocked with
  | kept reads same =>
      obtain ⟨before, sameStamp⟩ := same unfinished
      obtain ⟨stamped, earlier⟩ := stamp before
      have seen :
          (watch.step environment time (.run chunks)).seen = watch.seen := by
        apply if_neg
        rw [start]
        exact Nat.not_lt.mpr (Nat.le_of_eq reads)
      rw [seen, sameStamp, reads]
      exact ⟨stamped, earlier⟩
  | stamped reads same =>
      have seen :
          (watch.step environment time (.run chunks)).seen =
            (watch.step environment time (.run chunks)).link.clockReads -
              1 := by
        apply if_pos
        rw [start]
        exact reads
      rw [seen]
      exact ⟨same unfinished, by omega⟩

/-- What the check leaves for the receive loop. -/
structure Prepared (watch : Watch) (middle : Link) : Prop where
  parsing : middle.Parsing
  read : middle.read = true
  timed : middle.timestamp = true
  frameTimeout : middle.frameTimeout = watch.link.frameTimeout
  cached : middle.cached = []
  packets : middle.packets = watch.link.packets
  stamp :
    middle.state ≠ .waitingForSync →
      middle.frameStartTs = environment.clock watch.seen ∧
        watch.seen < middle.clockReads

theorem Follows.prepared {watch : Watch}
    (follows : watch.Follows environment time) {middle : Link}
    (checks : Link.Checks environment watch.link middle) :
    @Prepared environment watch middle := by
  cases checks with
  | idle state calls slot =>
      exact
        ⟨follows.parsing, follows.read, follows.timed, rfl, follows.cached,
          rfl, follows.stamp⟩
  | dropped state old calls slot =>
      exact
        ⟨True.intro, follows.read, follows.timed, rfl, follows.cached, rfl,
          fun reset => absurd rfl reset⟩
  | kept state young calls slot =>
      refine
        ⟨follows.parsing, follows.read, follows.timed, rfl, follows.cached,
          rfl, ?_⟩
      intro unfinished
      obtain ⟨stamped, earlier⟩ := follows.stamp unfinished
      exact ⟨stamped, Nat.lt_succ_of_lt earlier⟩

/-- The check and the ages.  Either the open frame is young and the stream goes
on, or it is too old and dropped, or it is too old, is not dropped, and gets no
bytes. -/
theorem Follows.outcome
    (shows : ∀ call, environment.clock call = UInt32.ofNat (time call))
    (monotone : Monotone time) {watch : Watch}
    (follows : watch.Follows environment time) {middle : Link}
    (checks : Link.Checks environment watch.link middle)
    {chunks : List Chunk}
    (span :
      chunks ≠ [] → middle.state ≠ .waitingForSync →
        time watch.link.clockReads < time watch.seen + 2 ^ 32) :
    ¬ watch.Expired time ∧
        middle.pending = (feedAll none watch.segment).1 ∨
      watch.Expired time ∧ middle.pending = none ∨
      watch.Expired time ∧ chunks = [] ∧ middle.state ≠ .waitingForSync ∧
        middle.clockReads = watch.link.clockReads + 1 := by
  have age :
      watch.link.state ≠ .waitingForSync →
        time watch.seen ≤ time watch.link.clockReads ∧
          environment.clock watch.link.clockReads -
              watch.link.frameStartTs =
            UInt32.ofNat (time watch.link.clockReads) -
              UInt32.ofNat (time watch.seen) := by
    intro unfinished
    obtain ⟨stamped, earlier⟩ := follows.stamp unfinished
    rw [stamped, shows, shows]
    exact ⟨monotone (Nat.le_of_lt earlier), rfl⟩
  cases checks with
  | idle state calls slot =>
      left
      refine ⟨fun expired => expired.1 state, ?_⟩
      cases follows.pending with
      | inl same =>
          exact same
      | inr stale =>
          exact absurd state stale.2.1
  | dropped state old calls slot =>
      right
      left
      obtain ⟨ordered, difference⟩ := age state
      rw [difference, UInt32.lt_iff_toNat_lt] at old
      have least := toNat_sub_ofNat_le ordered
      exact ⟨⟨state, by omega⟩, rfl⟩
  | kept state young calls slot =>
      obtain ⟨ordered, difference⟩ := age state
      rw [difference, UInt32.lt_iff_toNat_lt] at young
      by_cases expired : watch.Expired time
      · right
        right
        refine ⟨expired, ?_, state, rfl⟩
        by_contra some'
        have near := span some' state
        rw [toNat_sub_ofNat ordered near] at young
        have late := expired.2
        omega
      · left
        refine ⟨expired, ?_⟩
        cases follows.pending with
        | inl same =>
            exact same
        | inr stale =>
            exact
              absurd ⟨state, stale.2.2 _ (Nat.le_refl _)⟩ expired

theorem Follows.run
    (shows : ∀ call, environment.clock call = UInt32.ofNat (time call))
    (monotone : Monotone time) {watch : Watch}
    (follows : watch.Follows environment time) (chunks : List Chunk)
    (span :
      chunks ≠ [] →
        (watch.link.checked environment).state ≠ .waitingForSync →
          time watch.link.clockReads < time watch.seen + 2 ^ 32) :
    (watch.step environment time (.run chunks)).Follows environment time := by
  have checks : Link.Checks environment watch.link _ :=
    Link.checks_checked follows.timed follows.positive
  have prepared := follows.prepared checks
  have outcome := follows.outcome shows monotone checks span
  obtain ⟨received, drained, clocked, silent⟩ :=
    Link.run_checked chunks prepared.parsing prepared.read prepared.timed
      prepared.cached
  have stamp := @stamp_of_clocked environment time _ _ _ prepared.stamp rfl clocked
  have cut :
      watch.Expired time →
        (watch.step environment time (.run chunks)).closed =
            watch.closed ++ [watch.segment] ∧
          (watch.step environment time (.run chunks)).segment =
            chunks.flatMap Chunk.bytes :=
    fun old => ⟨if_pos old, if_pos old⟩
  have uncut :
      ¬ watch.Expired time →
        (watch.step environment time (.run chunks)).closed = watch.closed ∧
          (watch.step environment time (.run chunks)).segment =
            watch.segment ++ chunks.flatMap Chunk.bytes :=
    fun young => ⟨if_neg young, if_neg young⟩
  have seen :
      (watch.step environment time (.run chunks)).link.clockReads =
          (watch.link.checked environment).clockReads →
        (watch.step environment time (.run chunks)).seen = watch.seen :=
    fun same => if_neg (Nat.not_lt.mpr (Nat.le_of_eq same))
  have same :
      (watch.step environment time (.run chunks)).link =
        watch.link.run environment (chunks.map Chunk.result) :=
    rfl
  rw [← same] at received drained silent
  generalize watch.step environment time (.run chunks) = after at *
  have packets := received.packets
  have pending := received.pending
  rw [prepared.packets, follows.packets] at packets
  have fields :
      after.link.packets = after.segments.flatMap scan →
        (after.link.pending = (feedAll none after.segment).1 ∨
            after.segment = [] ∧ after.link.state ≠ .waitingForSync ∧
              ∀ call, after.link.clockReads ≤ call →
                time after.seen + after.link.frameTimeout.toNat <
                  time call) →
          after.Follows environment time := by
    intro packets pending
    refine
      ⟨received.parsing, received.read.trans prepared.read,
        received.timestamp.trans prepared.timed, ?_, drained, stamp, packets,
        pending⟩
    rw [received.frameTimeout, prepared.frameTimeout]
    exact follows.positive
  cases outcome with
  | inl young =>
      obtain ⟨closed, segment⟩ := uncut young.1
      rw [young.2] at packets pending
      have whole :=
        feedAll_append none watch.segment (chunks.flatMap Chunk.bytes)
      apply fields
      · rw [packets, segments, segments, closed, segment,
          List.flatMap_append, List.flatMap_append, List.flatMap_singleton,
          List.flatMap_singleton, List.append_assoc, ← feedAll_eq_scan,
          ← feedAll_eq_scan, whole]
      · left
        rw [pending, segment, whole]
  | inr late =>
      have old : watch.Expired time := late.elim And.left And.left
      obtain ⟨closed, segment⟩ := cut old
      have split :
          after.segments.flatMap scan =
            watch.segments.flatMap scan ++
              scan (chunks.flatMap Chunk.bytes) := by
        rw [segments, closed, segment, List.flatMap_append,
          List.flatMap_singleton, segments]
      cases late with
      | inl dropped =>
          rw [dropped.2] at packets pending
          apply fields
          · rw [packets, split, feedAll_eq_scan]
          · left
            rw [pending, segment]
      | inr stale =>
          obtain ⟨_, nothing, unfinished, reads⟩ := stale
          rw [nothing] at packets pending split segment
          have sameReads := silent nothing
          apply fields
          · rw [packets, split, List.flatMap_nil, scan]
            rfl
          · right
            refine ⟨segment, ?_, ?_⟩
            · intro waiting
              apply unfinished
              apply Protocol.waiting_of_pending
              exact
                pending.symm.trans (Protocol.pending_of_waiting waiting)
            · intro call later
              rw [seen sameReads, received.frameTimeout,
                prepared.frameTimeout]
              have earlier : watch.link.clockReads ≤ call := by omega
              exact Nat.lt_of_lt_of_le old.2 (monotone earlier)

/-- The other calls leave the receiver alone. -/
theorem Follows.perform {watch : Watch}
    (follows : watch.Follows environment time) (request : Request) :
    Watch.Follows environment time
      { watch with link := watch.link.perform request } := by
  obtain ⟨_, _, _, same⟩ := Link.perform_eq watch.link request
  rw [same]
  exact
    ⟨follows.parsing, follows.read, follows.timed, follows.positive,
      follows.cached, follows.stamp, follows.packets, follows.pending⟩

theorem over_append (watch : Watch) (front back : List Delivery) :
    watch.after environment time (front ++ back) =
      (watch.after environment time front).after environment time back :=
  List.foldl_append

theorem Spans.of_append {watch : Watch} {front back : List Delivery}
    (spans : watch.Spans environment time (front ++ back)) :
    watch.Spans environment time front := by
  intro before chunks rest split
  apply spans before chunks (rest ++ back)
  rw [split, List.append_assoc, List.cons_append]

theorem Follows.after
    (shows : ∀ call, environment.clock call = UInt32.ofNat (time call))
    (monotone : Monotone time) {watch : Watch}
    (follows : watch.Follows environment time) {deliveries : List Delivery}
    (spans : watch.Spans environment time deliveries) :
    (watch.after environment time deliveries).Follows environment time := by
  induction deliveries using List.reverseRecOn with
  | nil =>
      exact follows
  | append_singleton front delivery inductionHypothesis =>
      have before := inductionHypothesis spans.of_append
      rw [over_append]
      cases delivery with
      | send frame =>
          exact before.perform (.send frame)
      | addHandler tag handler =>
          exact before.perform (.addHandler tag handler)
      | run chunks =>
          exact before.run shows monotone chunks (spans front chunks [] rfl)

/-- What is cut off stays cut off, and the pieces make up the stream. -/
theorem segments_after (watch : Watch) (deliveries : List Delivery) :
    ∃ later,
      (watch.after environment time deliveries).segments =
          watch.closed ++ later ∧
        later.flatten =
          watch.segment ++ deliveries.flatMap Delivery.bytes := by
  induction deliveries generalizing watch with
  | nil =>
      exact ⟨[watch.segment], rfl, rfl⟩
  | cons delivery rest inductionHypothesis =>
      obtain ⟨later, split, whole⟩ :=
        inductionHypothesis (watch.step environment time delivery)
      cases delivery with
      | send frame =>
          exact ⟨later, split, whole⟩
      | addHandler tag handler =>
          exact ⟨later, split, whole⟩
      | run chunks =>
          by_cases old : watch.Expired time
          · have closed :
                (watch.step environment time (.run chunks)).closed =
                  watch.closed ++ [watch.segment] :=
              if_pos old
            have segment :
                (watch.step environment time (.run chunks)).segment =
                  (Delivery.run chunks).bytes :=
              if_pos old
            rw [closed, List.append_assoc] at split
            refine ⟨watch.segment :: later, split, ?_⟩
            rw [List.flatten_cons, whole, segment, List.flatMap_cons]
          · have closed :
                (watch.step environment time (.run chunks)).closed =
                  watch.closed :=
              if_neg old
            have segment :
                (watch.step environment time (.run chunks)).segment =
                  watch.segment ++ (Delivery.run chunks).bytes :=
              if_neg old
            rw [closed] at split
            refine ⟨later, split, ?_⟩
            rw [whole, segment, List.flatMap_cons, List.append_assoc]

theorem link_after (watch : Watch) (deliveries : List Delivery) :
    (watch.after environment time deliveries).link =
      watch.link.session environment (deliveries.map Delivery.call) := by
  induction deliveries generalizing watch with
  | nil =>
      rfl
  | cons delivery rest inductionHypothesis =>
      have stepped :
          (watch.step environment time delivery).link =
            watch.link.call environment delivery.call := by
        cases delivery with
        | send | addHandler | run =>
            rfl
      have later :=
        inductionHypothesis (watch.step environment time delivery)
      rw [stepped] at later
      exact later

theorem Spans.nil {watch : Watch} : watch.Spans environment time [] := by
  intro front chunks back split
  exact absurd split.symm (List.append_ne_nil_of_right_ne_nil _ (by simp))

theorem Spans.cons {watch : Watch} {delivery : Delivery}
    {rest : List Delivery}
    (here :
      (watch.link.checked environment).state ≠ .waitingForSync →
        time watch.link.clockReads < time watch.seen + 2 ^ 32)
    (later :
      (watch.step environment time delivery).Spans environment time rest) :
    watch.Spans environment time (delivery :: rest) := by
  intro front chunks back split some' unfinished
  cases front with
  | nil =>
      exact here unfinished
  | cons first others =>
      rw [List.cons_append, List.cons.injEq] at split
      rw [← split.1] at unfinished ⊢
      exact later others chunks back split.2 some' unfinished

end Watch

/-- The frame timeout cuts the stream.  For every stream, every split into
calls of `Run` and every clock, what is dispatched is what a parser without a
timeout finds in each piece of the stream, where a piece ends at each start of
a `Run` with an open frame whose sync byte was seen more than the timeout ago.
So no frame with such a sync byte takes a byte of this `Run` or a later one:
the frames dispatched from then on are found in the bytes from then on. -/
theorem timeout_cuts {environment : Environment} {time : Nat → Nat}
    (shows : ∀ call, environment.clock call = UInt32.ofNat (time call))
    (monotone : Monotone time) (config : ProtocolConfig)
    (reads : config.read = true) (timed : config.timestamp = true)
    (positive : config.frameTimeout > 0) {deliveries : List Delivery}
    (spans :
      Watch.Spans environment time { link := Link.create config }
        deliveries) :
    let start : Watch := { link := Link.create config }
    let final := start.after environment time deliveries
    final.link =
        (Link.create config).session environment
          (deliveries.map Delivery.call) ∧
      final.segments.flatten = deliveries.flatMap Delivery.bytes ∧
      final.link.packets = final.segments.flatMap scan ∧
      ∀ front chunks back,
        deliveries = front ++ Delivery.run chunks :: back →
          let before := start.after environment time front
          (before.link.state ≠ .waitingForSync →
              before.link.frameStartTs = environment.clock before.seen) ∧
            (before.Expired time →
              ∃ later : List (List UInt8),
                later.flatten =
                    (Delivery.run chunks :: back).flatMap Delivery.bytes ∧
                  final.link.packets =
                    before.link.packets ++ later.flatMap scan) := by
  intro start final
  have fresh : start.Follows environment time := by
    refine
      ⟨True.intro, reads, timed, positive, view_zero _ _, ?_, ?_, Or.inl rfl⟩
    · intro unfinished
      exact absurd rfl unfinished
    · show [] = [[]].flatMap scan
      rw [List.flatMap_singleton, scan]
  have follows := fresh.after shows monotone spans
  refine ⟨Watch.link_after start deliveries, ?_, follows.packets, ?_⟩
  · obtain ⟨later, split, whole⟩ :=
      @Watch.segments_after environment time start deliveries
    rw [split]
    exact whole
  · intro front chunks back split before
    have spans' : start.Spans environment time front := by
      rw [split] at spans
      exact spans.of_append
    have reached := fresh.after shows monotone spans'
    refine ⟨fun unfinished => (reached.stamp unfinished).1, ?_⟩
    intro old
    have rest :
        final =
          (before.step environment time (.run chunks)).after environment time
            back := by
      show start.after environment time deliveries = _
      rw [split, Watch.over_append]
      rfl
    obtain ⟨later, pieces, whole⟩ :=
      @Watch.segments_after environment time
        (before.step environment time (.run chunks)) back
    have closed :
        (before.step environment time (.run chunks)).closed =
          before.segments :=
      if_pos old
    have segment :
        (before.step environment time (.run chunks)).segment =
          chunks.flatMap Chunk.bytes :=
      if_pos old
    refine ⟨later, ?_, ?_⟩
    · rw [whole, segment]
      rfl
    · have packets : final.link.packets = final.segments.flatMap scan :=
        follows.packets
      rw [packets, rest, pieces, closed, List.flatMap_append,
        ← reached.packets]

/-- A sync byte alone, and a frame in a `Run` that starts 100 ticks later. -/
def lateFrame : List Delivery :=
  [.run [⟨[0xAA], by decide, by decide⟩],
    .run [⟨[0xAA, 0x09, 0x00, 0x01, 0x00, 0x04, 0x0C],
      by decide, by decide⟩]]

/-- A clock that advances by 100 ticks between two readings. -/
def centuries : Environment where
  clock := fun call => UInt32.ofNat (100 * call)

theorem timeout_cuts_of_lateFrame :
    ((Link.create { timestamp := true, frameTimeout := 50 }).session centuries
        (lateFrame.map Delivery.call)).packets =
      [(9, [4])] := by
  let config : ProtocolConfig := { timestamp := true, frameTimeout := 50 }
  let time : Nat → Nat := fun call => 100 * call
  have shows : ∀ call, centuries.clock call = UInt32.ofNat (time call) :=
    fun _ => rfl
  have monotone : Monotone time :=
    fun _ _ ordered => Nat.mul_le_mul_left 100 ordered
  have spans :
      Watch.Spans centuries time { link := Link.create config } lateFrame :=
    Watch.Spans.cons (fun unfinished => absurd (by decide +kernel) unfinished)
      (Watch.Spans.cons (fun _ => by decide +kernel) Watch.Spans.nil)
  have cuts := timeout_cuts shows monotone config rfl rfl (by decide) spans
  have found :
      ∀ segments : List (List UInt8),
        segments.flatMap scan =
          segments.flatMap fun segment => (feedAll none segment).2 := by
    intro segments
    simp only [feedAll_eq_scan]
  obtain ⟨link, _, packets, _⟩ := cuts
  rw [link, found] at packets
  rw [packets]
  decide +kernel

end PrismKit
