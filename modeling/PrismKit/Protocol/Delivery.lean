import PrismKit.Protocol.Receive

/-!
# Delivery

A byte string arrives in chunks, spread over calls of `Run` between other calls
of the public interface.  Whatever the split, the dispatched packets are those
of the reference scanner on the whole string, and every one of them reaches the
handler of its tag, if there is one.
-/

namespace PrismKit

open Library Scanner

/-- A call of the public interface while a stream arrives. -/
inductive Delivery where
  | send (frame : Frame)
  | addHandler (tag : Tag) (handler : Option FrameHandler)
  | run (chunks : List Chunk)

namespace Delivery

/-- The bytes that arrive with the call. -/
def bytes : Delivery → List UInt8
  | .send _ => []
  | .addHandler _ _ => []
  | .run chunks => chunks.flatMap Chunk.bytes

def call : Delivery → LinkCall
  | .send frame => .send frame
  | .addHandler tag handler => .addHandler tag handler
  | .run chunks => .run (chunks.map Chunk.result)

end Delivery

namespace Link

variable (environment : Environment)

theorem perform_received {link : Link} (parsing : link.Parsing)
    (request : Request) :
    Received [] link (link.perform request) ∧
      (link.perform request).cached = link.cached := by
  cases request with
  | send frame =>
      simp only [perform, Protocol.send]
      split
      · exact ⟨Received.of_caches parsing _ _ _ _ _, rfl⟩
      · split
        · exact ⟨Received.of_caches parsing _ _ _ _ _, rfl⟩
        · exact
            ⟨⟨parsing, rfl, (List.append_nil _).symm, rfl, rfl, rfl⟩, rfl⟩
  | addHandler tag handler =>
      cases handler with
      | none =>
          exact ⟨Received.of_caches parsing _ _ _ _ _, rfl⟩
      | some handler =>
          simp only [perform, Protocol.addHandler]
          split
          · exact ⟨Received.of_caches parsing _ _ _ _ _, rfl⟩
          · split
            · exact ⟨Received.of_caches parsing _ _ _ _ _, rfl⟩
            · exact
                ⟨⟨parsing, rfl, (List.append_nil _).symm, rfl, rfl, rfl⟩, rfl⟩

/-- A session reads the stream as the incremental scanner does. -/
theorem session_received {deliveries : List Delivery} {link : Link}
    (parsing : link.Parsing) (reads : link.read = true)
    (untimed : link.Untimed) (drained : link.cached = []) :
    Received (deliveries.flatMap Delivery.bytes) link
      (link.session environment (deliveries.map Delivery.call)) := by
  induction deliveries generalizing link with
  | nil =>
      exact Received.of_caches parsing _ _ _ _ _
  | cons delivery rest inductionHypothesis =>
      have first :
          Received delivery.bytes link
              (link.call environment delivery.call) ∧
            (link.call environment delivery.call).cached = [] := by
        cases delivery with
        | send frame =>
            obtain ⟨received, same⟩ := perform_received parsing (.send frame)
            exact ⟨received, same.trans drained⟩
        | addHandler tag handler =>
            obtain ⟨received, same⟩ :=
              perform_received parsing (.addHandler tag handler)
            exact ⟨received, same.trans drained⟩
        | run chunks =>
            obtain ⟨received, empty⟩ :=
              run_received environment chunks parsing reads untimed
            rw [drained, List.nil_append] at received
            exact ⟨received, empty⟩
      obtain ⟨received, empty⟩ := first
      have untimed' : (link.call environment delivery.call).Untimed := by
        rw [Untimed, received.frameTimeout, received.timestamp]
        exact untimed
      exact
        received.append
          (inductionHypothesis received.parsing (received.read.trans reads)
            untimed' empty)

/-- A fresh instance reads the stream from the start. -/
theorem session_fresh {config : ProtocolConfig} (reads : config.read = true)
    (untimed : config.frameTimeout = 0 ∨ config.timestamp = false)
    (deliveries : List Delivery) :
    Received (deliveries.flatMap Delivery.bytes) (create config)
      ((create config).session environment (deliveries.map Delivery.call)) :=
  session_received environment True.intro reads untimed (view_zero _ _)

end Link

/-! ### Handlers -/

namespace Dispatch

/-- The tag had a handler. -/
def Registered (dispatch : Dispatch) : Prop :=
  ∃ entry ∈ dispatch.table, entry.tag = dispatch.tag

instance (dispatch : Dispatch) : Decidable dispatch.Registered :=
  inferInstanceAs (Decidable (∃ entry ∈ dispatch.table, _))

/-- A call with the payload for every handler of the tag. -/
def answers (dispatch : Dispatch) : List Invocation :=
  (dispatch.table.filter fun entry => entry.tag = dispatch.tag).map
    fun entry => ⟨entry.handler, dispatch.payload⟩

end Dispatch

/-- With one entry for each tag, the search finds all entries of a tag. -/
theorem filter_eq_find {entries : List HandlerEntry}
    (distinct : (entries.map HandlerEntry.tag).Nodup) (tag : Tag) :
    entries.filter (fun entry => entry.tag = tag) =
      (entries.find? fun entry => entry.tag = tag).toList := by
  induction entries with
  | nil =>
      rfl
  | cons entry rest inductionHypothesis =>
      rw [List.map_cons, List.nodup_cons] at distinct
      by_cases here : entry.tag = tag
      · have none : rest.filter (fun entry => entry.tag = tag) = [] := by
          apply List.filter_eq_nil_iff.mpr
          intro other member
          rw [decide_eq_true_eq]
          intro same
          apply distinct.1
          rw [here, ← same]
          exact List.mem_map_of_mem member
        simp [here, none]
      · simp [here, inductionHypothesis distinct.2]

def KeptByRegistration (property : List HandlerEntry → Prop) : Prop :=
  ∀ table tag handler,
    property table → table.length < maxHandlers →
      (∀ entry ∈ table, entry.tag ≠ tag) →
        property (table ++ [⟨tag, handler⟩])

theorem keptByRegistration_of_start (first : List HandlerEntry) :
    KeptByRegistration fun table => first <+: table := by
  intro table tag handler started _ _
  exact started.trans (List.prefix_append ..)

/-- A property of handler tables without duplicate tags that registration
keeps. -/
structure TableProperty (property : List HandlerEntry → Prop) : Prop where
  distinct :
    ∀ table, property table → (table.map HandlerEntry.tag).Nodup
  register : KeptByRegistration property

theorem tableProperty_nodup :
    TableProperty fun table => (table.map HandlerEntry.tag).Nodup where
  distinct := fun _ => id
  register := by
    intro table tag handler distinct _ unused
    rw [List.map_append, List.nodup_append]
    refine ⟨distinct, List.pairwise_singleton _ _, ?_⟩
    intro used member other singleton same
    obtain ⟨entry, registered, rfl⟩ := List.mem_map.mp member
    rw [List.map_singleton, List.mem_singleton] at singleton
    exact unused entry registered (same.trans singleton)

theorem tableProperty_full {full : List HandlerEntry}
    (distinct : (full.map HandlerEntry.tag).Nodup)
    (count : full.length = maxHandlers) :
    TableProperty fun table => table = full where
  distinct := by
    intro table same
    rw [same]
    exact distinct
  register := by
    intro table tag handler same space
    rw [same, count] at space
    exact absurd space (Nat.lt_irrefl maxHandlers)

namespace Link

variable (environment : Environment)
  {property : List HandlerEntry → Prop}

/-- Every dispatch called the handlers of its tag, and the handler table has
the property at all times. -/
structure Answered (property : List HandlerEntry → Prop) (link : Link) :
    Prop where
  current : property link.handlers
  tables : ∀ dispatch ∈ link.dispatches, property dispatch.table
  invocations :
    link.invocations = link.dispatches.flatMap Dispatch.answers

/-- The handler table keeps the property, and the given calls of handlers are
added. -/
structure Calls (property : List HandlerEntry → Prop)
    (made : List Invocation) (before after : Link) : Prop where
  current : property before.handlers → property after.handlers
  invocations : after.invocations = before.invocations ++ made
  dispatches : after.dispatches = before.dispatches

namespace Calls

theorem of_same {before after : Link}
    (handlers : after.handlers = before.handlers)
    (invocations : after.invocations = before.invocations)
    (dispatches : after.dispatches = before.dispatches) :
    Calls property [] before after where
  current := by
    rw [handlers]
    exact id
  invocations := by
    rw [invocations, List.append_nil]
  dispatches := dispatches

theorem trans {first second : List Invocation} {before middle after : Link}
    (left : Calls property first before middle)
    (right : Calls property second middle after) :
    Calls property (first ++ second) before after where
  current := right.current ∘ left.current
  invocations := by
    rw [right.invocations, left.invocations, List.append_assoc]
  dispatches := right.dispatches.trans left.dispatches

end Calls

theorem perform_calls (kept : KeptByRegistration property) (link : Link)
    (request : Request) :
    Calls property [] link (link.perform request) := by
  cases request with
  | send frame =>
      simp only [perform, Protocol.send]
      split
      · exact Calls.of_same rfl rfl rfl
      · split
        · exact Calls.of_same rfl rfl rfl
        · exact Calls.of_same rfl rfl rfl
  | addHandler tag handler =>
      cases handler with
      | none =>
          exact Calls.of_same rfl rfl rfl
      | some handler =>
          simp only [perform, Protocol.addHandler]
          split
          · exact Calls.of_same rfl rfl rfl
          · rename_i space
            split
            · exact Calls.of_same rfl rfl rfl
            · rename_i unused
              refine ⟨?_, (List.append_nil _).symm, rfl⟩
              intro current
              apply kept _ _ _ current (Nat.not_le.mp space)
              intro entry registered same
              apply unused
              rw [List.any_eq_true]
              exact ⟨entry, registered, decide_eq_true same⟩

/-- A handler is called once with its payload. -/
theorem invoke_calls (kept : KeptByRegistration property)
    (handler : FrameHandler) (data : List UInt8) (link : Link) :
    Calls property [⟨handler, data⟩] link
      (link.invoke environment handler data) := by
  cases handler with
  | loopback =>
      simp only [invoke, Protocol.loopbackImpl]
      split
      · exact ⟨id, rfl, rfl⟩
      · exact ⟨id, rfl, rfl⟩
  | external id =>
      have performed :
          ∀ (requests : List Request) (current : Link),
            Calls property [] current (requests.foldl perform current) := by
        intro requests
        induction requests with
        | nil =>
            intro current
            exact Calls.of_same rfl rfl rfl
        | cons request rest inductionHypothesis =>
            intro current
            exact
              (perform_calls kept current request).trans
                (inductionHypothesis _)
      have called :
          Calls property [⟨.external id, data⟩] link
            { link with
              invocations := link.invocations ++ [⟨.external id, data⟩] } :=
        ⟨fun current => current, rfl, rfl⟩
      exact called.trans (performed _ _)

namespace Answered

theorem of_calls {before after : Link}
    (answered : before.Answered property)
    (calls : Calls property [] before after) : after.Answered property where
  current := calls.current answered.current
  tables := by
    rw [calls.dispatches]
    exact answered.tables
  invocations := by
    rw [calls.invocations, calls.dispatches, List.append_nil]
    exact answered.invocations

theorem txPhase {link : Link} (answered : link.Answered property) :
    (link.txPhase environment).Answered property := by
  obtain ⟨chunks, txData, same, _⟩ := txPhase_eq environment link
  rw [same]
  exact answered.of_calls (Calls.of_same rfl rfl rfl)

theorem checkTimeout {link : Link} (answered : link.Answered property) :
    (link.checkTimeout environment).Answered property := by
  unfold Link.checkTimeout
  split
  · simp only
    split
    · exact answered.of_calls (Calls.of_same rfl rfl rfl)
    · exact answered.of_calls (Calls.of_same rfl rfl rfl)
  · exact answered

theorem dispatchFrame (kept : TableProperty property) {link : Link}
    (answered : link.Answered property) :
    (link.dispatchFrame environment).Answered property := by
  have found := filter_eq_find (kept.distinct _ answered.current) link.rxTag
  have tables :
      ∀ dispatch ∈
          link.dispatches ++ [⟨link.rxTag, link.rxPayload, link.handlers⟩],
        property dispatch.table := by
    intro dispatch member
    cases List.mem_append.mp member with
    | inl earlier =>
        exact answered.tables dispatch earlier
    | inr last =>
        rw [List.mem_singleton] at last
        rw [last]
        exact answered.current
  have recorded :
      (link.dispatches ++
            [Dispatch.mk link.rxTag link.rxPayload link.handlers]).flatMap
          Dispatch.answers =
        link.invocations ++
          (link.handlers.find? fun entry => entry.tag = link.rxTag).toList.map
            fun entry => Invocation.mk entry.handler link.rxPayload := by
    rw [List.flatMap_append, ← answered.invocations, List.flatMap_singleton,
      Dispatch.answers, found]
  unfold Link.dispatchFrame
  cases search : link.handlers.find? fun entry => entry.tag = link.rxTag with
  | none =>
      rw [search] at recorded
      refine ⟨answered.current, tables, ?_⟩
      rw [recorded]
      exact (List.append_nil _).symm
  | some entry =>
      let recordedLink : Link :=
        { link with
          dispatches :=
            link.dispatches ++
              [⟨link.rxTag, link.rxPayload, link.handlers⟩] }
      have calls :=
        invoke_calls environment kept.register entry.handler link.rxPayload
          recordedLink
      rw [search] at recorded
      refine ⟨calls.current answered.current, ?_, ?_⟩
      · rw [calls.dispatches]
        exact tables
      · rw [calls.dispatches, calls.invocations, recorded]
        rfl

theorem consumeByte (kept : TableProperty property) {link : Link}
    (raw : UInt8) (answered : link.Answered property) :
    (link.consumeByte environment raw).Answered property := by
  cases consumeByte_cases environment raw link with
  | inl quiet =>
      obtain ⟨_, _, _, _, _, _, _, same⟩ := quiet
      rw [same]
      exact answered.of_calls (Calls.of_same rfl rfl rfl)
  | inr complete =>
      rw [complete.2.2]
      exact
        (answered.dispatchFrame environment kept).of_calls
          (Calls.of_same rfl rfl rfl)

theorem receive (kept : TableProperty property) {fuel : Nat}
    {reads : List ReadResult} {link : Link}
    (answered : link.Answered property) :
    (Link.receive environment fuel reads link).Answered property := by
  induction fuel generalizing reads link with
  | zero =>
      exact answered
  | succ fuel inductionHypothesis =>
      have fetches := readRawByte_fetches reads link
      rw [Link.receive]
      generalize link.readRawByte reads = outcome at fetches
      -- A read changes the cache alone.
      cases fetches with
      | cached | filled =>
          apply inductionHypothesis
          apply consumeByte environment kept
          exact answered.of_calls (Calls.of_same rfl rfl rfl)
      | nothing | silent =>
          exact answered.of_calls (Calls.of_same rfl rfl rfl)
      | unset =>
          exact answered

theorem call (kept : TableProperty property) {link : Link}
    (answered : link.Answered property) (call : LinkCall) :
    (link.call environment call).Answered property := by
  cases call with
  | send frame =>
      exact answered.of_calls (perform_calls kept.register link (.send frame))
  | addHandler tag handler =>
      exact
        answered.of_calls
          (perform_calls kept.register link (.addHandler tag handler))
  | run reads =>
      exact
        (((answered.txPhase environment).checkTimeout environment).receive
          environment kept).txPhase environment

theorem session (kept : TableProperty property) {link : Link}
    (answered : link.Answered property) (calls : List LinkCall) :
    (link.session environment calls).Answered property := by
  induction calls generalizing link with
  | nil =>
      exact answered
  | cons first rest inductionHypothesis =>
      exact inductionHypothesis (answered.call environment kept first)

theorem create {config : ProtocolConfig}
    (fresh : property (Link.create config).handlers) :
    (Link.create config).Answered property where
  current := fresh
  tables := fun _ member => nomatch member
  invocations := rfl

end Answered

/-- With one entry for each tag, a dispatch calls one handler if its tag has
one, and none otherwise. -/
theorem Answered.length_answers (kept : TableProperty property) {link : Link}
    (answered : link.Answered property) {dispatch : Dispatch}
    (member : dispatch ∈ link.dispatches) :
    dispatch.answers.length = if dispatch.Registered then 1 else 0 := by
  rw [Dispatch.answers, List.length_map,
    filter_eq_find (kept.distinct _ (answered.tables dispatch member))]
  cases found : dispatch.table.find? fun entry => entry.tag = dispatch.tag with
  | none =>
      have absent : ¬ dispatch.Registered := by
        rintro ⟨entry, registered, same⟩
        have other := List.find?_eq_none.mp found entry registered
        exact other (decide_eq_true same)
      rw [if_neg absent]
      rfl
  | some entry =>
      have same := List.find?_some found
      rw [decide_eq_true_eq] at same
      have present : dispatch.Registered :=
        ⟨entry, List.mem_of_find?_eq_some found, same⟩
      rw [if_pos present]
      rfl

/-- Handlers are only added, and the table of every dispatch in between is one
that the instance had on the way. -/
structure Grows (before after : Link) : Prop where
  handlers : before.handlers <+: after.handlers
  dispatches :
    ∃ made, after.dispatches = before.dispatches ++ made ∧
      ∀ dispatch ∈ made,
        before.handlers <+: dispatch.table ∧
          dispatch.table <+: after.handlers

namespace Grows

theorem refl (link : Link) : Grows link link :=
  ⟨List.prefix_rfl, [], (List.append_nil _).symm, fun _ member =>
    absurd member List.not_mem_nil⟩

theorem trans {before middle after : Link} (first : Grows before middle)
    (second : Grows middle after) : Grows before after := by
  obtain ⟨handlers, made, dispatches, tables⟩ := first
  obtain ⟨handlers', made', dispatches', tables'⟩ := second
  refine ⟨handlers.trans handlers', made ++ made', ?_, ?_⟩
  · rw [dispatches', dispatches, List.append_assoc]
  · intro dispatch member
    rcases List.mem_append.mp member with earlier | later
    · obtain ⟨above, below⟩ := tables dispatch earlier
      exact ⟨above, below.trans handlers'⟩
    · obtain ⟨above, below⟩ := tables' dispatch later
      exact ⟨handlers.trans above, below⟩

theorem of_calls {before after : Link} {made : List Invocation}
    (calls :
      Calls (fun table => before.handlers <+: table) made before after) :
    Grows before after :=
  ⟨calls.current List.prefix_rfl, [],
    calls.dispatches.trans (List.append_nil _).symm, fun _ member =>
    absurd member List.not_mem_nil⟩

theorem of_same {before after : Link}
    (handlers : after.handlers = before.handlers)
    (dispatches : after.dispatches = before.dispatches) :
    Grows before after := by
  refine ⟨?_, [], ?_, fun _ member => absurd member List.not_mem_nil⟩
  · exact handlers ▸ List.prefix_rfl
  · rw [dispatches, List.append_nil]

theorem txPhase (link : Link) : Grows link (link.txPhase environment) := by
  obtain ⟨chunks, txData, same, _⟩ := txPhase_eq environment link
  rw [same]
  exact .of_same rfl rfl

theorem checkTimeout (link : Link) :
    Grows link (link.checkTimeout environment) := by
  unfold Link.checkTimeout
  split
  · simp only
    split
    · exact .of_same rfl rfl
    · exact .of_same rfl rfl
  · exact refl link

/-- A dispatch meets the table of its time. -/
theorem dispatchFrame (link : Link) :
    Grows link (link.dispatchFrame environment) := by
  have recorded :
      Grows link
        { link with
          dispatches :=
            link.dispatches ++
              [⟨link.rxTag, link.rxPayload, link.handlers⟩] } := by
    refine ⟨List.prefix_rfl, _, rfl, ?_⟩
    intro dispatch member
    rw [List.mem_singleton.mp member]
    exact ⟨List.prefix_rfl, List.prefix_rfl⟩
  unfold Link.dispatchFrame
  cases link.handlers.find? fun entry => entry.tag = link.rxTag with
  | none =>
      exact recorded
  | some entry =>
      exact
        recorded.trans
          (.of_calls
            (invoke_calls environment (keptByRegistration_of_start _)
              entry.handler _ _))

theorem consumeByte (raw : UInt8) (link : Link) :
    Grows link (link.consumeByte environment raw) := by
  cases consumeByte_cases environment raw link with
  | inl quiet =>
      obtain ⟨_, _, _, _, _, _, _, same⟩ := quiet
      rw [same]
      exact .of_same rfl rfl
  | inr complete =>
      rw [complete.2.2]
      exact (dispatchFrame environment link).trans (.of_same rfl rfl)

theorem receive (fuel : Nat) (reads : List ReadResult) (link : Link) :
    Grows link (Link.receive environment fuel reads link) := by
  induction fuel generalizing reads link with
  | zero =>
      exact refl link
  | succ fuel inductionHypothesis =>
      have fetches := readRawByte_fetches reads link
      rw [Link.receive]
      generalize link.readRawByte reads = outcome at fetches
      cases fetches with
      | cached | filled =>
          refine .trans ?_ (inductionHypothesis _ _)
          refine .trans ?_ (consumeByte environment _ _)
          exact .of_same rfl rfl
      | nothing | silent =>
          exact .of_same rfl rfl
      | unset =>
          exact refl link

theorem call (link : Link) (call : LinkCall) :
    Grows link (link.call environment call) := by
  cases call with
  | send frame =>
      exact
        .of_calls
          (perform_calls (keptByRegistration_of_start _) link (.send frame))
  | addHandler tag handler =>
      exact
        .of_calls
          (perform_calls (keptByRegistration_of_start _) link
            (.addHandler tag handler))
  | run reads =>
      exact
        (((txPhase environment _).trans (checkTimeout environment _)).trans
          (receive environment _ _ _)).trans (txPhase environment _)

theorem session (link : Link) (calls : List LinkCall) :
    Grows link (link.session environment calls) := by
  induction calls generalizing link with
  | nil =>
      exact refl link
  | cons first rest inductionHypothesis =>
      exact (call environment link first).trans (inductionHypothesis _)

end Grows

/-- For every byte string and every way in which it arrives, the dispatched
packets are those of the reference scanner.  The handlers called are the ones
registered for these packets, at most one for each.  A dispatch finds the
handlers that were registered before its call, and none that is not registered
when the call returns. -/
theorem dispatches_eq_scan (config : ProtocolConfig)
    (reads : config.read = true)
    (untimed : config.frameTimeout = 0 ∨ config.timestamp = false)
    (deliveries : List Delivery) :
    let final :=
      (create config).session environment (deliveries.map Delivery.call)
    final.packets = scan (deliveries.flatMap Delivery.bytes) ∧
      final.invocations = final.dispatches.flatMap Dispatch.answers ∧
      (∀ dispatch ∈ final.dispatches,
        dispatch.answers.length = if dispatch.Registered then 1 else 0) ∧
      ∀ earlier later, deliveries = earlier ++ later →
        let halfway :=
          (create config).session environment (earlier.map Delivery.call)
        ∃ made, final.dispatches = halfway.dispatches ++ made ∧
          ∀ dispatch ∈ made,
            halfway.handlers <+: dispatch.table ∧
              dispatch.table <+: final.handlers := by
  intro final
  have received := session_fresh environment reads untimed deliveries
  have fresh :
      (create config).Answered fun table =>
        (table.map HandlerEntry.tag).Nodup :=
    Answered.create (List.pairwise_singleton _ _)
  have answered :=
    fresh.session environment tableProperty_nodup
      (deliveries.map Delivery.call)
  refine
    ⟨?_, answered.invocations, fun dispatch =>
      answered.length_answers tableProperty_nodup, ?_⟩
  · rw [received.packets, ← feedAll_eq_scan]
    rfl
  · rintro earlier later rfl
    have resumed :
        final =
          ((create config).session environment
              (earlier.map Delivery.call)).session environment
            (later.map Delivery.call) := by
      show Link.session environment _ _ = _
      rw [List.map_append, Link.session, List.foldl_append]
      rfl
    rw [resumed]
    exact (Grows.session environment _ _).dispatches

/-- Noise and a frame for tag 5 that is split over two runs, between which its
handler is registered, then a frame with a wrong checksum. -/
def splitFrame : List Delivery :=
  [.run [⟨[0x00, 0xAA, 0x05], by decide, by decide⟩,
      ⟨[0x00], by decide, by decide⟩],
    .addHandler 5 (some (.external 1)),
    .run [⟨[0x01, 0x00, 0x07, 0x03, 0xAA], by decide, by decide⟩,
      ⟨[0x05, 0x00, 0x00, 0x00, 0x00], by decide, by decide⟩]]

theorem dispatches_eq_scan_of_splitFrame :
    ((create {}).session {} (splitFrame.map Delivery.call)).packets =
      [(5, [7])] := by
  rw [(dispatches_eq_scan {} {} rfl (Or.inl rfl) splitFrame).1,
    ← feedAll_eq_scan]
  decide +kernel

end Link

end PrismKit
