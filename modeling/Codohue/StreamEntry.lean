import Codohue.Catalog
import Codohue.Ingest
import Codohue.Service

/-!
One entry of an ingest stream, from the field map to the acknowledgement.

The handlers of `internal/ingest` run against a server that answers every call. It answers with
an error where the text it is given holds what a `TEXT` or a `JSONB` column does not, and it may
refuse a row for reasons of its own. What matters is which of these errors the handlers take for
permanent: after any other error the entry stays pending, and the same entry gets the same answer
the next time.
-/

namespace Codohue.StreamEntry

open Lifecycle Ingest Service

/-! ### Messages -/

/-- An entry as Redis delivers it. -/
structure Message where
  id : String
  values : List (String × List UInt8)
  deriving DecidableEq, Repr

mutual

/-- What `encoding/json` makes of a value. -/
inductive Value where
  | null
  | bool (b : Bool)
  | number (n : ℚ)
  | text (s : String)
  | array (items : Values)
  | object (fields : Fields)

inductive Values where
  | nil
  | cons (item : Value) (rest : Values)

inductive Fields where
  | nil
  | cons (key : String) (value : Value) (rest : Fields)

end

/-- An item of the catalog stream, with the metadata that travels to the row unread. -/
structure CatalogMessage where
  item : CatalogStreamItem
  metadata : Option Fields

/-- `json.Unmarshal` into the two wire types. It replaces what is not UTF-8. -/
structure Unmarshal where
  event : List UInt8 → Option EventPayload
  item : List UInt8 → Option CatalogMessage

def payloadField : String := "payload"

def decodeEventMessage (u : Unmarshal) (msg : Message) : Option EventPayload :=
  (msg.values.lookup payloadField).bind u.event

def decodeCatalogMessage (u : Unmarshal) (msg : Message) : Option CatalogMessage :=
  ((msg.values.lookup payloadField).bind u.item).filter fun m => m.item.ns ≠ ""

mutual

def sanitizeStorableValue : Value → Value
  | .text s => .text (sanitizeStorable s)
  | .array items => .array (sanitizeStorableValues items)
  | .object fields => .object (sanitizeStorableMetadata fields)
  | .null => .null
  | .bool b => .bool b
  | .number n => .number n

def sanitizeStorableValues : Values → Values
  | .nil => .nil
  | .cons item rest => .cons (sanitizeStorableValue item) (sanitizeStorableValues rest)

/-- Keys that become equal stay side by side; the map of the source keeps one of them. -/
def sanitizeStorableMetadata : Fields → Fields
  | .nil => .nil
  | .cons key value rest =>
    .cons (sanitizeStorable key) (sanitizeStorableValue value) (sanitizeStorableMetadata rest)

end

/-! ### The server -/

/-- A `pgconn.PgError`. -/
structure PgError where
  code : String
  message : String
  deriving DecidableEq, Repr

def PgError.isDataException (e : PgError) : Bool := "22".toList.isPrefixOf e.code.toList

/-- What is written to `catalog_items` and `objects` in one transaction. -/
structure CatalogRow where
  row : CatalogUpsert
  metadata : Option Fields

mutual

def Value.storable : Value → Bool
  | .text s => isStorable s
  | .array items => items.storable
  | .object fields => fields.storable
  | .null | .bool _ | .number _ => true

def Values.storable : Values → Bool
  | .nil => true
  | .cons item rest => item.storable && rest.storable

def Fields.storable : Fields → Bool
  | .nil => true
  | .cons key value rest => isStorable key && value.storable && rest.storable

end

/-- The rows that the server refuses for other reasons than their text. -/
structure Server where
  refusesEvent : Event → Option PgError
  refusesItem : CatalogRow → Option PgError

def invalidText : PgError := ⟨"22021", "invalid byte sequence for encoding \"UTF8\": 0x00"⟩

def untranslatable : PgError := ⟨"22P05", "unsupported Unicode escape sequence"⟩

namespace Server

def insertEvent (srv : Server) (row : Event) : Option PgError :=
  if isStorable row.ns && isStorable row.subjectID && isStorable row.objectID &&
      isStorable row.action then srv.refusesEvent row
  else some invalidText

def upsertItem (srv : Server) (row : CatalogRow) : Option PgError :=
  if isStorable row.row.ns && isStorable row.row.objectID && isStorable row.row.content &&
      isStorable row.row.authorSubjectID then
    if row.metadata.all Fields.storable then srv.refusesItem row else some untranslatable
  else some invalidText

end Server

structure State (η : Type) where
  lifecycle : Lifecycle.Store
  configs : Table String Config
  events : List Event
  items : Table (String × String) (Catalog.Item η)
  metadata : Table (String × String) (Option Fields)
  authors : Table (String × String) String
  /-- What has been published to the embed streams: namespace and object. -/
  embed : List (String × String)
  /-- The entries that have been acknowledged: stream, group and id. -/
  acked : List (String × String × String)

inductive Call where
  | getNamespace (ns : String)
  | getSystem
  | acquirePair (ns : String)
  | releasePair (ns : String)
  | getConfig (ns : String)
  | insertEvent (row : Event)
  /-- `UpsertWithAttribution`; the answer says whether the item needs to be published. -/
  | upsertItem (row : CatalogRow)
  | xadd (ns objectID : String)
  | xack (stream group id : String)

abbrev Answer : Call → Type
  | .getNamespace _ => Except Error NamespaceLifecycle
  | .getSystem => Except Error SystemLifecycle
  | .acquirePair _ | .releasePair _ | .xadd _ _ | .xack _ _ _ => Except String Unit
  | .getConfig _ => Except String (Option Config)
  | .insertEvent _ => Except PgError Unit
  | .upsertItem _ => Except PgError Bool

section Answers

variable {η : Type} [DecidableEq η] (contentHash : String → η) (srv : Server)

def State.upsert (st : State η) (row : CatalogRow) : Bool × State η :=
  let key := (row.row.ns, row.row.objectID)
  let (item, needsPublish) :=
    Catalog.upsert contentHash row.row.ns row.row.objectID row.row.content (st.items.lookup key)
  (needsPublish, { st with
    items := st.items.insert key item
    metadata := st.metadata.insert key row.metadata
    authors := if row.row.authorSubjectID = "" then st.authors
      else st.authors.insert key row.row.authorSubjectID })

/-- Postgres and Redis answer the call. -/
def answer : (c : Call) → State η → Answer c × State η
  | .getNamespace ns, st =>
    (if isStorable ns then getNamespace st.lifecycle ns
      else .error (.wrap "get namespace lifecycle"
        (.wrap "scan namespace lifecycle" (.external invalidText.message))), st)
  | .getSystem, st => (.ok st.lifecycle.system, st)
  | .acquirePair _, st => (.ok (), st)
  | .releasePair _, st => (.ok (), st)
  | .getConfig ns, st =>
    (if isStorable ns then .ok (st.configs.lookup ns)
      else .error ("get namespace config: " ++ invalidText.message), st)
  | .insertEvent row, st =>
    match srv.insertEvent row with
    | some e => (.error e, st)
    | none => (.ok (), { st with events := row :: st.events })
  | .upsertItem row, st =>
    match srv.upsertItem row with
    | some e => (.error e, st)
    | none => (.ok (st.upsert contentHash row).1, (st.upsert contentHash row).2)
  | .xadd ns objectID, st => (.ok (), { st with embed := (ns, objectID) :: st.embed })
  | .xack stream group id, st => (.ok (), { st with acked := (stream, group, id) :: st.acked })

end Answers

/-! ### The handlers -/

abbrev HandlerM (ε α : Type) := Program Call Answer ε α

/-- The generation-1 compatibility rule, on the row that was read. -/
def disposition (row : NamespaceLifecycle) (generation : Option ℤ) : EnvelopeDisposition :=
  if row.state ≠ .active then .stale
  else if generation.getD 0 = 0 then
    if row.generation = 1 ∧ row.legacyMessagesAllowed then .process else .stale
  else if generation ≠ some row.generation then .stale
  else .process

def evaluateEnvelope (ns : String) (generation : Option ℤ) :
    HandlerM Error EnvelopeDisposition := do
  let read : Except Error NamespaceLifecycle ← Program.ask (Call.getNamespace ns)
  let row ← Program.ofExcept read
  pure (disposition row generation)

/-- An error of the lifecycle service is none of the sentinels that the workers know. -/
def lifecycleFailure (e : Error) : Failure := .transient e.message

def withWriter (ns : String) (fn : HandlerM Failure Unit) : HandlerM Failure Unit := do
  let pair : Except String Unit ← Program.ask (Call.acquirePair ns)
  Program.ofExcept (pair.mapError .transient)
  let result ← Program.attempt do
    let system : Except Error SystemLifecycle ← Program.ask Call.getSystem
    let system ← Program.ofExcept (system.mapError
      fun e => lifecycleFailure (.wrap "read system lifecycle after lock" e))
    Program.require (system.state = .active) (lifecycleFailure .systemResetting)
    let row : Except Error NamespaceLifecycle ← Program.ask (Call.getNamespace ns)
    let row ← Program.ofExcept (row.mapError lifecycleFailure)
    Program.require (row.state = .active) (lifecycleFailure .namespaceNotActive)
    fn
  let _ ← Program.ask (Call.releasePair ns)
  Program.ofExcept result

/-- `Process`. -/
def process (now : ℤ) (payload : EventPayload) : HandlerM Failure Unit := do
  let payload ← Program.ofExcept (Ingest.process now payload)
  withWriter payload.ns do
    let config : Except String (Option Config) ← Program.ask (Call.getConfig payload.ns)
    let row ← Program.ofExcept (processActive config payload)
    let written : Except PgError Unit ← Program.ask (Call.insertEvent row)
    Program.ofExcept
      (written.mapError fun e => .transient ("insert event: insert event: " ++ e.message))

/-- `IngestStreamItem` of the adapter, over `Ingest` of the catalog service. -/
def ingestStreamItem (maxBytes : ℤ) (m : CatalogMessage) : HandlerM Failure Unit := do
  let item ← Program.ofExcept (Ingest.ingest m.item)
  withWriter item.ns do
    let config : Except String (Option Config) ← Program.ask (Call.getConfig item.ns)
    let row ← Program.ofExcept (ingestActive maxBytes config item)
    let written : Except PgError Bool ←
      Program.ask (Call.upsertItem ⟨row, m.metadata.map sanitizeStorableMetadata⟩)
    let needsPublish ← Program.ofExcept (written.mapError fun e =>
      if e.isDataException then .catalogItemRejected
      else .transient ("persist catalog item: " ++ e.message))
    Program.when needsPublish do
      let sent : Except String Unit ← Program.ask (Call.xadd row.ns row.objectID)
      Program.ofExcept (sent.mapError fun e => .transient ("publish to embed stream: " ++ e))

/-- What a handler did with its entry. -/
inductive Verdict where
  | malformed
  | stale
  | rejected (failure : Failure)
  | persisted
  /-- It is left for the reaper. -/
  | pending (reason : String)
  deriving DecidableEq, Repr

structure Stream where
  name : String
  group : String
  deriving DecidableEq, Repr

def eventsStream : Stream := ⟨"codohue:events", "codohue-ingest"⟩

def catalogStream : Stream := ⟨"codohue:catalog", "codohue-catalog-ingest"⟩

/-- A failure of the acknowledgement is logged only. -/
def ack (stream : Stream) (id : String) : HandlerM Empty Unit := do
  let _ ← Program.ask (Call.xack stream.name stream.group id)
  pure ()

/-- An entry that decodes, up to the acknowledgement. -/
def handleDecoded (stream : Stream) (id ns : String) (generation : ℤ)
    (service : HandlerM Failure Unit) : HandlerM Empty Verdict := do
  let evaluated ← Program.attempt
    (evaluateEnvelope ns (if 0 < generation then some generation else none))
  match evaluated with
  | .error e => pure (.pending e.message)
  | .ok .stale => do
    ack stream id
    pure .stale
  | .ok .process => do
    let processed ← Program.attempt service
    match processed with
    | .ok () => do
      ack stream id
      pure .persisted
    | .error (.transient text) => pure (.pending text)
    | .error failure => do
      ack stream id
      pure (.rejected failure)

/-- `handleMessage` of the event worker. -/
def handleEvent (u : Unmarshal) (now : ℤ) (msg : Message) : HandlerM Empty Verdict :=
  match decodeEventMessage u msg with
  | none => do
    ack eventsStream msg.id
    pure .malformed
  | some payload =>
    handleDecoded eventsStream msg.id payload.ns payload.namespaceGeneration (process now payload)

/-- `handleMessage` of the catalog worker. -/
def handleItem (u : Unmarshal) (maxBytes : ℤ) (msg : Message) : HandlerM Empty Verdict :=
  match decodeCatalogMessage u msg with
  | none => do
    ack catalogStream msg.id
    pure .malformed
  | some m =>
    handleDecoded catalogStream msg.id m.item.ns m.item.namespaceGeneration
      (ingestStreamItem maxBytes m)

/-! ### Where a handler ends -/

section Run

variable {η : Type} [DecidableEq η] {contentHash : String → η} {srv : Server} {st : State η}
  {ns : String}

/-- The namespace has a lifecycle row, under a name that the server can be asked for. -/
def Known (st : State η) (ns : String) : Prop :=
  isStorable ns ∧ (st.lifecycle.row ns).isSome

variable {row : NamespaceLifecycle}

lemma run_evaluateEnvelope (hns : isStorable ns) (hr : st.lifecycle.row ns = some row) :
    (evaluateEnvelope ns generation).run (answer contentHash srv) st =
      (.ok (disposition row generation), st) := by
  simp only [evaluateEnvelope, answer, hns, getNamespace, hr, Program.run_ask_bind, if_true]
  rfl

lemma run_evaluateEnvelope_unknown (contentHash : String → η) (srv : Server) (hk : ¬ Known st ns)
    (generation : Option ℤ) :
    ∃ e, (evaluateEnvelope ns generation).run (answer contentHash srv) st = (.error e, st) := by
  simp only [evaluateEnvelope, answer, Program.run_ask_bind]
  split_ifs with hns
  · have hn : st.lifecycle.row ns = none := by
      by_contra hne
      exact hk ⟨hns, Option.isSome_iff_ne_none.mpr hne⟩
    rw [getNamespace, hn]
    exact ⟨_, rfl⟩
  · exact ⟨_, rfl⟩

lemma run_withWriter (hns : isStorable ns) (hr : st.lifecycle.row ns = some row)
    (ha : row.state = .active) (hs : st.lifecycle.system.state = .active) :
    (withWriter ns fn).run (answer contentHash srv) st = fn.run (answer contentHash srv) st := by
  simp [withWriter, answer, hns, getNamespace, hr, hs, ha, Except.mapError]

/-- The service fails for good, it succeeds and has stored what it should, or it is blocked. It
acknowledges nothing itself. -/
inductive Settles (st : State η) (stored : State η → Prop) (blocked : Prop) :
    Except Failure Unit × State η → Prop
  | rejected (failure : Failure) (h : failure.permanent) (hb : ¬ blocked) :
      Settles st stored blocked (.error failure, st)
  | persisted (st' : State η) (hstored : stored st') (hacked : st'.acked = st.acked)
      (hb : ¬ blocked) : Settles st stored blocked (.ok (), st')
  | transient (text : String) (hb : blocked) :
      Settles st stored blocked (.error (.transient text), st)

omit [DecidableEq η] in
lemma Settles.mono {stored stored' : State η → Prop} (h : Settles st stored blocked r)
    (hs : ∀ st', stored st' → stored' st') : Settles st stored' blocked r := by
  cases h with
  | rejected failure hp hb => exact .rejected failure hp hb
  | persisted st' hst' ha hb => exact .persisted st' (hs st' hst') ha hb
  | transient text hb => exact .transient text hb

/-- The entry is acknowledged, once: it is stored, or it is dropped for good. -/
structure Acknowledged (stream : Stream) (id : String) (st : State η) (stored : State η → Prop)
    (r : Except Empty Verdict × State η) : Prop where
  acked : r.2.acked = (stream.name, stream.group, id) :: st.acked
  verdict : r.1 = .ok .malformed ∨ r.1 = .ok .stale ∨
    (∃ failure, failure.permanent ∧ r.1 = .ok (.rejected failure)) ∨
    (r.1 = .ok .persisted ∧ stored r.2)

variable {stream : Stream} {id : String}

/-- The envelope is of the generation that the namespace takes messages of. -/
def Current (st : State η) (ns : String) (generation : ℤ) : Prop :=
  ∃ row, st.lifecycle.row ns = some row ∧
    disposition row (if 0 < generation then some generation else none) = .process

omit [DecidableEq η] in
lemma not_acknowledged_of_pending {stored : State η → Prop} {r : Except Empty Verdict × State η}
    (h : r.1 = .ok (.pending text)) : ¬ Acknowledged stream id st stored r := by
  rintro ⟨-, hv⟩
  rw [h] at hv
  simp at hv

lemma acknowledged_decoded_iff {stored : State η → Prop}
    (hsto : ∀ st' acked, stored st' → stored { st' with acked := acked })
    (hse : ∀ row, isStorable ns → st.lifecycle.row ns = some row → row.state = .active →
      Settles st stored blocked (service.run (answer contentHash srv) st)) :
    Acknowledged stream id st stored
        ((handleDecoded stream id ns generation service).run (answer contentHash srv) st) ↔
      Known st ns ∧ (Current st ns generation → ¬ blocked) := by
  unfold handleDecoded
  rw [Program.run_attempt_bind]
  by_cases hk : Known st ns
  · obtain ⟨row, hro⟩ := Option.isSome_iff_exists.mp hk.2
    rw [and_iff_right hk, run_evaluateEnvelope hk.1 hro]
    cases hd : disposition row (if 0 < generation then some generation else none) with
    | stale =>
      refine iff_of_true ⟨rfl, .inr (.inl rfl)⟩ ?_
      rintro ⟨row', hro', hd'⟩
      rw [Option.some.inj (hro.symm.trans hro'), hd'] at hd
      cases hd
    | process =>
      have hcu : Current st ns generation := ⟨row, hro, hd⟩
      have ha : row.state = .active := by
        by_contra hne
        simp [disposition, hne] at hd
      have hs := hse row hk.1 hro ha
      simp only [Program.run_attempt_bind]
      rcases hr : service.run (answer contentHash srv) st with ⟨res, st'⟩
      rw [hr] at hs
      cases hs with
      | rejected failure hp hb =>
        refine iff_of_true ?_ fun _ => hb
        cases failure with
        | transient text => cases hp
        | _ => exact ⟨rfl, .inr (.inr (.inl ⟨_, hp, rfl⟩))⟩
      | persisted st' hst' hac hb =>
        refine iff_of_true ⟨?_, .inr (.inr (.inr ⟨rfl, hsto _ _ hst'⟩))⟩ fun _ => hb
        rw [← hac]
        rfl
      | transient text hb => exact iff_of_false (not_acknowledged_of_pending rfl) fun h => h hcu hb
  · -- the namespace cannot be read, and the entry stays
    refine iff_of_false ?_ fun h => hk h.1
    obtain ⟨e, he⟩ := run_evaluateEnvelope_unknown contentHash srv hk
      (if 0 < generation then some generation else none)
    rw [he]
    exact not_acknowledged_of_pending rfl

/-- The row of the event is there. -/
def EventStored (st : State η) (payload : EventPayload) (st' : State η) : Prop :=
  ∃ row, st'.events = row :: st.events ∧ row.ns = payload.ns ∧
    row.subjectID = payload.subjectID ∧ row.objectID = payload.objectID ∧
    row.action = payload.action

/-- The item is there, with the content that can be stored. -/
def ItemStored (m : CatalogMessage) (st' : State η) : Prop :=
  ∃ item, st'.items.lookup (m.item.ns, m.item.objectID) = some item ∧
    item.content = sanitizeStorable m.item.content

/-- A row or a payload with the identifiers of the event. -/
def SameEvent (payload : EventPayload) (ns subjectID objectID action : String) : Prop :=
  ns = payload.ns ∧ subjectID = payload.subjectID ∧ objectID = payload.objectID ∧
    action = payload.action

lemma process_spec (now : ℤ) (payload : EventPayload) :
    (∃ failure, Ingest.process now payload = .error failure ∧ failure.permanent) ∨
      ∃ valid, Ingest.process now payload = .ok valid ∧
        SameEvent payload valid.ns valid.subjectID valid.objectID valid.action := by
  have hc : ∀ p : EventPayload,
      (∃ failure, Ingest.process.objectCreated now p = .error failure ∧ failure.permanent) ∨
        Ingest.process.objectCreated now p = .ok p := by
    intro p
    unfold Ingest.process.objectCreated
    cases p.objectCreatedAt with
    | none => exact .inr rfl
    | some created =>
      dsimp only
      split_ifs
      · exact .inl ⟨_, rfl, rfl⟩
      · exact .inr rfl
  unfold Ingest.process
  split_ifs
  · exact .inl ⟨_, rfl, rfl⟩
  · cases payload.occurredAt with
    | none =>
      exact (hc { payload with occurredAt := some now }).imp_right fun h =>
        ⟨{ payload with occurredAt := some now }, h, rfl, rfl, rfl, rfl⟩
    | some at_ =>
      dsimp only
      split_ifs
      · exact .inl ⟨_, rfl, rfl⟩
      · exact (hc payload).imp_right fun h => ⟨_, h, rfl, rfl, rfl, rfl⟩

lemma processActive_spec (cfg : Option Config) (payload : EventPayload) :
    (∃ failure, processActive (.ok cfg) payload = .error failure ∧ failure.permanent) ∨
      ∃ row, processActive (.ok cfg) payload = .ok row ∧
        SameEvent payload row.ns row.subjectID row.objectID row.action := by
  have hw : (∃ failure, resolveWeight (.ok cfg) payload.action = .error failure ∧
      failure.permanent) ∨ ∃ weight, resolveWeight (.ok cfg) payload.action = .ok weight := by
    unfold resolveWeight
    cases cfg with
    | none => exact .inl ⟨_, rfl, rfl⟩
    | some cfg =>
      dsimp only
      split_ifs
      · exact .inl ⟨_, rfl, rfl⟩
      · cases cfg.actionWeights.lookup payload.action with
        | some weight => exact .inr ⟨_, rfl⟩
        | none =>
          cases defaultActionWeights.lookup payload.action with
          | some weight => exact .inr ⟨_, rfl⟩
          | none => exact .inl ⟨_, rfl, rfl⟩
  unfold processActive
  rcases hw with ⟨failure, h, hp⟩ | ⟨weight, h⟩
  · exact .inl ⟨failure, by rw [h]; rfl, hp⟩
  · exact .inr ⟨_, by rw [h]; rfl, rfl, rfl, rfl, rfl⟩

lemma ingest_spec (item : CatalogStreamItem) : Ingest.ingest item = .error .catalogItemRejected ∨
      Ingest.ingest item = .ok { item with content := sanitizeStorable item.content } := by
  unfold Ingest.ingest
  split_ifs
  · exact .inl rfl
  · exact .inl rfl
  · exact .inl rfl
  · exact .inr rfl

lemma ingestActive_spec (mb : ℤ) (cfg : Option Config) (item : CatalogStreamItem) :
    ingestActive mb (.ok cfg) item = .error .catalogItemRejected ∨
      ingestActive mb (.ok cfg) item =
        .ok ⟨item.ns, item.objectID, item.content, item.authorSubjectID⟩ := by
  unfold ingestActive
  cases cfg with
  | none => exact .inl rfl
  | some cfg =>
    dsimp only
    split_ifs <;> first | exact .inl rfl | exact .inr rfl

/-- The row of an event, unless it is rejected before it gets to the server. -/
def eventRow (cfg : Option Config) (now : ℤ) (payload : EventPayload) : Except Failure Event :=
  (Ingest.process now payload).bind (processActive (.ok cfg))

lemma settles_process (hns : isStorable payload.ns) (hr : st.lifecycle.row payload.ns = some row)
    (hac : row.state = .active) (hsy : st.lifecycle.system.state = .active) :
    Settles st (EventStored st payload) (∃ event, eventRow (st.configs.lookup payload.ns) now
      payload = .ok event ∧ (srv.insertEvent event).isSome)
      ((process now payload).run (answer contentHash srv) st) := by
  unfold process eventRow
  rcases process_spec now payload with ⟨failure, h, hp⟩ |
    ⟨valid, h, hv, hs, ho, ha⟩
  · rw [h]
    exact .rejected failure hp nofun
  · rw [h, Program.run_ofExcept_ok_bind, hv, run_withWriter hns hr hac hsy, Program.run_ask_bind]
    simp only [answer, hns, if_true, Except.bind]
    rcases processActive_spec (st.configs.lookup payload.ns) valid with
      ⟨failure, h, hp⟩ | ⟨event, h, hen, he, heo, hea⟩
    · rw [h]
      exact .rejected failure hp nofun
    · rw [h, Program.run_ofExcept_ok_bind, Program.run_ask_bind]
      cases hst : srv.insertEvent event with
      | some e =>
        simp only [answer, hst, Except.mapError, Program.run_ofExcept]
        exact .transient _ ⟨event, rfl, by rw [hst]; rfl⟩
      | none =>
        simp only [answer, hst, Except.mapError, Program.run_ofExcept]
        refine .persisted _ ⟨event, rfl, hen.trans hv, he.trans hs, heo.trans ho, hea.trans ha⟩
          rfl ?_
        rintro ⟨event', heq, hso⟩
        rw [← Except.ok.inj heq, hst] at hso
        cases hso

/-- The row of an item, unless it is rejected before it gets to the server. -/
def itemRow (maxBytes : ℤ) (cfg : Option Config) (m : CatalogMessage) : Except Failure CatalogRow :=
  ((Ingest.ingest m.item).bind (ingestActive maxBytes (.ok cfg))).map fun row =>
    ⟨row, m.metadata.map sanitizeStorableMetadata⟩

lemma upsert_stored (contentHash : String → η) (st : State η) (row : CatalogRow) :
    (∃ item, (st.upsert contentHash row).2.items.lookup (row.row.ns, row.row.objectID) = some item ∧
      item.content = row.row.content) ∧ (st.upsert contentHash row).2.acked = st.acked := by
  refine ⟨⟨_, AList.lookup_insert st.items, ?_⟩, rfl⟩
  cases st.items.lookup (row.row.ns, row.row.objectID) with
  | none => rfl
  | some item =>
    dsimp only
    split_ifs <;> rfl

lemma settles_ingestStreamItem (hns : isStorable m.item.ns)
    (hro : st.lifecycle.row m.item.ns = some row) (hac : row.state = .active)
    (hsy : st.lifecycle.system.state = .active) :
    Settles st (ItemStored m) (∃ written, itemRow mb (st.configs.lookup m.item.ns) m = .ok written ∧
      ∃ e, srv.upsertItem written = some e ∧ e.isDataException = false)
      ((ingestStreamItem mb m).run (answer contentHash srv) st) := by
  unfold ingestStreamItem itemRow
  rcases ingest_spec m.item with h | h
  · rw [h]
    exact .rejected _ rfl nofun
  · rw [h, Program.run_ofExcept_ok_bind, run_withWriter hns hro hac hsy, Program.run_ask_bind]
    simp only [answer, hns, if_true, Except.bind]
    rcases ingestActive_spec mb (st.configs.lookup m.item.ns)
      { m.item with content := sanitizeStorable m.item.content } with h | h
    · rw [h]
      exact .rejected _ rfl nofun
    · rw [h, Program.run_ofExcept_ok_bind, Program.run_ask_bind]
      set written : CatalogRow := ⟨⟨m.item.ns, m.item.objectID, sanitizeStorable m.item.content,
        m.item.authorSubjectID⟩, m.metadata.map sanitizeStorableMetadata⟩ with hw
      -- the row is this one, so the server's answer to it decides
      have hb : ∀ {q : CatalogRow → Prop}, ¬ q written →
          ¬ ∃ row, (Except.ok written : Except Failure CatalogRow) = .ok row ∧ q row := by
        rintro q hq ⟨row, heq, hr⟩
        exact hq (Except.ok.inj heq ▸ hr)
      cases hr : srv.upsertItem written with
      | some e =>
        cases hd : e.isDataException with
        | true =>
          simp only [answer, hr, Except.mapError, hd, if_true, Program.run_ofExcept_error_bind]
          refine .rejected _ rfl (hb ?_)
          rintro ⟨e', he', hde⟩
          rw [← Option.some.inj (hr.symm.trans he'), hd] at hde
          cases hde
        | false =>
          simp only [answer, hr, Except.mapError, hd, Bool.false_eq_true, if_false,
            Program.run_ofExcept_error_bind]
          exact .transient _ ⟨written, rfl, e, hr, hd⟩
      | none =>
        obtain ⟨hs, ha⟩ := upsert_stored contentHash st written
        have hno : ¬ ∃ e, srv.upsertItem written = some e ∧ e.isDataException = false := by
          rw [hr]
          exact nofun
        simp only [answer, hr, Except.mapError, Program.run_ofExcept_ok_bind]
        cases hn : (st.upsert contentHash written).1 with
        | false | true => exact .persisted _ hs ha (hb hno)

/-- **No poison entries**, exactly as far as the namespaces of the entries are known and what the
server refuses is taken for permanent: of the rows of current and valid events it refuses none, and
those of items, if any, with a data exception. -/
theorem entries_acknowledged (contentHash : String → η) (srv : Server) (u : Unmarshal)
    (now maxBytes : ℤ) (msg : Message) (st : State η)
    (hsystem : st.lifecycle.system.state = .active) :
    (Acknowledged eventsStream msg.id st
        (fun st' => ∃ payload, decodeEventMessage u msg = some payload ∧ EventStored st payload st')
        ((handleEvent u now msg).run (answer contentHash srv) st) ↔
      ∀ payload, decodeEventMessage u msg = some payload → Known st payload.ns ∧
        (Current st payload.ns payload.namespaceGeneration →
          ∀ row, eventRow (st.configs.lookup payload.ns) now payload = .ok row →
            srv.insertEvent row = none)) ∧
    (Acknowledged catalogStream msg.id st
        (fun st' => ∃ m, decodeCatalogMessage u msg = some m ∧ ItemStored m st')
        ((handleItem u maxBytes msg).run (answer contentHash srv) st) ↔
      ∀ m, decodeCatalogMessage u msg = some m → Known st m.item.ns ∧
        (Current st m.item.ns m.item.namespaceGeneration →
          ∀ row, itemRow maxBytes (st.configs.lookup m.item.ns) m = .ok row →
            ∀ e, srv.upsertItem row = some e → e.isDataException)) := by
  constructor
  · unfold handleEvent
    cases hd : decodeEventMessage u msg with
    | none => exact iff_of_true ⟨rfl, .inl rfl⟩ nofun
    | some payload =>
      refine (acknowledged_decoded_iff (fun _ _ hs => hs) fun row hns hr ha =>
        (settles_process hns hr ha hsystem).mono fun st' hs => ⟨payload, rfl, hs⟩).trans ?_
      simp
  · unfold handleItem
    cases hd : decodeCatalogMessage u msg with
    | none => exact iff_of_true ⟨rfl, .inl rfl⟩ nofun
    | some m =>
      refine (acknowledged_decoded_iff (fun _ _ hs => hs) fun row hns hr ha =>
        (settles_ingestStreamItem hns hr ha hsystem).mono fun st' hs => ⟨m, rfl, hs⟩).trans ?_
      simp

end Run

/-! ### Small entries -/

/-- A namespace that takes events and catalog items. -/
def shopState : State String where
  lifecycle := ⟨⟨.active, none, none⟩, AList.insert "shop" ⟨1, .active, true, none⟩ ∅⟩
  configs := AList.insert "shop" ⟨false, [], "catalog", 0⟩ ∅
  events := []
  items := ∅
  metadata := ∅
  authors := ∅
  embed := []
  acked := []

def view (ns objectID : String) : EventPayload :=
  ⟨ns, 0, "alice", objectID, "VIEW", some 0, none⟩

/-- An entry that decodes to a view, or to an item, of this object. -/
def decodesTo (ns objectID : String) : Unmarshal where
  event _ := some (view ns objectID)
  item _ := some ⟨⟨ns, 0, objectID, "text", ""⟩, none⟩

def entry : Message := ⟨"1-0", [("payload", [])]⟩

def lenient : Server := ⟨fun _ => none, fun _ => none⟩

theorem entries_acknowledged_shop : shopState.lifecycle.system.state = .active ∧
    Acknowledged eventsStream "1-0" shopState
      (fun st' => ∃ payload, decodeEventMessage (decodesTo "shop" "book") entry = some payload ∧
        EventStored shopState payload st')
      ((handleEvent (decodesTo "shop" "book") 0 entry).run (answer id lenient) shopState) ∧
    Acknowledged catalogStream "1-0" shopState
      (fun st' => ∃ m, decodeCatalogMessage (decodesTo "shop" "book") entry = some m ∧
        ItemStored m st')
      ((handleItem (decodesTo "shop" "book") 0 entry).run (answer id lenient) shopState) := by
  have h := entries_acknowledged id lenient (decodesTo "shop" "book") 0 0 entry shopState rfl
  refine ⟨rfl, h.1.mpr fun payload hp => ?_, h.2.mpr fun m hm => ?_⟩
  · obtain rfl : view "shop" "book" = payload := Option.some.inj hp
    refine ⟨⟨rfl, rfl⟩, fun _ row hr => ?_⟩
    cases hr
    rfl
  · obtain rfl : (⟨⟨"shop", 0, "book", "text", ""⟩, none⟩ : CatalogMessage) = m :=
      Option.some.inj hm
    refine ⟨⟨rfl, rfl⟩, fun _ row hr e he => ?_⟩
    cases hr
    cases he

/-- An entry of a namespace that does not exist, and an event whose object has a NUL in its id. -/
theorem poison_entries :
    ((handleEvent (decodesTo "ghost" "book") 0 entry).run (answer id lenient) shopState).1 =
      .ok (.pending "get namespace lifecycle: namespace lifecycle not found") ∧
    ((handleEvent (decodesTo "ghost" "book") 0 entry).run (answer id lenient) shopState).2.acked =
      [] ∧
    ((handleItem (decodesTo "ghost" "book") 0 entry).run (answer id lenient) shopState).1 =
      .ok (.pending "get namespace lifecycle: namespace lifecycle not found") ∧
    ((handleItem (decodesTo "ghost" "book") 0 entry).run (answer id lenient) shopState).2.acked =
      [] ∧
    ((handleEvent (decodesTo "shop" "a\x00b") 0 entry).run (answer id lenient) shopState).1 =
      .ok (.pending ("insert event: insert event: " ++ invalidText.message)) ∧
    ((handleEvent (decodesTo "shop" "a\x00b") 0 entry).run (answer id lenient) shopState).2.acked =
      [] := by
  decide +kernel

end Codohue.StreamEntry
