import Codohue.Coordinator
import Mathlib.Data.Rat.Defs

/-!
The two stream workers of `internal/ingest`, over the lifecycle service: behavioural events
and catalog items, each from one entry of a Redis stream to one row.

A handler decodes its entry, compares the generation that the envelope names with the current
row, validates the payload, and only then takes the write lease, under which it reads the
namespace configuration and writes its row. These are separate steps, so other processes may
act between any two of them. What the configuration read, the write and the publish answer is
part of the action.
-/

namespace Codohue.Ingest

open Lifecycle Coordinator

/-! ### Payloads and rows -/

/-- Times are in nanoseconds; the zero time is `none`. -/
structure EventPayload where
  ns : String
  namespaceGeneration : ℤ
  subjectID : String
  objectID : String
  action : String
  occurredAt : Option ℤ
  objectCreatedAt : Option ℤ
  deriving DecidableEq, Repr

structure CatalogStreamItem where
  ns : String
  namespaceGeneration : ℤ
  objectID : String
  content : String
  authorSubjectID : String
  deriving DecidableEq, Repr

inductive Entry where
  | event (payload : EventPayload)
  | catalog (item : CatalogStreamItem)
  deriving DecidableEq, Repr

def Entry.ns : Entry → String
  | .event payload => payload.ns
  | .catalog item => item.ns

def Entry.namespaceGeneration : Entry → ℤ
  | .event payload => payload.namespaceGeneration
  | .catalog item => item.namespaceGeneration

/-- A decoded catalog entry without a namespace counts as malformed. -/
def Entry.malformed : Entry → Bool
  | .event _ => false
  | .catalog item => item.ns = ""

structure Event where
  ns : String
  subjectID : String
  objectID : String
  action : String
  weight : ℚ
  occurredAt : ℤ
  objectCreatedAt : Option ℤ
  deriving DecidableEq, Repr

/-- What the upsert of a catalog item is given. -/
structure CatalogUpsert where
  ns : String
  objectID : String
  content : String
  authorSubjectID : String
  deriving DecidableEq, Repr

inductive Row where
  | event (row : Event)
  | catalog (row : CatalogUpsert)
  deriving DecidableEq, Repr

inductive Failure where
  | invalidPayload
  | invalidObjectCreatedAt
  | unknownAction
  | namespaceNotFound
  | namespacePaused
  | catalogItemRejected
  /-- Any other error: a retry may succeed. -/
  | transient (text : String)
  deriving DecidableEq, Repr

/-- The errors after which the entry is acknowledged and dropped. -/
def Failure.permanent : Failure → Bool
  | .transient _ => false
  | _ => true

/-- The part of the namespace configuration that the workers read. -/
structure Config where
  paused : Bool
  actionWeights : List (String × ℚ)
  denseSource : String
  catalogMaxContentBytes : ℤ
  deriving DecidableEq, Repr

/-! ### Events -/

def maxOccurredAtSkew : ℤ := 5 * 60 * 1000000000

/-- `Process`, up to the lease. -/
def process (now : ℤ) (payload : EventPayload) : Except Failure EventPayload :=
  if payload.ns = "" ∨ payload.subjectID = "" ∨ payload.objectID = "" then
    .error .invalidPayload
  else
    match payload.occurredAt with
    | none => objectCreated { payload with occurredAt := some now }
    | some at_ =>
      if now + maxOccurredAtSkew < at_ then .error .invalidPayload else objectCreated payload
where
  objectCreated (payload : EventPayload) : Except Failure EventPayload :=
    match payload.objectCreatedAt with
    | none => .ok payload
    | some created =>
      if now + maxOccurredAtSkew < created then .error .invalidObjectCreatedAt else .ok payload

def defaultActionWeights : List (String × ℚ) :=
  [("VIEW", 1), ("LIKE", 5), ("COMMENT", 8), ("SHARE", 10), ("SKIP", -2)]

def resolveWeight (config : Except String (Option Config)) (action : String) :
    Except Failure ℚ :=
  match config with
  | .error text => .error (.transient text)
  | .ok none => .error .namespaceNotFound
  | .ok (some cfg) =>
    if cfg.paused then .error .namespacePaused
    else
      match cfg.actionWeights.lookup action with
      | some w => .ok w
      | none =>
        match defaultActionWeights.lookup action with
        | some w => .ok w
        | none => .error .unknownAction

/-- The row that `processActive` inserts. -/
def processActive (config : Except String (Option Config)) (payload : EventPayload) :
    Except Failure Event := do
  let weight ← resolveWeight config payload.action
  return { ns := payload.ns, subjectID := payload.subjectID, objectID := payload.objectID,
           action := payload.action, weight := weight, occurredAt := payload.occurredAt.getD 0,
           objectCreatedAt := payload.objectCreatedAt }

/-! ### Catalog items -/

/-- `unicode.IsSpace`. -/
def isSpace (c : Char) : Bool :=
  c.toNat ∈ [0x09, 0x0a, 0x0b, 0x0c, 0x0d, 0x20, 0x85, 0xa0, 0x1680, 0x2028, 0x2029, 0x202f,
    0x205f, 0x3000] || (0x2000 ≤ c.toNat && c.toNat ≤ 0x200a)

def isStorable (s : String) : Bool := s.toList.all fun c => c.toNat ≠ 0

def sanitizeStorable (s : String) : String :=
  String.ofList (s.toList.filter fun c => c.toNat ≠ 0)

/-- `IngestStreamItem` and `Ingest`, up to the lease. Every failure here is permanent. -/
def ingest (item : CatalogStreamItem) : Except Failure CatalogStreamItem :=
  if item.ns = "" ∨ item.objectID = "" then .error .catalogItemRejected
  else if !isStorable item.objectID || !isStorable item.authorSubjectID then
    .error .catalogItemRejected
  else if (sanitizeStorable item.content).toList.all isSpace then .error .catalogItemRejected
  else .ok { item with content := sanitizeStorable item.content }

/-- The row that `ingestActive` upserts; `maxBytes` is the default of the deployment. -/
def ingestActive (maxBytes : ℤ) (config : Except String (Option Config))
    (item : CatalogStreamItem) : Except Failure CatalogUpsert :=
  match config with
  | .error text => .error (.transient text)
  | .ok none => .error .catalogItemRejected
  | .ok (some cfg) =>
    if cfg.paused then .error .catalogItemRejected
    else if cfg.denseSource ≠ "catalog" then .error .catalogItemRejected
    else
      let limit := if cfg.catalogMaxContentBytes ≤ 0 then maxBytes else cfg.catalogMaxContentBytes
      if 0 < limit ∧ limit < item.content.utf8ByteSize then .error .catalogItemRejected
      else
        .ok { ns := item.ns, objectID := item.objectID, content := item.content,
              authorSubjectID := item.authorSubjectID }

/-! ### Handlers -/

inductive Phase where
  /-- The entry is decoded. -/
  | received
  /-- `EvaluateEnvelope` said that the entry may be processed. -/
  | evaluated
  /-- The payload is valid; call `t` of `WithWriter` is under way. -/
  | leasing (t : ℕ) (valid : Entry)
  /-- The callback of call `t` has returned. -/
  | returning (t : ℕ) (result : Except Failure Unit)
  | done (acked : Bool)

structure Handler where
  proc : ℕ
  entry : Entry
  phase : Phase

/-- A persisted row, with the lifecycle rows at the moment of the write. -/
structure Write where
  entry : Entry
  row : Row
  db : Store

structure World where
  sys : Sys
  handlers : ℕ → Option Handler
  /-- The calls that a handler has made. -/
  calls : ℕ → Bool
  log : List Write

def boot (db : Store) : World := ⟨Coordinator.boot db, fun _ => none, fun _ => false, []⟩

def World.put (w : World) (h : ℕ) (handler : Handler) : World :=
  { w with handlers := Function.update w.handlers h (some handler) }

/-- What the callback of a handler is answered. -/
structure Replies where
  config : Except String (Option Config)
  write : Outcome
  /-- The write failed with a data exception of the server. -/
  dataException : Bool
  /-- The error of the publish to the embed stream, if one was needed and failed. -/
  publish : Option String

/-- `none` for an entry that names no generation. -/
def Entry.envelope (entry : Entry) : Option ℤ :=
  if 0 < entry.namespaceGeneration then some entry.namespaceGeneration else none

/-- The validation between the check of the envelope and the lease. -/
def Entry.validate (now : ℤ) : Entry → Except Failure Entry
  | .event payload => (process now payload).map .event
  | .catalog item => (ingest item).map .catalog

/-- The row that the callback writes. -/
def Entry.active (maxBytes : ℤ) (config : Except String (Option Config)) :
    Entry → Except Failure Row
  | .event payload => (processActive config payload).map .event
  | .catalog item => (ingestActive maxBytes config item).map .catalog

/-- What the callback returns after its write. -/
def writeResult (entry : Entry) (replies : Replies) : Except Failure Unit :=
  match replies.write, entry with
  | .ok, .event _ => .ok ()
  | .ok, .catalog _ =>
    match replies.publish with
    | none => .ok ()
    | some text => .error (.transient text)
  | .fail text, .event _ => .error (.transient text)
  | .fail text, .catalog _ =>
    if replies.dataException then .error .catalogItemRejected else .error (.transient text)
  | .lost text, _ => .error (.transient text)

/-- The callback: the row it writes, if the write took effect, and what it returns. -/
def callback (maxBytes : ℤ) (entry : Entry) (replies : Replies) :
    Option Row × Except Failure Unit :=
  match entry.active maxBytes replies.config with
  | .error failure => (none, .error failure)
  | .ok row =>
    match replies.write with
    | .fail _ => (none, writeResult entry replies)
    | _ => (some row, writeResult entry replies)

/-- The end of `handleMessage`: acknowledge a result or a permanent failure. -/
def acks : Except Failure Unit → Bool
  | .ok () => true
  | .error failure => failure.permanent

/-! ### The world -/

inductive Action where
  /-- A step of a call that no handler made, or of the statements of any call. -/
  | sys (a : Coordinator.Action)
  /-- An entry is read or claimed; `none` if it does not decode. -/
  | deliver (h proc : ℕ) (entry : Option Entry)
  | evaluate (h : ℕ) (o : Outcome)
  | validate (h : ℕ) (now : ℤ) (t conn : ℕ)
  | callback (h : ℕ) (replies : Replies)
  | collect (h : ℕ)

/-- The call that a step of the lifecycle service drives from outside its statements. -/
def driven : Coordinator.Action → Option ℕ
  | .start t _ _ | .reenter t | .upsertConfig t _ | .finish t _ => some t
  | .advance _ _ | .crash _ => none

/-- A crash ends the handlers of its process. -/
def survivors (a : Coordinator.Action) (handlers : ℕ → Option Handler) : ℕ → Option Handler :=
  match a with
  | .crash proc => fun h => (handlers h).filter fun handler => handler.proc ≠ proc
  | _ => handlers

def sysStep (w : World) (a : Coordinator.Action) : Option World :=
  if (driven a).any w.calls then none
  else
    (Coordinator.step w.sys a).map fun sys =>
      { w with sys := sys, handlers := survivors a w.handlers }

def evaluateStep (w : World) (h : ℕ) (handler : Handler) (o : Outcome) : World :=
  match o.error, evaluateEnvelope w.sys.db handler.entry.ns handler.entry.envelope with
  | some _, _ => w.put h { handler with phase := .done false }
  | none, .error _ => w.put h { handler with phase := .done false }
  | none, .ok .stale => w.put h { handler with phase := .done true }
  | none, .ok .process => w.put h { handler with phase := .evaluated }

def validateStep (w : World) (h : ℕ) (handler : Handler) (now : ℤ) (t conn : ℕ) : Option World :=
  match handler.entry.validate now with
  | .error failure => some (w.put h { handler with phase := .done failure.permanent })
  | .ok valid =>
    if w.calls t then none
    else
      (Coordinator.step w.sys (.start t ⟨handler.proc, conn⟩ (.withWriter handler.entry.ns))).map
        fun sys =>
          { w.put h { handler with phase := .leasing t valid } with
            sys := sys, calls := Function.update w.calls t true }

def callbackStep (maxBytes : ℤ) (w : World) (h : ℕ) (handler : Handler) (t : ℕ) (valid : Entry)
    (replies : Replies) : Option World :=
  (w.sys.tasks t).bind fun k =>
    match k.pc with
    | .writing _ _ =>
      let (row, result) := callback maxBytes valid replies
      let err := match result with
        | .ok () => none
        | .error _ => some (Error.external "callback")
      (Coordinator.step w.sys (.finish t err)).map fun sys =>
        { w.put h { handler with phase := .returning t result } with
          sys := sys
          log := w.log ++ row.toList.map fun row => ⟨handler.entry, row, w.sys.db⟩ }
    | _ => none

/-- `WithWriter` has returned: its own errors leave the entry pending. -/
def collectStep (w : World) (h : ℕ) (handler : Handler) (t : ℕ)
    (result : Option (Except Failure Unit)) : Option World :=
  (w.sys.tasks t).bind fun k =>
    match k.pc, result with
    | .returned _, none => some (w.put h { handler with phase := .done false })
    | .returned _, some result => some (w.put h { handler with phase := .done (acks result) })
    | _, _ => none

def step (maxBytes : ℤ) (w : World) : Action → Option World
  | .sys a => sysStep w a
  | .deliver h proc entry =>
    if (w.handlers h).isSome then none
    else
      match entry with
      | none => some w
      | some entry =>
        if entry.malformed then some w else some (w.put h ⟨proc, entry, .received⟩)
  | .evaluate h o =>
    (w.handlers h).bind fun handler =>
      match handler.phase with
      | .received => some (evaluateStep w h handler o)
      | _ => none
  | .validate h now t conn =>
    (w.handlers h).bind fun handler =>
      match handler.phase with
      | .evaluated => validateStep w h handler now t conn
      | _ => none
  | .callback h replies =>
    (w.handlers h).bind fun handler =>
      match handler.phase with
      | .leasing t valid => callbackStep maxBytes w h handler t valid replies
      | _ => none
  | .collect h =>
    (w.handlers h).bind fun handler =>
      match handler.phase with
      | .leasing t _ => collectStep w h handler t none
      | .returning t result => collectStep w h handler t (some result)
      | _ => none

end Codohue.Ingest
