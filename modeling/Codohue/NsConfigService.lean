import Codohue.NsConfigStore

/-!
The service of `internal/nsconfig`, as the admin server wires it: with the lifecycle coordinator,
and for callers that hold no lease yet.

Each method is a program that calls the stores. Sessions are the requests of any number of
operators, and of the processes that create dense collections.
-/

namespace Codohue.NsConfig

open Service

abbrev ConfigM (P α : Type) := Program (Call P) Answer (Error P) α

variable {P : Type}

def request (c : Call P) : ConfigM P (Value c) := do
  let answer : Answer c ← Program.ask c
  Program.ofExcept answer

/-- A call whose error gets a context. -/
def requestIn (context : String) (c : Call P) : ConfigM P (Value c) := do
  let answer : Answer c ← Program.ask c
  Program.ofExcept (answer.mapError (.wrap context))

structure ConfigService (P : Type) where
  runtime : Runtime P
  registry : Registry P
  /-- Whether the checker of dense collections is wired. -/
  denseCollections : Bool

structure UpsertResponse where
  ns : String
  generation : ℤ
  updatedAt : ℤ
  apiKey : String
  deriving DecidableEq, Repr

section Methods

variable (S : ConfigService P) (ns : String)

/-! ### Upsert -/

def guardEmbeddingDimChange (req : UpsertRequest P) : ConfigM P Unit :=
  match req.embeddingDim with
  | none => return ()
  | some dim =>
    -- a provisioning request never changes the dimension of a row that is there
    if S.denseCollections = false ∨ req.provisionAPIKey ≠ "" then return ()
    else do
      let current ← requestIn "load current config" .get
      match current with
      | none => return ()
      | some current =>
        if current.values .embeddingDim = dim then return ()
        else do
          let found ← requestIn "check dense collections"
            (.denseCollectionsExist current.generation)
          if found then .throw .embeddingDimLocked else return ()

/-- The dimension that the row has, or will have if it is not there. -/
def dimOf (config : Option (Row P)) : ℤ :=
  match config with
  | none => schemaEmbeddingDim
  | some row =>
    if 0 < row.values .embeddingDim then row.values .embeddingDim else schemaEmbeddingDim

def effectiveDim (requestedDim : Option ℤ) : ConfigM P ℤ :=
  match requestedDim.filter (0 < ·) with
  | some dim => return dim
  | none => do
    let current ← requestIn "load namespace config" .get
    return dimOf current

def validateCatalogStrategy (req : UpdateCatalogRequest P) (requestedDim : Option ℤ) :
    ConfigM P Unit :=
  if req.enabled = false then return ()
  else if req.strategyID = "" ∨ req.strategyVersion = "" then .throw .strategyRequired
  else do
    let strategyDim ← Program.ofExcept (S.registry.build req.strategyID req.strategyVersion
      (req.params.getD S.runtime.empty))
    let effectiveDim ← effectiveDim requestedDim
    if strategyDim ≠ effectiveDim then .throw (.dimensionMismatch strategyDim effectiveDim)
    else return ()

/-- A provisioning request describes the creation, so it is not checked against a later edit. -/
def requestedDim (req : UpsertRequest P) : Option ℤ :=
  if req.provisionAPIKey ≠ "" ∧ req.embeddingDim = none then some schemaEmbeddingDim
  else req.embeddingDim

def upsertActive (req : UpsertRequest P) : ConfigM P UpsertResponse := do
  let (req, catalogReq) := req.split
  match catalogReq with
  | none => pure ()
  | some c => validateCatalogStrategy S c (requestedDim req)
  let cfg ← requestIn "upsert namespace config" (.upsertWithCatalog req catalogReq)
  if cfg.apiKeyHash.getD "" = "" then
    let (plaintext, hash) ← requestIn "generate api key" .generateAPIKey
    let won ← requestIn "store api key hash" (.setAPIKeyHash hash)
    -- only the writer whose hash has landed hands out its plaintext
    return ⟨ns, cfg.generation, cfg.updatedAt, if won then plaintext else ""⟩
  else return ⟨ns, cfg.generation, cfg.updatedAt, ""⟩

def upsert (req : UpsertRequest P) : ConfigM P UpsertResponse := do
  Program.ofExcept (validateUpsert S.runtime req)
  guardEmbeddingDimChange S req
  let _ ← request .activate
  let _ ← request .withWriter
  upsertActive S ns req

/-! ### The catalog and the key -/

def updateCatalogConfig (req : UpdateCatalogRequest P) : ConfigM P (Row P) := do
  let _ ← request .withWriter
  let cfg ← requestIn "load namespace config" .get
  if cfg.isNone then .throw .namespaceNotFound
  else
    validateCatalogStrategy S req none
    let updated ← requestIn "persist catalog config" (.upsertCatalogConfig req)
    match updated with
    | none => .throw .namespaceNotFound
    | some updated => return updated

def rotateAPIKey : ConfigM P String := do
  let _ ← request .withWriter
  let (plaintext, hash) ← requestIn "generate api key" .generateAPIKey
  let found ← requestIn "replace api key hash" (.replaceAPIKeyHash hash)
  if found then return plaintext else .throw .namespaceNotFound

/-! ### A patch -/

def lockReason : String :=
  "Dense collections already exist. Changing their shape requires a separate migration."

def configurationLocks (out : Configuration P) : ConfigM P (Configuration P) :=
  if S.denseCollections then do
    let found ← request (.denseCollectionsExist out.generation)
    return if found then
      { out with locks := [(.embeddingDim, lockReason), (.denseDistance, lockReason)] } else out
  else return out

/-- A field of the shape of the collections may change only while there are none. -/
def checkShape [DecidableEq P] (current : Configuration P) (values : Values P)
    (f : ConfigurationField) : ConfigM P Unit :=
  if values f = current.values f then return ()
  else do
    let found ← request (.denseCollectionsExist current.generation)
    if found then .throw (configurationInvalid "embeddings" f.name
      "Dense collections exist; a separate collection migration is required")
    else return ()

def validateConfiguration [DecidableEq P] (group : Group) (current : Configuration P)
    (values : Values P) : ConfigM P Unit := do
  Program.ofExcept (validateValues S.runtime group values)
  if values .denseSource = catalog then
    (validateCatalogStrategy S ⟨true, (values .catalogStrategyID).getD "",
        (values .catalogStrategyVersion).getD "", some (values .catalogStrategyParams), 0, 0⟩
      (some (values .embeddingDim))).mapError fun e =>
        configurationInvalid "embeddings" "catalog_strategy_id" e.message
  if S.denseCollections ∧ group = .embeddings then
    checkShape current values .embeddingDim
    checkShape current values .denseDistance

def conflict (current : Configuration P) : Error P :=
  .configuration ⟨409, "configuration_conflict", "This group changed since you started editing. " ++
    "Review the current values before saving.", [], some current⟩

/-- The part of the transaction that validates; the locks are for the caller. -/
def reviewConfiguration [DecidableEq P] (req : ConfigurationPatch P) (group : Group)
    (current : Configuration P) : ConfigM P (List (ConfigurationField × String)) :=
  if current.generation ≠ req.generation ∨ current.revision group ≠ req.baseRevision then
    .throw (conflict current)
  else do
    let current ← configurationLocks S current
    validateConfiguration S group current fun f =>
      (req.change S.runtime f).getD (current.values f)
    return current.locks

def changeConfiguration [DecidableEq P] (req : ConfigurationPatch P) (group : Group)
    (validateOnly : Bool) : ConfigM P (Configuration P) := do
  let current ← request .lockConfiguration
  let reviewed : Except (Error P) (List (ConfigurationField × String)) ←
    (reviewConfiguration S req group current).attempt
  match reviewed with
  | .error e =>
    let _ : Except (Error P) Unit ← Program.ask (Call.rollback : Call P)
    .throw e
  | .ok locks =>
    let result ← request (.commitConfiguration req validateOnly)
    return { result with locks := locks }

/-- `errors.As`, for a configuration error with a snapshot. -/
def Error.snapshot : Error P → Option (Configuration P)
  | .configuration err => err.current
  | .wrap _ err => err.snapshot
  | _ => none

def Error.withSnapshot (current : Configuration P) : Error P → Error P
  | .configuration err => .configuration { err with current := some current }
  | .wrap context err => .wrap context (err.withSnapshot current)
  | err => err

/-- `errors.Is`, for the errors of the lifecycle. -/
def Error.isLifecycle (target : Lifecycle.Error) : Error P → Bool
  | .lifecycle err => err.is target
  | .wrap _ err => err.isLifecycle target
  | _ => false

/-- What the caller of a failed patch is told. -/
def reportPatch (e : Error P) : ConfigM P (Configuration P) := do
  let e ← match e.snapshot with
    | none => pure e
    | some current => do
      let current ← configurationLocks S current
      pure (e.withSnapshot current)
  if e.isLifecycle .namespaceNotFound ∨ e.isLifecycle .namespaceNotActive then
    .throw (notFound "Namespace is not active or does not exist")
  else if e.isLifecycle .systemResetting then
    .throw (.configuration ⟨409, "system_resetting",
      "System reset is in progress; retry after it completes", [], none⟩)
  else .throw e

def patchConfiguration [DecidableEq P] (req : ConfigurationPatch P) (validateOnly : Bool) :
    ConfigM P (Configuration P) := do
  let group ← Program.ofExcept (validateConfigurationPatch S.runtime req)
  let _ ← request .readConfiguration
  let result : Except (Error P) (Configuration P) ← Program.attempt do
    let _ ← request .withWriter
    (changeConfiguration S req group validateOnly).mapError (.wrap "namespace config transaction")
  match result with
  | .ok result => return result
  | .error e => reportPatch S e

/-! ### Sessions -/

inductive Request (P : Type) where
  | upsert (req : UpsertRequest P)
  | updateCatalogConfig (req : UpdateCatalogRequest P)
  | patchConfiguration (req : ConfigurationPatch P) (validateOnly : Bool)
  | rotateAPIKey
  | createDenseCollections (generation : ℤ)

inductive Result (P : Type) where
  | upserted (response : UpsertResponse)
  | updated (row : Row P)
  | patched (configuration : Configuration P)
  | rotated (apiKey : String)
  | created

def Request.run [DecidableEq P] : Request P → ConfigM P (Result P)
  | .upsert req => do
    let response ← NsConfig.upsert S ns req
    return .upserted response
  | .updateCatalogConfig req => do
    let row ← NsConfig.updateCatalogConfig S req
    return .updated row
  | .patchConfiguration req validateOnly => do
    let configuration ← NsConfig.patchConfiguration S req validateOnly
    return .patched configuration
  | .rotateAPIKey => do
    let apiKey ← NsConfig.rotateAPIKey
    return .rotated apiKey
  | .createDenseCollections generation => do
    let _ ← request (.createDenseCollections generation)
    return .created

abbrev Scene (P : Type) := Sessions (Store P) (Call P) Answer (Error P) (Result P) (Request P)

abbrev Action (P : Type) := PoolAction (Request P) Outcome

def step [DecidableEq P] : Scene P → Action P → Option (Scene P) :=
  Sessions.step (serve S.runtime ns) (Request.run S ns)

end Methods

end Codohue.NsConfig
