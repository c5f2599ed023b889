import Codohue.NsConfigRules
import Codohue.Sessions

/-!
The stores behind `internal/nsconfig` for one namespace, and the statements and transactions of its
repository.

A transaction that talks to nobody else in between is one call. The one of `ChangeConfiguration`
asks for the dense collections while it holds its locks, so it is two: what holds the row in between
is the session that has locked it, and the writes of the others wait.
-/

namespace Codohue.NsConfig

open Service

variable {P : Type}

/-! ### Rows -/

section Rows

variable (R : Runtime P)

/-- The defaults of the schema. The producer of a new row is named by the statement. -/
def defaults : Values P
  | .alpha => 7 / 10
  | .gamma => 2 / 100
  | .maxResults => 50
  | .seenItemsDays => 30
  | .excludeAuthored => false
  | .actionWeights => R.empty
  | .lambda => 95 / 100
  | .trendingWindow => 24
  | .trendingTTL => 600
  | .lambdaTrending => 1 / 10
  | .denseSource => "disabled"
  | .embeddingDim => schemaEmbeddingDim
  | .denseDistance => "cosine"
  | .catalogStrategyID => none
  | .catalogStrategyVersion => none
  | .catalogStrategyParams => R.empty
  | .catalogMaxAttempts => none
  | .catalogMaxContentBytes => none

def freshRow (generation now : ℤ) : Row P where
  generation := generation
  values := defaults R
  revision := fun _ => 1
  apiKeyHash := none
  pausedAt := none
  createdAt := now
  updatedAt := now

/-- The values that an upsert gives to its columns. Those of the catalog are not among them. -/
def UpsertRequest.column (req : UpsertRequest P) : (f : ConfigurationField) → Option (Column P f)
  | .alpha => req.alpha
  | .gamma => req.gamma
  | .maxResults => req.maxResults
  | .seenItemsDays => req.seenItemsDays
  | .excludeAuthored => req.excludeAuthored
  | .actionWeights => req.actionWeights.map R.ofWeights
  | .lambda => req.lambda
  | .trendingWindow => req.trendingWindow
  | .trendingTTL => req.trendingTTL
  | .lambdaTrending => req.lambdaTrending
  | .denseSource => req.denseSource.filter (· ≠ "")
  | .embeddingDim => req.embeddingDim
  | .denseDistance => req.denseDistance
  | .catalogStrategyID | .catalogStrategyVersion | .catalogStrategyParams | .catalogMaxAttempts
  | .catalogMaxContentBytes => none

/-- An upsert never moves the producer away from the catalog. -/
def UpsertRequest.apply (req : UpsertRequest P) (values : Values P) : Values P
  | .denseSource =>
    if values .denseSource = catalog then catalog
    else (req.column R .denseSource).getD (values .denseSource)
  | f => (req.column R f).getD (values f)

def UpdateCatalogRequest.apply (req : UpdateCatalogRequest P) (values : Values P) : Values P
  | .denseSource =>
    if req.enabled then catalog
    else if values .denseSource = catalog then "disabled"
    else values .denseSource
  | .catalogStrategyID => if req.enabled then some req.strategyID else none
  | .catalogStrategyVersion => if req.enabled then some req.strategyVersion else none
  | .catalogStrategyParams => req.params.getD R.empty
  | .catalogMaxAttempts =>
    if req.maxAttempts = 0 then values .catalogMaxAttempts else some req.maxAttempts
  | .catalogMaxContentBytes =>
    if req.maxContentBytes = 0 then values .catalogMaxContentBytes else some req.maxContentBytes
  | f => values f

/-- The columns of the group that a patch names. -/
def ConfigurationPatch.apply (req : ConfigurationPatch P) (values : Values P) : Values P :=
  fun f => if Group.ofName req.group = some f.group then (req.change R f).getD (values f)
    else values f

def Row.configuration (row : Row P) : Configuration P :=
  ⟨row.generation, row.revision, row.values, []⟩


variable [DecidableEq P]

/-- The trigger `advance_configuration_revisions`. -/
def advance (old new : Row P) : Row P :=
  { new with revision := fun g => old.revision g +
      if ∃ f ∈ configurationFields g, new.values f ≠ old.values f then 1 else 0 }

/-- The `UPDATE` of `Upsert`. -/
def upsertRow (req : UpsertRequest P) (now : ℤ) (row : Row P) : Row P :=
  advance row { row with
    values := req.apply R row.values
    -- pausing again keeps the time of the first pause
    pausedAt := match req.paused with
      | none => row.pausedAt
      | some true => some (row.pausedAt.getD now)
      | some false => none
    updatedAt := now }

/-- The `UPDATE` of `UpsertCatalogConfig`. -/
def catalogRow (req : UpdateCatalogRequest P) (now : ℤ) (row : Row P) : Row P :=
  advance row { row with values := req.apply R row.values, updatedAt := now }

/-- The `UPDATE` of `SetAPIKeyHash`: the first hash stays. -/
def keyRow (hash : String) (row : Row P) : Row P :=
  if row.apiKeyHash = none then advance row { row with apiKeyHash := some hash } else row

/-- The `UPDATE` of `ReplaceAPIKeyHash`. -/
def rotatedRow (hash : String) (now : ℤ) (row : Row P) : Row P :=
  advance row { row with apiKeyHash := some hash, updatedAt := now }

/-- The `UPDATE` of `ChangeConfiguration`, if there is something to set. -/
def patchRow (req : ConfigurationPatch P) (now : ℤ) (row : Row P) : Row P :=
  if ∃ f, f ∈ (Group.ofName req.group).elim [] configurationFields ∧
      (req.changes.lookup f.name).isSome then
    advance row { row with values := req.apply R row.values, updatedAt := now }
  else row
end Rows

/-! ### Stores -/

/-- The rows of a namespace, the generations whose dense collections exist, and the session that
holds the configuration row. -/
structure Store (P : Type) where
  lifecycles : Lifecycle.Store
  config : Option (Row P)
  provision : Option String
  collections : List ℤ
  lock : Option ℕ

inductive Call (P : Type) where
  | get
  | readConfiguration
  | denseCollectionsExist (generation : ℤ)
  | activate
  | withWriter
  | upsertWithCatalog (req : UpsertRequest P) (catalogReq : Option (UpdateCatalogRequest P))
  | generateAPIKey
  | setAPIKeyHash (hash : String)
  | replaceAPIKeyHash (hash : String)
  | upsertCatalogConfig (req : UpdateCatalogRequest P)
  /-- The transaction of `ChangeConfiguration` up to the validation: both locks, and the read. -/
  | lockConfiguration
  /-- From the validation to its end. -/
  | commitConfiguration (req : ConfigurationPatch P) (validateOnly : Bool)
  | rollback
  /-- What the other processes do. -/
  | createDenseCollections (generation : ℤ)

abbrev Value {P : Type} : Call P → Type
  | .get => Option (Row P)
  | .readConfiguration => Configuration P
  | .denseCollectionsExist _ => Bool
  | .activate => Unit
  | .withWriter => Unit
  | .upsertWithCatalog _ _ => Row P
  -- a plaintext and its hash
  | .generateAPIKey => String × String
  | .setAPIKeyHash _ => Bool
  | .replaceAPIKeyHash _ => Bool
  | .upsertCatalogConfig _ => Option (Row P)
  | .lockConfiguration => Configuration P
  | .commitConfiguration _ _ => Configuration P
  | .rollback => Unit
  | .createDenseCollections _ => Unit

abbrev Answer {P : Type} (c : Call P) : Type := Except (Error P) (Value c)

/-- What comes from outside: the time of the database, and randomness. -/
structure Reply where
  now : ℤ
  key : String
  salt : ℕ
  deriving DecidableEq, Repr

inductive Outcome where
  | ok (reply : Reply)
  /-- The statement or the transaction fails, and nothing of it remains. -/
  | fails (text : String)
  deriving DecidableEq, Repr

section Statements

variable (R : Runtime P) (ns : String)

def notFound (message : String) : Error P := .configuration ⟨404, "not_found", message, [], none⟩

def readConfiguration (s : Store P) : Except (Error P) (Configuration P) :=
  match s.config, s.lifecycles.row ns with
  | some row, some lifecycle =>
    if lifecycle.state = .active ∧ row.generation = lifecycle.generation then .ok row.configuration
    else .error (notFound "Namespace is not active or does not exist")
  | _, _ => .error (notFound "Namespace is not active or does not exist")

/-- `Activate` of the lifecycle service. -/
def activate (s : Store P) : Except (Error P) (Store P) :=
  if s.lifecycles.system.state ≠ .active then .error (.lifecycle .systemResetting)
  else match Lifecycle.activate s.lifecycles ns with
    | .ok (lifecycles, _) => .ok { s with lifecycles := lifecycles }
    | .error e => .error (.lifecycle e)

/-- The gates of `WithWriter`. Its lease is shared, so no call here waits for the lease of
another. -/
def withWriter (s : Store P) : Except (Error P) Unit :=
  if s.lifecycles.system.state ≠ .active then .error (.lifecycle .systemResetting)
  else match Lifecycle.getNamespace s.lifecycles ns with
    | .ok lifecycle =>
      if lifecycle.state = .active then .ok () else .error (.lifecycle .namespaceNotActive)
    | .error e => .error (.lifecycle e)

/-- The first statement of `Upsert`: it seeds a row for the generation that it finds or makes
active, and leaves one that is there. -/
def seed (now : ℤ) (s : Store P) : Except (Error P) (Store P) :=
  if s.lifecycles.system.state ≠ .active then .ok s
  else match Lifecycle.activate s.lifecycles ns with
    | .ok (lifecycles, lifecycle) => .ok { s with
        lifecycles := lifecycles
        config := some (s.config.getD (freshRow R lifecycle.generation now)) }
    | .error .namespaceNotActive => .ok s
    | .error e => .error (.wrap "create namespace config" (.lifecycle e))

def desiredHash (req : UpsertRequest P) (catalogReq : Option (UpdateCatalogRequest P)) : String :=
  R.digest ({ req with provisionAPIKey := "" }, catalogReq)

variable [DecidableEq P]

/-- A provisioning request also sets the key. -/
def provisioned (req : UpsertRequest P) (salt : ℕ) (row : Row P) : Row P :=
  if req.provisionAPIKey = "" then row else keyRow (R.hash req.provisionAPIKey salt) row

/-- The row after the base, the key and the catalog half of an upsert. -/
def writtenRow (req : UpsertRequest P) (catalogReq : Option (UpdateCatalogRequest P))
    (reply : Reply) (row : Row P) : Row P :=
  let row := provisioned R req reply.salt (upsertRow R req reply.now row)
  match catalogReq with
  | none => row
  | some c => catalogRow R c reply.now row

/-- The writes of `UpsertWithCatalog`. -/
def applyUpsert (req : UpsertRequest P) (catalogReq : Option (UpdateCatalogRequest P))
    (reply : Reply) (s : Store P) : Except (Error P) (Row P × Store P) := do
  let s ← seed R ns reply.now s
  match s.config with
  | none => .error (.wrap "upsert namespace config" (.external "no rows in result set"))
  | some row =>
    let row := writtenRow R req catalogReq reply row
    if req.provisionAPIKey = "" then return (row, { s with config := some row })
    else if s.provision.isSome then .error (.external "duplicate key in namespace_provisions")
    else return (row, { s with
      config := some row
      provision := some (desiredHash R req catalogReq) })

/-- The transaction of `UpsertWithCatalog`. A provisioning request creates the namespace or
confirms what has created it. -/
def upsertWithCatalog (req : UpsertRequest P) (catalogReq : Option (UpdateCatalogRequest P))
    (reply : Reply) (s : Store P) : Except (Error P) (Row P × Store P) :=
  if req.provisionAPIKey = "" then applyUpsert R ns req catalogReq reply s
  else match s.config with
    | none => applyUpsert R ns req catalogReq reply s
    | some existing =>
      if s.provision = some (desiredHash R req catalogReq) ∧
          R.compareHashAndPassword (existing.apiKeyHash.getD "") req.provisionAPIKey then
        .ok (existing, s)
      else .error .provisionConflict

/-- The rest of the transaction of `ChangeConfiguration`. -/
def commitConfiguration (req : ConfigurationPatch P) (validateOnly : Bool) (now : ℤ)
    (s : Store P) : Except (Error P) (Configuration P × Store P) := do
  let s := if validateOnly then s else { s with config := s.config.map (patchRow R req now) }
  let result ← readConfiguration ns s
  return (result, { s with lock := none })

/-- What a call does when its statements go through. -/
def perform (t : ℕ) : (c : Call P) → Reply → Store P → Except (Error P) (Value c × Store P)
  | .get, _, s => .ok (s.config, s)
  | .readConfiguration, _, s => (readConfiguration ns s).map fun current => (current, s)
  | .denseCollectionsExist generation, _, s => .ok (generation ∈ s.collections, s)
  | .activate, _, s => (activate ns s).map fun s => ((), s)
  | .withWriter, _, s => (withWriter ns s).map fun _ => ((), s)
  | .upsertWithCatalog req catalogReq, reply, s =>
    (upsertWithCatalog R ns req catalogReq reply s).mapError (.wrap "namespace config transaction")
  | .generateAPIKey, reply, s => .ok ((reply.key, R.hash reply.key reply.salt), s)
  | .setAPIKeyHash hash, _, s =>
    .ok (s.config.any fun row => row.apiKeyHash = none,
      { s with config := s.config.map (keyRow hash) })
  | .replaceAPIKeyHash hash, reply, s =>
    .ok (s.config.isSome, { s with config := s.config.map (rotatedRow hash reply.now) })
  | .upsertCatalogConfig req, reply, s =>
    let config := s.config.map (catalogRow R req reply.now)
    .ok (config, { s with config := config })
  | .lockConfiguration, _, s =>
    if s.config = none then .error (notFound "Namespace does not exist")
    else (readConfiguration ns s).map fun current => (current, { s with lock := some t })
  | .commitConfiguration req validateOnly, reply, s =>
    commitConfiguration R ns req validateOnly reply.now s
  | .rollback, _, s => .ok ((), { s with lock := none })
  | .createDenseCollections generation, _, s =>
    .ok ((), { s with collections := generation :: s.collections })

omit [DecidableEq P] in
/-- A write of the row waits for the session that has locked it. -/
def admits (t : ℕ) (s : Store P) : Call P → Bool
  | .upsertWithCatalog _ _ | .setAPIKeyHash _ | .replaceAPIKeyHash _ | .upsertCatalogConfig _
  | .lockConfiguration => s.lock = none
  | .commitConfiguration _ _ | .rollback => s.lock = some t
  | _ => true

omit [DecidableEq P] in
/-- The stores after a call that has failed. -/
def abandoned (s : Store P) : Call P → Store P
  | .commitConfiguration _ _ | .rollback => { s with lock := none }
  | _ => s

def serve (t : ℕ) (c : Call P) (s : Store P) (o : Outcome) : Option (Answer c × Store P) :=
  if admits t s c then
    match o with
    | .ok reply =>
      match perform R ns t c reply s with
      | .ok (v, s') => some (.ok v, s')
      | .error e => some (.error e, abandoned s c)
    | .fails text => some (.error (.external text), abandoned s c)
  else none

end Statements

end Codohue.NsConfig
