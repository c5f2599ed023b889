import Codohue.Catalog
import Codohue.Coordinator

/-!
`ProcessItem` of `internal/embedder`, one store call at a time.

The vectors, the content hash and the strategies are parameters: a registry builds strategies
that report the id and the version they were built for, and a cache only ever holds what the
registry built for its key. What the stores, the lease and the strategy answer to one step is
its `Reply`.
-/

namespace Codohue.Embedder

open Catalog Coordinator

/-! ### Strategies -/

inductive EmbedError where
  | zeroNorm
  | inputTooLarge
  | dimensionMismatch
  | transient (text : String)
  | other (text : String)
  deriving DecidableEq, Repr

def EmbedError.message : EmbedError → String
  | .zeroNorm => "embedstrategy: produced zero-norm vector"
  | .inputTooLarge => "embedstrategy: content exceeds strategy max input bytes"
  | .dimensionMismatch => "embedstrategy: produced dim != namespace embedding_dim"
  | .transient text => text
  | .other text => text

/-- No retry can make the content embeddable. -/
def EmbedError.terminal : EmbedError → Bool
  | .zeroNorm | .inputTooLarge | .dimensionMismatch => true
  | .transient _ | .other _ => false

structure Strategy (V : Type) where
  id : String
  version : String
  embed : String → Except EmbedError V

/-- The part of the namespace configuration that the embedder reads. -/
structure Config where
  denseSource : String
  catalogStrategyID : String
  catalogStrategyVersion : String
  catalogStrategyParams : String
  catalogMaxAttempts : ℤ
  embeddingDim : ℕ
  deriving DecidableEq, Repr

/-- What `strategyCacheKey` hashes. -/
structure CacheKey where
  id : String
  version : String
  params : String
  deriving DecidableEq, Repr

def strategyCacheKey (cfg : Config) : CacheKey :=
  ⟨cfg.catalogStrategyID, cfg.catalogStrategyVersion, cfg.catalogStrategyParams⟩

/-- A strategy reports the id and the version it is registered under. -/
structure Registry (V : Type) where
  build : CacheKey → Except String (Strategy V)
  registered : ∀ key s, build key = .ok s → s.id = key.id ∧ s.version = key.version

/-- The cached strategy of one namespace in one process. -/
structure Cache {V : Type} (R : Registry V) where
  entry : Option (CacheKey × Strategy V)
  built : ∀ key s, entry = some (key, s) → R.build key = .ok s

variable {V η : Type} {R : Registry V}

def Cache.empty (R : Registry V) : Cache R := ⟨none, by simp⟩

def Cache.store (key : CacheKey) (s : Strategy V) (h : R.build key = .ok s) : Cache R :=
  ⟨some (key, s), by rintro _ _ ⟨⟩; exact h⟩

/-- The strategy of the configuration, and the cache afterwards. -/
def resolveStrategy (cache : Cache R) (cfg : Config) : Except String (Strategy V) × Cache R :=
  let key := strategyCacheKey cfg
  match cache.entry with
  | some (cached, s) => if cached = key then (.ok s, cache) else rebuild key
  | none => rebuild key
where
  rebuild (key : CacheKey) : Except String (Strategy V) × Cache R :=
    match h : R.build key with
    | .ok s => (.ok s, Cache.store key s h)
    | .error text => (.error text, cache)

/-- The cache changes nothing about which strategy is used. -/
theorem resolveStrategy_fst (cache : Cache R) (cfg : Config) :
    (resolveStrategy cache cfg).1 = R.build (strategyCacheKey cfg) := by
  have hr : ∀ key, (resolveStrategy.rebuild cache key).1 = R.build key := by
    intro key
    unfold resolveStrategy.rebuild
    split <;> simp_all
  unfold resolveStrategy
  cases he : cache.entry with
  | none => exact hr _
  | some cached =>
    obtain ⟨key, s⟩ := cached
    simp only
    split_ifs with hk
    · subst hk
      exact (cache.built _ _ he).symm
    · exact hr _

/-! ### The stores -/

/-- The dense point of the object: its vector and the strategy in its payload. -/
structure Point (V : Type) where
  vector : V
  strategyID : String
  strategyVersion : String
  deriving DecidableEq, Repr

/-- What one item lives in: its row, the configuration of its namespace, the lifecycle rows
and the dense point of its object. -/
structure World (V η : Type) where
  row : Option (Item η)
  config : Option Config
  lifecycle : Lifecycle.Store
  point : Option (Point V)

structure Reply (R : Registry V) where
  /-- The outcome of the store call of this step. -/
  o : Outcome
  /-- The lease: its two locks, and the reads of the system and the namespace row. -/
  lock : Outcome
  system : Outcome
  ns : Outcome
  /-- A failure of the strategy itself. -/
  embed : Option EmbedError
  /-- The strategy cache of the process. -/
  cache : Cache R

/-! ### ProcessItem -/

inductive ProcessOutcome where
  | embedded
  | deadLetter
  | skipped
  | failed
  deriving DecidableEq, Repr

def ProcessOutcome.shouldAck (o : ProcessOutcome) : Bool := o ≠ .failed

/-- The store call that `ProcessItem` makes next. -/
inductive Pc (V η : Type) where
  | load
  | lease (item : Item η)
  | config (item : Item η)
  | markInFlight (item : Item η) (cfg : Config)
  | embed (item : Item η) (cfg : Config)
  | ensureCollections (item : Item η) (s : Strategy V) (vec : V)
  | idmap (item : Item η) (s : Strategy V) (vec : V)
  | upsertVector (item : Item η) (s : Strategy V) (vec : V)
  | markEmbedded (item : Item η) (s : Strategy V)
  | markFailed (reason : String)
  | markDeadLetter (reason : String)
  | done (outcome : ProcessOutcome) (err : Option String)

/-- The gates of `WithWriter`: both locks, an active system row and an active namespace row. -/
def leaseOpen (db : Lifecycle.Store) (ns : String) (r : Reply R) : Bool :=
  r.lock.error.isNone && r.system.error.isNone && db.system.state = .active &&
    r.ns.error.isNone && (db.row ns).any fun row => row.state = .active

/-- The namespace override, then the default of the deployment, then five. -/
def maxAttempts (defaultMaxAttempts : ℤ) (cfg : Config) : ℤ :=
  if 0 < cfg.catalogMaxAttempts then cfg.catalogMaxAttempts
  else if 0 < defaultMaxAttempts then defaultMaxAttempts
  else 5

/-- The state write of a failure: best effort, and the outcome is `failed` in every case. -/
def failedStep (w : World V η) (reason : String) (o : Outcome) : World V η :=
  match o with
  | .fail _ => w
  | _ => { w with row := w.row.map (Catalog.markFailed reason) }

def configStep (w : World V η) (item : Item η) (o : Outcome) : Pc V η :=
  match o.error, w.config with
  | some err, _ => .done .failed (some ("load namespace config: " ++ err.message))
  | none, none => .done .skipped none
  | none, some cfg =>
    if cfg.denseSource ≠ "catalog" then .done .skipped none
    else if item.state = .embedded ∧ item.strategyID = cfg.catalogStrategyID ∧
        item.strategyVersion = cfg.catalogStrategyVersion then
      .done .skipped none
    else .markInFlight item cfg

def inFlightStep (defaultMaxAttempts : ℤ) (w : World V η) (item : Item η) (cfg : Config)
    (o : Outcome) : World V η × Pc V η :=
  match o, w.row with
  | .fail text, _ => (w, .done .failed (some ("mark in_flight: " ++ text)))
  | .lost text, row =>
    ({ w with row := row.map Catalog.markInFlight },
      .done .failed (some ("mark in_flight: " ++ text)))
  | .ok, none => (w, .done .skipped none)
  | .ok, some row =>
    let row' := Catalog.markInFlight row
    ({ w with row := some row' }, if maxAttempts defaultMaxAttempts cfg < row'.attemptCount then
        .markDeadLetter ("attempt " ++ toString row'.attemptCount ++ " exceeds max " ++
          toString (maxAttempts defaultMaxAttempts cfg))
      else .embed item cfg)

def embedStep (dim : V → ℕ) (item : Item η) (cfg : Config) (r : Reply R) : Pc V η :=
  match (resolveStrategy r.cache cfg).1 with
  | .error text => .markDeadLetter ("strategy resolve: " ++ text)
  | .ok s =>
    match r.embed.elim (s.embed item.content) .error with
    | .error err => if err.terminal then .markDeadLetter err.message else .markFailed err.message
    | .ok vec =>
      if dim vec ≠ cfg.embeddingDim then
        .markDeadLetter ("dim mismatch: produced=" ++ toString (dim vec) ++ " expected=" ++
          toString cfg.embeddingDim)
      else .ensureCollections item s vec

def upsertStep (w : World V η) (item : Item η) (s : Strategy V) (vec : V) (o : Outcome) :
    World V η × Pc V η :=
  let written := { w with point := some ⟨vec, s.id, s.version⟩ }
  match o with
  | .ok => (written, .markEmbedded item s)
  | .fail text => (w, .markFailed ("qdrant: " ++ text))
  | .lost text => (written, .markFailed ("qdrant: " ++ text))

def markEmbeddedStep [DecidableEq η] (w : World V η) (item : Item η) (s : Strategy V)
    (o : Outcome) : World V η × Pc V η :=
  match o, Catalog.markEmbedded s.id s.version item.contentHash w.row with
  | .fail text, _ => (w, .done .failed (some ("mark embedded: " ++ text)))
  | _, none =>
    (w, .done .failed (some "mark embedded: embedder: catalog item changed during embed"))
  | .ok, some row => ({ w with row := some row }, .done .embedded none)
  | .lost text, some row =>
    ({ w with row := some row }, .done .failed (some ("mark embedded: " ++ text)))

def deadLetterStep (w : World V η) (reason : String) (o : Outcome) : World V η × Pc V η :=
  match o, w.row with
  | .fail text, _ => (w, .done .failed (some ("mark dead_letter: " ++ text)))
  | .lost text, row =>
    ({ w with row := row.map (Catalog.markDeadLetter reason) },
      .done .failed (some ("mark dead_letter: " ++ text)))
  | .ok, none => (w, .done .failed (some "mark dead_letter: embedder: catalog item not found"))
  | .ok, some row =>
    ({ w with row := some (Catalog.markDeadLetter reason row) }, .done .deadLetter none)

variable [DecidableEq η] (dim : V → ℕ) (defaultMaxAttempts : ℤ)

/-- One step of `ProcessItem`; `none` once it has returned. -/
def step (w : World V η) (r : Reply R) : Pc V η → Option (World V η × Pc V η)
  | .load =>
    match r.o.error, w.row with
    | some err, _ => some (w, .done .failed (some ("load catalog item: " ++ err.message)))
    | none, none => some (w, .done .skipped none)
    | none, some item => some (w, .lease item)
  | .lease item =>
    if leaseOpen w.lifecycle item.ns r then some (w, .config item)
    else
      -- the callback never ran: the outcome still has its zero value
      some (w, .done .embedded (some "lease"))
  | .config item => some (w, configStep w item r.o)
  | .markInFlight item cfg => some (inFlightStep defaultMaxAttempts w item cfg r.o)
  | .embed item cfg => some (w, embedStep dim item cfg r)
  | .ensureCollections item s vec =>
    match r.o.error with
    | some err => some (w, .markFailed ("ensure dense collections: " ++ err.message))
    | none => some (w, .idmap item s vec)
  | .idmap item s vec =>
    match r.o.error with
    | some err => some (w, .markFailed ("idmap: " ++ err.message))
    | none => some (w, .upsertVector item s vec)
  | .upsertVector item s vec => some (upsertStep w item s vec r.o)
  | .markEmbedded item s => some (markEmbeddedStep w item s r.o)
  | .markFailed reason => some (failedStep w reason r.o, .done .failed (some reason))
  | .markDeadLetter reason => some (deadLetterStep w reason r.o)
  | .done _ _ => none

end Codohue.Embedder
