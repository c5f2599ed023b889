import Codohue.Lifecycle
import Codohue.RepairTypes
import Mathlib.Algebra.Order.Field.Rat

/-!
`internal/nsconfig`: the configuration row of a namespace, the requests that change it, and the
statements that they come down to.

The columns of the four groups are one function of the field, so that a group, a patch and the
trigger that counts revisions speak of them alike. Numbers are rationals, as JSON has no others, and
`P` is the type of JSON objects. All rows are those of one namespace.
-/

namespace Codohue.NsConfig

/-! ### Fields -/

inductive Group where
  | recommendations
  | signals
  | trending
  | embeddings
  deriving DecidableEq, Repr

inductive ConfigurationField where
  | alpha
  | gamma
  | maxResults
  | seenItemsDays
  | excludeAuthored
  | actionWeights
  | lambda
  | trendingWindow
  | trendingTTL
  | lambdaTrending
  | denseSource
  | embeddingDim
  | denseDistance
  | catalogStrategyID
  | catalogStrategyVersion
  | catalogStrategyParams
  | catalogMaxAttempts
  | catalogMaxContentBytes
  deriving DecidableEq, Repr

def Group.name : Group → String
  | .recommendations => "recommendations"
  | .signals => "signals"
  | .trending => "trending"
  | .embeddings => "embeddings"

def ConfigurationField.name : ConfigurationField → String
  | .alpha => "alpha"
  | .gamma => "gamma"
  | .maxResults => "max_results"
  | .seenItemsDays => "seen_items_days"
  | .excludeAuthored => "exclude_authored"
  | .actionWeights => "action_weights"
  | .lambda => "lambda"
  | .trendingWindow => "trending_window"
  | .trendingTTL => "trending_ttl"
  | .lambdaTrending => "lambda_trending"
  | .denseSource => "dense_source"
  | .embeddingDim => "embedding_dim"
  | .denseDistance => "dense_distance"
  | .catalogStrategyID => "catalog_strategy_id"
  | .catalogStrategyVersion => "catalog_strategy_version"
  | .catalogStrategyParams => "catalog_strategy_params"
  | .catalogMaxAttempts => "catalog_max_attempts"
  | .catalogMaxContentBytes => "catalog_max_content_bytes"

def configurationFields : Group → List ConfigurationField
  | .recommendations => [.alpha, .gamma, .maxResults, .seenItemsDays, .excludeAuthored]
  | .signals => [.actionWeights, .lambda]
  | .trending => [.trendingWindow, .trendingTTL, .lambdaTrending]
  | .embeddings => [.denseSource, .embeddingDim, .denseDistance, .catalogStrategyID,
      .catalogStrategyVersion, .catalogStrategyParams, .catalogMaxAttempts,
      .catalogMaxContentBytes]

def Group.all : List Group := [.recommendations, .signals, .trending, .embeddings]

def Group.ofName (name : String) : Option Group := Group.all.find? fun g => g.name = name

def ConfigurationField.group : ConfigurationField → Group
  | .alpha | .gamma | .maxResults | .seenItemsDays | .excludeAuthored => .recommendations
  | .actionWeights | .lambda => .signals
  | .trendingWindow | .trendingTTL | .lambdaTrending => .trending
  | .denseSource | .embeddingDim | .denseDistance | .catalogStrategyID | .catalogStrategyVersion
  | .catalogStrategyParams | .catalogMaxAttempts | .catalogMaxContentBytes => .embeddings

lemma mem_configurationFields : f ∈ configurationFields g ↔ f.group = g := by
  cases g <;> cases f <;> decide

lemma ConfigurationField.name_injective : Function.Injective ConfigurationField.name := by
  intro f f' h
  cases f <;> cases f' <;> first | rfl | exact absurd h (by decide)

/-- What a column holds. The identity of a strategy and the two limits may be null. -/
abbrev Column (P : Type) : ConfigurationField → Type
  | .alpha | .gamma | .lambda | .lambdaTrending => ℚ
  | .maxResults | .seenItemsDays | .trendingWindow | .trendingTTL | .embeddingDim => ℤ
  | .excludeAuthored => Bool
  | .actionWeights | .catalogStrategyParams => P
  | .denseSource | .denseDistance => String
  | .catalogStrategyID | .catalogStrategyVersion => Option String
  | .catalogMaxAttempts | .catalogMaxContentBytes => Option ℤ

instance {P : Type} [DecidableEq P] : (f : ConfigurationField) → DecidableEq (Column P f)
  | .alpha | .gamma | .lambda | .lambdaTrending => inferInstanceAs (DecidableEq ℚ)
  | .maxResults | .seenItemsDays | .trendingWindow | .trendingTTL | .embeddingDim =>
    inferInstanceAs (DecidableEq ℤ)
  | .excludeAuthored => inferInstanceAs (DecidableEq Bool)
  | .actionWeights | .catalogStrategyParams => inferInstanceAs (DecidableEq P)
  | .denseSource | .denseDistance => inferInstanceAs (DecidableEq String)
  | .catalogStrategyID | .catalogStrategyVersion => inferInstanceAs (DecidableEq (Option String))
  | .catalogMaxAttempts | .catalogMaxContentBytes => inferInstanceAs (DecidableEq (Option ℤ))

abbrev Values (P : Type) := (f : ConfigurationField) → Column P f

/-! ### Rows and requests -/

/-- A row of `namespace_configs`. -/
structure Row (P : Type) where
  generation : ℤ
  values : Values P
  revision : Group → ℤ
  apiKeyHash : Option String
  pausedAt : Option ℤ
  createdAt : ℤ
  updatedAt : ℤ

/-- A field that is not given leaves its column alone. -/
structure UpsertRequest (P : Type) where
  provisionAPIKey : String := ""
  actionWeights : Option (List (String × ℚ)) := none
  lambda : Option ℚ := none
  gamma : Option ℚ := none
  maxResults : Option ℤ := none
  seenItemsDays : Option ℤ := none
  excludeAuthored : Option Bool := none
  paused : Option Bool := none
  alpha : Option ℚ := none
  denseSource : Option String := none
  embeddingDim : Option ℤ := none
  denseDistance : Option String := none
  catalogStrategyID : Option String := none
  catalogStrategyVersion : Option String := none
  catalogStrategyParams : Option P := none
  trendingWindow : Option ℤ := none
  trendingTTL : Option ℤ := none
  lambdaTrending : Option ℚ := none

structure UpdateCatalogRequest (P : Type) where
  enabled : Bool
  strategyID : String
  strategyVersion : String
  params : Option P
  maxAttempts : ℤ
  maxContentBytes : ℤ

/-- What a reader of the configuration sees; the locks are fields with a reason. -/
structure Configuration (P : Type) where
  generation : ℤ
  revision : Group → ℤ
  values : Values P
  locks : List (ConfigurationField × String)

/-- A JSON value, with its objects in `P`. -/
inductive Json (P : Type) where
  | null
  | bool (b : Bool)
  | integer (n : ℤ)
  | decimal (x : ℚ)
  | string (s : String)
  | object (p : P)
  | array

structure ConfigurationPatch (P : Type) where
  group : String
  generation : ℤ
  baseRevision : ℤ
  changes : Table String (Json P)

structure ConfigurationError (P : Type) where
  status : ℕ
  code : String
  message : String
  fields : List (String × String)
  current : Option (Configuration P)

inductive Error (P : Type) where
  | invalidConfig (detail : String)
  | catalogViaUpsert
  | embeddingDimLocked
  | unknownStrategy (id version : String)
  | strategyRequired
  | dimensionMismatch (strategyDim namespaceEmbeddingDim : ℤ)
  | provisionConflict
  | namespaceNotFound
  | lifecycle (err : Lifecycle.Error)
  | configuration (err : ConfigurationError P)
  /-- What a driver, a factory or a store reports. -/
  | external (text : String)
  /-- `fmt.Errorf("context: %w", err)`. -/
  | wrap (context : String) (err : Error P)

def Error.message {P : Type} : Error P → String
  | .invalidConfig detail => "nsconfig: invalid configuration: " ++ detail
  | .catalogViaUpsert => "nsconfig: dense_source=catalog requires catalog_strategy_id and " ++
      "catalog_strategy_version in the same request"
  | .embeddingDimLocked =>
    "nsconfig: embedding_dim cannot change while dense collections exist; " ++
      "delete the namespace's dense collections (or the namespace) first"
  | .unknownStrategy id version => "embedstrategy: unknown id/version: " ++ id ++ "@" ++ version
  | .strategyRequired => "strategy_id and strategy_version are required when enabling catalog"
  | .dimensionMismatch strategyDim namespaceEmbeddingDim =>
    "strategy dimension mismatch: strategy_dim=" ++ toString strategyDim ++
      " namespace_embedding_dim=" ++ toString namespaceEmbeddingDim
  | .provisionConflict =>
    "namespace provisioning conflicts with existing credentials or desired configuration"
  | .namespaceNotFound => "nsconfig: namespace not found"
  | .lifecycle err => err.message
  | .configuration err => err.message
  | .external text => text
  | .wrap context err => context ++ ": " ++ err.message

end Codohue.NsConfig
