import Codohue.PhysicalNames
import Codohue.Service

/-!
How a namespace is removed from PostgreSQL, Redis and Qdrant.

The deletion of a namespace and the janitor remove the keys and collections of one generation by
their names; the reset removes whatever looks like one of ours. Every call may fail, and others
work on the stores between two calls.
-/

namespace Codohue.Cleanup

open PhysicalNames Repair Service Text

/-! ### The stores -/

inductive DataTable where
  | events
  | objects
  | catalogItems
  | batchRunLogs
  | catalogBacklogSamples
  | idMappings
  | namespaceConfigs
  deriving DecidableEq, Repr

/-- The rows with their namespaces, the Redis keys and the Qdrant collections. -/
structure Stores where
  rows : List (DataTable × String)
  keys : List String
  collections : List String
  deriving DecidableEq, Repr

inductive StoreCall where
  | lockNamespace (ns : String)
  | lockAllNamespaces
  | clearNamespaceData (ns : String)
  | truncateAllNamespaceData
  | getNamespace (ns : String)
  /-- `SCAN` to its end, with the pattern `start*`. -/
  | scan (start : String)
  | del (keys : List String)
  | existsKeys (keys : List String)
  | collectionExists (collection : String)
  | deleteCollection (collection : String)
  | listCollections
  deriving DecidableEq, Repr

def Value : StoreCall → Type
  | .lockNamespace _ | .lockAllNamespaces | .del _ | .deleteCollection _ => Unit
  | .clearNamespaceData _ | .existsKeys _ => ℕ
  | .truncateAllNamespaceData => ℕ × ℕ
  | .getNamespace _ | .collectionExists _ => Bool
  | .scan _ | .listCollections => List String

abbrev Answer (c : StoreCall) : Type := Except String (Value c)

/-- How many rows of the table there are for which namespaces. -/
def Stores.count (s : Stores) (table : DataTable) (p : String → Bool) : ℕ :=
  s.rows.countP fun row => row.1 = table && p row.2

/-- What a call returns, and what it leaves. -/
def Stores.execute (s : Stores) : (c : StoreCall) → Value c × Stores
  | .lockNamespace _ | .lockAllNamespaces => ((), s)
  | .clearNamespaceData ns =>
    (s.count .events (· = ns), { s with rows := s.rows.filter fun row => row.2 ≠ ns })
  | .truncateAllNamespaceData =>
    ((s.count .events fun _ => true, s.count .namespaceConfigs fun _ => true),
      { s with rows := [] })
  | .getNamespace ns => (decide ((.namespaceConfigs, ns) ∈ s.rows), s)
  | .scan start => (s.keys.filter fun key => start.toList.isPrefixOf key.toList, s)
  | .del keys => ((), { s with keys := s.keys.filter fun key => key ∉ keys })
  | .existsKeys keys => (keys.countP fun key => key ∈ s.keys, s)
  | .collectionExists collection => (decide (collection ∈ s.collections), s)
  | .deleteCollection collection =>
    ((), { s with collections := s.collections.filter fun name => name ≠ collection })
  | .listCollections => (s.collections, s)

inductive Outcome where
  | ok
  /-- The call is not executed. -/
  | fail (e : String)
  /-- The call is executed, and its answer is lost. -/
  | lost (e : String)
  deriving DecidableEq, Repr

def serve (c : StoreCall) (s : Stores) : Outcome → Option (Answer c × Stores)
  | .ok => some (.ok (s.execute c).1, (s.execute c).2)
  | .fail e => some (.error e, s)
  | .lost e => some (.error e, (s.execute c).2)

/-- What others do to the stores. -/
inductive Change where
  | addRow (table : DataTable) (ns : String)
  | addKey (key : String)
  | addCollection (collection : String)
  | execute (c : StoreCall)
  deriving DecidableEq, Repr

def Stores.change (s : Stores) : Change → Stores
  | .addRow table ns => { s with rows := (table, ns) :: s.rows }
  | .addKey key => { s with keys := key :: s.keys }
  | .addCollection collection => { s with collections := collection :: s.collections }
  | .execute c => (s.execute c).2

/-- The stores, with others who keep to the changes in `P`. -/
def stores (P : Change → Prop) : System Stores StoreCall (Subtype P) Outcome Answer where
  perform s change := some (s.change change.1)
  serve := serve

/-! ### The programs -/

abbrev CleanupM (α : Type) := Program StoreCall Answer String α

def request (context : String) (c : StoreCall) : CleanupM (Value c) := do
  let answer ← Program.ask c
  Program.ofExcept (answer.mapError fun e => context ++ ": " ++ e)

/-- `MustPhysicalName` too: its panic ends the program as an error would. -/
def named (kind : PhysicalKind) (ns : String) (generation : ℤ) : CleanupM String :=
  Program.ofExcept (physicalName kind ns generation)

/-- Which clients are wired. -/
structure Clients where
  redis : Bool
  qdrant : Bool
  job : Bool

/-- The keys of one generation are deleted. -/
def purgeRedis (scanning : String → String) (deleting : List String → String) (ns : String)
    (generation : ℤ) : CleanupM Unit := do
  let trending ← named .trending ns generation
  let embedStream ← named .embedStream ns generation
  let cache ← named .recommendationCache ns generation
  let cached : List String ← request (scanning (cache ++ ":*")) (.scan (cache ++ ":"))
  let keys := [trending, embedStream] ++ cached
  request (deleting keys) (.del keys)

def clearNamespaceRedisGeneration (ns : String) (generation : ℤ) : CleanupM Unit :=
  purgeRedis (fun _ => "scan recommendation cache") (fun _ => "delete redis keys") ns generation

def deleteRedisGeneration (clients : Clients) (ns : String) (generation : ℤ) : CleanupM Unit :=
  .when clients.redis <|
    purgeRedis (fun pattern => "scan recommendation cache: scan " ++ quote pattern)
      (fun keys => "delete redis keys: delete " ++ toString keys.length ++ " key(s)") ns generation

def dropCollection (ns : String) (generation : ℤ) (kind : CollectionKind) : CleanupM Unit := do
  let collection ← named (.collection kind) ns generation
  let found : Bool ← request ("check collection " ++ quote collection)
    (.collectionExists collection)
  Program.when found <|
    request ("delete collection " ++ quote collection) (.deleteCollection collection)

def dropCollections (ns : String) (generation : ℤ) : List CollectionKind → CleanupM Unit
  | [] => pure ()
  | kind :: kinds => do
    dropCollection ns generation kind
    dropCollections ns generation kinds

/-- The order in which the collections of a namespace are dropped and looked for. -/
def droppedKinds : List CollectionKind := [.subjects, .objects, .subjectsDense, .objectsDense]

def clearNamespaceQdrantGeneration (ns : String) (generation : ℤ) : CleanupM Unit :=
  dropCollections ns generation droppedKinds

def deleteQdrantGeneration (clients : Clients) (ns : String) (generation : ℤ) : CleanupM Unit :=
  .when clients.qdrant (dropCollections ns generation droppedKinds)

/-- What the janitor does for one candidate. -/
def cleanCandidate (clients : Clients) (ns : String) (generation : ℤ) : CleanupM Unit := do
  let candidate := ns ++ "/" ++ toString generation ++ ": "
  (deleteRedisGeneration clients ns generation).mapError
    ("clean Redis generation " ++ candidate ++ ·)
  (deleteQdrantGeneration clients ns generation).mapError
    ("clean Qdrant generation " ++ candidate ++ ·)

def clearNamespaceEverywhereGeneration (clients : Clients) (ns : String) (generation : ℤ) :
    CleanupM ℕ := do
  let deleted : ℕ ← request ("clear postgres data for " ++ quote ns) (.clearNamespaceData ns)
  Program.when clients.redis <| (clearNamespaceRedisGeneration ns generation).mapError
    ("clear redis data for " ++ quote ns ++ ": " ++ ·)
  Program.when clients.qdrant <| (clearNamespaceQdrantGeneration ns generation).mapError
    ("clear qdrant data for " ++ quote ns ++ ": " ++ ·)
  pure deleted

def verifyRedisAbsent (ns : String) (generation : ℤ) : CleanupM Unit := do
  let trending ← named .trending ns generation
  let embedStream ← named .embedStream ns generation
  let remaining : ℕ ← request ("verify redis cleanup for " ++ quote ns)
    (.existsKeys [trending, embedStream])
  let cache ← named .recommendationCache ns generation
  let cached : List String ← request ("verify recommendation cache cleanup for " ++ quote ns)
    (.scan (cache ++ ":"))
  Program.require (remaining = 0 ∧ cached = [])
    ("verify redis cleanup for " ++ quote ns ++ ": generation " ++ toString generation ++
      " keys remain")

def verifyCollectionsAbsent (ns : String) (generation : ℤ) : List CollectionKind → CleanupM Unit
  | [] => pure ()
  | kind :: kinds => do
    let collection ← named (.collection kind) ns generation
    let found : Bool ← request ("verify qdrant collection " ++ quote collection)
      (.collectionExists collection)
    Program.require (found = false)
      ("verify qdrant cleanup for " ++ quote ns ++ ": collection " ++ quote collection ++
        " remains")
    verifyCollectionsAbsent ns generation kinds

def verifyNamespaceAbsent (clients : Clients) (ns : String) (generation : ℤ) : CleanupM Unit := do
  let found : Bool ← request ("verify postgres cleanup for " ++ quote ns) (.getNamespace ns)
  Program.require (found = false)
    ("verify postgres cleanup for " ++ quote ns ++ ": namespace config remains")
  Program.when clients.redis (verifyRedisAbsent ns generation)
  Program.when clients.qdrant (verifyCollectionsAbsent ns generation droppedKinds)

def deleteNamespaceGeneration (clients : Clients) (ns : String) (generation : ℤ) :
    CleanupM ℕ := do
  Program.when clients.job (request "acquire namespace compute lock" (.lockNamespace ns))
  let deleted ← clearNamespaceEverywhereGeneration clients ns generation
  verifyNamespaceAbsent clients ns generation
  pure deleted

/-! The wipe of a reset. -/

/-- The keys that the scan yields are deleted as soon as there are 500 of them, and the rest at the
end. -/

def flushKeys (pattern : String) : List String → List String → CleanupM Unit
  | [], batch => .when (batch ≠ [])
    (request ("delete redis keys for " ++ quote pattern) (.del batch))
  | key :: keys, batch =>
    if 500 ≤ (batch ++ [key]).length then do
      request ("delete redis keys for " ++ quote pattern) (.del (batch ++ [key]))
      flushKeys pattern keys []
    else flushKeys pattern keys (batch ++ [key])

def flushPatterns : List String → CleanupM Unit
  | [] => pure ()
  | start :: starts => do
    let keys : List String ← request ("scan redis keys for " ++ quote (start ++ "*")) (.scan start)
    flushKeys (start ++ "*") keys []
    flushPatterns starts

def redisPatterns : List String := ["trending:", "catalog:embed:", "rec:"]

def flushAllNamespaceRedis : CleanupM Unit := flushPatterns redisPatterns

def qdrantCollectionSuffixes : List String :=
  ["_subjects_dense", "_objects_dense", "_subjects", "_objects"]

/-- The collection is called like one of ours. -/
def hasCollectionSuffix (name : String) : Bool :=
  qdrantCollectionSuffixes.any fun suffix => suffix.toList.isSuffixOf name.toList

def deleteMatching : List String → CleanupM Unit
  | [] => pure ()
  | name :: names => do
    Program.when (hasCollectionSuffix name) <|
      request ("delete collection " ++ quote name) (.deleteCollection name)
    deleteMatching names

def flushAllNamespaceQdrant : CleanupM Unit := do
  let collections : List String ← request "list collections" .listCollections
  deleteMatching collections

/-- What `ResetApp` does between fencing the namespaces and looking for what is left of them. -/
def wipe (clients : Clients) : CleanupM Unit := do
  Program.when clients.job (request "acquire maintenance compute lock" .lockAllNamespaces)
  let _ ← request "truncate postgres data" .truncateAllNamespaceData
  Program.when clients.redis (flushAllNamespaceRedis.mapError ("flush redis: " ++ ·))
  Program.when clients.qdrant (flushAllNamespaceQdrant.mapError ("flush qdrant: " ++ ·))

end Codohue.Cleanup
