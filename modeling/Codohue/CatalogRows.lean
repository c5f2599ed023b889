import Codohue.Catalog
import Codohue.SerialTable

/-!
The table `catalog_items` and the statements that the catalog service, the embedder and the
admin service run on it. A statement is atomic, and its `NOW()` is an argument.
-/

namespace Codohue.CatalogRows

open Catalog (State Item)

structure Row (η : Type) where
  ns : String
  objectID : String
  content : String
  contentHash : η
  state : State
  strategyID : Option String
  strategyVersion : Option String
  attemptCount : ℕ
  lastError : Option String
  updatedAt : ℤ
  deriving DecidableEq, Repr

abbrev Items (η : Type) := SerialTable (Row η)

variable {η : Type}

namespace Row

/-- What the embedder reads: a null strategy is the empty string. -/
def item (row : Row η) : Item η where
  ns := row.ns
  objectID := row.objectID
  state := row.state
  content := row.content
  contentHash := row.contentHash
  strategyID := row.strategyID.getD ""
  strategyVersion := row.strategyVersion.getD ""
  attemptCount := row.attemptCount
  lastError := row.lastError

/-- `(strategy_id, strategy_version) = (id, version)`, which no null satisfies. -/
def under (id version : String) (row : Row η) : Bool :=
  row.strategyID = some id && row.strategyVersion = some version

def pending (now : ℤ) (row : Row η) : Row η :=
  { row with state := .pending, attemptCount := 0, lastError := none, updatedAt := now }

end Row

/-- `ORDER BY updated_at LIMIT limit`. -/
def oldest (limit : ℕ) (rows : List (ℕ × Row η)) : List (ℕ × Row η) :=
  (rows.mergeSort fun a b => a.2.updatedAt ≤ b.2.updatedAt).take limit

/-! ### The embedder -/

section Embedder

def markInFlight (id : ℕ) (now : ℤ) (t : Items η) : Items η :=
  t.updateWhere (fun k _ => k = id) fun row =>
    { row with state := .inFlight, attemptCount := row.attemptCount + 1, updatedAt := now }

def markEmbedded [DecidableEq η] (id : ℕ) (strategyID strategyVersion : String) (hash : η)
    (now : ℤ) (t : Items η) : Items η :=
  t.updateWhere (fun k row => k = id && row.contentHash = hash) fun row =>
    { row with
      state := .embedded, strategyID := some strategyID, strategyVersion := some strategyVersion,
      lastError := none, attemptCount := 0, updatedAt := now }

def markFailed (id : ℕ) (lastError : String) (now : ℤ) (t : Items η) : Items η :=
  t.updateWhere (fun k _ => k = id) fun row =>
    { row with state := .failed, lastError := some lastError, updatedAt := now }

def markDeadLetter (id : ℕ) (lastError : String) (now : ℤ) (t : Items η) : Items η :=
  t.updateWhere (fun k _ => k = id) fun row =>
    { row with state := .deadLetter, lastError := some lastError, updatedAt := now }

def listStrandedPending (ns : String) (cutoff : ℤ) (limit : ℕ) (t : Items η) :
    List (ℕ × Row η) :=
  oldest limit
    (t.selectWhere fun _ row => row.ns = ns && row.state = .pending && row.updatedAt < cutoff)

/-- The rows that `ResetStrandedInFlight` resets and returns. -/
def strandedInFlight (ns : String) (cutoff : ℤ) (limit : ℕ) (t : Items η) : List (ℕ × Row η) :=
  oldest limit
    (t.selectWhere fun _ row => row.ns = ns && row.state = .inFlight && row.updatedAt < cutoff)

def resetStrandedInFlight (ns : String) (cutoff : ℤ) (limit : ℕ) (now : ℤ) (t : Items η) :
    Items η :=
  let ids := (strandedInFlight ns cutoff limit t).map Prod.fst
  t.updateWhere (fun k _ => k ∈ ids) fun row => { row with state := .pending, updatedAt := now }

end Embedder

/-! ### The admin service -/

/-- What `onlyState` narrows a re-embed to; by default the rows off the target version. -/
inductive OnlyState where
  | stale
  | all
  | embedded
  | failed
  deriving DecidableEq, Repr

/-- The `WHERE` of `reembedResetSQL`. -/
def resets (ns strategyID strategyVersion : String) (onlyState : OnlyState) (row : Row η) : Bool :=
  row.ns = ns && match onlyState with
    | .stale => row.state ∈ [.embedded, .failed, .deadLetter] &&
        !row.under strategyID strategyVersion
    | .all => row.state ∈ [.embedded, .failed, .deadLetter]
    | .embedded => row.state = .embedded
    | .failed => row.state ∈ [.failed, .deadLetter]

def reembedReset (ns strategyID strategyVersion : String) (onlyState : OnlyState) (now : ℤ)
    (t : Items η) : Items η :=
  t.updateWhere (fun _ => resets ns strategyID strategyVersion onlyState) fun row =>
    { row.pending now with strategyVersion := none }

def redriveCatalogItem (ns : String) (id : ℕ) (now : ℤ) (t : Items η) : Items η :=
  t.updateWhere (fun k row => row.ns = ns && k = id && row.state ∈ [.failed, .deadLetter])
    (Row.pending now)

def bulkRedriveDeadletter (ns : String) (now : ℤ) (t : Items η) : Items η :=
  t.updateWhere (fun _ row => row.ns = ns && row.state = .deadLetter) (Row.pending now)

def deleteCatalogItem (ns : String) (id : ℕ) (t : Items η) : Items η :=
  t.deleteWhere fun k row => row.ns = ns && k = id

/-! ### The catalog service -/

section Ingest

variable [DecidableEq η] (contentHash : String → η)

/-- The row that `Upsert` inserts. -/
def newRow (ns objectID content : String) (now : ℤ) : Row η where
  ns := ns
  objectID := objectID
  content := content
  contentHash := contentHash content
  state := .pending
  strategyID := none
  strategyVersion := none
  attemptCount := 0
  lastError := none
  updatedAt := now

/-- `ON CONFLICT DO UPDATE`: other content makes the row pending again. -/
def reingest (content : String) (now : ℤ) (row : Row η) : Row η :=
  if row.contentHash = contentHash content then { row with content := content, updatedAt := now }
  else { row.pending now with content := content, contentHash := contentHash content }

def upsert (ns objectID content : String) (now : ℤ) (t : Items η) : Items η :=
  let same : ℕ → Row η → Bool := fun _ row => row.ns = ns && row.objectID = objectID
  if (t.selectWhere same).isEmpty then t.insert (newRow contentHash ns objectID content now)
  else t.updateWhere same (reingest contentHash content now)

end Ingest

/-! ### Statements -/

/-- A statement on `catalog_items` outside of a re-embed run's start. -/
inductive Stmt (η : Type) where
  | upsert (ns objectID content : String) (now : ℤ)
  | markInFlight (id : ℕ) (now : ℤ)
  | markEmbedded (id : ℕ) (strategyID strategyVersion : String) (hash : η) (now : ℤ)
  | markFailed (id : ℕ) (lastError : String) (now : ℤ)
  | markDeadLetter (id : ℕ) (lastError : String) (now : ℤ)
  | resetStrandedInFlight (ns : String) (cutoff : ℤ) (limit : ℕ) (now : ℤ)
  | redriveCatalogItem (ns : String) (id : ℕ) (now : ℤ)
  | bulkRedriveDeadletter (ns : String) (now : ℤ)
  | deleteCatalogItem (ns : String) (id : ℕ)

def Stmt.run [DecidableEq η] (contentHash : String → η) (t : Items η) : Stmt η → Items η
  | .upsert ns objectID content now => CatalogRows.upsert contentHash ns objectID content now t
  | .markInFlight id now => CatalogRows.markInFlight id now t
  | .markEmbedded id strategyID strategyVersion hash now =>
    CatalogRows.markEmbedded id strategyID strategyVersion hash now t
  | .markFailed id lastError now => CatalogRows.markFailed id lastError now t
  | .markDeadLetter id lastError now => CatalogRows.markDeadLetter id lastError now t
  | .resetStrandedInFlight ns cutoff limit now =>
    CatalogRows.resetStrandedInFlight ns cutoff limit now t
  | .redriveCatalogItem ns id now => CatalogRows.redriveCatalogItem ns id now t
  | .bulkRedriveDeadletter ns now => CatalogRows.bulkRedriveDeadletter ns now t
  | .deleteCatalogItem ns id => CatalogRows.deleteCatalogItem ns id t

/-- A statement updates rows and leaves their names, deletes rows, or inserts one under a new
name. -/
lemma Stmt.run_cases [DecidableEq η] (contentHash : String → η) (t : Items η) (s : Stmt η) :
    (∃ p f, (∀ row : Row η, (f row).ns = row.ns ∧ (f row).objectID = row.objectID) ∧
        s.run contentHash t = t.updateWhere p f) ∨
      (∃ p, s.run contentHash t = t.deleteWhere p) ∨
      ∃ row, (∀ k row', t.lookup k = some row' → row'.ns = row.ns → row'.objectID ≠ row.objectID) ∧
        s.run contentHash t = t.insert row := by
  cases s with
  | upsert ns obj content now =>
    simp only [Stmt.run, CatalogRows.upsert]
    split_ifs with he
    · refine .inr (.inr ⟨_, fun k row' hk hns ho => ?_, rfl⟩)
      have hm : (k, row') ∈ t.selectWhere
          (fun _ row => row.ns = ns && row.objectID = obj) := by
        rw [SerialTable.mem_selectWhere]
        exact ⟨hk, by simpa [newRow] using And.intro hns ho⟩
      rw [List.isEmpty_iff.mp he] at hm
      cases hm
    · refine .inl ⟨_, _, fun row => ?_, rfl⟩
      rw [reingest]
      split_ifs <;> exact ⟨rfl, rfl⟩
  | deleteCatalogItem ns id => exact .inr (.inl ⟨_, rfl⟩)
  | markInFlight | markEmbedded | markFailed | markDeadLetter | resetStrandedInFlight
  | redriveCatalogItem | bulkRedriveDeadletter =>
    refine .inl ⟨_, _, fun row => ?_, rfl⟩
    exact ⟨rfl, rfl⟩

end Codohue.CatalogRows
