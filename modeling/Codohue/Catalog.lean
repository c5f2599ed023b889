import Mathlib.Data.Nat.Notation

/-!
One row of `catalog_items` and the statements that the catalog service and the embedder run
on it. Every statement names its row by id, so what happens to one item is a matter of its own
row; `none` is a row that does not exist.
-/

namespace Codohue.Catalog

inductive State where
  | pending
  | inFlight
  | embedded
  | failed
  | deadLetter
  deriving DecidableEq, Repr

/-- A null strategy is read as the empty string. -/
structure Item (η : Type) where
  ns : String
  objectID : String
  state : State
  content : String
  contentHash : η
  strategyID : String
  strategyVersion : String
  attemptCount : ℕ
  lastError : Option String
  deriving DecidableEq, Repr

variable {η : Type}

section Ingest

variable [DecidableEq η] (contentHash : String → η)

/-- `Upsert`: the row it leaves, and whether the item must be published. -/
def upsert (ns objectID content : String) : Option (Item η) → Item η × Bool
  | none =>
    ({ ns := ns, objectID := objectID, state := .pending, content := content,
       contentHash := contentHash content, strategyID := "", strategyVersion := "",
       attemptCount := 0, lastError := none }, true)
  | some item =>
    let hash := contentHash content
    if item.contentHash = hash then ({ item with content := content }, false)
    else
      ({ item with content := content, contentHash := hash, state := .pending,
                   attemptCount := 0, lastError := none }, true)

/-- `MarkEmbedded`; `none` if the guard on the content hash found no row. -/
def markEmbedded (strategyID strategyVersion : String) (hash : η) :
    Option (Item η) → Option (Item η)
  | none => none
  | some item =>
    if item.contentHash = hash then
      some { item with state := .embedded, strategyID := strategyID,
                       strategyVersion := strategyVersion, lastError := none, attemptCount := 0 }
    else none

end Ingest

/-- `MarkInFlight` returns the new attempt count. -/
def markInFlight (item : Item η) : Item η :=
  { item with state := .inFlight, attemptCount := item.attemptCount + 1 }

def markFailed (lastError : String) (item : Item η) : Item η :=
  { item with state := .failed, lastError := some lastError }

def markDeadLetter (lastError : String) (item : Item η) : Item η :=
  { item with state := .deadLetter, lastError := some lastError }

end Codohue.Catalog
