import Codohue.Table
import Mathlib.Algebra.Group.Int.Defs
import Mathlib.Data.Int.ConditionallyCompleteOrder
import Mathlib.Data.List.Sort
import Mathlib.Data.Prod.Lex
import Mathlib.Data.String.Basic
import Mathlib.Order.ConditionallyCompleteLattice.Basic
import Mathlib.Order.WithBot

/-!
The lifecycle rows of `internal/core/nslifecycle`: one row per namespace name, one row for
the whole system, and the SQL statements that read and write them.

A statement is a function of the rows. The rows of `namespace_lifecycles` are never
deleted, so a namespace name only moves forward: through `active`, `deleting` and `deleted`
inside one generation, and from there to the next generation. `stage` says so in one order.
-/

namespace Codohue.Lifecycle

/-! ### Rows and errors -/

inductive NamespaceState where
  | active
  | deleting
  | deleted
  deriving DecidableEq, Repr

inductive SystemState where
  | active
  | resetting
  deriving DecidableEq, Repr

structure NamespaceLifecycle where
  generation : ℤ
  state : NamespaceState
  legacyMessagesAllowed : Bool
  lastError : Option String
  deriving DecidableEq, Repr

/-- The singleton row. The column `legacy_envelopes_disabled_at` is null exactly when the
adoption evidence is, by a check of the table. -/
structure SystemLifecycle where
  state : SystemState
  legacyAdoptionEvidence : Option String
  lastError : Option String
  deriving DecidableEq, Repr

structure Store where
  system : SystemLifecycle
  namespaces : Table String NamespaceLifecycle

inductive Error where
  | namespaceNotFound
  | namespaceNotActive
  | systemResetting
  | adoptionEvidence
  /-- What a driver, a lock session or a cleanup reports. -/
  | external (text : String)
  /-- `fmt.Errorf("context: %w", err)`. -/
  | wrap (context : String) (err : Error)
  /-- `errors.Join(err, other)`. -/
  | join (err other : Error)
  deriving DecidableEq, Repr

def Error.message : Error → String
  | .namespaceNotFound => "namespace lifecycle not found"
  | .namespaceNotActive => "namespace lifecycle is not active"
  | .systemResetting => "system lifecycle is resetting"
  | .adoptionEvidence => "producer adoption evidence is required"
  | .external text => text
  | .wrap context err => context ++ ": " ++ err.message
  | .join err other => err.message ++ "\n" ++ other.message

/-- `errors.Is`, for the sentinel errors. -/
def Error.is (err target : Error) : Bool :=
  match err with
  | .wrap _ err => err.is target
  | .join err other => err.is target || other.is target
  | err => err = target

/-! ### Statements -/

def Store.row (db : Store) (ns : String) : Option NamespaceLifecycle :=
  db.namespaces.lookup ns

def Store.setRow (db : Store) (ns : String) (row : NamespaceLifecycle) : Store :=
  { db with namespaces := db.namespaces.insert ns row }

@[simp] lemma setRow_system (db : Store) (ns : String) (row : NamespaceLifecycle) :
    (db.setRow ns row).system = db.system := rfl

lemma setRow_row (db : Store) (ns ns' : String) (row : NamespaceLifecycle) :
    (db.setRow ns row).row ns' = if ns' = ns then some row else db.row ns' :=
  Table.lookup_insert_eq db.namespaces ns ns' row

/-- The largest value of a `BIGINT` column. -/
def bigintMax : ℤ := 2 ^ 63 - 1

def activate (db : Store) (ns : String) : Except Error (Store × NamespaceLifecycle) :=
  match db.row ns with
  | none =>
    let row : NamespaceLifecycle :=
      { generation := 1, state := .active,
        legacyMessagesAllowed := db.system.legacyAdoptionEvidence.isNone, lastError := none }
    .ok (db.setRow ns row, row)
  | some row =>
    match row.state with
    | .active => .ok (db.setRow ns row, row)
    | .deleting => .error .namespaceNotActive
    | .deleted =>
      if row.generation < bigintMax then
        let row' : NamespaceLifecycle :=
          { generation := row.generation + 1, state := .active,
            legacyMessagesAllowed := false, lastError := none }
        .ok (db.setRow ns row', row')
      else
        .error (.wrap "activate namespace lifecycle" (.external "bigint out of range"))

def getNamespace (db : Store) (ns : String) : Except Error NamespaceLifecycle :=
  match db.row ns with
  | none => .error (.wrap "get namespace lifecycle" .namespaceNotFound)
  | some row => .ok row

def startDelete (db : Store) (ns : String) : Except Error (Store × NamespaceLifecycle) :=
  match db.row ns with
  | none => .error (.wrap "start namespace deletion" .namespaceNotFound)
  | some row =>
    if row.state = .active ∨ row.state = .deleting then
      let row' := { row with state := .deleting, lastError := none }
      .ok (db.setRow ns row', row')
    else .error (.wrap "start namespace deletion" .namespaceNotFound)

def completeDelete (db : Store) (ns : String) (generation : ℤ) : Except Error Store :=
  match db.row ns with
  | none => .error .namespaceNotActive
  | some row =>
    if row.generation = generation ∧ row.state = .deleting then
      .ok (db.setRow ns { row with state := .deleted, lastError := none })
    else .error .namespaceNotActive

def recordNamespaceError (db : Store) (ns : String) (generation : ℤ) (message : String) : Store :=
  match db.row ns with
  | none => db
  | some row =>
    if row.generation = generation ∧ row.state = .deleting then
      db.setRow ns { row with lastError := some message }
    else db

def startReset (db : Store) : Store :=
  { db with system := { db.system with state := .resetting, lastError := none } }

def completeReset (db : Store) : Store :=
  if db.system.state = .resetting then
    { db with system := { db.system with state := .active, lastError := none } }
  else db

def recordResetError (db : Store) (message : String) : Store :=
  if db.system.state = .resetting then
    { db with system := { db.system with lastError := some message } }
  else db

/-- One transaction; the result says whether this call closed the gate. -/
def disableLegacy (db : Store) (adoptionEvidence : String) : Except Error (Store × Bool) :=
  if adoptionEvidence = "" then .error .adoptionEvidence
  else if db.system.legacyAdoptionEvidence.isSome then .ok (db, false)
  else
    .ok ({ system := { db.system with legacyAdoptionEvidence := some adoptionEvidence }
           namespaces := Table.mapRows (fun row => { row with legacyMessagesAllowed := false })
             db.namespaces }, true)

/-- `ORDER BY namespace`. -/
def listNonDeleted (db : Store) : List (String × NamespaceLifecycle) :=
  (Table.select (fun row => row.state ≠ .deleted) db.namespaces).insertionSort fun a b => a.1 ≤ b.1

/-- The first statement of the configuration upsert of `internal/nsconfig`: the same
activation as `activate`, taken only from an active system. -/
def upsertConfig (db : Store) (ns : String) : Store :=
  if db.system.state = .active then
    match activate db ns with
    | .ok (db', _) => db'
    | .error _ => db
  else db

inductive EnvelopeDisposition where
  | process
  | stale
  deriving DecidableEq, Repr

/-- The generation-1 compatibility rule, on the row that the statement read. -/
def evaluateEnvelope (db : Store) (ns : String) (generation : Option ℤ) :
    Except Error EnvelopeDisposition := do
  let lifecycle ← getNamespace db ns
  if lifecycle.state ≠ .active then
    return .stale
  match generation with
  | none => legacy lifecycle
  | some g =>
    if g = 0 then legacy lifecycle
    else if g ≠ lifecycle.generation then return .stale
    else return .process
where
  legacy (lifecycle : NamespaceLifecycle) : Except Error EnvelopeDisposition :=
    if lifecycle.generation = 1 ∧ lifecycle.legacyMessagesAllowed then .ok .process
    else .ok .stale

/-! ### A namespace name only moves forward -/

def NamespaceState.rank : NamespaceState → ℕ
  | .active => 0
  | .deleting => 1
  | .deleted => 2

/-- How far a namespace name has come: no row, then the generation and, inside it, the
state. -/
def stage : Option NamespaceLifecycle → WithBot (ℤ ×ₗ ℕ)
  | none => ⊥
  | some row => ((toLex (row.generation, row.state.rank) : ℤ ×ₗ ℕ) : WithBot (ℤ ×ₗ ℕ))

/-- No namespace moves back from `db` to `db'`. -/
def Forward (db db' : Store) : Prop := ∀ ns, stage (db.row ns) ≤ stage (db'.row ns)

lemma Forward.refl (db : Store) : Forward db db := fun _ => le_rfl

lemma Forward.trans (h : Forward a b) (h' : Forward b c) : Forward a c :=
  fun ns => (h ns).trans (h' ns)

variable {db : Store} {ns : String} {row : NamespaceLifecycle}

lemma forward_setRow (h : stage (db.row ns) ≤ stage (some row)) :
    Forward db (db.setRow ns row) := by
  intro ns'
  rw [setRow_row]
  split_ifs with hns
  · exact hns ▸ h
  · exact le_rfl

/-- No namespace moves back, and none leaves its generation. -/
def Within (db db' : Store) : Prop :=
  ∀ ns row, db.row ns = some row → ∃ row', db'.row ns = some row' ∧
    row'.generation = row.generation ∧ row.state.rank ≤ row'.state.rank

lemma Within.refl (db : Store) : Within db db := fun _ row h => ⟨row, h, rfl, le_rfl⟩

variable {db' : Store}

lemma Within.forward (h : Within db db') : Forward db db' := by
  intro ns
  cases hr : db.row ns with
  | none => exact bot_le
  | some row =>
    obtain ⟨row', hr', hg, hra⟩ := h ns row hr
    rw [hr']
    exact WithBot.coe_le_coe.mpr (Prod.Lex.toLex_le_toLex.mpr (.inr ⟨hg.symm, hra⟩))

/-- The statement touched the row of `ns` and nothing else. -/
structure OnlyRow (ns : String) (db db' : Store) : Prop where
  system : db'.system = db.system
  others : ∀ ns', ns' ≠ ns → db'.row ns' = db.row ns'

lemma OnlyRow.refl (ns : String) (db : Store) : OnlyRow ns db db := ⟨rfl, fun _ _ => rfl⟩

lemma onlyRow_setRow (db : Store) (ns : String) (row : NamespaceLifecycle) :
    OnlyRow ns db (db.setRow ns row) where
  system := rfl
  others := fun ns' hne => by rw [setRow_row, if_neg hne]

lemma within_setRow (hr : db.row ns = some old) (hg : row.generation = old.generation)
    (hra : old.state.rank ≤ row.state.rank) : Within db (db.setRow ns row) := by
  intro ns' row' hr'
  rw [setRow_row]
  split_ifs with hns
  · subst hns
    obtain rfl : old = row' := Option.some.inj (hr.symm.trans hr')
    exact ⟨row, rfl, hg, hra⟩
  · exact ⟨row', hr', rfl, le_rfl⟩

lemma activate_ok (h : activate db ns = .ok (db', row)) :
    db' = db.setRow ns row ∧ row.state = .active ∧ (db.row ns = none ∨ db.row ns = some row ∨
        ∃ old, db.row ns = some old ∧ old.state = .deleted ∧
          row.generation = old.generation + 1) := by
  unfold activate at h
  split at h
  · next hr =>
    cases h
    exact ⟨rfl, rfl, .inl hr⟩
  · next old hr =>
    split at h
    · next ha =>
      cases h
      exact ⟨rfl, ha, .inr (.inl hr)⟩
    · cases h
    · next hd =>
      split at h
      · cases h
        exact ⟨rfl, rfl, .inr (.inr ⟨old, hr, hd, rfl⟩)⟩
      · cases h

lemma activate_forward (h : activate db ns = .ok (db', row)) : Forward db db' := by
  obtain ⟨rfl, -, hr | hr | ⟨old, hr, -, hg⟩⟩ := activate_ok h
  · exact forward_setRow (hr ▸ bot_le)
  · exact forward_setRow (hr ▸ le_rfl)
  · refine forward_setRow (hr ▸ WithBot.coe_le_coe.mpr (Prod.Lex.toLex_le_toLex.mpr (.inl ?_)))
    omega

/-- The statement keeps to one row and to its generation. -/
structure InRow (ns : String) (db db' : Store) : Prop extends OnlyRow ns db db' where
  within : Within db db'

lemma InRow.refl (ns : String) (db : Store) : InRow ns db db := ⟨.refl ns db, .refl db⟩

lemma inRow_setRow (hro : db.row ns = some old) (hg : row.generation = old.generation)
    (hr : old.state.rank ≤ row.state.rank) : InRow ns db (db.setRow ns row) :=
  ⟨onlyRow_setRow db ns row, within_setRow hro hg hr⟩

lemma startDelete_inRow (h : startDelete db ns = .ok (db', row)) : InRow ns db db' := by
  unfold startDelete at h
  split at h
  · cases h
  · next old hr =>
    split at h
    · next hst =>
      cases h
      refine inRow_setRow hr rfl ?_
      rcases hst with hs | hs <;> simp [hs, NamespaceState.rank]
    · cases h

lemma completeDelete_inRow (h : completeDelete db ns gen = .ok db') : InRow ns db db' := by
  unfold completeDelete at h
  split at h
  · cases h
  · next old hr =>
    split at h
    · next ho =>
      cases h
      exact inRow_setRow hr rfl (by simp [ho.2, NamespaceState.rank])
    · cases h

lemma recordNamespaceError_inRow (db : Store) (ns : String) (gen : ℤ)
    (message : String) : InRow ns db (recordNamespaceError db ns gen message) := by
  unfold recordNamespaceError
  split
  · exact .refl ns db
  · next old hr =>
    split_ifs
    · exact inRow_setRow hr rfl le_rfl
    · exact .refl ns db

lemma disableLegacy_within (h : disableLegacy db evidence = .ok (db', changed)) :
    Within db db' := by
  unfold disableLegacy at h
  split_ifs at h
  · cases h
    exact .refl db
  · cases h
    intro ns row hr
    refine ⟨{ row with legacyMessagesAllowed := false }, ?_, rfl, le_rfl⟩
    have hl : db.namespaces.lookup ns = some row := hr
    simp [Store.row, hl]

lemma startReset_within (db : Store) : Within db (startReset db) := .refl db

lemma completeReset_within (db : Store) : Within db (completeReset db) := by
  unfold completeReset
  split_ifs <;> exact .refl db

lemma recordResetError_within (db : Store) (message : String) :
    Within db (recordResetError db message) := by
  unfold recordResetError
  split_ifs <;> exact .refl db

lemma upsertConfig_of_active (hr : db.row ns = some row) (ha : row.state = .active) :
    (upsertConfig db ns).system = db.system ∧ ∀ ns', (upsertConfig db ns).row ns' = db.row ns' := by
  unfold upsertConfig
  split_ifs
  · simp only [activate, hr, ha, setRow_system, setRow_row, true_and]
    intro ns'
    split_ifs with hns
    · rw [hns, hr]
    · rfl
  · exact ⟨rfl, fun _ => rfl⟩

lemma row_of_stage_le (h : stage (some row) ≤ stage next) :
    ∃ row', next = some row' ∧ (row.generation < row'.generation ∨
      row.generation = row'.generation ∧ row.state.rank ≤ row'.state.rank) := by
  cases next with
  | none => exact absurd h (by simp [stage])
  | some row' =>
    exact ⟨row', rfl, Prod.Lex.toLex_le_toLex.mp (WithBot.coe_le_coe.mp h)⟩

end Codohue.Lifecycle
