import Codohue.Concurrent
import Codohue.RepairStore
import Codohue.Text
import Mathlib.Algebra.Group.Int.Defs

/-!
The numeric ids of subjects and objects: `internal/core/idmap`.

A batch is resolved in up to three statements. It looks its ids up, inserts those that it did not
find, and looks up again those that someone else has inserted in between. Any number of calls do so
at the same time, and each statement of one may come between two of another.
-/

namespace Codohue.IDMap

open Repair Service Text Transition

/-! ### Statements -/

inductive Statement where
  | lookup (ns : String) (entityType : EntityType) (stringIDs : List String)
  /-- `INSERT … ON CONFLICT (namespace, entity_type, string_id) DO NOTHING RETURNING …`. -/
  | insert (ns : String) (entityType : EntityType) (stringIDs : List String)
  deriving DecidableEq, Repr

/-- The rows that a statement returns. -/
abbrev Rows := List (String × ℤ)

abbrev Answer (_ : Statement) : Type := Except String Rows

def select (m : Mappings) (ns : String) (entityType : EntityType) (stringIDs : List String) :
    Rows :=
  (m.rows.entries.filter fun e =>
    e.1.ns = ns ∧ e.1.entityType = entityType ∧ e.1.stringID ∈ stringIDs).map
      fun e => (e.1.stringID, e.2)

/-- Each row takes the next value of the sequence. One whose identity is there is skipped, and one
whose value is there for another identity of its kind fails the statement. -/
def insertRows (m : Mappings) : List (Identity × ℤ) → Option (Mappings × Rows)
  | [] => some (m, [])
  | (x, n) :: rest =>
    if (m.get x).isSome then insertRows m rest
    else if h : m.Taken x n then none
    else (insertRows (m.set x n h) rest).map fun r => (r.1, (x.stringID, n) :: r.2)

/-- The values of a `BIGINT` column. -/
def Bigint (n : ℤ) : Prop := -2 ^ 63 ≤ n ∧ n < 2 ^ 63

instance (n : ℤ) : Decidable (Bigint n) := inferInstanceAs (Decidable (_ ∧ _))

inductive Outcome where
  /-- The statement draws these values from the sequence. -/
  | ok (drawn : List ℤ)
  | fail (e : String)
  /-- The statement is executed, and its rows are lost. -/
  | lost (drawn : List ℤ) (e : String)
  deriving DecidableEq, Repr

/-- What a statement returns and leaves, with the values that it draws. -/
def execute (m : Mappings) (drawn : List ℤ) : Statement → Option (Except String Rows × Mappings)
  | .lookup ns entityType stringIDs =>
    if drawn = [] then some (.ok (select m ns entityType stringIDs), m) else none
  | .insert ns entityType stringIDs =>
    if drawn.length = stringIDs.length ∧ ∀ n ∈ drawn, Bigint n then
      match insertRows m ((stringIDs.map (Identity.mk ns entityType)).zip drawn) with
      | some (m', rows) => some (.ok rows, m')
      | none => some (.error ("duplicate key value violates unique constraint " ++
          "id_mappings_numeric_id_scoped_key"), m)
    else none

def serve (c : Statement) (m : Mappings) : Outcome → Option (Answer c × Mappings)
  | .ok drawn => execute m drawn c
  | .fail e => some (.error e, m)
  | .lost drawn e => (execute m drawn c).map fun r => (.error e, r.2)

/-! ### The calls -/

abbrev IDMapM (α : Type) := Program Statement Answer String α

def request (context : String) (c : Statement) : IDMapM Rows := do
  let answer ← Program.ask c
  Program.ofExcept (answer.mapError fun e => context ++ ": " ++ e)

/-- `uint64(numID)`. -/
def numericID (n : ℤ) : ℕ := (n % 2 ^ 64).toNat

/-- A map from string ids to numeric ids. -/
abbrev IDs := Table String ℕ

def IDs.fill (out : IDs) (rows : Rows) : IDs :=
  rows.foldl (fun out row => out.insert row.1 (numericID row.2)) out

def lookupBatch (stringIDs : List String) (ns : String) (entityType : EntityType) : IDMapM IDs :=
  if stringIDs = [] then pure ∅ else do
    let rows ← request "batch lookup id mappings" (.lookup ns entityType stringIDs)
    pure (IDs.fill ∅ rows)

/-- The ids that are not in `seen`, each once, in the order in which they first come. -/
def distinct : List String → List String → List String
  | _, [] => []
  | seen, id :: ids => if id ∈ seen then distinct seen ids else id :: distinct (id :: seen) ids

def missingFrom (ids : List String) (out : IDs) : List String :=
  ids.filter fun id => (out.lookup id).isNone

/-- The lease that the context carries. -/
structure Lease where
  ns : String
  generation : ℤ
  deriving DecidableEq, Repr

def requireNamespaceLease (lease : Option Lease) (ns : String) : IDMapM Unit :=
  Program.require (lease.any fun l => l.ns = ns ∧ 1 ≤ l.generation)
    "matching namespace lifecycle lease is required"

/-- The ids that a concurrent writer has inserted are read again. -/
def readRaced (raced : List String) (ns : String) (entityType : EntityType) (out : IDs) :
    IDMapM IDs :=
  if raced = [] then pure out else do
    let won ← lookupBatch raced ns entityType
    -- `maps.Copy(out, won)`
    pure (won.entries.foldl (fun out e => out.insert e.1 e.2) out)

def insertMissing (missing : List String) (ns : String) (entityType : EntityType) (out : IDs) :
    IDMapM IDs :=
  if missing = [] then pure out else do
    let rows ← request "batch get or create id mappings" (.insert ns entityType missing)
    let out := IDs.fill out rows
    readRaced (missingFrom missing out) ns entityType out

def getOrCreateBatch (lease : Option Lease) (stringIDs : List String) (ns : String)
    (entityType : EntityType) : IDMapM IDs :=
  if stringIDs = [] then pure ∅ else do
    requireNamespaceLease lease ns
    let distinct := distinct [] stringIDs
    let out ← lookupBatch distinct ns entityType
    insertMissing (missingFrom distinct out) ns entityType out

def getOrCreate (lease : Option Lease) (stringID ns : String) (entityType : EntityType) :
    IDMapM ℕ := do
  let ids ← getOrCreateBatch lease [stringID] ns entityType
  Program.ofExcept ((ids.lookup stringID).elim
    (.error ("get or create id mapping for " ++ quote stringID ++
      ": insert conflicted but no mapping exists")) .ok)

/-! ### Calls side by side -/

inductive Call where
  | getOrCreate (stringID : String)
  | getOrCreateBatch (stringIDs : List String)
  deriving DecidableEq, Repr

structure Request where
  lease : Option Lease
  ns : String
  entityType : EntityType
  call : Call
  deriving DecidableEq, Repr

inductive Result where
  | id (n : ℕ)
  | ids (out : IDs)

def Request.run (r : Request) : IDMapM Result :=
  match r.call with
  | .getOrCreate stringID => do return .id (← getOrCreate r.lease stringID r.ns r.entityType)
  | .getOrCreateBatch stringIDs => do
    return .ids (← getOrCreateBatch r.lease stringIDs r.ns r.entityType)

/-- The calls of all processes, over one table. -/
abbrev Calls := Pool Mappings Statement Answer String Result Request

def step : Calls → PoolAction Request Outcome → Option Calls := Pool.step serve Request.run

end Codohue.IDMap
