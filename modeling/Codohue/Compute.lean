import Codohue.IDMap
import Codohue.PhysicalNames
import Mathlib.Algebra.Order.Field.Rat

/-!
`internal/compute`: the sparse vectors of the subjects and objects of a namespace.

Scores are elements of an ordered field. What Go has beyond the field operations is a parameter:
the exponential, the square root, the narrowing to single precision, and the order in which a map
is ranged over.
-/

namespace Codohue.Compute

open IDMap (IDs)

/-! ### Data -/

structure SubjectVector (K : Type) where
  subjectID : String
  numericID : ℕ
  indices : List ℕ
  values : List K
  deriving DecidableEq, Repr

/-- The payload of a point; times are in seconds. -/
inductive Payload where
  | subject (subjectID : String) (updatedAt : ℤ)
  | object (objectID : String) (createdAt : ℤ)
  deriving DecidableEq, Repr

structure PointStruct (K : Type) where
  id : ℕ
  indices : List ℕ
  values : List K
  payload : Payload
  deriving DecidableEq, Repr

structure CoEntry (K : Type) where
  id : ℕ
  score : K

structure Cooccurrence (K : Type) where
  rows : List (List (CoEntry K))
  keys : Table ℕ String
  maxTimes : Table ℕ ℤ
  createdTimes : Table ℕ ℤ

structure Runtime (K : Type) where
  exp : K → K
  sqrt : K → K
  float32 : K → K
  /-- The order of a loop over a map. -/
  range : ∀ {α : Type}, List α → List α
  range_perm : ∀ {α : Type} (l : List α), (range l).Perm l

def Runtime.pairs {K α β : Type} [DecidableEq α] (R : Runtime K) (m : Table α β) : List (α × β) :=
  R.range (m.entries.map fun e => (e.1, e.2))

/-- Exact arithmetic without decay. -/
def rationals : Runtime ℚ := ⟨fun _ => 1, id, id, id, fun l => .refl l⟩

section Pairs

variable {K α β : Type} [DecidableEq α] {R : Runtime K}

lemma mem_pairs {m : Table α β} {x : α × β} : x ∈ R.pairs m ↔ m.lookup x.1 = some x.2 := by
  rw [Runtime.pairs, (R.range_perm _).mem_iff, List.mem_map, Table.lookup_eq_some_iff]
  constructor
  · rintro ⟨e, he, rfl⟩
    exact he
  · exact fun h => ⟨⟨x.1, x.2⟩, h, rfl⟩

lemma nodup_pairs (m : Table α β) : ((R.pairs m).map Prod.fst).Nodup := by
  have hp := (R.range_perm (m.entries.map fun e => (e.1, e.2))).map Prod.fst
  rw [Runtime.pairs, hp.nodup_iff, List.map_map]
  exact m.nodupKeys

end Pairs

section Vectors

variable {K : Type} (R : Runtime K)

/-! ### Subjects -/

def maxSparseIndex : ℕ := 2 ^ 32 - 1

def sparseIndex (numericID : ℕ) : Option ℕ :=
  if maxSparseIndex < numericID then none else some numericID

/-- The dimensions of a subject. One that the index cannot address is skipped, and an object
without an id fails the subject. -/
def subjectEntries (objectIDs : IDs) : List (String × K) → Except String (List (ℕ × K))
  | [] => .ok []
  | (objectID, score) :: rest =>
    match objectIDs.lookup objectID with
    | none => .error ("no numeric id resolved for object \"" ++ objectID ++ "\"")
    | some objNumID => do
      let entries ← subjectEntries objectIDs rest
      match sparseIndex objNumID with
      | none => return entries
      | some index => return (index, R.float32 score) :: entries

/-! ### Sparse vectors -/

variable [Field K] [LinearOrder K]

def l2Normalize (values : List K) : List K :=
  let sum := values.foldl (fun sum v => sum + v * v) 0
  if sum = 0 then values else values.map fun v => R.float32 (v / R.sqrt sum)

def sparseVectorFrom (entries : List (ℕ × K)) : List ℕ × List K :=
  let entries := entries.insertionSort fun a b => a.1 ≤ b.1
  (entries.map Prod.fst, l2Normalize R (entries.map Prod.snd))

def buildSubjectVector (subjectID : String) (subjectNumID : ℕ) (objectScores : Table String K)
    (objectIDs : IDs) : Except String (SubjectVector K) := do
  let entries ← subjectEntries R objectIDs (R.pairs objectScores)
  if objectScores.entries ≠ [] ∧ entries = [] then
    .error ("every dimension exceeds the uint32 sparse index space (" ++
      toString objectScores.entries.length ++ " objects)")
  else
    let vector := sparseVectorFrom R entries
    return ⟨subjectID, subjectNumID, vector.1, vector.2⟩

end Vectors

/-! ### Co-occurrence -/

namespace Cooccurrence

variable {K : Type} (R : Runtime K)

/-- A target takes one contribution from every other entry of a row that it is in. -/
def load (c : Cooccurrence K) : Table ℕ ℕ :=
  c.rows.foldl (fun load row => row.foldl (fun load e =>
    load.insert e.id ((load.lookup e.id).getD 0 + (row.length - 1))) load) ∅

structure Plan where
  passOf : Table ℕ ℕ
  passes : ℕ
  current : ℕ

def Plan.assign (budget : ℕ) (p : Plan) (x : ℕ × ℕ) : Plan :=
  let p := if 0 < p.current ∧ budget < p.current + x.2 then
    { p with passes := p.passes + 1, current := 0 } else p
  { p with passOf := p.passOf.insert x.1 p.passes, current := p.current + x.2 }

/-- Every target is assigned to a pass, so that a pass keeps to the budget. -/
def planPasses (c : Cooccurrence K) (budget : ℕ) : Table ℕ ℕ × ℕ :=
  let plan := (R.pairs c.load).foldl (Plan.assign budget) ⟨∅, 0, 0⟩
  (plan.passOf, plan.passes + 1)

def contribute [Zero K] [Add K] (target : CoEntry K) (accum : Table ℕ (Table ℕ K))
    (other : CoEntry K) :
    Table ℕ (Table ℕ K) :=
  if other.id = target.id then accum
  else
    let row := (accum.lookup target.id).getD ∅
    accum.insert target.id (row.insert other.id ((row.lookup other.id).getD 0 + other.score))

def accumulateTarget [Zero K] [Add K] (passOf : Table ℕ ℕ) (pass : ℕ) (row : List (CoEntry K))
    (accum : Table ℕ (Table ℕ K)) (target : CoEntry K) : Table ℕ (Table ℕ K) :=
  if (passOf.lookup target.id).getD 0 ≠ pass then accum
  else row.foldl (contribute target) accum

/-- The co-occurrence rows of the targets of a pass. -/
def accumulate [Zero K] [Add K] (c : Cooccurrence K) (passOf : Table ℕ ℕ) (pass : ℕ) :
    Table ℕ (Table ℕ K) :=
  c.rows.foldl (fun accum row => row.foldl (accumulateTarget passOf pass row) accum) ∅

end Cooccurrence

/-! ### Objects -/

section Objects

variable {K : Type} (R : Runtime K) [Field K] [LinearOrder K]

/-- The point of one target. Its creation time is the explicit one, or else the last event. -/
def objectPoint (co : Cooccurrence K) (now : ℤ) (x : ℕ × Table ℕ K) : PointStruct K :=
  let entries := (R.pairs x.2).filterMap fun e => (sparseIndex e.1).map fun index => (index, e.2)
  let vector := sparseVectorFrom R entries
  let created := (co.createdTimes.lookup x.1).getD 0
  let last := (co.maxTimes.lookup x.1).getD 0
  let createdAt := if 0 < created then created else if 0 < last then last else now
  ⟨x.1, vector.1, vector.2, .object ((co.keys.lookup x.1).getD "") createdAt⟩

end Objects

end Codohue.Compute
