import Codohue.Table
import Mathlib.Algebra.Order.Field.Basic

/-!
The scores of `internal/recommend`, and the lists that it pages and blends.

Scores are elements of an ordered field. What Go has beyond the field operations is a parameter:
which values are finite, the exponential, and a sort of which no more is known than that it sorts.
-/

namespace Codohue.Recommend

/-! ### Lists -/

/-- The page, and its start in the whole list. -/
def pageOf {α : Type} (s : List α) (offset limit : ℕ) : List α × ℕ :=
  let start := min offset s.length
  ((s.drop start).take limit, start)

/-- A map that is used as a set. -/
def setOf (ids : List String) : List String := ids.dedup

def mergeExclusions (a b : List String) : List String :=
  if b = [] then a else if a = [] then b else setOf (a ++ b)

/-- The nearest number with at most `bits` significant bits, ties to even. -/
def roundToEven (bits p : ℕ) : ℕ :=
  let shift := p.log2 + 1 - bits
  let q := p / 2 ^ shift
  let r := p % 2 ^ shift
  if shift = 0 then p
  else (if 2 ^ (shift - 1) < r ∨ (r = 2 ^ (shift - 1) ∧ q % 2 = 1) then q + 1 else q) * 2 ^ shift

/-- `int(math.Round(float64(limit) * 0.7))`; the constant is `6305039478318694 / 2 ^ 53`. -/
def popularCount (limit : ℕ) : ℕ :=
  (2 * roundToEven 53 (limit * 6305039478318694) + 2 ^ 53) / 2 ^ 54

/-- The loop of `take` in `blendItems`, which has seen what it has taken. -/
def take (limit : ℕ) : List String → ℤ → List String → List String
  | [], _, result => result
  | item :: items, n, result =>
    if limit ≤ result.length then result
    else if n ≤ 0 then result
    else if item ∈ result then take limit items n result
    else take limit items (n - 1) (result ++ [item])

/-- `blendItems`, with `popularCount` as its share of popular items. -/
def blendShares (popular cf : List String) (popularCount limit : ℕ) : List String :=
  let cfCount : ℤ := limit - popularCount
  let result := take limit popular popularCount []
  let result := take limit cf cfCount result
  -- fill the remaining slots if either list was short
  let result := take limit popular (limit - result.length) result
  take limit cf (limit - result.length) result

def blendItems (popular cf : List String) (limit : ℕ) : List String :=
  blendShares popular cf (popularCount limit) limit

/-! ### Points -/

/-- A point of a search result. The `object_id` of its payload may be missing, and its
`created_at` is kept if it parses. -/
structure ScoredPoint (K : Type) where
  id : ℕ
  objectID : Option String
  createdAt : Option ℤ
  score : K
  deriving DecidableEq, Repr

/-- What the scoring takes from Go. -/
structure Runtime (K : Type) where
  finiteScore : K → Bool
  exp : K → K
  /-- `sort.Slice`. -/
  sortSlice : (String × K → String × K → Bool) → List (String × K) → List (String × K)
  sortSlice_perm : ∀ less l, (sortSlice less l).Perm l
  sortSlice_sorted : ∀ less l, (∀ a b, less a b = true → less b a = false) →
    (∀ a b c, less b a = false → less c b = false → less c a = false) →
    (sortSlice less l).Pairwise fun a b => less b a = false

section Scoring

variable {K : Type} [Field K] [LinearOrder K] (R : Runtime K)

def clampUnit (value : K) : K :=
  if !R.finiteScore value || decide (value < 0) then 0 else if 1 < value then 1 else value

/-- Nanoseconds in a day. -/
def day : ℤ := 24 * 60 * 60 * 1000000000

def nonNegativeAgeDays (now createdAt : ℤ) : K :=
  let age : K := ((now - createdAt : ℤ) : K) / (day : K)
  if !R.finiteScore age || decide (age < 0) then 0 else age

def freshnessMultiplier (now createdAt : ℤ) (gamma : K) : K :=
  if !R.finiteScore gamma || decide (gamma < 0) then 0
  else clampUnit R (R.exp (-gamma * nonNegativeAgeDays R now createdAt))

/-- A score with the decay of its object, where the creation time is known. -/
def decayed (now : ℤ) (gamma : K) (createdAt : Option ℤ) (score : K) : K :=
  match createdAt with
  | some t => score * freshnessMultiplier R now t gamma
  | none => score

/-- A point without an object or with a score that is not finite drops out. -/
def rescore (now : ℤ) (gamma : K) (p : ScoredPoint K) : Option (String × K) :=
  match p.objectID with
  | none => none
  | some id =>
    if !R.finiteScore p.score then none
    else
      let finalScore := decayed R now gamma p.createdAt p.score
      if !R.finiteScore finalScore then none else some (id, finalScore)

def rerankScored (points : List (ScoredPoint K)) (gamma : K) (limit : ℕ) (now : ℤ) :
    List (String × K) :=
  let scored := points.filterMap (rescore R now gamma)
  let scored := R.sortSlice (fun x y => decide (y.2 < x.2)) scored
  scored.take limit

/-! ### The blend -/

/-- The last score of an object is the one that stays. -/
def extractScores (points : List (ScoredPoint K)) : Table String K :=
  points.foldl (fun m p => match p.objectID with
    | some id => m.insert id p.score
    | none => m) ∅

/-- The finite scores, each put through `f`. -/
def mapFinite (f : K → K) (scores : Table String K) : Table String K :=
  (scores.deleteWhere fun _ v => !R.finiteScore v).mapRows f

def clampUnitScores (scores : Table String K) : Table String K :=
  mapFinite R (clampUnit R) scores

def dotNormK : K := 5

def denseDistanceDot : String := "dot"

def boundDenseScores (scores : Table String K) (distance : String) : Table String K :=
  if distance ≠ denseDistanceDot then clampUnitScores R scores
  else mapFinite R (fun v => if v ≤ 0 then 0 else v / (v + dotNormK)) scores

/-- The first creation time of an object is the one that stays. -/
def buildCreatedAtLookup (points : List (ScoredPoint K)) : Table String ℤ :=
  points.foldl (fun m p => match p.objectID, p.createdAt with
    | some id, some t => if (m.lookup id).isSome then m else m.insert id t
    | _, _ => m) ∅

def blendHybridScores (sparseResults denseResults : List (ScoredPoint K)) (alpha gamma : K)
    (denseDistance : String) (now : ℤ) : List (String × K) :=
  let normSparse := clampUnitScores R (extractScores sparseResults)
  let normDense := boundDenseScores R (extractScores denseResults) denseDistance
  let candidateSet := setOf (normSparse.keys ++ normDense.keys)
  let createdAt := buildCreatedAtLookup (sparseResults ++ denseResults)
  let candidates := candidateSet.filterMap fun objectID =>
    let blended := alpha * (normSparse.lookup objectID).getD 0 +
      (1 - alpha) * (normDense.lookup objectID).getD 0
    let blended := decayed R now gamma (createdAt.lookup objectID) blended
    if !R.finiteScore blended then none else some (objectID, blended)
  R.sortSlice (fun x y => if x.2 ≠ y.2 then decide (y.2 < x.2) else decide (x.1 < y.1)) candidates

end Scoring

section Points

variable {K : Type}

/-- The points whose object has none in `base`. -/
def pointIDsMissingFrom (base points : List (ScoredPoint K)) : List ℕ :=
  let inBase := base.filterMap ScoredPoint.objectID
  points.filterMap fun p => match p.objectID with
    | some id => if id ∈ inBase then none else some p.id
    | none => none

def scoresOnly (points : List (ScoredPoint K)) : List (ScoredPoint K) :=
  points.map fun p => { p with createdAt := none }

end Points

end Codohue.Recommend
