import Codohue.IDMap
import Codohue.PhysicalNames
import Codohue.RecommendScores

/-!
`internal/recommend`: the ladder of rungs that `Recommend` serves a subject from.

A request is a program over its collaborators, each of which may answer with an error. The rungs
turn most errors into an outcome of a lower rung, and say so in it.
-/

namespace Codohue.Recommend

open IDMap (IDs)
open Service
open Repair (qdrantNamespace)
open PhysicalNames (recCacheKey)

/-! ### The collaborators -/

structure TrendingEntry where
  objectID : String
  deriving DecidableEq, Repr

/-- The conditions of a search: `Must` and `MustNot`, each over a set of point ids. -/
structure Filter where
  must : Option (List ℕ)
  mustNot : Option (List ℕ)
  deriving DecidableEq, Repr

/-- The namespace configuration, as far as the service reads it. -/
structure Config (K : Type) where
  generation : ℤ
  maxResults : ℤ
  seenItemsDays : ℤ
  excludeAuthored : Bool
  alpha : K
  gamma : K
  denseSource : String
  denseDistance : String

structure RecommendedItem (K : Type) where
  objectID : String
  score : K
  rank : ℕ
  scored : Bool
  deriving DecidableEq, Repr

inductive Source where
  | fallbackPopular
  | hybridCold
  | collaborativeFiltering
  | hybrid
  deriving DecidableEq, Repr

structure Response (K : Type) where
  subjectID : String
  ns : String
  items : List (RecommendedItem K)
  source : Source
  limit : ℕ
  offset : ℕ
  total : ℕ
  deriving DecidableEq, Repr

/-- The calls of a request, with sparse vectors `S` and dense vectors `D`. -/
inductive Call (K S D : Type) where
  | getConfig (ns : String)
  | cacheGet (key : String)
  | cacheSet (key : String) (resp : Response K)
  | countInteractions (ns subjectID : String)
  | getSeenItems (ns subjectID : String) (seenItemsDays : ℤ)
  | getAuthoredObjects (ns subjectID : String)
  | getPopularItems (ns : String) (limit : ℕ)
  | lookupSubjectID (subjectID ns : String)
  | lookupObjectIDs (objectIDs : List String) (ns : String)
  | fetchSubjectVector (ns : String) (numericID : ℕ)
  | fetchSubjectDenseVector (ns : String) (numericID : ℕ)
  | searchObjects (ns : String) (queryVec : S) (filter : Option Filter) (topK : ℕ)
  | searchObjectsDense (ns : String) (queryVec : D) (filter : Option Filter) (topK : ℕ)
  | getTrending (ns : String) (generation : ℤ) (offset limit : ℕ)
  | now

abbrev Answer {K S D : Type} : Call K S D → Type
  | .getConfig _ => Except String (Option (Config K))
  -- a value that does not parse reads as a miss, like an error
  | .cacheGet _ => Option (Response K)
  | .cacheSet _ _ => Unit
  | .countInteractions _ _ => Except String ℕ
  -- the rows that were read come with the error
  | .getSeenItems _ _ _ => List String × Option String
  | .getAuthoredObjects _ _ => Except String (List String)
  | .getPopularItems _ _ => Except String (List String)
  | .lookupSubjectID _ _ => Except String (Option ℕ)
  | .lookupObjectIDs _ _ => Except String IDs
  | .fetchSubjectVector _ _ => Except String (Option S)
  | .fetchSubjectDenseVector _ _ => Except String (Option D)
  | .searchObjects _ _ _ _ => Except String (List (ScoredPoint K))
  | .searchObjectsDense _ _ _ _ => Except String (List (ScoredPoint K))
  | .getTrending _ _ _ _ => Except String (List TrendingEntry)
  | .now => ℤ

inductive Error where
  | namespaceConfigUnavailable (cause : String)
  | namespaceNotFound
  | getPopularItems (cause : String)
  | hybridCold (popular cf : Error)
  deriving DecidableEq, Repr

abbrev RecommendM (K S D α : Type) := Program (Call K S D) Answer Error α

/-! ### Outcomes -/

inductive ScoreScale where
  | unscored
  | rawFreshness
  | unitBlend
  deriving DecidableEq, Repr

structure Outcome (K : Type) where
  items : List (RecommendedItem K)
  source : Source
  total : ℕ
  scale : ScoreScale
  /-- A collaborator has failed, and the outcome is what could be served without it. -/
  degraded : Bool

structure Request where
  subjectID : String
  ns : String
  limit : ℤ
  offset : ℤ

/-- The request of a rung: the offset is sound, and the limit is an argument of its own. -/
structure Inner where
  subjectID : String
  ns : String
  offset : ℕ

section Items

variable {K : Type}

def pageItems (scored : List (String × K)) (offset limit : ℕ) : List (RecommendedItem K) :=
  let page := pageOf scored offset limit
  page.1.mapIdx fun i s => ⟨s.1, s.2, page.2 + i + 1, true⟩

/-- A page of objects, the first of them at rank `start + 1`, for which there is no score. -/
def unscoredItems [Zero K] (ids : List String) (start : ℕ) : List (RecommendedItem K) :=
  ids.mapIdx fun i id => ⟨id, 0, start + i + 1, false⟩

def repageItems (items : List (RecommendedItem K)) (offset limit : ℕ) :
    List (RecommendedItem K) :=
  let page := pageOf items offset limit
  page.1.mapIdx fun i item => { item with rank := page.2 + i + 1 }

def itemIDs (items : List (RecommendedItem K)) : List String := items.map RecommendedItem.objectID

end Items

/-! ### Configuration -/

section Config

variable {K : Type} (cfg : Config K)

def namespaceGeneration : ℤ := max 1 cfg.generation

def qdrantPhysicalNamespace (ns : String) : String := qdrantNamespace ns (namespaceGeneration cfg)

def defaultSeenItemsDays : ℤ := 30

def seenItemsWindow : ℤ :=
  if 0 < cfg.seenItemsDays then cfg.seenItemsDays else defaultSeenItemsDays

variable [Field K] [LinearOrder K]

def defaultGamma : K := 2 / 100

def resolveGamma : K := if 0 < cfg.gamma then cfg.gamma else defaultGamma

def hybridEligible : Bool :=
  0 < cfg.alpha && cfg.alpha < 1 && cfg.denseSource != "" && cfg.denseSource != "disabled"

end Config

def coldStartThreshold : ℕ := 5

def cfOverFetchFactor : ℕ := 5

def denseOverFetchFactor : ℕ := 3

/-! ### What a subject is not shown -/

section Ladder

variable {K S D : Type}

/-- The objects that the subject authored, if the namespace leaves them out. -/
def authoredObjectSet (req : Inner) (cfg : Config K) : RecommendM K S D (List String) := do
  if !cfg.excludeAuthored then return []
  else
    let authored : Except String (List String) ←
      Program.ask (Call.getAuthoredObjects req.ns req.subjectID)
    match authored with
    | .error _ => return []
    | .ok authored => return setOf authored

def seenObjectSet (req : Inner) (cfg : Config K) : RecommendM K S D (List String) := do
  let seenItems : List String × Option String ←
    Program.ask (Call.getSeenItems req.ns req.subjectID (seenItemsWindow cfg))
  match seenItems with
  | (_, some _) => return []
  | (seenItems, none) => return setOf seenItems

def excludedObjectIDs (req : Inner) (cfg : Config K) (seenItems : List String) :
    RecommendM K S D (List String) := do
  let authored ← authoredObjectSet req cfg
  if authored = [] then return seenItems else return setOf (seenItems ++ authored)

def buildSeenItemsFilter (ns : String) (excludedStringIDs : List String) :
    RecommendM K S D (Option Filter) := do
  if excludedStringIDs = [] then return none
  else
    let numIDs : Except String IDs ← Program.ask (Call.lookupObjectIDs excludedStringIDs ns)
    match numIDs with
    | .error _ => return none
    | .ok numIDs =>
      let ids := numIDs.entries.map Sigma.snd
      if ids = [] then return none else return some ⟨none, some ids⟩

def hasIDFilter (ids : List ℕ) : Filter := ⟨some ids, none⟩

/-- The entries whose object is not in the set. -/
def dropBy {α : Type} (objectID : α → String) (entries : List α) (authored : List String) :
    List α :=
  entries.filter fun e => objectID e ∉ authored

def dropAuthored (ids authored : List String) : List String := dropBy id ids authored

def dropAuthoredEntries (entries : List TrendingEntry) (authored : List String) :
    List TrendingEntry :=
  dropBy TrendingEntry.objectID entries authored

/-! ### The fallbacks -/

variable [Field K]

def fallbackPopular (req : Inner) (limit : ℕ) (cfg : Config K) (exclude : List String) :
    RecommendM K S D (Outcome K) := do
  let authored ← authoredObjectSet req cfg
  let excluded := mergeExclusions authored exclude
  let rawItems : Except String (List String) ←
    Program.ask (Call.getPopularItems req.ns (req.offset + limit + excluded.length))
  let rawItems ← Program.ofExcept (rawItems.mapError .getPopularItems)
  let rawItems := dropAuthored rawItems excluded
  let page := pageOf rawItems req.offset limit
  return ⟨unscoredItems page.1 page.2, .fallbackPopular, rawItems.length, .unscored, false⟩

def descendPopular (req : Inner) (limit : ℕ) (cfg : Config K) (exclude : List String)
    (degraded : Bool) : RecommendM K S D (Outcome K) := do
  let out ← fallbackPopular req limit cfg exclude
  return { out with degraded := out.degraded || degraded }

/-- Whether the namespace has trending data, given the page at `fetchOffset`: past the end of
the list rank 0 tells. -/
def probeTrending (ns : String) (generation : ℤ) (fetchOffset : ℕ) (entries : List TrendingEntry) :
    RecommendM K S D Bool := do
  if entries ≠ [] then return true
  else if fetchOffset = 0 then return false
  else
    let probe : Except String (List TrendingEntry) ←
      Program.ask (Call.getTrending ns generation 0 1)
    match probe with
    | .error _ => return false
    | .ok probe => return probe ≠ []

/-- The outcome of a page of trending objects. -/
def trendingOutcome (req : Inner) (entries : List TrendingEntry) : Outcome K :=
  ⟨unscoredItems (entries.map TrendingEntry.objectID) req.offset, .fallbackPopular,
    req.offset + entries.length, .unscored, false⟩

def fallbackTrending (req : Inner) (limit : ℕ) (cfg : Config K) (exclude : List String) :
    RecommendM K S D (Outcome K) := do
  let authored ← authoredObjectSet req cfg
  let excluded := mergeExclusions authored exclude
  -- objects are dropped before the list is paged, so it is read from rank 0 with headroom
  let fetchOffset := if excluded = [] then req.offset else 0
  let fetchLimit := if excluded = [] then limit else req.offset + limit + excluded.length
  let generation := namespaceGeneration cfg
  let entries : Except String (List TrendingEntry) ←
    Program.ask (Call.getTrending req.ns generation fetchOffset fetchLimit)
  match entries with
  | .error _ => descendPopular req limit cfg exclude true
  | .ok entries =>
    let hasTrending ← probeTrending req.ns generation fetchOffset entries
    if !hasTrending then descendPopular req limit cfg exclude false
    else if excluded = [] then return trendingOutcome req entries
    else
      let entries := dropAuthoredEntries entries excluded
      if entries = [] then descendPopular req limit cfg exclude false
      else return trendingOutcome req (pageOf entries req.offset limit).1

/-! ### The scored rungs -/

variable [LinearOrder K] (R : Runtime K)

/-- What one arm of the hybrid answers. -/
abbrev Arm (K : Type) := Except String (List (ScoredPoint K))

/-- An arm that failed has no results. -/
def Arm.results (arm : Arm K) : List (ScoredPoint K) := arm.toOption.getD []

/-- The points of an arm under `missing`. An arm that failed is not asked again. -/
def backfill (arm : Arm K) (missing : List ℕ)
    (search : Option Filter → ℕ → RecommendM K S D (Arm K)) : RecommendM K S D (Arm K) :=
  if arm.isOk && !missing.isEmpty then search (some (hasIDFilter missing)) missing.length
  else return .ok []

def hybridRecommend (req : Inner) (limit : ℕ) (cfg : Config K) (subjectSparseVec : S)
    (subjectDenseVec : D) (seenFilter : Option Filter) : RecommendM K S D (Outcome K) := do
  let ns := qdrantPhysicalNamespace cfg req.ns
  let searchSparse filter topK : RecommendM K S D (Arm K) :=
    Program.ask (Call.searchObjects ns subjectSparseVec filter topK)
  let searchDense filter topK : RecommendM K S D (Arm K) :=
    Program.ask (Call.searchObjectsDense ns subjectDenseVec filter topK)
  let sparse ← searchSparse seenFilter ((req.offset + limit) * cfOverFetchFactor)
  let dense ← searchDense seenFilter ((req.offset + limit) * denseOverFetchFactor)
  let degraded := !sparse.isOk || !dense.isOk
  if sparse.results.isEmpty && dense.results.isEmpty then
    if degraded then descendPopular req limit cfg [] true
    else return ⟨[], .hybrid, 0, .unitBlend, false⟩
  else
    let sparseExtra ← backfill sparse (pointIDsMissingFrom sparse.results dense.results)
      searchSparse
    let denseExtra ← backfill dense (pointIDsMissingFrom dense.results sparse.results) searchDense
    let degraded := degraded || !sparseExtra.isOk || !denseExtra.isOk
    -- full weight to the arm that survives
    let alpha := if sparse.isOk && dense.isOk then cfg.alpha else if dense.isOk then 0 else 1
    let now : ℤ ← Program.ask Call.now
    let candidates := blendHybridScores R (sparse.results ++ scoresOnly sparseExtra.results)
      (dense.results ++ scoresOnly denseExtra.results) alpha (resolveGamma cfg)
      cfg.denseDistance now
    return ⟨pageItems candidates req.offset limit, .hybrid, candidates.length, .unitBlend, degraded⟩

/-- The subject's dense vector, where the namespace blends it in. -/
def denseVectorOf (cfg : Config K) (ns : String) (subjectNumID : ℕ) :
    RecommendM K S D (Option D) := do
  if hybridEligible cfg then
    let denseVec : Except String (Option D) ←
      Program.ask (Call.fetchSubjectDenseVector ns subjectNumID)
    return denseVec.toOption.join
  else return none

/-- The part of `collaborativeFiltering` that scores with the sparse vector alone. -/
def sparseRecommend (req : Inner) (limit : ℕ) (cfg : Config K) (subjectVec : S)
    (seenFilter : Option Filter) : RecommendM K S D (Outcome K) := do
  let results : Arm K ← Program.ask (Call.searchObjects (qdrantPhysicalNamespace cfg req.ns)
    subjectVec seenFilter ((req.offset + limit) * cfOverFetchFactor))
  match results with
  | .error _ => descendPopular req limit cfg [] true
  | .ok results =>
    let now : ℤ ← Program.ask Call.now
    let scored := rerankScored R results (resolveGamma cfg) (req.offset + limit) now
    return ⟨pageItems scored req.offset limit, .collaborativeFiltering, scored.length,
      .rawFreshness, false⟩

def collaborativeFiltering (req : Inner) (limit : ℕ) (cfg : Config K) :
    RecommendM K S D (Outcome K) := do
  let found : Except String (Option ℕ) ← Program.ask (Call.lookupSubjectID req.subjectID req.ns)
  match found with
  | .error _ | .ok none => descendPopular req limit cfg [] true
  | .ok (some subjectNumID) =>
    let ns := qdrantPhysicalNamespace cfg req.ns
    let subjectVec : Except String (Option S) ←
      Program.ask (Call.fetchSubjectVector ns subjectNumID)
    match subjectVec with
    | .error _ => descendPopular req limit cfg [] true
    -- the batch has not caught up with the subject yet
    | .ok none => descendPopular req limit cfg [] false
    | .ok (some subjectVec) =>
      let seenItems : List String × Option String ←
        Program.ask (Call.getSeenItems req.ns req.subjectID (seenItemsWindow cfg))
      let excluded ← excludedObjectIDs req cfg seenItems.1
      let seenFilter ← buildSeenItemsFilter req.ns excluded
      let denseVec ← denseVectorOf cfg ns subjectNumID
      match denseVec with
      | some denseVec => hybridRecommend R req limit cfg subjectVec denseVec seenFilter
      | none => sparseRecommend R req limit cfg subjectVec seenFilter

/-! ### The ladder -/

def hybridCold (req : Inner) (limit : ℕ) (cfg : Config K) : RecommendM K S D (Outcome K) := do
  let overLimit := req.offset + limit
  let innerReq : Inner := { req with offset := 0 }
  let seen ← seenObjectSet req cfg
  let cfOut ← (collaborativeFiltering R innerReq overLimit cfg).attempt
  let popOut ← (fallbackTrending innerReq overLimit cfg seen).attempt
  match popOut, cfOut with
  | .error popErr, .error cfErr => .throw (.hybridCold popErr cfErr)
  | .error _, .ok cfOut =>
    return { cfOut with
      source := .hybridCold, items := repageItems cfOut.items req.offset limit, degraded := true }
  | .ok popOut, .error _ =>
    return { popOut with items := repageItems popOut.items req.offset limit, degraded := true }
  | .ok popOut, .ok cfOut =>
    let degraded := cfOut.degraded || popOut.degraded
    if cfOut.items.isEmpty then
      return { popOut with
        items := repageItems popOut.items req.offset limit, degraded := degraded }
    else
      let blended := blendItems (itemIDs popOut.items) (itemIDs cfOut.items) overLimit
      let page := pageOf blended req.offset limit
      return ⟨unscoredItems page.1 page.2, .hybridCold, blended.length, .unscored, degraded⟩

/-- The rung of a warm subject: a search that finds nothing at all descends to trending. -/
def warm (req : Inner) (maxResults : ℕ) (cfg : Config K) : RecommendM K S D (Outcome K) := do
  let out ← collaborativeFiltering R req maxResults cfg
  if out.total = 0 ∧ (out.source = .collaborativeFiltering ∨ out.source = .hybrid) then
    let seen ← seenObjectSet req cfg
    fallbackTrending req maxResults cfg seen
  else return out

/-- The rung of a subject with this number of interactions. -/
def rung (req : Inner) (maxResults : ℕ) (cfg : Config K) (count : ℕ) :
    RecommendM K S D (Outcome K) :=
  if count = 0 then fallbackTrending req maxResults cfg []
  else if count < coldStartThreshold then hybridCold R req maxResults cfg
  else warm R req maxResults cfg

def doRecommend (req : Inner) (maxResults : ℕ) (cfg : Config K) :
    RecommendM K S D (Outcome K) := do
  let counted : Except String ℕ ← Program.ask (Call.countInteractions req.ns req.subjectID)
  -- a count that failed reads as zero
  let out ← rung R req maxResults cfg (counted.toOption.getD 0)
  return { out with degraded := out.degraded || !counted.isOk }

/-- The window of a request: `maxResults` and the offset. -/
def window (req : Request) (cfg : Config K) : ℕ × ℕ :=
  let limit := if req.limit ≤ 0 then 20 else req.limit
  let maxResults := if 0 < cfg.maxResults ∧ cfg.maxResults < limit then cfg.maxResults else limit
  (maxResults.toNat, req.offset.toNat)

def cacheKey (req : Request) (cfg : Config K) : String :=
  recCacheKey req.ns (namespaceGeneration cfg) req.subjectID (window req cfg).1 (window req cfg).2

def responseOf (req : Request) (cfg : Config K) (out : Outcome K) : Response K :=
  ⟨req.subjectID, req.ns, out.items, out.source, (window req cfg).1, (window req cfg).2, out.total⟩

/-- The part of `Recommend` that follows a cache miss. -/
def compute (req : Request) (cfg : Config K) : RecommendM K S D (Response K) := do
  let inner : Inner := ⟨req.subjectID, req.ns, (window req cfg).2⟩
  let out ← doRecommend R inner (window req cfg).1 cfg
  let resp := responseOf req cfg out
  if out.degraded then return resp
  else
    let _ ← Program.ask (Call.cacheSet (cacheKey req cfg) resp)
    return resp

def recommend (req : Request) : RecommendM K S D (Response K) := do
  let cfg : Except String (Option (Config K)) ← Program.ask (Call.getConfig req.ns)
  let cfg ← Program.ofExcept (cfg.mapError .namespaceConfigUnavailable)
  match cfg with
  | none => .throw .namespaceNotFound
  | some cfg =>
    let cached : Option (Response K) ← Program.ask (Call.cacheGet (cacheKey req cfg))
    match cached.filter fun resp => resp.ns = req.ns ∧ resp.subjectID = req.subjectID with
    | some resp => return resp
    | none => compute R req cfg

end Ladder

end Codohue.Recommend
