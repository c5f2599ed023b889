import Codohue.Recommend

/-!
`internal/recommend`: `Rank`, which scores the candidates of a client for a subject.
-/

namespace Codohue.Recommend

open IDMap (IDs distinct)
open Service

structure RankRequest where
  subjectID : String
  candidates : List String

inductive RankSource where
  | hybridRank
  | noSubjectVector
  deriving DecidableEq, Repr

/-- An item of a ranking has the fields of a recommended one. -/
abbrev RankedItem := RecommendedItem

structure RankResponse (K : Type) where
  subjectID : String
  ns : String
  items : List (RankedItem K)
  source : RankSource
  total : ℕ
  deriving DecidableEq, Repr

variable {K S D : Type} [Field K] [LinearOrder K]

omit [LinearOrder K] in
/-- All candidates in the order of the request, none of them scored. -/
def rankFallback (req : RankRequest) (ns : String) : RankResponse K :=
  let items := unscoredItems req.candidates 0
  ⟨req.subjectID, ns, items, .noSubjectVector, items.length⟩

omit [LinearOrder K] in
/-- The scored candidates, and after them the others in the order of the request. -/
def rankedItems (candidates : List (String × K)) (requested : List String) : List (RankedItem K) :=
  let ranked := candidates.mapIdx fun i c => ⟨c.1, c.2, i + 1, true⟩
  ranked ++ unscoredItems (distinct (candidates.map Prod.fst) requested) ranked.length

omit [Field K] [LinearOrder K] in
/-- The search of one arm, which is made if the subject has a vector for it. -/
def searchArm {V : Type} (vec : Option V) (search : V → RecommendM K S D (Arm K)) :
    RecommendM K S D (Option (Arm K)) :=
  match vec with
  | some vec => do
    let arm ← search vec
    return some arm
  | none => return none

/-- Whether the arm has answered. -/
def armOK (arm : Option (Arm K)) : Bool := arm.any Except.isOk

def armResults (arm : Option (Arm K)) : List (ScoredPoint K) := (arm.map Arm.results).getD []

/-- The part of `Rank` for a subject with a vector. -/
def rankVectors (R : Runtime K) (req : RankRequest) (ns : String) (cfg : Config K)
    (sparseVec : Option S) (denseVec : Option D) : RecommendM K S D (RankResponse K) := do
  let physicalNamespace := qdrantPhysicalNamespace cfg ns
  let numIDs : Except String IDs ← Program.ask (Call.lookupObjectIDs req.candidates ns)
  match numIDs with
  | .error _ => return rankFallback req ns
  | .ok numIDs =>
    let ids := numIDs.entries.map Sigma.snd
    if ids = [] then return rankFallback req ns
    else
      let seenItems : List String × Option String ←
        Program.ask (Call.getSeenItems ns req.subjectID (seenItemsWindow cfg))
      let excluded ← excludedObjectIDs ⟨req.subjectID, ns, 0⟩ cfg seenItems.1
      let exclusionFilter ← buildSeenItemsFilter ns excluded
      let filter : Filter := ⟨some ids, exclusionFilter.bind Filter.mustNot⟩
      let sparse ← searchArm sparseVec fun vec =>
        Program.ask (Call.searchObjects physicalNamespace vec (some filter) ids.length)
      let dense ← searchArm denseVec fun vec =>
        Program.ask (Call.searchObjectsDense physicalNamespace vec (some filter) ids.length)
      if !armOK sparse && !armOK dense then return rankFallback req ns
      else
        -- full weight to the arm that survives
        let alpha := if armOK sparse && armOK dense then cfg.alpha else if armOK dense then 0 else 1
        let now : ℤ ← Program.ask Call.now
        let candidates := blendHybridScores R (armResults sparse) (armResults dense) alpha
          (resolveGamma cfg) cfg.denseDistance now
        let ranked := rankedItems candidates req.candidates
        return ⟨req.subjectID, ns, ranked, .hybridRank, ranked.length⟩

def rank (R : Runtime K) (req : RankRequest) (ns : String) :
    RecommendM K S D (RankResponse K) := do
  let config : Except String (Option (Config K)) ← Program.ask (Call.getConfig ns)
  match config with
  | .error e => .throw (.namespaceConfigUnavailable e)
  | .ok none => .throw .namespaceNotFound
  | .ok (some cfg) =>
    if req.candidates = [] then return ⟨req.subjectID, ns, [], .hybridRank, 0⟩
    else
      let found : Except String (Option ℕ) ← Program.ask (Call.lookupSubjectID req.subjectID ns)
      match found with
      | .error _ | .ok none => return rankFallback req ns
      | .ok (some subjectNumID) =>
        let physicalNamespace := qdrantPhysicalNamespace cfg ns
        let sparseVec : Except String (Option S) ←
          Program.ask (Call.fetchSubjectVector physicalNamespace subjectNumID)
        let sparseVec := sparseVec.toOption.join
        let denseVec ← denseVectorOf cfg physicalNamespace subjectNumID
        if sparseVec.isNone && denseVec.isNone then return rankFallback req ns
        else rankVectors R req ns cfg sparseVec denseVec

end Codohue.Recommend
