import Codohue.Pages
import Codohue.RecommendStores

/-!
What the parts of `Recommend` return while every store is up: each is a function of the stores.
-/

namespace Codohue.Recommend

open IDMap Pages Repair Service
open PhysicalNames (PhysicalKind)
open Program (Ensures ensures_bind ensures_ask_bind ensures_pure)

variable {K S D : Type}

/-! ### Exclusions -/

section Exclusions

variable (w : Stores K S D) (cfg : Config K) (ns subjectID : String)

def authoredSet : List String :=
  if cfg.excludeAuthored then setOf (getAuthoredObjects w ns subjectID) else []

/-- The seen items of the window of the namespace. -/
def seenItems : List String := getSeenItems w ns subjectID (seenItemsWindow cfg)

def excludedIDs : List String :=
  if authoredSet w cfg ns subjectID = [] then seenItems w cfg ns subjectID
  else setOf (seenItems w cfg ns subjectID ++ authoredSet w cfg ns subjectID)

/-- The point ids of the excluded objects. -/
def excludedPoints : List ℕ :=
  (IDs.fill ∅ (select w.ids ns .object (excludedIDs w cfg ns subjectID))).entries.map Sigma.snd

def seenFilter : Option Filter :=
  if excludedPoints w cfg ns subjectID = [] then none
  else some ⟨none, some (excludedPoints w cfg ns subjectID)⟩

end Exclusions

/-! ### Lists -/

section Lists

variable (w : Stores K S D) (cfg : Config K) (ns subjectID : String)

def trendingList : List TrendingEntry :=
  w.trending (PhysicalKind.trending.nameOf ns (namespaceGeneration cfg))

/-- The trending objects that are not excluded. -/
def trendingRest (exclude : List String) : List TrendingEntry :=
  keep TrendingEntry.objectID (mergeExclusions (authoredSet w cfg ns subjectID) exclude)
    (trendingList w cfg ns)

variable [Field K] [LinearOrder K]

/-- All objects of the last seven days, the most popular first. -/
def popularList : List String :=
  ((w.events.filter fun e => e.ns = ns ∧ w.now - 7 * day < e.occurredAt).map
    Event.objectID).dedup.insertionSort fun a b => popularityScore w ns b ≤ popularityScore w ns a

def popularRest (exclude : List String) : List String :=
  keep id (mergeExclusions (authoredSet w cfg ns subjectID) exclude) (popularList w ns)

/-- The list that the fallbacks page through. -/
def fallbackList (exclude : List String) : List String :=
  if trendingRest w cfg ns subjectID exclude = [] then popularRest w cfg ns subjectID exclude
  else (trendingRest w cfg ns subjectID exclude).map TrendingEntry.objectID

end Lists

section Pages

variable {α β : Type} [Zero K]

omit [Zero K] in
lemma pageOf_fst (s : List α) (off limit : ℕ) :
    (pageOf s off limit).1 = page s off limit := by
  rcases Nat.le_total off s.length with h | h
  · simp [pageOf, page, h]
  · simp [pageOf, page, h, List.drop_of_length_le]

omit [Zero K] in
lemma mapIdx_pageOf (f : ℕ → α → β) (s : List α) (off limit : ℕ) :
    (pageOf s off limit).1.mapIdx (fun i a => f ((pageOf s off limit).2 + i) a) =
      page (s.mapIdx f) off limit := by
  rw [pageOf_fst]
  rcases Nat.le_total off s.length with h | h
  · rw [show (pageOf s off limit).2 = off from Nat.min_eq_left h]
    exact mapIdx_page f s off limit
  · rw [page_eq_nil.mpr (.inr h), page_eq_nil.mpr (.inr (by simpa using h))]
    rfl

lemma unscoredItems_zero (ids : List String) : (unscoredItems ids 0 : List (RecommendedItem K)) =
      ids.mapIdx fun i id => ⟨id, 0, i + 1, false⟩ := by
  simp [unscoredItems]

lemma unscoredItems_page (ids : List String) (off limit : ℕ) :
    (unscoredItems (page ids off limit) off : List (RecommendedItem K)) =
      page (unscoredItems ids 0) off limit := by
  rw [unscoredItems_zero]
  exact mapIdx_page (fun i id => (⟨id, 0, i + 1, false⟩ : RecommendedItem K)) ids off limit

end Pages

/-! ### Vectors and searches -/

section Vectors

variable (w : Stores K S D) (cfg : Config K) (ns subjectID : String)

def sparseVector : Option S :=
  (w.ids.get ⟨ns, .subject, subjectID⟩).bind fun n =>
    (w.subjects (qdrantPhysicalNamespace cfg ns)).lookup (numericID n)

variable [Field K] [LinearOrder K]

def denseVector : Option D :=
  if hybridEligible cfg then
    (w.ids.get ⟨ns, .subject, subjectID⟩).bind fun n =>
      (w.subjectsDense (qdrantPhysicalNamespace cfg ns)).lookup (numericID n)
  else none

omit [Field K] in
def searchSparse (vec : S) (filter : Option Filter) (topK : ℕ) : List (ScoredPoint K) :=
  search (w.sparseScore vec) (w.objectPoints (qdrantPhysicalNamespace cfg ns)) filter topK

omit [Field K] in
def searchDense (vec : D) (filter : Option Filter) (topK : ℕ) : List (ScoredPoint K) :=
  search (w.denseScore vec) (w.objectPointsDense (qdrantPhysicalNamespace cfg ns)) filter topK

/-- The points of one arm under the ids that only the other arm has found. -/
def extraOf (search : Option Filter → ℕ → List (ScoredPoint K))
    (base other : List (ScoredPoint K)) :
    List (ScoredPoint K) :=
  search (some (hasIDFilter (pointIDsMissingFrom base other)))
    (pointIDsMissingFrom base other).length

/-- The candidates of the hybrid, from what the two arms have found. -/
def hybridCandidates (R : Runtime K) (vec : S) (denseVec : D)
    (sparse dense : List (ScoredPoint K)) :
    List (String × K) :=
  blendHybridScores R (sparse ++ scoresOnly (extraOf (searchSparse w cfg ns vec) sparse dense))
    (dense ++ scoresOnly (extraOf (searchDense w cfg ns denseVec) dense sparse)) cfg.alpha
    (resolveGamma cfg) cfg.denseDistance w.now

end Vectors

/-! ### Returns -/

section Returns

variable [Field K] [LinearOrder K] {w : Stores K S D} {cfg : Config K} {req : Inner}

lemma authoredObjectSet_returns :
    (authoredObjectSet req cfg).Ensures w.answer (· = authoredSet w cfg req.ns req.subjectID) := by
  unfold authoredObjectSet authoredSet
  cases cfg.excludeAuthored with
  | false => exact ensures_pure rfl
  | true => exact ensures_ask_bind.mpr (ensures_pure rfl)

lemma seenObjectSet_returns : (seenObjectSet req cfg).Ensures w.answer
      (· = setOf (seenItems w cfg req.ns req.subjectID)) :=
  ensures_ask_bind.mpr (ensures_pure rfl)

lemma excludedObjectIDs_returns :
    (excludedObjectIDs req cfg (seenItems w cfg req.ns req.subjectID)).Ensures w.answer
      (· = excludedIDs w cfg req.ns req.subjectID) := by
  refine ensures_bind.mpr (authoredObjectSet_returns.mono ?_)
  rintro _ rfl
  unfold excludedIDs
  split_ifs with hn <;> exact ensures_pure rfl

lemma buildSeenItemsFilter_returns :
    (buildSeenItemsFilter req.ns (excludedIDs w cfg req.ns req.subjectID)).Ensures w.answer
      (· = seenFilter w cfg req.ns req.subjectID) := by
  unfold buildSeenItemsFilter
  split_ifs with hn
  · refine ensures_pure ?_
    have hp : excludedPoints w cfg req.ns req.subjectID = [] := by
      simp [excludedPoints, hn, select, IDs.fill]
    rw [seenFilter, if_pos hp]
  · refine ensures_ask_bind.mpr ?_
    dsimp only [Stores.answer]
    unfold seenFilter excludedPoints
    split_ifs with hi <;> exact ensures_pure rfl

lemma blendHybridScores_nil (R : Runtime K) (alpha gamma : K) (dist : String) (now : ℤ) :
    blendHybridScores R [] [] alpha gamma dist now = [] := by
  have hd : boundDenseScores R (extractScores []) dist = ∅ := by
    unfold boundDenseScores
    split_ifs <;> rfl
  have hp := R.sortSlice_perm
    (fun x y => if x.2 ≠ y.2 then decide (y.2 < x.2) else decide (x.1 < y.1)) []
  unfold blendHybridScores
  rw [hd]
  exact hp.eq_nil

variable {ns : String}

omit [Field K] in
lemma searchSparse_zero (filter : Option Filter) : searchSparse w cfg ns vec filter 0 = [] := by
  simp [searchSparse, search]

omit [Field K] in
lemma searchDense_zero (filter : Option Filter) : searchDense w cfg ns vec filter 0 = [] := by
  simp [searchDense, search]

lemma backfill_returns (base other : List (ScoredPoint K))
    (search : Option Filter → ℕ → RecommendM K S D (Arm K))
    (found : Option Filter → ℕ → List (ScoredPoint K))
    (hs : ∀ filter topK, (search filter topK).Ensures w.answer (· = .ok (found filter topK)))
    (hz : ∀ filter, found filter 0 = []) :
    (backfill (.ok base) (pointIDsMissingFrom base other) search).Ensures w.answer
      (· = .ok (extraOf found base other)) := by
  unfold backfill
  split_ifs with hm
  · exact hs _ _
  · have hn : pointIDsMissingFrom base other = [] := by
      simpa [Except.isOk, Except.toBool] using hm
    exact ensures_pure (by rw [extraOf, hn, List.length_nil, hz])

lemma hybridCandidates_nil (R : Runtime K) (vec : S) (dv : D) (hs : sparse = []) (hd : dense = []) :
    hybridCandidates w cfg ns R vec dv sparse dense = [] := by
  subst hs hd
  exact blendHybridScores_nil R _ _ _ _

lemma hybridRecommend_returns (R : Runtime K) (limit : ℕ) (vec : S) (dv : D)
    (filter : Option Filter) :
    let candidates := hybridCandidates w cfg req.ns R vec dv
      (searchSparse w cfg req.ns vec filter ((req.offset + limit) * cfOverFetchFactor))
      (searchDense w cfg req.ns dv filter ((req.offset + limit) * denseOverFetchFactor))
    (hybridRecommend R req limit cfg vec dv filter).Ensures w.answer
      (· = ⟨pageItems candidates req.offset limit, .hybrid, candidates.length, .unitBlend,
        false⟩) := by
  intro candidates
  refine ensures_ask_bind.mpr (ensures_ask_bind.mpr ?_)
  split
  · -- neither arm has found anything
    next he =>
    obtain ⟨hs, hd⟩ := Bool.and_eq_true_iff.mp he
    have hn : candidates = [] :=
      hybridCandidates_nil R vec dv (List.isEmpty_iff.mp hs) (List.isEmpty_iff.mp hd)
    rw [hn]
    exact ensures_pure (by simp [pageItems, pageOf])
  · refine ensures_bind.mpr (Ensures.mono (backfill_returns _ _ _ (searchSparse w cfg req.ns vec)
      ?_ searchSparse_zero) ?_)
    · exact fun _ _ => rfl
    rintro _ rfl
    refine ensures_bind.mpr (Ensures.mono (backfill_returns _ _ _
      (searchDense w cfg req.ns dv) ?_ searchDense_zero) ?_)
    · exact fun _ _ => rfl
    rintro _ rfl
    exact ensures_ask_bind.mpr (ensures_pure rfl)

lemma sparseRecommend_returns (R : Runtime K) (limit : ℕ) (vec : S) (filter : Option Filter) :
    let scored := rerankScored R
      (searchSparse w cfg req.ns vec filter ((req.offset + limit) * cfOverFetchFactor))
      (resolveGamma cfg) (req.offset + limit) w.now
    (sparseRecommend R req limit cfg vec filter).Ensures w.answer
      (· = ⟨pageItems scored req.offset limit, .collaborativeFiltering, scored.length,
        .rawFreshness, false⟩) :=
  ensures_ask_bind.mpr (ensures_ask_bind.mpr (ensures_pure rfl))

lemma denseVectorOf_returns (hid : w.ids.get ⟨ns, .subject, subjectID⟩ = some n) :
    (denseVectorOf cfg (qdrantPhysicalNamespace cfg ns) (numericID n)).Ensures w.answer
      (· = denseVector w cfg ns subjectID) := by
  unfold denseVectorOf denseVector
  split_ifs
  · rw [hid]
    rfl
  · exact ensures_pure rfl

/-! ### The fallbacks -/

lemma nodup_popularList (ns : String) : ((popularList w ns).map id).Nodup := by
  rw [List.map_id]
  exact (List.perm_insertionSort _ _).nodup_iff.mpr (List.nodup_dedup _)

lemma fallbackPopular_returns (limit : ℕ) (ex : List String) :
    (fallbackPopular req limit cfg ex).Ensures w.answer fun out =>
      out.items = page (unscoredItems (popularRest w cfg req.ns req.subjectID ex) 0)
        req.offset limit ∧ out.source = .fallbackPopular ∧ out.degraded = false := by
  refine ensures_bind.mpr (authoredObjectSet_returns.mono ?_)
  rintro _ rfl
  refine ensures_ask_bind.mpr (ensures_pure ⟨?_, rfl, rfl⟩)
  refine (mapIdx_pageOf (fun i id => (⟨id, 0, i + 1, false⟩ : RecommendedItem K)) _ _ _).trans ?_
  rw [← unscoredItems_zero, ← unscoredItems_page, ← unscoredItems_page]
  exact congrArg (unscoredItems · req.offset)
    (page_keep_take (nodup_popularList req.ns) (Nat.le_refl _))

lemma descendPopular_returns (limit : ℕ) (ex : List String) (degraded : Bool) :
    (descendPopular req limit cfg ex degraded).Ensures w.answer fun out =>
      out.items = page (unscoredItems (popularRest w cfg req.ns req.subjectID ex) 0)
        req.offset limit ∧ out.source = .fallbackPopular ∧ out.degraded = degraded := by
  refine ensures_bind.mpr ((fallbackPopular_returns limit ex).mono ?_)
  rintro out ⟨hi, hs, hd⟩
  exact ensures_pure ⟨hi, hs, by rw [hd, Bool.false_or]⟩

variable {limit : ℕ}

omit [Field K] [LinearOrder K] in
lemma getTrending_eq (hl : 1 ≤ limit) : getTrending w ns (namespaceGeneration cfg) off limit =
      page (trendingList w cfg ns) off limit :=
  if_neg (by omega)

lemma probeTrending_returns (hl : 1 ≤ limit) : (probeTrending ns (namespaceGeneration cfg) off
        (page (trendingList w cfg ns) off limit)).Ensures w.answer fun has =>
      (has = true ↔ trendingList w cfg ns ≠ []) := by
  unfold probeTrending
  split_ifs with he hz
  · refine ensures_pure ⟨fun _ hn => he ?_, fun _ => rfl⟩
    rw [hn, page_nil]
  · rw [not_not, page_eq_nil] at he
    have hn : trendingList w cfg ns = [] := List.length_eq_zero_iff.mp (by omega)
    exact ensures_pure (by simp [hn])
  · refine ensures_ask_bind.mpr (ensures_pure ?_)
    simp [getTrending, trendingList]

lemma fallbackTrending_returns (hl : 1 ≤ limit) (ex : List String) :
    (fallbackTrending req limit cfg ex).Ensures w.answer fun out =>
      out.items = page (unscoredItems (fallbackList w cfg req.ns req.subjectID ex) 0)
        req.offset limit ∧ out.source = .fallbackPopular ∧ out.degraded = false := by
  have hp : trendingRest w cfg req.ns req.subjectID ex = [] →
      (descendPopular req limit cfg ex false).Ensures w.answer fun out =>
        out.items = page (unscoredItems (fallbackList w cfg req.ns req.subjectID ex) 0)
          req.offset limit ∧ out.source = .fallbackPopular ∧ out.degraded = false := by
    intro hni
    rw [fallbackList, if_pos hni]
    exact descendPopular_returns limit ex false
  have ht : ∀ entries, trendingRest w cfg req.ns req.subjectID ex ≠ [] →
      entries = page (trendingRest w cfg req.ns req.subjectID ex) req.offset limit →
      (trendingOutcome req entries).items = page (unscoredItems (K := K)
        (fallbackList w cfg req.ns req.subjectID ex) 0) req.offset limit := by
    rintro _ hne rfl
    rw [fallbackList, if_neg hne, ← unscoredItems_page, ← map_page]
    rfl
  refine ensures_bind.mpr (authoredObjectSet_returns.mono ?_)
  rintro _ rfl
  refine ensures_ask_bind.mpr ?_
  dsimp only [Stores.answer]
  by_cases hn : mergeExclusions (authoredSet w cfg req.ns req.subjectID) ex = []
  · -- nothing is excluded, and the store pages
    have hr : trendingRest w cfg req.ns req.subjectID ex = trendingList w cfg req.ns := by
      rw [trendingRest, hn, keep_nil]
    rw [if_pos hn, if_pos hn, getTrending_eq hl]
    refine ensures_bind.mpr ((probeTrending_returns hl).mono fun has hh => ?_)
    cases has with
    | false => exact hp (hr.trans (not_not.mp fun h => nomatch hh.mpr h))
    | true =>
      have hne : trendingRest w cfg req.ns req.subjectID ex ≠ [] := hr ▸ hh.mp rfl
      rw [if_pos hn]
      exact ensures_pure ⟨ht _ hne (by rw [hr]), rfl, rfl⟩
  · -- the list is read from its beginning, with headroom for what is dropped
    have hno := w.trending_nodup (PhysicalKind.trending.nameOf req.ns (namespaceGeneration cfg))
    rw [if_neg hn, if_neg hn, getTrending_eq (by omega)]
    refine ensures_bind.mpr ((probeTrending_returns (by omega)).mono fun has hh => ?_)
    cases has with
    | false =>
      refine hp ?_
      rw [trendingRest, not_not.mp fun h => nomatch hh.mpr h]
      rfl
    | true =>
      rw [if_neg (by decide), if_neg hn]
      split
      · next hd => exact hp ((keep_take_eq_nil hno (by omega)).mp hd)
      · next hd =>
        refine ensures_pure ⟨ht _ ?_ ?_, rfl, rfl⟩
        · exact fun hr => hd ((keep_take_eq_nil hno (by omega)).mpr hr)
        · rw [pageOf_fst]
          exact page_keep_take hno (Nat.le_refl _)

lemma collaborativeFiltering_rule (R : Runtime K) (limit : ℕ)
    (hp : sparseVector w cfg req.ns req.subjectID = none → ∀ degraded,
      (descendPopular req limit cfg [] degraded).Ensures w.answer Q)
    (hh : ∀ vec dv, sparseVector w cfg req.ns req.subjectID = some vec →
      denseVector w cfg req.ns req.subjectID = some dv →
      (hybridRecommend R req limit cfg vec dv
        (seenFilter w cfg req.ns req.subjectID)).Ensures w.answer Q)
    (hsp : ∀ vec, sparseVector w cfg req.ns req.subjectID = some vec →
      denseVector w cfg req.ns req.subjectID = none →
      (sparseRecommend R req limit cfg vec
        (seenFilter w cfg req.ns req.subjectID)).Ensures w.answer Q) :
    (collaborativeFiltering R req limit cfg).Ensures w.answer Q := by
  refine ensures_ask_bind.mpr ?_
  dsimp only [Stores.answer]
  cases hid : w.ids.get ⟨req.ns, .subject, req.subjectID⟩ with
  | none => exact hp (by rw [sparseVector, hid]; rfl) true
  | some n =>
    refine ensures_ask_bind.mpr ?_
    dsimp only [Stores.answer]
    cases hv : (w.subjects (qdrantPhysicalNamespace cfg req.ns)).lookup (numericID n) with
    | none => exact hp (by rw [sparseVector, hid]; exact hv) false
    | some vec =>
      have hs : sparseVector w cfg req.ns req.subjectID = some vec := by
        rw [sparseVector, hid]
        exact hv
      refine ensures_ask_bind.mpr (ensures_bind.mpr (excludedObjectIDs_returns.mono ?_))
      rintro _ rfl
      refine ensures_bind.mpr (buildSeenItemsFilter_returns.mono ?_)
      rintro _ rfl
      refine ensures_bind.mpr ((denseVectorOf_returns hid).mono ?_)
      rintro _ rfl
      split
      · next dv hd => exact hh vec dv hs hd
      · next hd => exact hsp vec hs hd

/-! ### Responses -/

omit [Field K] [LinearOrder K] in
lemma one_le_window (r : Request) : 1 ≤ (window r cfg).1 := by
  unfold window
  dsimp only
  split_ifs <;> omega

lemma doRecommend_rule (R : Runtime K)
    (hQ : ∀ out : Outcome K, Q out → ∀ degraded, Q { out with degraded := degraded })
    (h : (rung R req limit cfg (countInteractions w req.ns req.subjectID)).Ensures w.answer Q) :
    (doRecommend R req limit cfg).Ensures w.answer Q :=
  ensures_ask_bind.mpr (ensures_bind.mpr (h.mono fun out ho => ensures_pure (hQ out ho _)))

lemma compute_rule (R : Runtime K) (r : Request)
    (h : (doRecommend R ⟨r.subjectID, r.ns, (window r cfg).2⟩ (window r cfg).1 cfg).Ensures
      w.answer Q) :
    (compute R r cfg).Ensures w.answer fun resp => ∃ out, Q out ∧ resp = responseOf r cfg out := by
  refine ensures_bind.mpr (h.mono fun out ho => ?_)
  split
  · exact ensures_pure ⟨out, ho, rfl⟩
  · exact ensures_ask_bind.mpr (ensures_pure ⟨out, ho, rfl⟩)

end Returns

end Codohue.Recommend
