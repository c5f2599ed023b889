import Codohue.RankChunks

/-!
The hybrid `Recommend` and `Rank` at one instant: both score an object by the same function of its
two scores and its creation time.

`Recommend` assembles each arm from a search and from the scores of what only the other arm has
found, and takes the creation time from the arm that found the object; `Rank` takes it from the
sparse arm first.
-/

namespace Codohue.Recommend

open IDMap Repair Service
open Program (Ensures ensures_bind ensures_ask_bind ensures_pure)

variable {K S D : Type}

/-! ### One arm -/

variable {ns o : String}

section Arm

variable {V V' : Type} {ids : Mappings}

/-- A point without its creation time. -/
def undated (p : ScoredPoint K) : ScoredPoint K := { p with createdAt := none }

lemma map_score_undated (x : Option (ScoredPoint K)) :
    (x.map undated).map ScoredPoint.score = x.map ScoredPoint.score := by
  cases x <;> rfl

lemma bind_createdAt_undated (x : Option (ScoredPoint K)) :
    (x.map undated).bind ScoredPoint.createdAt = none := by
  cases x <;> rfl

lemma pointsOf_append (points points' : List (ScoredPoint K)) :
    pointsOf o (points ++ points') = pointsOf o points ++ pointsOf o points' :=
  List.filter_append _ _

lemma pointsOf_scoresOnly (points : List (ScoredPoint K)) :
    pointsOf o (scoresOnly points) = (pointsOf o points).map undated := by
  rw [scoresOnly, pointsOf, List.filter_map]
  rfl

lemma pointsOf_eq_nil (h : ¬ Found o points) : pointsOf o points = [] :=
  List.filter_eq_nil_iff.mpr fun p hp hpo => h ⟨p, hp, of_decide_eq_true hpo⟩

variable [LinearOrder K]

/-- What an arm has found, and the scores of what only the other arm has. -/
def armPoints (score : V → Option K) (points : Collection V) (filter : Option Filter) (topK : ℕ)
    (other : List (ScoredPoint K)) : List (ScoredPoint K) :=
  let base := search score points filter topK
  base ++ scoresOnly (extraOf (search score points) base other)

variable {score : V → Option K} {points : Collection V} {filter : Option Filter} {topK : ℕ}
variable {other : List (ScoredPoint K)}

section

variable (hcolumn : InColumn ids) (ha : PointsAgree ids ns points)
  (ho : ∀ p ∈ other, Admissible ids ns filter p)

include hcolumn ha ho

lemma found_of_extra (h : Found o (extraOf (search score points) base other)) :
    Found o other ∧ ¬ Found o base := by
  obtain ⟨q, hq, hqo⟩ := h
  obtain ⟨p, hp, hid, o', hpo', hn⟩ := mem_pointIDsMissingFrom.mp
    (((mem_search hq).1 _ rfl).1 _ rfl)
  obtain rfl : o' = o := (resolves_iff hcolumn ((ho p hp).2 o' hpo')
    ((search_admissible ha q hq).2 o hqo)).mpr hid
  exact ⟨⟨p, hp, hpo'⟩, hn⟩

lemma found_of_armPoints (h : Found o (armPoints score points filter topK other)) :
    Found o (search score points filter topK) ∨ Found o other := by
  obtain ⟨p, hp, hpo⟩ := h
  rcases List.mem_append.mp hp with hp | hp
  · exact .inl ⟨p, hp, hpo⟩
  · obtain ⟨q, hq, rfl⟩ := List.mem_map.mp hp
    exact .inr (found_of_extra hcolumn ha ho ⟨q, hq, hpo⟩).1

lemma pointsOf_armPoints_of_found (hf : Found o (search score points filter topK)) :
    pointsOf o (armPoints score points filter topK other) =
      ((objectPoint ids ns score points o).filter fun p => Passes filter p.id).toList := by
  have he : ¬ Found o (extraOf (search score points) (search score points filter topK) other) :=
    fun h => (found_of_extra hcolumn ha ho h).2 hf
  obtain ⟨p, hp, hpo⟩ := hf
  obtain ⟨hpoi, hpa⟩ := (mem_pointsOf_retrieve ha).mp
    (List.mem_filter.mpr ⟨mem_retrieve_of_mem_search hp, decide_eq_true hpo⟩)
  rw [armPoints, pointsOf_append, pointsOf_search_of_mem ha hp hpo, pointsOf_scoresOnly,
    pointsOf_eq_nil he, hpoi]
  simp [Option.filter, hpa]

end

lemma pointsOf_armPoints_of_other (ha : PointsAgree ids ns points)
    (ho : ∀ p ∈ other, Admissible ids ns filter p)
    (hn : ¬ Found o (search score points filter topK)) (hfo : Found o other) :
    pointsOf o (armPoints score points filter topK other) =
      (((objectPoint ids ns score points o).filter fun p => Passes filter p.id).map
        undated).toList := by
  obtain ⟨q, hq, hqo⟩ := hfo
  have hm := mem_pointIDsMissingFrom.mpr ⟨q, hq, rfl, o, hqo, hn⟩
  have he : pointsOf o (extraOf (search score points) (search score points filter topK) other) =
      _ := pointsOf_search ha length_retrieve_le
  rw [armPoints, pointsOf_append, pointsOf_eq_nil hn, pointsOf_scoresOnly, he]
  cases hpo : objectPoint ids ns score points o with
  | none => rfl
  | some p =>
    -- both points of the object have its id
    obtain ⟨v, hv, hid⟩ := (objectPoint_eq_some.mp hpo).1
    obtain ⟨v', hv', hid'⟩ := (ho q hq).2 o hqo
    have hs : p.id = q.id := by
      rw [← hid, ← hid', Option.some.inj (hv.symm.trans hv')]
    have hp : Passes filter p.id := hs ▸ (ho q hq).1
    have hfe : Passes (some (hasIDFilter (pointIDsMissingFrom
        (search score points filter topK) other))) p.id := by
      intro f hf
      cases hf
      exact ⟨fun _ h => Option.some.inj h ▸ hs ▸ hm, nofun⟩
    simp [Option.filter, hp, hfe]

end Arm

/-! ### Both arms -/

variable {R : Runtime K} {w : Stores K S D} {cfg : Config K}

section Arms

variable [Field K] [LinearOrder K]

/-- What the hybrid `Recommend` feeds the blend for an object, with searches of these depths. -/
def recommendFeed (w : Stores K S D) (cfg : Config K) (ns subjectID : String) (vec : S) (dv : D)
    (topK denseTopK : ℕ) (o : String) : Feed K :=
  let filter := seenFilter w cfg ns subjectID
  let P := qdrantPhysicalNamespace cfg ns
  feedOf (armPoints (w.sparseScore vec) (w.objectPoints P) filter topK
      (searchDense w cfg ns dv filter denseTopK))
    (armPoints (w.denseScore dv) (w.objectPointsDense P) filter denseTopK
      (searchSparse w cfg ns vec filter topK)) o

/-- The creation time from the arms that have found the object is the one that `Rank` takes: if the
sparse search misses the object, its sparse point has no other creation time than the dense one, and
if the dense search misses it, no time is left to the dense point. -/
structure CreatedAlike (w : Stores K S D) (cfg : Config K) (ns subjectID : String) (vec : S)
    (dv : D)
    (topK denseTopK : ℕ) (o : String) : Prop where
  sparse : ¬ Found o (searchSparse w cfg ns vec (seenFilter w cfg ns subjectID) topK) →
    let createdAt := (sparsePoint w cfg ns subjectID o).bind ScoredPoint.createdAt
    createdAt = none ∨ createdAt = (densePoint w cfg ns subjectID o).bind ScoredPoint.createdAt
  dense : ¬ Found o (searchDense w cfg ns dv (seenFilter w cfg ns subjectID) denseTopK) →
    ((sparsePoint w cfg ns subjectID o).bind ScoredPoint.createdAt).isSome ∨
      (densePoint w cfg ns subjectID o).bind ScoredPoint.createdAt = none

/-- The object is found by one of the searches. -/
def Retrieved (w : Stores K S D) (cfg : Config K) (ns subjectID : String) (vec : S) (dv : D)
    (topK denseTopK : ℕ) (o : String) : Prop :=
  Found o (searchSparse w cfg ns vec (seenFilter w cfg ns subjectID) topK) ∨
    Found o (searchDense w cfg ns dv (seenFilter w cfg ns subjectID) denseTopK)

lemma or_eq_left_iff {α : Type} {a b : Option α} : a.or b = a ↔ a.isSome ∨ b = none := by
  cases a <;> simp

lemma or_eq_right_iff {α : Type} {a b : Option α} : a.or b = b ↔ a = none ∨ a = b := by
  cases a <;> simp

variable {subj : String} {vec : S} {dv : D} {topK denseTopK : ℕ}
variable (hcolumn : InColumn w.ids) (haligned : Aligned w cfg ns)

include hcolumn haligned

lemma recommendFeed_eq_iff (hv : sparseVector w cfg ns subj = some vec)
    (hdv : denseVector w cfg ns subj = some dv)
    (hf : Retrieved w cfg ns subj vec dv topK denseTopK o) :
    recommendFeed w cfg ns subj vec dv topK denseTopK o = rankFeed w cfg ns subj o ↔
      CreatedAlike w cfg ns subj vec dv topK denseTopK o := by
  have hsp : ∀ p ∈ searchSparse w cfg ns vec (seenFilter w cfg ns subj) topK,
      Admissible w.ids ns (seenFilter w cfg ns subj) p := search_admissible haligned.sparse
  have hde : ∀ p ∈ searchDense w cfg ns dv (seenFilter w cfg ns subj) denseTopK,
      Admissible w.ids ns (seenFilter w cfg ns subj) p := search_admissible haligned.dense
  have hx : sparsePoint w cfg ns subj o = eligiblePoint w cfg ns subj (w.sparseScore vec)
      (w.objectPoints (qdrantPhysicalNamespace cfg ns)) o := by
    rw [sparsePoint, hv, Option.bind_some]
  have hy : densePoint w cfg ns subj o = eligiblePoint w cfg ns subj (w.denseScore dv)
      (w.objectPointsDense (qdrantPhysicalNamespace cfg ns)) o := by
    rw [densePoint, hdv, Option.bind_some]
  unfold recommendFeed rankFeed
  by_cases hs : Found o (searchSparse w cfg ns vec (seenFilter w cfg ns subj) topK)
  · have hfs := pointsOf_armPoints_of_found hcolumn haligned.sparse hde hs
    by_cases hd : Found o (searchDense w cfg ns dv (seenFilter w cfg ns subj) denseTopK)
    · rw [hx, hy]
      exact iff_of_true (feedOf_eq hfs (pointsOf_armPoints_of_found hcolumn haligned.dense hsp hd))
        ⟨absurd hs, absurd hd⟩
    · -- the point of the dense arm comes without its creation time
      dsimp only
      rw [feedOf_eq hfs (pointsOf_armPoints_of_other haligned.dense hsp hd hs),
        map_score_undated, bind_createdAt_undated, Option.or_none, ← eligiblePoint, ← eligiblePoint,
        ← hx, ← hy, Feed.mk.injEq, and_iff_right rfl, and_iff_right rfl, eq_comm, or_eq_left_iff]
      exact ⟨fun h => ⟨absurd hs, fun _ => h⟩, fun h => h.dense hd⟩
  · have hd := hf.resolve_left hs
    dsimp only
    rw [feedOf_eq (pointsOf_armPoints_of_other haligned.sparse hde hs hd)
      (pointsOf_armPoints_of_found hcolumn haligned.dense hsp hd),
      map_score_undated, bind_createdAt_undated, Option.none_or, ← eligiblePoint, ← eligiblePoint,
      ← hx, ← hy, Feed.mk.injEq, and_iff_right rfl, and_iff_right rfl, eq_comm, or_eq_right_iff]
    exact ⟨fun h => ⟨fun _ => h, absurd hd⟩, fun h => h.sparse hs⟩

lemma of_mem_hybridCandidates (hx : x ∈ hybridCandidates w cfg ns R vec dv
      (searchSparse w cfg ns vec (seenFilter w cfg ns subj) topK)
      (searchDense w cfg ns dv (seenFilter w cfg ns subj) denseTopK)) :
    Retrieved w cfg ns subj vec dv topK denseTopK x.1 ∧
      (recommendFeed w cfg ns subj vec dv topK denseTopK x.1).score R cfg.alpha (resolveGamma cfg)
        cfg.denseDistance w.now = some x.2 := by
  refine ⟨?_, mem_blend_iff_score.mp hx⟩
  obtain ⟨p, hp, hpo⟩ := mem_blendHybridScores hx
  rcases List.mem_append.mp hp with hp | hp
  · exact found_of_armPoints hcolumn haligned.sparse (search_admissible haligned.dense) ⟨p, hp, hpo⟩
  · exact (found_of_armPoints hcolumn haligned.dense (search_admissible haligned.sparse)
      ⟨p, hp, hpo⟩).symm

end Arms

/-! ### Responses -/

section Responses

variable [Field K] [LinearOrder K] {P : RecommendedItem K → Prop}

/-- The items of a hybrid outcome meet `P`. -/
def Outcome.HybridItems (P : RecommendedItem K → Prop) (out : Outcome K) : Prop :=
  out.source = .hybrid → ∀ item ∈ out.items, P item

omit [Field K] [LinearOrder K] in
lemma hybridItems_of_source {out : Outcome K} (h : out.source = .fallbackPopular) :
    out.HybridItems P :=
  fun hh => nomatch h.symm.trans hh

lemma fallbackTrending_hybridItems (hl : 1 ≤ lim) (ex : List String) :
    (fallbackTrending req lim cfg ex).Ensures w.answer (Outcome.HybridItems P) :=
  (fallbackTrending_returns hl ex).mono fun _ h => hybridItems_of_source h.2.1

lemma collaborativeFiltering_hybridItems (req : Inner) (lim : ℕ)
    (h : ∀ vec dv, sparseVector w cfg req.ns req.subjectID = some vec →
      denseVector w cfg req.ns req.subjectID = some dv →
      ∀ x ∈ hybridCandidates w cfg req.ns R vec dv
        (searchSparse w cfg req.ns vec (seenFilter w cfg req.ns req.subjectID)
          ((req.offset + lim) * cfOverFetchFactor))
        (searchDense w cfg req.ns dv (seenFilter w cfg req.ns req.subjectID)
          ((req.offset + lim) * denseOverFetchFactor)), ∀ rank, P ⟨x.1, x.2, rank, true⟩) :
    (collaborativeFiltering R req lim cfg).Ensures w.answer (Outcome.HybridItems P) := by
  refine collaborativeFiltering_rule R lim ?_ ?_ ?_
  · intro _ degraded
    exact (descendPopular_returns lim [] degraded).mono fun _ h => hybridItems_of_source h.2.1
  · intro vec dv hv hdv
    refine (hybridRecommend_returns R lim vec dv _).mono ?_
    rintro _ rfl - item hite
    obtain ⟨i, hi, rfl⟩ := List.mem_mapIdx.mp hite
    exact h vec dv hv hdv _ (mem_of_mem_pageOf (List.getElem_mem hi)) _
  · intro vec _ _
    refine (sparseRecommend_returns R lim vec _).mono ?_
    rintro _ rfl
    exact nofun

lemma hybridCold_hybridItems (hl : 1 ≤ lim) :
    (hybridCold R req lim cfg).Ensures w.answer (Outcome.HybridItems P) := by
  refine ensures_bind.mpr (seenObjectSet_returns.mono ?_)
  rintro _ rfl
  refine ensures_bind.mpr ((collaborativeFiltering_hybridItems (P := fun _ => True)
    { req with offset := 0 } (req.offset + lim) fun _ _ _ _ _ _ _ => trivial).attempt.mono ?_)
  rintro _ ⟨cfOut, rfl, -⟩
  refine ensures_bind.mpr ((fallbackTrending_returns (by omega) _).attempt.mono ?_)
  rintro _ ⟨popOut, rfl, hp⟩
  dsimp only
  split
  · exact ensures_pure (hybridItems_of_source hp.2.1)
  · exact ensures_pure nofun

/-- Only the rung of a warm subject returns a hybrid outcome. -/
lemma compute_hybridItems (r : Request)
    (h : (collaborativeFiltering R ⟨r.subjectID, r.ns, (window r cfg).2⟩ (window r cfg).1
      cfg).Ensures w.answer (Outcome.HybridItems P)) :
    (compute R r cfg).Ensures w.answer fun resp =>
      resp.source = .hybrid → ∀ item ∈ resp.items, P item := by
  have hl : 1 ≤ (window r cfg).1 := one_le_window r
  refine (compute_rule R r (Q := Outcome.HybridItems P)
    (doRecommend_rule R (fun _ ho _ => ho) ?_)).mono ?_
  · unfold rung
    split_ifs
    · exact fallbackTrending_hybridItems hl _
    · exact hybridCold_hybridItems hl
    · refine ensures_bind.mpr (h.mono fun out ho => ?_)
      split_ifs
      · refine ensures_bind.mpr (seenObjectSet_returns.mono ?_)
        rintro _ rfl
        exact fallbackTrending_hybridItems hl _
      · exact ensures_pure ho
  · rintro _ ⟨out, ho, rfl⟩
    exact ho

end Responses

section Shop

def hybridConfig : Config ℚ := ⟨1, 50, 30, false, 1 / 2, 1, "catalog", "cosine"⟩

def hybridIDs : Mappings :=
  (((((uIDs.set ⟨"shop", .object, "a"⟩ 1
    (by decide)).set ⟨"shop", .object, "b"⟩ 2 (by decide)).set ⟨"shop", .object, "c"⟩ 3
    (by decide)).set ⟨"shop", .object, "d"⟩ 4 (by decide)).set ⟨"shop", .object, "e"⟩ 5
    (by decide)).set ⟨"shop", .object, "o"⟩ 6 (by decide)

/-- The sparse arm prefers five other objects to `o`, which has just been touched. -/
def hybridPoints : Collection ℚ :=
  ([(1, "a"), (2, "b"), (3, "c"), (4, "d"), (5, "e")].foldl (fun points e =>
    points.insert e.1 ⟨some e.2, some 0, 1 / 50⟩) (∅ : Collection ℚ)).insert 6
      ⟨some "o", some 0, 1 / 100⟩

/-- The dense arm has only `o`, with the creation time of the catalog. -/
def hybridPointsDense (createdAt : ℤ) : Collection ℚ :=
  (∅ : Collection ℚ).insert 6 ⟨some "o", some createdAt, 1⟩

def hybridShop (createdAt : ℤ) : Stores ℚ ℚ ℚ where
  configs := (∅ : Table String (Config ℚ)).insert "shop" hybridConfig
  cache := ∅
  events := List.replicate 5 ⟨"shop", "u", "s", 1, 0⟩
  objects := []
  ids := hybridIDs
  trending _ := []
  trending_nodup _ := List.nodup_nil
  subjects _ := (∅ : Table ℕ ℚ).insert 1 1
  subjectsDense _ := (∅ : Table ℕ ℚ).insert 1 1
  objectPoints _ := hybridPoints
  objectPointsDense _ := hybridPointsDense createdAt
  sparseScore v u := some (v * u)
  denseScore v u := some (v * u)
  now := 0

lemma hybridIDs_inColumn : InColumn hybridIDs := by
  have ha : ∀ e ∈ hybridIDs.rows.entries, Bigint e.2 := by decide
  exact fun x n hx => ha ⟨x, n⟩ (Table.lookup_eq_some_iff.mp hx)

lemma hybridShop_aligned (t₁ : ℤ) : Aligned (hybridShop t₁) hybridConfig "shop" where
  sparse := show PointsAgree hybridIDs "shop" hybridPoints from pointsAgree_of_entries (by decide)
  dense id q o hq ho := by
    rcases Table.eq_or_of_lookup_insert hq with ⟨rfl, rfl⟩ | hq
    · cases ho
      have hid : hybridIDs.get ⟨"shop", .object, "o"⟩ = some 6 := by decide
      exact ⟨6, hid, by decide⟩
    · cases hq

def bestOne : Request := ⟨"u", "shop", 1, 0⟩

end Shop

end Codohue.Recommend
