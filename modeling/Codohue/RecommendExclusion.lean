import Codohue.ColdBlend
import Codohue.RecommendBlend
import Codohue.RecommendHealthy
import Mathlib.Algebra.Field.Rat
import Mathlib.Algebra.Order.Ring.Unbundled.Rat

/-!
What `Recommend` leaves out: the objects that the subject has seen, and those it has authored.

Each rung leaves them out in its own way: the searches with a filter on point ids, the fallbacks by
dropping them from the list before it is paged. A response then holds no excluded object if no
rung that it passes through does.
-/

namespace Codohue.Recommend

open IDMap Pages Repair Service
open Program (Ensures ensures_bind ensures_ask_bind ensures_pure)

/-! ### Lists -/

variable {K : Type} {lim : ℕ}

section Lists

lemma mem_of_mem_pageOf {α : Type} {s : List α} {off : ℕ} {x : α}
    (h : x ∈ (pageOf s off lim).1) : x ∈ s :=
  List.mem_of_mem_drop (List.mem_of_mem_take h)

lemma mem_setOf {ids : List String} : x ∈ setOf ids ↔ x ∈ ids := List.mem_dedup

lemma mem_mergeExclusions {a b : List String} : x ∈ mergeExclusions a b ↔ x ∈ a ∨ x ∈ b := by
  unfold mergeExclusions
  split_ifs with hb ha
  · simp [hb]
  · simp [ha]
  · rw [mem_setOf, List.mem_append]

lemma itemIDs_mapIdx {α : Type} (f : ℕ → α → RecommendedItem K) (objectID : α → String)
    (l : List α) (h : ∀ i a, (f i a).objectID = objectID a) :
    itemIDs (l.mapIdx f) = l.map objectID := by
  refine List.ext_getElem (by simp [itemIDs]) fun i _ _ => ?_
  simp [itemIDs, h]

@[simp] lemma itemIDs_unscoredItems [Zero K] (ids : List String) (start : ℕ) :
    itemIDs (unscoredItems ids start : List (RecommendedItem K)) = ids :=
  (itemIDs_mapIdx _ id ids fun _ _ => rfl).trans (List.map_id ids)

lemma itemIDs_pageItems (scored : List (String × K)) (off lim : ℕ) :
    itemIDs (pageItems scored off lim) = (pageOf scored off lim).1.map Prod.fst :=
  itemIDs_mapIdx _ _ _ fun _ _ => rfl

lemma itemIDs_repageItems (items : List (RecommendedItem K)) (off lim : ℕ) :
    itemIDs (repageItems items off lim) = itemIDs (pageOf items off lim).1 :=
  itemIDs_mapIdx _ _ _ fun _ _ => rfl

end Lists

/-! ### Points -/

variable {V : Type} {points : Collection V}
variable {R : Runtime K}

section Points

variable [Field K] [LinearOrder K]

lemma mem_rerankScored {points : List (ScoredPoint K)} {x : String × K}
    (h : x ∈ rerankScored R points gamma lim now) : ∃ p ∈ points, p.objectID = some x.1 := by
  have hm : x ∈ points.filterMap (rescore R now gamma) :=
    (R.sortSlice_perm _ _).mem_iff.mp (List.mem_of_mem_take h)
  obtain ⟨p, hp, hx⟩ := List.mem_filterMap.mp hm
  refine ⟨p, hp, ?_⟩
  unfold rescore at hx
  split at hx
  · cases hx
  · next id hid =>
    dsimp only at hx
    split_ifs at hx
    rw [hid, ← Option.some.inj hx]

lemma mem_blendHybridScores {dense : List (ScoredPoint K)} {x : String × K}
    (h : x ∈ blendHybridScores R sparse dense alpha gamma distance now) :
    ∃ p ∈ sparse ++ dense, p.objectID = some x.1 := by
  have hpo : ∀ points : List (ScoredPoint K),
      (∃ v, (extractScores points).lookup x.1 = some v ∧ R.finiteScore v = true) →
        ∃ p ∈ points, p.objectID = some x.1 := by
    rintro points ⟨v, hv, -⟩
    obtain ⟨p, hp, hid, -⟩ := exists_point_of_lookup hv
    exact ⟨p, hp, hid⟩
  rcases (mem_blendHybridScores_iff.mp h).1 with hs | hd
  · obtain ⟨p, hp, hid⟩ := hpo _ (mem_mapFinite.mp hs)
    exact ⟨p, List.mem_append_left _ hp, hid⟩
  · obtain ⟨p, hp, hid⟩ := hpo _ (mem_boundDenseScores.mp hd)
    exact ⟨p, List.mem_append_right _ hp, hid⟩

omit [Field K] in
lemma mem_search {score : V → Option K} (h : p ∈ search score points filter topK) :
    (∀ f ∈ filter, f.Admits p.id) ∧ ∃ q, points.lookup p.id = some q ∧ q.objectID = p.objectID ∧
      (score q.vector).isSome := by
  have hm : p ∈ retrieve score points filter :=
    (List.mem_insertionSort _).mp (List.mem_of_mem_take h)
  obtain ⟨e, he, hp⟩ := List.mem_filterMap.mp hm
  split_ifs at hp with ha
  obtain ⟨v, hv, rfl⟩ := Option.map_eq_some_iff.mp hp
  exact ⟨ha, e.2, Table.lookup_eq_some_iff.mpr he, rfl, Option.isSome_of_eq_some hv⟩

end Points

/-! ### The exclusions -/

section Exclusion

variable {S D : Type} {w : Stores K S D} {cfg : Config K} {req : Inner} {ns o : String}
  {P : String → Prop} {ids : Mappings} {filter : Option Filter}

/-- The subject has interacted with the object within the window of the namespace. -/
def Seen (w : Stores K S D) (cfg : Config K) (ns subjectID objectID : String) : Prop :=
  objectID ∈ getSeenItems w ns subjectID (seenItemsWindow cfg)

/-- The namespace leaves out what a subject authored, and the repository lists the object. -/
def Authored (w : Stores K S D) (cfg : Config K) (ns subjectID objectID : String) : Prop :=
  cfg.excludeAuthored = true ∧ objectID ∈ getAuthoredObjects w ns subjectID

def Excluded (w : Stores K S D) (cfg : Config K) (ns subjectID objectID : String) : Prop :=
  Seen w cfg ns subjectID objectID ∨ Authored w cfg ns subjectID objectID

lemma mem_authoredSet {subj : String} :
    o ∈ authoredSet w cfg ns subj ↔ Authored w cfg ns subj o := by
  unfold authoredSet
  split_ifs with hon
  · rw [mem_setOf]
    exact (and_iff_right hon).symm
  · exact ⟨nofun, fun h => absurd h.1 hon⟩

lemma mem_excludedIDs {subj : String} :
    o ∈ excludedIDs w cfg ns subj ↔ Excluded w cfg ns subj o := by
  unfold excludedIDs
  split_ifs with hn
  · have hno : ¬ Authored w cfg ns subj o := by
      rw [← mem_authoredSet, hn]
      exact List.not_mem_nil
    exact (or_iff_left hno).symm
  · rw [mem_setOf, List.mem_append, mem_authoredSet]
    rfl

/-- No object of the outcome meets `P`. -/
def Outcome.Avoids (P : String → Prop) (out : Outcome K) : Prop := ∀ o ∈ itemIDs out.items, ¬ P o

variable {out : Outcome K}

lemma Outcome.Avoids.mono {Q : String → Prop} (h : out.Avoids P) (hQ : ∀ o, Q o → P o) :
    out.Avoids Q := fun o ho hq => h o ho (hQ o hq)

lemma repageItems_avoids (h : out.Avoids P) (off lim : ℕ) :
    ∀ o ∈ itemIDs (repageItems out.items off lim), ¬ P o := by
  intro o ho
  rw [itemIDs_repageItems] at ho
  obtain ⟨item, hi, rfl⟩ := List.mem_map.mp ho
  exact h _ (List.mem_map_of_mem (mem_of_mem_pageOf hi))

/-- The objects that a fallback drops. -/
def Dropped (w : Stores K S D) (cfg : Config K) (req : Inner) (exclude : List String)
    (objectID : String) : Prop :=
  Authored w cfg req.ns req.subjectID objectID ∨ objectID ∈ exclude

lemma not_dropped_of_mem_keep {α : Type} {key : α → String} {l : List α} {exclude : List String}
    {a : α} (h : a ∈ keep key
      (mergeExclusions (authoredSet w cfg req.ns req.subjectID) exclude) l) :
    ¬ Dropped w cfg req exclude (key a) := by
  intro hd
  have hn : key a ∉ mergeExclusions (authoredSet w cfg req.ns req.subjectID) exclude := by
    simpa using (List.mem_filter.mp h).2
  exact hn (mem_mergeExclusions.mpr (hd.imp_left mem_authoredSet.mpr))

/-! ### The searches -/

/-- A search under the filter may return the point. -/
def Passes (filter : Option Filter) (id : ℕ) : Prop := ∀ f ∈ filter, f.Admits id

/-- Every point is under the id that its object is mapped to. -/
def PointsAgree {V : Type} (ids : Mappings) (ns : String) (points : Collection V) : Prop :=
  ∀ id q o, points.lookup id = some q → q.objectID = some o → Resolves ids ns .object o id

/-- The object points of the namespace agree with the id mappings. -/
structure Aligned (w : Stores K S D) (cfg : Config K) (ns : String) : Prop where
  sparse : PointsAgree w.ids ns (w.objectPoints (qdrantPhysicalNamespace cfg ns))
  dense : PointsAgree w.ids ns (w.objectPointsDense (qdrantPhysicalNamespace cfg ns))

/-- No point of such an object passes the filter. -/
def Blocks (ids : Mappings) (ns : String) (filter : Option Filter) (P : String → Prop) : Prop :=
  ∀ o, P o → ∀ id, Resolves ids ns .object o id → ¬ Passes filter id

lemma lookup_fill_select {ids : List String} {id : ℕ} (ho : o ∈ ids)
    (h : Resolves m ns .object o id) :
    (IDs.fill ∅ (select m ns .object ids)).lookup o = some id := by
  obtain ⟨v, hv, rfl⟩ := h
  have hs : ((IDs.fill ∅ (select m ns .object ids)).lookup o).isSome :=
    isSome_fill.mpr (.inr (List.mem_map.mpr ⟨(o, v), mem_select.mpr ⟨hv, ho⟩, rfl⟩))
  obtain ⟨k, hk⟩ := Option.isSome_iff_exists.mp hs
  obtain ⟨v', hv', rfl⟩ :=
    sound_empty.fill (fun row hr => (mem_select.mp hr).1) o k hk
  rw [hk, Option.some.inj (hv.symm.trans hv')]

lemma seenFilter_blocks (ns subjectID : String) :
    Blocks w.ids ns (seenFilter w cfg ns subjectID) (Excluded w cfg ns subjectID) := by
  intro o ho id hid hp
  have hm : id ∈ excludedPoints w cfg ns subjectID := List.mem_map.mpr
    ⟨⟨o, id⟩, Table.lookup_eq_some_iff.mp (lookup_fill_select (mem_excludedIDs.mpr ho) hid), rfl⟩
  have hne : excludedPoints w cfg ns subjectID ≠ [] := List.ne_nil_of_mem hm
  rw [seenFilter, if_neg hne] at hp
  exact (hp _ rfl).2 _ rfl hm

/-- The point passes the filter, and is that of its object. -/
def Admissible (ids : Mappings) (ns : String) (filter : Option Filter) (p : ScoredPoint K) : Prop :=
  Passes filter p.id ∧ ∀ o, p.objectID = some o → Resolves ids ns .object o p.id

/-- A point of such an object, if the search scores it at all, is under the id of one of them. -/
def Shielded {V : Type} (ids : Mappings) (ns : String) (P : String → Prop) (score : V → Option K)
    (points : Collection V) : Prop :=
  ∀ id q o, points.lookup id = some q → (score q.vector).isSome → q.objectID = some o → P o →
    ∃ o', P o' ∧ Resolves ids ns .object o' id

/-- The points hold one of the object. -/
def Found (o : String) (points : List (ScoredPoint K)) : Prop := ∃ p ∈ points, p.objectID = some o

lemma mem_pointIDsMissingFrom {base points : List (ScoredPoint K)} {id : ℕ} :
    id ∈ pointIDsMissingFrom base points ↔
      ∃ p ∈ points, p.id = id ∧ ∃ o, p.objectID = some o ∧ ¬ Found o base := by
  unfold pointIDsMissingFrom
  rw [List.mem_filterMap]
  refine exists_congr fun p => and_congr_right fun _ => ?_
  cases p.objectID with
  | none => simp
  | some o =>
    have hb : o ∈ base.filterMap ScoredPoint.objectID ↔ Found o base := List.mem_filterMap
    dsimp only
    split_ifs with ho
    · simp [hb.mp ho]
    · simp [mt hb.mpr ho]

variable [LinearOrder K]

lemma search_admissible {score : V → Option K} (h : PointsAgree ids ns points) :
    ∀ p ∈ search score points filter topK, Admissible ids ns filter p := by
  intro p hp
  obtain ⟨hpa, q, hq, hob, -⟩ := mem_search hp
  exact ⟨hpa, fun o ho => h p.id q o hq (hob.trans ho)⟩

lemma Shielded.avoids {score : V → Option K} {f : Option Filter}
    (h : Shielded ids ns P score points) (hb : Blocks ids ns filter P)
    (hp : p ∈ search score points f topK) (hpa : Passes filter p.id)
    (ho : p.objectID = some o) : ¬ P o := by
  intro hP
  obtain ⟨-, q, hq, hob, hs⟩ := mem_search hp
  obtain ⟨o', hP', hr⟩ := h p.id q o hq hs (hob.trans ho) hP
  exact hb o' hP' p.id hr hpa

/-- A backfill returns points under ids that the other arm has been allowed to return. -/
lemma passes_of_backfill {V' : Type} {score : V → Option K} {score' : V' → Option K}
    {points' : Collection V'} {base : List (ScoredPoint K)}
    (hp : p ∈ extraOf (search score points) base (search score' points' filter topK)) :
    Passes filter p.id := by
  obtain ⟨q, hq, hid, -⟩ := mem_pointIDsMissingFrom.mp (((mem_search hp).1 _ rfl).1 _ rfl)
  exact hid ▸ (mem_search hq).1

/-! ### The fallbacks -/

variable [Field K]

omit [LinearOrder K] in
lemma avoids_of_page {ids : List String} {off : ℕ}
    (hi : out.items = page (unscoredItems ids 0) off lim) (hid : ∀ o ∈ ids, ¬ P o) :
    out.Avoids P := by
  intro o ho
  rw [hi, ← unscoredItems_page, itemIDs_unscoredItems] at ho
  exact hid o (mem_of_mem_page ho)

lemma fallbackTrending_avoids (hl : 1 ≤ lim) (ex : List String) :
    (fallbackTrending req lim cfg ex).Ensures w.answer fun out =>
      out.Avoids (Dropped w cfg req ex) := by
  refine (fallbackTrending_returns hl ex).mono fun _ h => avoids_of_page h.1 ?_
  unfold fallbackList
  split_ifs with hn
  · exact fun _ => not_dropped_of_mem_keep
  · intro o ho
    obtain ⟨e, he, rfl⟩ := List.mem_map.mp ho
    exact not_dropped_of_mem_keep he

/-! ### The scored rungs -/

/-- What the rung for subjects with interactions may let through, it does not find: a subject
without a vector has not seen the popular objects that it is served instead, and the searches score
no excluded object under another id. -/
structure Withheld (w : Stores K S D) (cfg : Config K) (req : Inner) (lim : ℕ) : Prop where
  popular : sparseVector w cfg req.ns req.subjectID = none →
    ∀ o ∈ page (popularRest w cfg req.ns req.subjectID []) req.offset lim,
      ¬ Seen w cfg req.ns req.subjectID o
  sparse : ∀ vec, sparseVector w cfg req.ns req.subjectID = some vec →
    Shielded w.ids req.ns (Excluded w cfg req.ns req.subjectID) (w.sparseScore vec)
      (w.objectPoints (qdrantPhysicalNamespace cfg req.ns))
  dense : (sparseVector w cfg req.ns req.subjectID).isSome →
    ∀ dv, denseVector w cfg req.ns req.subjectID = some dv →
      Shielded w.ids req.ns (Excluded w cfg req.ns req.subjectID) (w.denseScore dv)
        (w.objectPointsDense (qdrantPhysicalNamespace cfg req.ns))

lemma hybridRecommend_avoids (lim : ℕ) (sv : S) (dv : D) (hb : Blocks w.ids req.ns filter P)
    (hs : Shielded w.ids req.ns P (w.sparseScore sv)
      (w.objectPoints (qdrantPhysicalNamespace cfg req.ns)))
    (hd : Shielded w.ids req.ns P (w.denseScore dv)
      (w.objectPointsDense (qdrantPhysicalNamespace cfg req.ns))) :
    (hybridRecommend R req lim cfg sv dv filter).Ensures w.answer fun out =>
      out.Avoids P := by
  refine (hybridRecommend_returns R lim sv dv filter).mono ?_
  rintro _ rfl o ho
  rw [itemIDs_pageItems] at ho
  obtain ⟨x, hx, rfl⟩ := List.mem_map.mp ho
  obtain ⟨p, hp, hob⟩ := mem_blendHybridScores (mem_of_mem_pageOf hx)
  -- each arm has found the point, or was asked for it by an id that the other has found
  rcases List.mem_append.mp hp with hp | hp
  · rcases List.mem_append.mp hp with hp | hp
    · exact hs.avoids hb hp (mem_search hp).1 hob
    · obtain ⟨q, hq, rfl⟩ := List.mem_map.mp hp
      exact hs.avoids hb hq (passes_of_backfill hq) hob
  · rcases List.mem_append.mp hp with hp | hp
    · exact hd.avoids hb hp (mem_search hp).1 hob
    · obtain ⟨q, hq, rfl⟩ := List.mem_map.mp hp
      exact hd.avoids hb hq (passes_of_backfill hq) hob

lemma sparseRecommend_avoids (lim : ℕ) (sv : S) (hb : Blocks w.ids req.ns filter P)
    (hs : Shielded w.ids req.ns P (w.sparseScore sv)
      (w.objectPoints (qdrantPhysicalNamespace cfg req.ns))) :
    (sparseRecommend R req lim cfg sv filter).Ensures w.answer fun out =>
      out.Avoids P := by
  refine (sparseRecommend_returns R lim sv filter).mono ?_
  rintro _ rfl o ho
  rw [itemIDs_pageItems] at ho
  obtain ⟨x, hx, rfl⟩ := List.mem_map.mp ho
  obtain ⟨p, hp, hob⟩ := mem_rerankScored (mem_of_mem_pageOf hx)
  exact hs.avoids hb hp (mem_search hp).1 hob

omit [LinearOrder K] in
lemma itemIDs_of_page {ids : List String} {off : ℕ}
    (h : out.items = page (unscoredItems ids 0) off lim) :
    itemIDs out.items = page ids off lim := by
  rw [h, ← unscoredItems_page, itemIDs_unscoredItems]

lemma avoids_of_popular
    (hi : itemIDs out.items = page (popularRest w cfg req.ns req.subjectID []) req.offset lim)
    (h : ∀ o ∈ page (popularRest w cfg req.ns req.subjectID []) req.offset lim,
      ¬ Seen w cfg req.ns req.subjectID o) : out.Avoids (Excluded w cfg req.ns req.subjectID) := by
  intro o ho
  rw [hi] at ho
  rintro (hs | ha)
  · exact h o ho hs
  · exact not_dropped_of_mem_keep (mem_of_mem_page ho) (.inl ha)

lemma collaborativeFiltering_avoids (req : Inner) (lim : ℕ) (h : Withheld w cfg req lim) :
    (collaborativeFiltering R req lim cfg).Ensures w.answer fun out =>
      out.Avoids (Excluded w cfg req.ns req.subjectID) := by
  refine collaborativeFiltering_rule R lim ?_ ?_ ?_
  · intro hno degraded
    exact (descendPopular_returns lim [] degraded).mono fun _ hi =>
      avoids_of_popular (itemIDs_of_page hi.1) (h.popular hno)
  · exact fun vec dv hv hd => hybridRecommend_avoids lim vec dv (seenFilter_blocks _ _)
      (h.sparse vec hv) (h.dense (Option.isSome_of_eq_some hv) dv hd)
  · exact fun vec hv _ => sparseRecommend_avoids lim vec (seenFilter_blocks _ _) (h.sparse vec hv)

/-! ### The ladder -/

lemma fallbackTrending_avoids_excluded (req : Inner) (hl : 1 ≤ lim) {seen : List String}
    (hs : ∀ o, Seen w cfg req.ns req.subjectID o → o ∈ seen) :
    (fallbackTrending req lim cfg seen).Ensures w.answer fun out =>
      out.Avoids (Excluded w cfg req.ns req.subjectID) :=
  (fallbackTrending_avoids hl seen).mono fun _ h => h.mono fun o ho =>
    ho.elim (fun ho => .inr (hs o ho)) .inl

lemma hybridCold_avoids (hl : 1 ≤ lim)
    (h : Withheld w cfg { req with offset := 0 } (req.offset + lim)) :
    (hybridCold R req lim cfg).Ensures w.answer fun out =>
      out.Avoids (Excluded w cfg req.ns req.subjectID) := by
  refine ensures_bind.mpr (seenObjectSet_returns.mono ?_)
  rintro _ rfl
  refine ensures_bind.mpr ((collaborativeFiltering_avoids { req with offset := 0 }
    (req.offset + lim) h).attempt.mono ?_)
  rintro _ ⟨cfOut, rfl, hcf⟩
  refine ensures_bind.mpr ((fallbackTrending_avoids_excluded { req with offset := 0 }
    (show 1 ≤ req.offset + lim by omega) fun o => mem_setOf.mpr).attempt.mono ?_)
  rintro _ ⟨popOut, rfl, hp⟩
  dsimp only
  split_ifs with he
  · exact ensures_pure (repageItems_avoids hp req.offset lim)
  · refine ensures_pure fun o ho => ?_
    rw [itemIDs_unscoredItems] at ho
    exact (mem_of_mem_blendShares (mem_of_mem_pageOf ho)).elim (hp o) (hcf o)

lemma warm_avoids (hl : 1 ≤ lim) (h : Withheld w cfg req lim) :
    (warm R req lim cfg).Ensures w.answer fun out =>
      out.Avoids (Excluded w cfg req.ns req.subjectID) := by
  refine ensures_bind.mpr ((collaborativeFiltering_avoids req lim h).mono fun out ho => ?_)
  split_ifs
  · refine ensures_bind.mpr (seenObjectSet_returns.mono ?_)
    rintro _ rfl
    exact fallbackTrending_avoids_excluded req hl fun o => mem_setOf.mpr
  · exact ensures_pure ho

/-- A subject with interactions is served from the rung that scores objects, and a cold one from
its beginning. -/
def Withholds (w : Stores K S D) (cfg : Config K) (req : Inner) (lim : ℕ) : Prop :=
  countInteractions w req.ns req.subjectID ≠ 0 →
    if countInteractions w req.ns req.subjectID < coldStartThreshold then
      Withheld w cfg { req with offset := 0 } (req.offset + lim)
    else Withheld w cfg req lim

lemma doRecommend_avoids (req : Inner) (hl : 1 ≤ lim) (h : Withholds w cfg req lim) :
    (doRecommend R req lim cfg).Ensures w.answer fun out =>
      out.Avoids (Excluded w cfg req.ns req.subjectID) := by
  refine doRecommend_rule R (fun _ hou _ => hou) ?_
  unfold rung
  split_ifs with hz hc
  · refine fallbackTrending_avoids_excluded req hl fun o ho => ?_
    rw [countInteractions, List.length_eq_zero_iff] at hz
    simp [Seen, getSeenItems, hz] at ho
  · have hw := h hz
    rw [if_pos hc] at hw
    exact hybridCold_avoids hl hw
  · have hw := h hz
    rw [if_neg hc] at hw
    exact warm_avoids hl hw

/-- The response of the cache that is served. -/
def cachedResponse (w : Stores K S D) (cfg : Config K) (r : Request) : Option (Response K) :=
  (w.cache.lookup (cacheKey r cfg)).filter fun resp => resp.ns = r.ns ∧ resp.subjectID = r.subjectID

lemma recommend_rule {r : Request} {Q : Response K → Prop}
    (hcf : w.configs.lookup r.ns = some cfg) (hc : ∀ resp ∈ cachedResponse w cfg r, Q resp)
    (h : cachedResponse w cfg r = none → (compute R r cfg).Ensures w.answer Q) :
    (recommend R r).Ensures w.answer Q := by
  refine ensures_ask_bind.mpr ?_
  have hr : w.answer (Call.getConfig r.ns) = .ok (some cfg) := congrArg Except.ok hcf
  rw [hr]
  refine ensures_ask_bind.mpr ?_
  split
  · next resp hh => exact ensures_pure (hc resp hh)
  · next hn => exact h hn

/-- A warm subject without a vector is served popular objects, whether it has seen them or not. -/
lemma warm_popular (hv : sparseVector w cfg req.ns req.subjectID = none) :
    (warm R req lim cfg).Ensures w.answer fun out =>
      itemIDs out.items = page (popularRest w cfg req.ns req.subjectID []) req.offset lim := by
  have hcf : (collaborativeFiltering R req lim cfg).Ensures w.answer fun out =>
      itemIDs out.items = page (popularRest w cfg req.ns req.subjectID []) req.offset lim ∧
        out.source = .fallbackPopular := by
    refine collaborativeFiltering_rule R lim (fun _ degraded => ?_) ?_ ?_
    · exact (descendPopular_returns lim [] degraded).mono fun _ h => ⟨itemIDs_of_page h.1, h.2.1⟩
    · exact fun _ _ h => nomatch hv.symm.trans h
    · exact fun _ h => nomatch hv.symm.trans h
  refine ensures_bind.mpr (hcf.mono fun out ⟨hi, hs⟩ => ?_)
  rw [if_neg (by simp [hs])]
  exact ensures_pure hi

lemma avoids_iff_withholds {out : Outcome K} {req : Inner}
    (hc : coldStartThreshold ≤ countInteractions w req.ns req.subjectID)
    (hv : sparseVector w cfg req.ns req.subjectID = none)
    (hi : itemIDs out.items = page (popularRest w cfg req.ns req.subjectID []) req.offset lim) :
    out.Avoids (Excluded w cfg req.ns req.subjectID) ↔ Withholds w cfg req lim := by
  unfold Withholds
  rw [if_neg (not_lt.mpr hc), imp_iff_right (Nat.ne_zero_of_lt hc)]
  refine ⟨fun h => ⟨fun _ o ho hs => h o (hi ▸ ho) (.inl hs), ?_, ?_⟩,
    fun h => avoids_of_popular hi (h.popular hv)⟩
  · exact fun _ h => nomatch hv.symm.trans h
  · rw [hv]
    exact nofun

end Exclusion

/-! ### A shop -/

section Shop

/-- Slices of up to twelve elements are sorted by insertion. -/
def insertionRuntime {K : Type} (finiteScore : K → Bool) (exp : K → K) : Runtime K where
  finiteScore := finiteScore
  exp := exp
  sortSlice less l := l.insertionSort fun a b => less b a = false
  sortSlice_perm less l := List.perm_insertionSort _ l
  sortSlice_sorted less l hasymm htrans := by
    have htotal : Std.Total fun a b : String × K => less b a = false := ⟨fun a b => by
      cases hba : less b a with
      | false => exact .inl rfl
      | true => exact .inr (hasymm b a hba)⟩
    have : IsTrans (String × K) fun a b => less b a = false := ⟨htrans⟩
    exact List.pairwise_insertionSort _ l

def rationals : Runtime ℚ := insertionRuntime (fun _ => true) fun _ => 1

/-- A namespace that blends both arms and leaves out what a subject authored. -/
def shopConfig : Config ℚ := ⟨1, 50, 30, true, 1 / 2, 0, "catalog", "cosine"⟩

def uIDs : Mappings := Mappings.empty.set ⟨"shop", .subject, "u"⟩ 1 (by decide)

/-- The subject `u` has touched `x` five times and authored `z`; `y` is neither. -/
def shop (subjects : String → Table ℕ ℚ) (points : String → Collection ℚ) : Stores ℚ ℚ ℚ where
  configs := (∅ : Table String (Config ℚ)).insert "shop" shopConfig
  cache := ∅
  events := List.replicate 5 ⟨"shop", "u", "x", 1, 0⟩ ++ [⟨"shop", "v", "y", 1, 0⟩]
  objects := [⟨"shop", "z", some "u", 0⟩]
  ids := ((uIDs.set ⟨"shop", .object, "x"⟩ 1 (by decide)).set
    ⟨"shop", .object, "y"⟩ 2 (by decide)).set ⟨"shop", .object, "z"⟩ 3 (by decide)
  trending _ := []
  trending_nodup _ := List.nodup_nil
  subjects := subjects
  subjectsDense := subjects
  objectPoints := points
  objectPointsDense := points
  sparseScore v u := some (v * u)
  denseScore v u := some (v * u)
  now := 0

/-- Each object under the id that it is mapped to. -/
def shopPoints : Collection ℚ :=
  (((∅ : Collection ℚ).insert 1 ⟨some "x", none, 1⟩).insert 2 ⟨some "y", none, 1⟩).insert 3
    ⟨some "z", none, 1⟩

def request : Request := ⟨"u", "shop", 10, 0⟩

/-- The objects of a response. -/
def served (w : Stores ℚ ℚ ℚ) (r : Request) : Option (List String) :=
  ((recommend rationals r).eval w.answer).toOption.map fun resp => itemIDs resp.items

/-- The batch has caught up. -/
def indexedShop : Stores ℚ ℚ ℚ :=
  shop (fun _ => (∅ : Table ℕ ℚ).insert 1 1) fun _ => shopPoints

lemma pointsAgree_of_entries (h : ∀ e ∈ points.entries, ∀ o ∈ e.2.objectID,
      (ids.get ⟨ns, .object, o⟩).map numericID = some e.1) : PointsAgree ids ns points := by
  intro id q o hq ho
  exact Option.map_eq_some_iff.mp (h ⟨id, q⟩ (Table.lookup_eq_some_iff.mp hq) o ho)

lemma shopPoints_agree : PointsAgree indexedShop.ids "shop" shopPoints :=
  pointsAgree_of_entries (by decide)

/-- The batch has not seen the subject yet. -/
def unbatchedShop : Stores ℚ ℚ ℚ := shop (fun _ => ∅) fun _ => shopPoints

end Shop

end Codohue.Recommend
