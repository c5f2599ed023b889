import Codohue.RecommendPoints
import Codohue.RecommendRank

/-!
`Rank` while every store is up: it scores each candidate on its own, and puts the scored ones in
the one order that their scores and names give.
-/

namespace Codohue.Recommend

open IDMap Ranking Repair Service
open Program (Ensures ensures_bind ensures_ask_bind ensures_pure)

variable {K S D : Type}

/-! ### The score of a candidate -/

section Score

variable (w : Stores K S D) (cfg : Config K) (ns subjectID : String)

/-- The point ids of the objects that are mapped. -/
def pointIDs (objectIDs : List String) : List ℕ :=
  (IDs.fill ∅ (select w.ids ns .object objectIDs)).entries.map Sigma.snd

def rankFilter (candidates : List String) : Filter :=
  ⟨some (pointIDs w ns candidates), (seenFilter w cfg ns subjectID).bind Filter.mustNot⟩

/-- The point of the object in one arm, unless the subject is not to be shown it. -/
def eligiblePoint {V : Type} (score : V → Option K) (points : Collection V) (o : String) :
    Option (ScoredPoint K) :=
  (objectPoint w.ids ns score points o).filter fun p => Passes (seenFilter w cfg ns subjectID) p.id

def sparsePoint (o : String) : Option (ScoredPoint K) :=
  (sparseVector w cfg ns subjectID).bind fun vec => eligiblePoint w cfg ns subjectID
    (w.sparseScore vec) (w.objectPoints (qdrantPhysicalNamespace cfg ns)) o

variable [Field K] [LinearOrder K]

def densePoint (o : String) : Option (ScoredPoint K) :=
  (denseVector w cfg ns subjectID).bind fun vec => eligiblePoint w cfg ns subjectID
    (w.denseScore vec) (w.objectPointsDense (qdrantPhysicalNamespace cfg ns)) o

/-- What `Rank` feeds the blend for an object. -/
def rankFeed (o : String) : Feed K :=
  let sparse := sparsePoint w cfg ns subjectID o
  let dense := densePoint w cfg ns subjectID o
  ⟨sparse.map ScoredPoint.score, dense.map ScoredPoint.score,
    (sparse.bind ScoredPoint.createdAt).or (dense.bind ScoredPoint.createdAt)⟩

def rankAlpha : K :=
  if (sparseVector w cfg ns subjectID).isSome && (denseVector w cfg ns subjectID).isSome then
    cfg.alpha
  else if (denseVector w cfg ns subjectID).isSome then 0 else 1

/-- The score of an object for the subject, whatever it is ranked with. -/
def scoreOf (R : Runtime K) (o : String) : Option K :=
  (rankFeed w cfg ns subjectID o).score R (rankAlpha w cfg ns subjectID) (resolveGamma cfg)
    cfg.denseDistance w.now

end Score

section Healthy

variable {w : Stores K S D} {cfg : Config K} {ns subjectID : String} {candidates : List String}

lemma mem_pointIDs {id : ℕ} :
    id ∈ pointIDs w ns candidates ↔ ∃ o ∈ candidates, Resolves w.ids ns .object o id := by
  unfold pointIDs
  rw [List.mem_map]
  constructor
  · rintro ⟨⟨o, n⟩, he, rfl⟩
    have hl := Table.lookup_eq_some_iff.mpr he
    have hs : Sound w.ids ns .object (IDs.fill ∅ (select w.ids ns .object candidates)) :=
      sound_empty.fill fun row hr => (mem_select.mp hr).1
    refine ⟨o, ?_, hs o n hl⟩
    rcases isSome_fill.mp (Option.isSome_of_eq_some hl) with hem | hr
    · cases hem
    · obtain ⟨row, hm, rfl⟩ := List.mem_map.mp hr
      exact (mem_select.mp hm).2
  · rintro ⟨o, ho, hre⟩
    exact ⟨⟨o, id⟩, Table.lookup_eq_some_iff.mp (lookup_fill_select ho hre), rfl⟩

lemma passes_rankFilter {id : ℕ} : Passes (some (rankFilter w cfg ns subjectID candidates)) id ↔
    id ∈ pointIDs w ns candidates ∧ Passes (seenFilter w cfg ns subjectID) id := by
  unfold rankFilter seenFilter
  split_ifs <;> simp [Passes, Filter.Admits]

lemma pointsOf_rankFilter [LinearOrder K] {V : Type} {score : V → Option K}
    {points : Collection V} (hc : InColumn w.ids) (ha : PointsAgree w.ids ns points)
    (o : String) :
    pointsOf o (search score points (some (rankFilter w cfg ns subjectID candidates))
        (pointIDs w ns candidates).length) =
      ((eligiblePoint w cfg ns subjectID score points o).filter
        fun _ => o ∈ candidates).toList := by
  have hal : (retrieve score points (some (rankFilter w cfg ns subjectID candidates))).length ≤
      (pointIDs w ns candidates).length := length_retrieve_le
  rw [pointsOf_search ha hal, eligiblePoint]
  cases hpo : objectPoint w.ids ns score points o with
  | none => rfl
  | some p =>
    have hr := (objectPoint_eq_some.mp hpo).1
    have hid : p.id ∈ pointIDs w ns candidates ↔ o ∈ candidates := by
      rw [mem_pointIDs]
      constructor
      · rintro ⟨o', ho', hr'⟩
        exact (resolves_iff hc hr hr').mpr rfl ▸ ho'
      · exact fun ho => ⟨o, ho, hr⟩
    by_cases hp : Passes (seenFilter w cfg ns subjectID) p.id
    · simp [Option.filter, passes_rankFilter, hid, hp]
    · simp [Option.filter, passes_rankFilter, hp]

variable [Field K] [LinearOrder K]

lemma scoreOf_eq_none (hs : sparsePoint w cfg ns subjectID o = none)
    (hd : densePoint w cfg ns subjectID o = none) : scoreOf w cfg ns subjectID R o = none := by
  unfold scoreOf rankFeed
  rw [hs, hd]
  rfl

/-- The items of a ranking, with `scored` in the order of the scores and names. -/
structure RanksAs (scoreOf : String → Option K) (candidates : List String)
    (scored : List (String × K)) (items : List (RankedItem K)) : Prop where
  sorted : scored.Pairwise Before
  nodup : (scored.map Prod.fst).Nodup
  mem : ∀ x, x ∈ scored ↔ x.1 ∈ candidates ∧ scoreOf x.1 = some x.2
  items : items = rankedItems scored candidates ∨ scored = [] ∧ items = unscoredItems candidates 0

lemma ranksAs_fallback (h : ∀ o ∈ candidates, f o = none) :
    RanksAs f candidates [] (rankFallback ⟨subjectID, candidates⟩ ns : RankResponse K).items where
  sorted := .nil
  nodup := .nil
  mem x := by
    refine ⟨nofun, fun hx => ?_⟩
    cases (h x.1 hx.1).symm.trans hx.2
  items := .inr ⟨rfl, rfl⟩

omit [Field K] [LinearOrder K] in
lemma searchArm_returns {V : Type} {answer : (c : Call K S D) → Answer c} (vec : Option V)
    {search : V → RecommendM K S D (Arm K)} (found : V → List (ScoredPoint K))
    (h : ∀ v, (search v).Ensures answer (· = .ok (found v))) :
    (searchArm vec search).Ensures answer (· = vec.map fun v => .ok (found v)) := by
  cases vec with
  | none => exact ensures_pure rfl
  | some v =>
    refine ensures_bind.mpr ((h v).mono ?_)
    rintro _ rfl
    exact ensures_pure rfl

omit [Field K] [LinearOrder K] in
lemma armOK_ok {V : Type} (vec : Option V) (found : V → List (ScoredPoint K)) :
    armOK (vec.map fun v => (.ok (found v) : Arm K)) = vec.isSome := by
  cases vec with
  | none | some v => rfl

lemma feedOf_armResults (hc : InColumn w.ids) (ha : Aligned w cfg ns) (o : String) :
    let filter := some (rankFilter w cfg ns subjectID candidates)
    let topK := (pointIDs w ns candidates).length
    let sparse := (sparseVector w cfg ns subjectID).map fun vec =>
      (.ok (searchSparse w cfg ns vec filter topK) : Arm K)
    let dense := (denseVector w cfg ns subjectID).map fun vec =>
      (.ok (searchDense w cfg ns vec filter topK) : Arm K)
    feedOf (armResults sparse) (armResults dense) o =
      if o ∈ candidates then rankFeed w cfg ns subjectID o else ⟨none, none, none⟩ := by
  intro filter topK sparse dense
  have hs : pointsOf o (armResults sparse) =
      ((sparsePoint w cfg ns subjectID o).filter fun _ => o ∈ candidates).toList := by
    unfold sparse sparsePoint
    cases sparseVector w cfg ns subjectID with
    | none => rfl
    | some vec => exact pointsOf_rankFilter hc ha.sparse o
  have hd : pointsOf o (armResults dense) =
      ((densePoint w cfg ns subjectID o).filter fun _ => o ∈ candidates).toList := by
    unfold dense densePoint
    cases denseVector w cfg ns subjectID with
    | none => rfl
    | some vec => exact pointsOf_rankFilter hc ha.dense o
  rw [feedOf_eq hs hd]
  split_ifs with ho
  · have hal : ∀ x : Option (ScoredPoint K), (x.filter fun _ => decide (o ∈ candidates)) = x := by
      intro x
      cases x <;> simp [ho]
    rw [hal, hal]
    rfl
  · simp [ho]

lemma rankVectors_returns (R : Runtime K) (hc : InColumn w.ids) (ha : Aligned w cfg ns)
    (hv : ¬ ((sparseVector w cfg ns subjectID).isNone = true ∧
      (denseVector w cfg ns subjectID).isNone = true)) :
    (rankVectors R ⟨subjectID, candidates⟩ ns cfg (sparseVector w cfg ns subjectID)
      (denseVector w cfg ns subjectID)).Ensures w.answer fun resp =>
        ∃ scored, RanksAs (scoreOf w cfg ns subjectID R) candidates scored resp.items := by
  have he : (excludedObjectIDs (⟨subjectID, ns, 0⟩ : Inner) cfg
      (seenItems w cfg ns subjectID)).Ensures w.answer (· = excludedIDs w cfg ns subjectID) :=
    excludedObjectIDs_returns
  have hf : (buildSeenItemsFilter (⟨subjectID, ns, 0⟩ : Inner).ns
      (excludedIDs w cfg ns subjectID)).Ensures w.answer (· = seenFilter w cfg ns subjectID) :=
    buildSeenItemsFilter_returns
  refine ensures_ask_bind.mpr ?_
  dsimp only [Stores.answer]
  split_ifs with hi
  · -- no candidate has a point
    refine ensures_pure ⟨[], ranksAs_fallback fun o ho => ?_⟩
    change pointIDs w ns candidates = [] at hi
    have hn : ∀ {V : Type} (score : V → Option K) (points : Collection V),
        objectPoint w.ids ns score points o = none := by
      intro V score points
      refine Option.eq_none_iff_forall_ne_some.mpr fun p hp => ?_
      have hm := mem_pointIDs.mpr ⟨o, ho, (objectPoint_eq_some.mp hp).1⟩
      exact List.not_mem_nil (hi ▸ hm)
    refine scoreOf_eq_none ?_ ?_
    · simp [sparsePoint, eligiblePoint, hn]
    · simp [densePoint, eligiblePoint, hn]
  · refine ensures_ask_bind.mpr (ensures_bind.mpr (he.mono ?_))
    rintro _ rfl
    refine ensures_bind.mpr (hf.mono ?_)
    rintro _ rfl
    refine ensures_bind.mpr (Ensures.mono (searchArm_returns _ (fun vec => searchSparse w cfg ns vec
      (some (rankFilter w cfg ns subjectID candidates)) (pointIDs w ns candidates).length)
      fun _ => rfl) ?_)
    rintro _ rfl
    refine ensures_bind.mpr (Ensures.mono (searchArm_returns _ (fun vec => searchDense w cfg ns vec
      (some (rankFilter w cfg ns subjectID candidates)) (pointIDs w ns candidates).length)
      fun _ => rfl) ?_)
    rintro _ rfl
    rw [armOK_ok, armOK_ok, if_neg (by simpa using hv)]
    refine ensures_ask_bind.mpr (ensures_pure ⟨_, pairwise_blendHybridScores,
      nodup_blendHybridScores, fun x => ?_, .inl rfl⟩)
    rw [mem_blend_iff_score, feedOf_armResults hc ha]
    by_cases ho : x.1 ∈ candidates
    · rw [if_pos ho]
      exact (and_iff_right ho).symm
    · rw [if_neg ho]
      exact ⟨nofun, fun h => absurd h.1 ho⟩

/-- **`Rank` ranks its candidates by a score that does not depend on the others.** -/
lemma rank_returns (R : Runtime K) (hcf : w.configs.lookup ns = some cfg)
    (hc : InColumn w.ids) (ha : Aligned w cfg ns) :
    (rank R ⟨subjectID, candidates⟩ ns).Ensures w.answer fun resp =>
      ∃ scored, RanksAs (scoreOf w cfg ns subjectID R) candidates scored resp.items := by
  have hn : sparseVector w cfg ns subjectID = none → denseVector w cfg ns subjectID = none →
      ∀ o, scoreOf w cfg ns subjectID R o = none := by
    intro hsp hde o
    refine scoreOf_eq_none ?_ ?_
    · rw [sparsePoint, hsp, Option.bind_none]
    · rw [densePoint, hde, Option.bind_none]
  refine ensures_ask_bind.mpr ?_
  dsimp only [Stores.answer]
  rw [hcf]
  split_ifs with he
  · refine ensures_pure ⟨[], .nil, .nil, fun x => ?_, .inl ?_⟩
    · simp [he]
    · simp [he, rankedItems, distinct, unscoredItems]
  · refine ensures_ask_bind.mpr ?_
    dsimp only [Stores.answer]
    cases hid : w.ids.get ⟨ns, .subject, subjectID⟩ with
    | none =>
      have hsp : sparseVector w cfg ns subjectID = none := by rw [sparseVector, hid]; rfl
      have hde : denseVector w cfg ns subjectID = none := by
        rw [denseVector, hid]
        split_ifs <;> rfl
      exact ensures_pure ⟨[], ranksAs_fallback fun o _ => hn hsp hde o⟩
    | some n =>
      refine ensures_ask_bind.mpr (ensures_bind.mpr ((denseVectorOf_returns hid).mono ?_))
      rintro _ rfl
      have hsp : (Except.toOption (w.answer (Call.fetchSubjectVector
          (qdrantPhysicalNamespace cfg ns) (numericID n)))).join =
            sparseVector w cfg ns subjectID := by
        rw [sparseVector, hid]
        rfl
      simp only [hsp]
      split_ifs with hv
      · obtain ⟨hs, hd⟩ := Bool.and_eq_true_iff.mp hv
        exact ensures_pure ⟨[], ranksAs_fallback fun o _ =>
          hn (Option.isNone_iff_eq_none.mp hs) (Option.isNone_iff_eq_none.mp hd) o⟩
      · exact rankVectors_returns R hc ha fun h => hv (Bool.and_eq_true_iff.mpr h)

end Healthy

/-! ### Chunks -/

section Responses

/-- The object has one item in the response, with this score and this flag. -/
def RankResponse.Gives (resp : RankResponse K) (o : String) (score : K) (scored : Bool) : Prop :=
  (itemIDs resp.items).count o = 1 ∧
    ∃ item ∈ resp.items, item.objectID = o ∧ item.score = score ∧ item.scored = scored

def scoredPair (item : RankedItem K) : String × K := (item.objectID, item.score)

def RankResponse.scored (resp : RankResponse K) : List (String × K) :=
  (resp.items.filter RecommendedItem.scored).map scoredPair

def RankResponse.scoredPrefix (resp : RankResponse K) : List (String × K) :=
  (resp.items.takeWhile RecommendedItem.scored).map scoredPair

lemma distinct_eq_filter {seen : List String} (h : ids.Nodup) :
    distinct seen ids = ids.filter fun id => id ∉ seen := by
  induction ids generalizing seen with
  | nil => rfl
  | cons id ids ih =>
    obtain ⟨hid, hi⟩ := List.nodup_cons.mp h
    rw [distinct]
    split_ifs with hs
    · rw [ih hi, List.filter_cons_of_neg (by simpa using hs)]
    · rw [ih hi, List.filter_cons_of_pos (by simpa using hs)]
      refine congrArg (id :: ·) (List.filter_congr fun x hx => ?_)
      have hne : x ≠ id := fun heq => hid (heq ▸ hx)
      simp [hne]

variable [Field K]

lemma rankedItems_nil {candidates : List String} (h : candidates.Nodup) :
    (rankedItems [] candidates : List (RankedItem K)) = unscoredItems candidates 0 := by
  have ha : distinct [] candidates = candidates := by simp [distinct_eq_filter h]
  simp [rankedItems, ha]

variable {scored : List (String × K)} {candidates : List String}

omit [Field K] in
lemma scored_of_mem_mapIdx
    (h : item ∈ scored.mapIdx fun i c => (⟨c.1, c.2, i + 1, true⟩ : RankedItem K)) :
    item.scored = true := by
  obtain ⟨i, hi, rfl⟩ := List.mem_mapIdx.mp h
  rfl

lemma not_scored_of_mem_unscoredItems {item : RankedItem K} (h : item ∈ unscoredItems ids start) :
    item.scored = false := by
  obtain ⟨i, hi, rfl⟩ := List.mem_mapIdx.mp h
  rfl

omit [Field K] in
lemma map_scoredPair :
    (scored.mapIdx fun i c => (⟨c.1, c.2, i + 1, true⟩ : RankedItem K)).map scoredPair =
      scored := by
  refine List.ext_getElem (by simp) fun i _ _ => ?_
  simp [scoredPair]

lemma filter_rankedItems :
    ((rankedItems scored candidates).filter RecommendedItem.scored).map scoredPair = scored := by
  unfold rankedItems
  rw [List.filter_append, List.filter_eq_self.mpr fun _ => scored_of_mem_mapIdx,
    List.filter_eq_nil_iff.mpr fun _ h => by rw [not_scored_of_mem_unscoredItems h]; nofun,
    List.append_nil, map_scoredPair]

lemma takeWhile_rankedItems :
    ((rankedItems scored candidates).takeWhile RecommendedItem.scored).map scoredPair = scored := by
  unfold rankedItems
  rw [List.takeWhile_append_of_pos fun _ => scored_of_mem_mapIdx]
  cases hr : (unscoredItems (distinct (scored.map Prod.fst) candidates)
      (scored.mapIdx fun i c => (⟨c.1, c.2, i + 1, true⟩ : RankedItem K)).length :
        List (RankedItem K)) with
  | nil => rw [List.takeWhile_nil, List.append_nil, map_scoredPair]
  | cons item rest =>
    have hi : item.scored = false :=
      not_scored_of_mem_unscoredItems (hr ▸ List.mem_cons_self)
    rw [List.takeWhile_cons_of_neg (by simp [hi]), List.append_nil, map_scoredPair]

lemma itemIDs_rankedItems : itemIDs (rankedItems scored candidates) =
    scored.map Prod.fst ++ distinct (scored.map Prod.fst) candidates := by
  unfold rankedItems
  rw [itemIDs, List.map_append]
  exact congrArg₂ _ (itemIDs_mapIdx _ _ _ fun _ _ => rfl) (itemIDs_unscoredItems _ _)

variable [LinearOrder K] {f : String → Option K} {items : List (RankedItem K)}

lemma RanksAs.items_eq (h : RanksAs f candidates scored items) (hn : candidates.Nodup) :
    items = rankedItems scored candidates := by
  rcases h.items with hi | ⟨rfl, hi⟩
  · exact hi
  · exact hi.trans (rankedItems_nil hn).symm

lemma RanksAs.scored_eq (h : RanksAs f candidates scored items) (hn : candidates.Nodup) :
    scored = ranking f candidates :=
  eq_ranking f hn (List.Nodup.of_map _ h.nodup) h.sorted h.mem

lemma RanksAs.gives_scored {resp : RankResponse K} (h : RanksAs f candidates scored resp.items)
    (ho : o ∈ candidates) (hs : f o = some score) : resp.Gives o score true := by
  have hm : (o, score) ∈ scored := (h.mem (o, score)).mpr ⟨ho, hs⟩
  have hf : o ∈ scored.map Prod.fst := List.mem_map_of_mem hm
  have hite : resp.items = rankedItems scored candidates :=
    h.items.resolve_right fun hn => List.not_mem_nil (hn.1 ▸ hm)
  refine ⟨?_, ?_⟩
  · have hr : o ∉ distinct (scored.map Prod.fst) candidates := fun hin =>
      (mem_distinct.mp hin).2 hf
    rw [hite, itemIDs_rankedItems, List.count_append, List.count_eq_one_of_mem h.nodup hf,
      List.count_eq_zero.mpr hr]
  · obtain ⟨i, hi, heq⟩ := List.getElem_of_mem hm
    refine ⟨⟨o, score, i + 1, true⟩, hite ▸ List.mem_append_left _ ?_, rfl, rfl, rfl⟩
    exact List.mem_mapIdx.mpr ⟨i, hi, by rw [heq]⟩

lemma RanksAs.gives {resp : RankResponse K} (h : RanksAs f candidates scored resp.items)
    (hn : candidates.Nodup) (ho : o ∈ candidates) : resp.Gives o ((f o).getD 0) (f o).isSome := by
  cases hf : f o with
  | some score => exact h.gives_scored ho hf
  | none =>
    have hfs : o ∉ scored.map Prod.fst := by
      rintro hin
      obtain ⟨x, hx, rfl⟩ := List.mem_map.mp hin
      cases hf.symm.trans ((h.mem x).mp hx).2
    have hr : o ∈ distinct (scored.map Prod.fst) candidates := mem_distinct.mpr ⟨ho, hfs⟩
    have hrn : (distinct (scored.map Prod.fst) candidates).Nodup := by
      rw [distinct_eq_filter hn]
      exact hn.filter _
    refine ⟨?_, ?_⟩
    · rw [h.items_eq hn, itemIDs_rankedItems, List.count_append, List.count_eq_zero.mpr hfs,
        List.count_eq_one_of_mem hrn hr]
    · obtain ⟨i, hi, heq⟩ := List.getElem_of_mem hr
      rw [h.items_eq hn]
      exact ⟨_, List.mem_append_right _ (List.mem_mapIdx.mpr ⟨i, hi, rfl⟩), heq, rfl, rfl⟩

end Responses

/-- A list of distinct candidates can be ranked in chunks: every candidate gets in its chunk what
it gets in the whole list, and the scored items of the chunks, merged, are those of the whole. -/
theorem rank_in_chunks [Field K] [LinearOrder K] (R : Runtime K) (w : Stores K S D) (cfg : Config K)
    (ns subjectID : String) (hcfg : w.configs.lookup ns = some cfg) (hcolumn : InColumn w.ids)
    (haligned : Aligned w cfg ns) (chunks : List (List String)) (hdistinct : chunks.flatten.Nodup) :
    ∃ ranked : List String → RankResponse K,
      (∀ candidates, (rank R ⟨subjectID, candidates⟩ ns).eval w.answer = .ok (ranked candidates)) ∧
      (∀ chunk ∈ chunks, ∀ o ∈ chunk, ∃ score scored,
        (ranked chunk).Gives o score scored ∧ (ranked chunks.flatten).Gives o score scored) ∧
      (ranked chunks.flatten).scoredPrefix =
        merge (chunks.map fun chunk => (ranked chunk).scored) := by
  have hre : ∀ candidates, ∃ resp, (rank R ⟨subjectID, candidates⟩ ns).eval w.answer = .ok resp ∧
        ∃ scored, RanksAs (scoreOf w cfg ns subjectID R) candidates scored resp.items := fun _ =>
    Program.ensures_iff.mp (rank_returns R hcfg hcolumn haligned)
  choose ranked he scored hr using hre
  have hc : ∀ chunk ∈ chunks, chunk.Nodup := (List.nodup_flatten.mp hdistinct).1
  refine ⟨ranked, he, fun chunk hm o ho => ?_, ?_⟩
  · exact ⟨_, _, (hr chunk).gives (hc chunk hm) ho,
      (hr _).gives hdistinct (List.mem_flatten.mpr ⟨chunk, hm, ho⟩)⟩
  · have hs : ∀ chunk ∈ chunks,
        (ranked chunk).scored = ranking (scoreOf w cfg ns subjectID R) chunk := by
      intro chunk hm
      rw [RankResponse.scored, (hr chunk).items_eq (hc chunk hm), filter_rankedItems,
        (hr chunk).scored_eq (hc chunk hm)]
    rw [RankResponse.scoredPrefix, (hr _).items_eq hdistinct, takeWhile_rankedItems,
      (hr _).scored_eq hdistinct, List.map_congr_left hs, merge_ranking]

/-- The score of `z` lies between those of `x` and `y`. -/
def spreadPoints : Collection ℚ :=
  (((∅ : Collection ℚ).insert 1 ⟨some "x", none, 1 / 4⟩).insert 2 ⟨some "y", none, 3 / 4⟩).insert 3
    ⟨some "z", none, 1 / 2⟩

/-- Nothing is excluded for the subject. -/
def spreadShop : Stores ℚ ℚ ℚ :=
  { shop (fun _ => (∅ : Table ℕ ℚ).insert 1 1) fun _ => spreadPoints with
    events := []
    objects := [] }

lemma spreadPoints_agree : PointsAgree spreadShop.ids "shop" spreadPoints :=
  pointsAgree_of_entries (by decide)

/-- The chunk of `z` is merged into the middle of the first one, and `q` is not mapped. -/
theorem rank_in_chunks_spreadShop :
    ((rank rationals ⟨"u", ["x", "y", "z", "q"]⟩ "shop").eval spreadShop.answer).toOption.map
        (fun resp => resp.items.map fun item => (item.objectID, item.scored)) =
      some [("y", true), ("z", true), ("x", true), ("q", false)] ∧
    ∃ ranked : List String → RankResponse ℚ,
      (∀ candidates, (rank rationals ⟨"u", candidates⟩ "shop").eval spreadShop.answer =
        .ok (ranked candidates)) ∧
      (∀ chunk ∈ [["x", "y"], ["z"], ["q"]], ∀ o ∈ chunk, ∃ score scored,
        (ranked chunk).Gives o score scored ∧ (ranked ["x", "y", "z", "q"]).Gives o score scored) ∧
      (ranked ["x", "y", "z", "q"]).scoredPrefix =
        merge ([["x", "y"], ["z"], ["q"]].map fun chunk => (ranked chunk).scored) := by
  have hc : ∀ e ∈ spreadShop.ids.rows.entries, Bigint e.2 := by decide
  refine ⟨by decide +kernel, ?_⟩
  exact rank_in_chunks rationals spreadShop shopConfig "shop" "u" rfl
    (fun x n hx => hc ⟨x, n⟩ (Table.lookup_eq_some_iff.mp hx))
    ⟨spreadPoints_agree, spreadPoints_agree⟩ [["x", "y"], ["z"], ["q"]] (by decide)

end Codohue.Recommend
