import Codohue.Ranking
import Codohue.RecommendPaging

/-!
What a blend is fed for one object: its two scores and the creation time for its freshness.

The blend scores each object by these three alone, and a search finds at most one point of an
object, as long as the points agree with the id mappings.
-/

namespace Codohue.Recommend

open IDMap Ranking Repair

/-! ### The three values -/

section Feed

variable {K : Type}

structure Feed (K : Type) where
  sparse : Option K
  dense : Option K
  createdAt : Option ℤ

/-- What the results of the two arms say about the object. -/
def feedOf (sparse dense : List (ScoredPoint K)) (o : String) : Feed K :=
  ⟨(extractScores sparse).lookup o, (extractScores dense).lookup o,
    (buildCreatedAtLookup (sparse ++ dense)).lookup o⟩

/-- The points of the object. -/
def pointsOf (o : String) (points : List (ScoredPoint K)) : List (ScoredPoint K) :=
  points.filter fun p => p.objectID = some o

variable {sparse dense : List (ScoredPoint K)}

lemma feedOf_eq {x y : Option (ScoredPoint K)} (hx : pointsOf o sparse = x.toList)
    (hy : pointsOf o dense = y.toList) :
    feedOf sparse dense o = ⟨x.map ScoredPoint.score, y.map ScoredPoint.score,
      (x.bind ScoredPoint.createdAt).or (y.bind ScoredPoint.createdAt)⟩ := by
  have hc : ∀ points : List (ScoredPoint K),
      (points.filterMap fun p => if p.objectID = some o then p.createdAt else none) =
        (pointsOf o points).filterMap ScoredPoint.createdAt := by
    intro points
    rw [pointsOf, List.filterMap_filter]
    simp only [decide_eq_true_eq]
  unfold feedOf
  rw [lookup_extractScores, lookup_extractScores, lookup_buildCreatedAtLookup,
    List.filterMap_append, List.head?_append, hc, hc]
  change Feed.mk (((pointsOf o sparse).getLast?).map _) (((pointsOf o dense).getLast?).map _) _ = _
  rw [hx, hy]
  cases x with
  | none | some p => cases y <;> simp

variable [Field K] [LinearOrder K] (R : Runtime K)

/-- The score that the blend gives, if it gives one. -/
def Feed.score (alpha gamma : K) (distance : String) (now : ℤ) (x : Feed K) : Option K :=
  let normSparse := (x.sparse.filter R.finiteScore).map (clampUnit R)
  let normDense := (x.dense.filter R.finiteScore).map fun v =>
    if distance ≠ denseDistanceDot then clampUnit R v else if v ≤ 0 then 0 else v / (v + dotNormK)
  let blended := decayed R now gamma x.createdAt
    (alpha * normSparse.getD 0 + (1 - alpha) * normDense.getD 0)
  if (normSparse.isSome || normDense.isSome) && R.finiteScore blended then some blended else none

variable {R}

omit [Field K] [LinearOrder K] in
lemma lookup_mapFinite (f : K → K) (scores : Table String K) (id : String) :
    (mapFinite R f scores).lookup id = ((scores.lookup id).filter R.finiteScore).map f := by
  rw [mapFinite, Table.lookup_mapRows]
  congr 1
  ext v
  rw [Table.lookup_deleteWhere_eq_some, Option.filter_eq_some_iff, Bool.not_eq_false']

lemma lookup_boundDenseScores (scores : Table String K) (distance id : String) :
    (boundDenseScores R scores distance).lookup id =
      ((scores.lookup id).filter R.finiteScore).map fun v =>
        if distance ≠ denseDistanceDot then clampUnit R v
        else if v ≤ 0 then 0 else v / (v + dotNormK) := by
  unfold boundDenseScores
  split_ifs <;> exact lookup_mapFinite _ _ _

variable {alpha gamma : K} {distance : String} {now : ℤ} {x : String × K}

lemma mem_blend_iff_score : x ∈ blendHybridScores R sparse dense alpha gamma distance now ↔
      (feedOf sparse dense x.1).score R alpha gamma distance now = some x.2 := by
  rw [mem_blendHybridScores_iff, Scored, ← AList.lookup_isSome, ← AList.lookup_isSome, blendedScore,
    clampUnitScores, lookup_mapFinite, lookup_boundDenseScores]
  simp only [Feed.score, feedOf, Option.ite_none_right_eq_some, Bool.and_eq_true, Bool.or_eq_true,
    Option.some.injEq]
  constructor
  · rintro ⟨hs, hf, hx⟩
    exact ⟨⟨hs, hx ▸ hf⟩, hx.symm⟩
  · rintro ⟨⟨hs, hf⟩, hx⟩
    exact ⟨hs, hx ▸ hf, hx.symm⟩

/-! ### The order of the blend -/

omit [Field K] in
lemma less_eq_false_iff :
    (if y.2 ≠ x.2 then decide (x.2 < y.2) else decide (y.1 < x.1)) = false ↔ Before x y := by
  split_ifs with hne
  · have hc := lt_or_gt_of_ne hne
    rw [decide_eq_false_iff_not]
    exact ⟨fun h => .inl (hc.resolve_right h), fun h => (h.resolve_right fun h =>
      hne h.1.symm).asymm⟩
  · have heq : y.2 = x.2 := not_not.mp hne
    rw [decide_eq_false_iff_not, not_lt]
    exact ⟨fun h => .inr ⟨heq.symm, h⟩, fun h => (h.resolve_left (heq ▸ lt_irrefl _)).2⟩

lemma pairwise_blendHybridScores :
    (blendHybridScores R sparse dense alpha gamma distance now).Pairwise Before := by
  refine (R.sortSlice_sorted _ _ ?_ ?_).imp fun h => less_eq_false_iff.mp h
  · intro x y hxy
    refine less_eq_false_iff.mpr ((Std.Total.total y x).resolve_left fun hyx => ?_)
    exact Bool.false_ne_true ((less_eq_false_iff.mpr hyx).symm.trans hxy)
  · intro x y z hxy hyz
    exact less_eq_false_iff.mpr (Trans.trans (less_eq_false_iff.mp hxy) (less_eq_false_iff.mp hyz))

end Feed

/-! ### The point of an object -/

section Points

variable {K V : Type}

instance (filter : Option Filter) (id : ℕ) : Decidable (Passes filter id) :=
  inferInstanceAs (Decidable (∀ f ∈ filter, f.Admits id))

/-- The point under the id of the object, as a search returns it. -/
def objectPoint (ids : Mappings) (ns : String) (score : V → Option K) (points : Collection V)
    (o : String) : Option (ScoredPoint K) :=
  (ids.get ⟨ns, .object, o⟩).bind fun n => (points.lookup (numericID n)).bind fun q =>
    if q.objectID = some o then
      (score q.vector).map fun s => ⟨numericID n, some o, q.createdAt, s⟩
    else none

variable {score : V → Option K} {points : Collection V}
variable {filter : Option Filter} {p : ScoredPoint K}

lemma mem_retrieve : p ∈ retrieve score points filter ↔ Passes filter p.id ∧
    ∃ q, points.lookup p.id = some q ∧ q.objectID = p.objectID ∧ q.createdAt = p.createdAt ∧
      score q.vector = some p.score := by
  unfold retrieve
  rw [List.mem_filterMap]
  constructor
  · rintro ⟨e, he, hp⟩
    split_ifs at hp with hpa
    obtain ⟨s, hs, rfl⟩ := Option.map_eq_some_iff.mp hp
    exact ⟨hpa, e.2, Table.lookup_eq_some_iff.mpr he, rfl, rfl, hs⟩
  · rintro ⟨hpa, q, hq, ho, hc, hsc⟩
    refine ⟨⟨p.id, q⟩, Table.lookup_eq_some_iff.mp hq, ?_⟩
    refine (if_pos hpa).trans ?_
    rw [hsc, Option.map_some, ho, hc]

lemma objectPoint_eq_some : objectPoint ids ns score points o = some p ↔
    Resolves ids ns .object o p.id ∧ p.objectID = some o ∧
      ∃ q, points.lookup p.id = some q ∧ q.objectID = some o ∧ q.createdAt = p.createdAt ∧
        score q.vector = some p.score := by
  unfold objectPoint
  simp only [Option.bind_eq_some_iff, Option.ite_none_right_eq_some, Option.map_eq_some_iff]
  constructor
  · rintro ⟨n, hn, q, hq, ho, s, hs, rfl⟩
    exact ⟨⟨n, hn, rfl⟩, rfl, q, hq, ho, rfl, hs⟩
  · rintro ⟨⟨n, hn, hid⟩, hpo, q, hq, ho, hc, hsc⟩
    refine ⟨n, hn, q, hid ▸ hq, ho, p.score, hsc, ?_⟩
    rw [hid, ← hpo, hc]

lemma mem_pointsOf_retrieve (ha : PointsAgree ids ns points) :
    p ∈ pointsOf o (retrieve score points filter) ↔
      objectPoint ids ns score points o = some p ∧ Passes filter p.id := by
  rw [pointsOf, List.mem_filter, decide_eq_true_eq, mem_retrieve, objectPoint_eq_some]
  constructor
  · rintro ⟨⟨hp, q, hq, ho, hc, hs⟩, hpo⟩
    rw [hpo] at ho
    exact ⟨⟨ha p.id q o hq ho, hpo, q, hq, ho, hc, hs⟩, hp⟩
  · rintro ⟨⟨-, hpo, q, hq, ho, hc, hs⟩, hp⟩
    exact ⟨⟨hp, q, hq, ho.trans hpo.symm, hc, hs⟩, hpo⟩

lemma nodup_retrieve : ((retrieve score points filter).map ScoredPoint.id).Nodup := by
  have hk := List.nodupKeys_iff_pairwise.mp points.nodupKeys
  rw [List.Nodup, List.pairwise_map]
  refine List.Pairwise.filterMap _ (fun e e' hne x hx x' hx' => ?_) hk
  split_ifs at hx hx'
  obtain ⟨-, -, rfl⟩ := Option.map_eq_some_iff.mp hx
  obtain ⟨-, -, rfl⟩ := Option.map_eq_some_iff.mp hx'
  exact hne

lemma length_retrieve_le :
    (retrieve score points (some ⟨some must, mustNot⟩)).length ≤ must.length := by
  rw [← List.length_map ScoredPoint.id]
  refine (List.Nodup.subperm nodup_retrieve fun id hid => ?_).length_le
  obtain ⟨p, hp, rfl⟩ := List.mem_map.mp hid
  exact ((mem_retrieve.mp hp).1 _ rfl).1 _ rfl

lemma eq_toList {α : Type} {l : List α} {x : Option α} (hn : l.Nodup)
    (h : ∀ a, a ∈ l ↔ x = some a) : l = x.toList := by
  have hx : x.toList.Nodup := by cases x <;> simp
  have hp : l.Perm x.toList := (List.perm_ext_iff_of_nodup hn hx).mpr fun a => by
    rw [h, Option.mem_toList]
  cases x with
  | none => exact hp.eq_nil
  | some a => exact List.perm_singleton.mp hp

variable [LinearOrder K]
variable {topK : ℕ}

lemma nodup_search : (search score points filter topK).Nodup := by
  have hn : (retrieve score points filter).Nodup := List.Nodup.of_map _ nodup_retrieve
  exact ((List.perm_insertionSort _ _).nodup_iff.mpr hn).sublist (List.take_sublist _ _)

lemma mem_retrieve_of_mem_search (h : p ∈ search score points filter topK) :
    p ∈ retrieve score points filter :=
  (List.mem_insertionSort _).mp (List.mem_of_mem_take h)

lemma pointsOf_search_of_mem (ha : PointsAgree ids ns points)
    (hp : p ∈ search score points filter topK) (hpo : p.objectID = some o) :
    pointsOf o (search score points filter topK) = (objectPoint ids ns score points o).toList := by
  have ho : ∀ q ∈ pointsOf o (search score points filter topK),
      objectPoint ids ns score points o = some q := by
    intro q hq
    obtain ⟨hq, hqo⟩ := List.mem_filter.mp hq
    exact ((mem_pointsOf_retrieve ha).mp
      (List.mem_filter.mpr ⟨mem_retrieve_of_mem_search hq, hqo⟩)).1
  have hm : p ∈ pointsOf o (search score points filter topK) :=
    List.mem_filter.mpr ⟨hp, decide_eq_true hpo⟩
  refine eq_toList (nodup_search.filter _) fun q => ⟨ho q, fun hq => ?_⟩
  obtain rfl := Option.some.inj ((ho p hm).symm.trans hq)
  exact hm

lemma search_of_length_le {V : Type} {score : V → Option K} {points : Collection V}
    (h : (retrieve score points filter).length ≤ topK) :
    search score points filter topK =
      (retrieve score points filter).insertionSort fun a b => b.score ≤ a.score := by
  rw [search, List.take_of_length_le]
  rwa [List.length_insertionSort]

lemma pointsOf_search (ha : PointsAgree ids ns points)
    (hal : (retrieve score points filter).length ≤ topK) :
    pointsOf o (search score points filter topK) =
      ((objectPoint ids ns score points o).filter fun p => Passes filter p.id).toList := by
  refine eq_toList (nodup_search.filter _) fun p => ?_
  rw [Option.filter_eq_some_iff, decide_eq_true_eq, ← mem_pointsOf_retrieve ha, pointsOf,
    pointsOf, List.mem_filter, List.mem_filter, search_of_length_le hal, List.mem_insertionSort]

end Points

end Codohue.Recommend
