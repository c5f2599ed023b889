import Codohue.Compute

/-!
The sparse vectors of subjects and objects, dimension by dimension.
-/

namespace Codohue.Compute

open IDMap (IDs)

/-! ### Dimensions -/

variable {K : Type} {R : Runtime K} {ids : IDs}

/-- The dimension of an entry, where its number fits: the rule of both sides. -/
def dimension {α : Type} (num : α → Option ℕ) (val : K → K) (x : α × K) : Option (ℕ × K) :=
  (num x.1).bind fun n => (sparseIndex n).map fun index => (index, val x.2)

lemma dimension_eq_some : dimension num val x = some e ↔
    e.1 ≤ maxSparseIndex ∧ num x.1 = some e.1 ∧ val x.2 = e.2 := by
  rw [dimension, Option.bind_eq_some_iff]
  constructor
  · rintro ⟨n, hn, h⟩
    obtain ⟨k, hk, rfl⟩ := Option.map_eq_some_iff.mp h
    rw [sparseIndex] at hk
    split_ifs at hk with hf
    cases hk
    exact ⟨not_lt.mp hf, hn, rfl⟩
  · rintro ⟨hf, hn, hv⟩
    exact ⟨e.1, hn, by rw [sparseIndex, if_neg (not_lt.mpr hf), Option.map_some, hv]⟩

lemma subjectEntries_eq (h : subjectEntries R ids l = .ok es) :
    es = l.filterMap (dimension ids.lookup R.float32) := by
  induction l generalizing es with
  | nil =>
    cases h
    rfl
  | cons x l ih =>
    rw [subjectEntries] at h
    cases hn : ids.lookup x.1 with
    | none =>
      rw [hn] at h
      cases h
    | some n =>
      cases hr : subjectEntries R ids l with
      | error e =>
        rw [hn, hr] at h
        cases h
      | ok rest =>
        rw [hn, hr] at h
        rw [List.filterMap_cons, ← ih hr, dimension, hn]
        cases hf : sparseIndex n <;> simp only [Option.bind_some, hf] at h ⊢ <;>
          exact (Except.ok.inj h).symm

/-! ### Vectors -/

variable [Field K] [LinearOrder K]

/-- The Euclidean norm, if it is not zero. -/
def norm (R : Runtime K) (scores : List K) : Option K :=
  let sum := (scores.map fun v => v * v).sum
  if sum = 0 then none else some (R.sqrt sum)

def scaled (R : Runtime K) (norm : Option K) (v : K) : K := norm.elim v fun c => R.float32 (v / c)

/-- The vector has the scores of the entities whose ids the index type can hold, and no others. -/
structure Represents (R : Runtime K) (ids : IDs) (scores : String → Option K)
    (indices : List ℕ) (values : List K) : Prop where
  increasing : indices.Pairwise (· < ·)
  length_eq : values.length = indices.length
  entity : ∀ n ∈ indices, ∃! o, ids.lookup o = some n ∧ (scores o).isSome
  /-- The scores in the order of the indices are all divided by their common norm. -/
  value : ∃ kept, values = kept.map (scaled R (norm R kept)) ∧
    indices.Forall₂ (fun n score => ∃ o, ids.lookup o = some n ∧ scores o = some score) kept
  left_out : ∀ o n, ids.lookup o = some n → (scores o).isSome →
    (n ∉ indices ↔ maxSparseIndex < n)

variable {scores : String → Option K}

lemma l2Normalize_eq (values : List K) :
    l2Normalize R values = values.map (scaled R (norm R values)) := by
  have hs : values.foldl (fun sum v => sum + v * v) 0 = (values.map fun v => v * v).sum := by
    rw [List.sum_eq_foldl, List.foldl_map]
  rw [l2Normalize, norm, hs]
  split_ifs
  · exact (List.map_id' values).symm
  · rfl

lemma represents_sparseVectorFrom {es : List (ℕ × K)}
    (hi : ∀ a b n, ids.lookup a = some n → ids.lookup b = some n → a = b)
    (hd : (es.map Prod.fst).Nodup)
    (he : ∀ e, e ∈ es ↔ e.1 ≤ maxSparseIndex ∧ ∃ o, ids.lookup o = some e.1 ∧ scores o = some e.2) :
    Represents R ids scores (sparseVectorFrom R es).1 (sparseVectorFrom R es).2 := by
  have hp := List.perm_insertionSort (fun a b : ℕ × K => a.1 ≤ b.1) es
  have hs := List.pairwise_insertionSort (fun a b : ℕ × K => a.1 ≤ b.1) es
  simp only [sparseVectorFrom, l2Normalize_eq]
  generalize es.insertionSort (fun a b => a.1 ≤ b.1) = sorted at hp hs
  have hmem : ∀ n, n ∈ sorted.map Prod.fst ↔ n ≤ maxSparseIndex ∧
      ∃ o, ids.lookup o = some n ∧ (scores o).isSome := by
    intro n
    rw [(hp.map Prod.fst).mem_iff, List.mem_map]
    constructor
    · rintro ⟨e, hm, rfl⟩
      obtain ⟨hn, o, ho, hsc⟩ := (he e).mp hm
      exact ⟨hn, o, ho, Option.isSome_of_eq_some hsc⟩
    · rintro ⟨hn, o, ho, hsc⟩
      obtain ⟨v, hv⟩ := Option.isSome_iff_exists.mp hsc
      exact ⟨(n, v), (he _).mpr ⟨hn, o, ho, hv⟩, rfl⟩
  refine ⟨?_, by simp, fun n hn => ?_, ⟨_, rfl, ?_⟩, fun o n ho hsc => ?_⟩
  · have hnd := (hp.map Prod.fst).nodup_iff.mpr hd
    have hle := List.pairwise_map.mpr hs
    exact (hle.and hnd).imp fun h => lt_of_le_of_ne h.1 h.2
  · obtain ⟨-, o, ho, hsc⟩ := (hmem n).mp hn
    exact ⟨o, ⟨ho, hsc⟩, fun o' ho' => hi o' o n ho'.1 ho⟩
  · simp only [List.forall₂_map_left_iff, List.forall₂_map_right_iff, List.forall₂_same]
    exact fun e hm => ((he e).mp (hp.mem_iff.mp hm)).2
  · rw [hmem, not_and_or, not_le]
    exact or_iff_left fun hno => hno ⟨o, ho, hsc⟩

lemma represents_pairs {α : Type} [DecidableEq α] {m : Table α K} {f : α → Option ℕ}
    (hi : ∀ a b n, ids.lookup a = some n → ids.lookup b = some n → a = b)
    (hn : ∀ a b n, f a = some n → f b = some n → a = b)
    (hs : ∀ n v, (∃ o, ids.lookup o = some n ∧ scores o = some v) ↔
      ∃ a s, m.lookup a = some s ∧ f a = some n ∧ g s = v)
    (hes : es = (R.pairs m).filterMap (dimension f g)) :
    Represents R ids scores (sparseVectorFrom R es).1 (sparseVectorFrom R es).2 := by
  subst hes
  refine represents_sparseVectorFrom hi ?_ fun e => ?_
  · refine List.pairwise_map.mpr ((List.pairwise_map.mp (nodup_pairs m)).filterMap _ ?_)
    intro x y hne d hd d' hd' heq
    exact hne (hn _ _ _ (dimension_eq_some.mp hd).2.1
      ((dimension_eq_some.mp hd').2.1.trans (congrArg some heq.symm)))
  · simp only [List.mem_filterMap, dimension_eq_some, mem_pairs, hs, Prod.exists]
    constructor
    · rintro ⟨a, s, hm, hf, hd⟩
      exact ⟨hf, a, s, hm, hd⟩
    · rintro ⟨hf, a, s, hm, hd⟩
      exact ⟨a, s, hm, hf, hd⟩

/-- **No two entities are merged**, neither in the vector of a subject nor in that of an object. -/
theorem vectors_represent (R : Runtime K) (ids : IDs)
    (hi : ∀ x ∈ ids.entries, ∀ y ∈ ids.entries, x.2 = y.2 → x.1 = y.1) :
    (∀ subjectID n objectScores vec, buildSubjectVector R subjectID n objectScores ids = .ok vec →
      Represents R ids (fun o => (objectScores.lookup o).map R.float32) vec.indices vec.values) ∧
    ∀ co now target (row : Table ℕ K), (∀ k ∈ row, ∃ o, ids.lookup o = some k) →
      Represents R ids (fun o => (ids.lookup o).bind row.lookup)
        (objectPoint R co now (target, row)).indices
        (objectPoint R co now (target, row)).values := by
  have hj : ∀ a b n, ids.lookup a = some n → ids.lookup b = some n → a = b := fun a b n ha hb =>
    hi _ (Table.lookup_eq_some_iff.mp ha) _ (Table.lookup_eq_some_iff.mp hb) rfl
  refine ⟨fun subjectID n objectScores vec h => ?_, fun co now target row hr => ?_⟩
  · cases hes : subjectEntries R ids (R.pairs objectScores) with
    | error e =>
      simp only [buildSubjectVector, hes] at h
      cases h
    | ok es =>
      rw [buildSubjectVector, hes] at h
      change ite _ _ _ = _ at h
      split_ifs at h
      cases h
      refine represents_pairs hj hj (fun n v => exists_congr fun o => ?_) (subjectEntries_eq hes)
      rw [Option.map_eq_some_iff]
      exact ⟨fun ⟨ho, s, hs, hv⟩ => ⟨s, hs, ho, hv⟩, fun ⟨s, hs, ho, hv⟩ => ⟨ho, s, hs, hv⟩⟩
  · refine represents_pairs (f := some) (g := id) hj (by simp) (fun n v => ⟨?_, ?_⟩) rfl
    · rintro ⟨o, ho, h⟩
      rw [ho] at h
      exact ⟨n, v, h, rfl, rfl⟩
    · rintro ⟨k, s, hs, ⟨⟩, rfl⟩
      obtain ⟨o, ho⟩ := hr n (AList.lookup_isSome.mp (Option.isSome_of_eq_some hs))
      exact ⟨o, ho, by rw [ho]; exact hs⟩

def table (l : List (String × ℕ)) : IDs := l.foldl (fun m x => m.insert x.1 x.2) ∅

/-- "tea" and "pot", the second with a number that does not fit. -/
theorem vectors_represent_tea :
    let ids := table [("tea", 3), ("pot", 2 ^ 32 + 3)]
    let scores := ((∅ : Table String ℚ).insert "tea" 1).insert "pot" 5
    Represents rationals ids (fun o => (scores.lookup o).map id) [3] [1] := by
  intro ids scores
  exact (vectors_represent rationals ids (by decide +kernel)).1 "ann" 1 scores
    ⟨"ann", 1, [3], [1]⟩ (by decide +kernel)

end Codohue.Compute
