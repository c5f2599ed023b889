import Codohue.RecommendScores
import Mathlib.Algebra.Order.Ring.Defs
import Mathlib.Data.List.Dedup
import Mathlib.Data.List.Induction
import Mathlib.Tactic.Linarith
import Mathlib.Tactic.Ring

/-!
The scores of the hybrid blend: what each object gets, and that it stays within the unit interval.
-/

namespace Codohue.Recommend

section Scores

variable {K : Type} {R : Runtime K}

lemma lookup_extractScores (points : List (ScoredPoint K)) (id : String) :
    (extractScores points).lookup id =
      ((points.filter fun p => p.objectID = some id).getLast?).map ScoredPoint.score := by
  induction points using List.reverseRecOn with
  | nil => rfl
  | append_singleton points p ih =>
    unfold extractScores at ih ⊢
    rw [List.foldl_append, List.filter_append, List.foldl_cons, List.foldl_nil]
    cases hid : p.objectID with
    | none => simpa [hid] using ih
    | some id' =>
      rw [Table.lookup_insert_eq]
      by_cases heq : id = id'
      · simp [hid, heq]
      · rw [if_neg heq, ih]
        simp [hid, Ne.symm heq]

variable {id : String} {points : List (ScoredPoint K)}

lemma exists_point_of_lookup (h : (extractScores points).lookup id = some v) :
    ∃ p ∈ points, p.objectID = some id ∧ p.score = v := by
  rw [lookup_extractScores, Option.map_eq_some_iff] at h
  obtain ⟨p, hp, rfl⟩ := h
  have hm := List.mem_filter.mp (List.mem_of_getLast? hp)
  exact ⟨p, hm.1, by simpa using hm.2, rfl⟩

lemma lookup_buildCreatedAtLookup (points : List (ScoredPoint K)) (id : String) :
    (buildCreatedAtLookup points).lookup id =
      (points.filterMap fun p => if p.objectID = some id then p.createdAt else none).head? := by
  induction points using List.reverseRecOn with
  | nil => rfl
  | append_singleton points p ih =>
    unfold buildCreatedAtLookup at ih ⊢
    rw [List.foldl_append, List.filterMap_append, List.foldl_cons, List.foldl_nil,
      List.head?_append, ← ih]
    cases hid : p.objectID with
    | none => simp [hid]
    | some id' =>
      cases ht : p.createdAt with
      | none => simp [hid, ht]
      | some t =>
        dsimp only
        by_cases heq : id' = id
        · subst heq
          split_ifs with hth
          · obtain ⟨t', ht'⟩ := Option.isSome_iff_exists.mp hth
            rw [ht', Option.some_or]
          · rw [Option.not_isSome_iff_eq_none.mp hth, AList.lookup_insert]
            simp [hid, ht]
        · have hr : [p].filterMap (fun p => if p.objectID = some id then p.createdAt else none) =
              [] := by
            simp [hid, heq]
          rw [hr, List.head?_nil, Option.or_none]
          split_ifs
          · rfl
          · exact AList.lookup_insert_ne (Ne.symm heq)

variable {scores : Table String K}

lemma mem_mapFinite :
    id ∈ mapFinite R f scores ↔ ∃ v, scores.lookup id = some v ∧ R.finiteScore v = true := by
  rw [← AList.lookup_isSome, mapFinite, Table.lookup_mapRows, Option.isSome_map,
    Option.isSome_iff_exists]
  simp [Table.lookup_deleteWhere_eq_some]

variable [Field K] [LinearOrder K]

/-! ### What an object gets -/

/-- The score of an object in the blend. -/
def blendedScore (R : Runtime K) (sparse dense : List (ScoredPoint K)) (alpha gamma : K)
    (distance : String) (now : ℤ) (objectID : String) : K :=
  decayed R now gamma ((buildCreatedAtLookup (sparse ++ dense)).lookup objectID)
    (alpha * ((clampUnitScores R (extractScores sparse)).lookup objectID).getD 0 +
      (1 - alpha) * ((boundDenseScores R (extractScores dense) distance).lookup objectID).getD 0)

/-- One arm scores the object. -/
def Scored (R : Runtime K) (sparse dense : List (ScoredPoint K)) (distance : String)
    (objectID : String) : Prop :=
  objectID ∈ clampUnitScores R (extractScores sparse) ∨
    objectID ∈ boundDenseScores R (extractScores dense) distance

variable {distance : String} {sparse dense : List (ScoredPoint K)}

lemma mem_blendHybridScores_iff :
    x ∈ blendHybridScores R sparse dense alpha gamma distance now ↔
      Scored R sparse dense distance x.1 ∧ R.finiteScore x.2 = true ∧
        x.2 = blendedScore R sparse dense alpha gamma distance now x.1 := by
  unfold blendHybridScores
  dsimp only
  rw [(R.sortSlice_perm _ _).mem_iff, List.mem_filterMap]
  constructor
  · rintro ⟨id, hid, hx⟩
    split_ifs at hx with hf
    cases hx
    refine ⟨?_, by simpa using hf, rfl⟩
    exact (List.mem_append.mp (List.mem_dedup.mp hid))
  · rintro ⟨hsc, hf, hs⟩
    refine ⟨x.1, List.mem_dedup.mpr (List.mem_append.mpr hsc), ?_⟩
    unfold blendedScore at hs
    rw [if_neg (by rw [← hs]; simp [hf]), ← hs]

lemma nodup_blendHybridScores :
    ((blendHybridScores R sparse dense alpha gamma distance now).map Prod.fst).Nodup := by
  unfold blendHybridScores
  rw [((R.sortSlice_perm _ _).map Prod.fst).nodup_iff, List.map_filterMap]
  refine (List.nodup_dedup _).filterMap ?_
  intro a b c ha hb
  simp only [Option.mem_def, Option.map_eq_some_iff] at ha hb
  obtain ⟨x, hx, rfl⟩ := ha
  obtain ⟨y, hy, hxy⟩ := hb
  split_ifs at hx hy
  cases hx
  cases hy
  exact hxy.symm

/-! ### The unit interval -/

section Unit

variable [IsStrictOrderedRing K]

lemma clampUnit_mem (value : K) : clampUnit R value ∈ Set.Icc 0 1 := by
  unfold clampUnit
  split_ifs with hne hb
  · exact ⟨le_refl 0, zero_le_one⟩
  · exact ⟨zero_le_one, le_refl 1⟩
  · have hn : ¬ value < 0 := by
      intro hlt
      simp [hlt] at hne
    exact ⟨not_lt.mp hn, not_lt.mp hb⟩

lemma freshnessMultiplier_mem (now t₁ : ℤ) (gamma : K) :
    freshnessMultiplier R now t₁ gamma ∈ Set.Icc 0 1 := by
  unfold freshnessMultiplier
  split_ifs
  · exact ⟨le_refl 0, zero_le_one⟩
  · exact clampUnit_mem _

lemma decayed_mem (h : score ∈ Set.Icc 0 1) : decayed R now gamma t₁ score ∈ Set.Icc 0 1 := by
  cases t₁ with
  | none => exact h
  | some t =>
    obtain ⟨hm, hm'⟩ := freshnessMultiplier_mem (R := R) now t gamma
    exact ⟨mul_nonneg h.1 hm, mul_le_one₀ h.2 hm hm'⟩

lemma mapFinite_getD_mem (hf : ∀ v, f v ∈ Set.Icc 0 1) (scores : Table String K) (id : String) :
    ((mapFinite R f scores).lookup id).getD 0 ∈ Set.Icc 0 1 := by
  rw [mapFinite, Table.lookup_mapRows]
  cases ((scores.deleteWhere fun _ v => !R.finiteScore v).lookup id) with
  | none => exact ⟨le_refl 0, zero_le_one⟩
  | some v => exact hf v

lemma saturate_mem (v : K) : (if v ≤ 0 then 0 else v / (v + dotNormK) : K) ∈ Set.Icc 0 1 := by
  split_ifs with hv
  · exact ⟨le_refl 0, zero_le_one⟩
  · have hp : 0 < v := not_le.mp hv
    have hk : (0 : K) < dotNormK := by
      unfold dotNormK
      norm_num
    exact ⟨div_nonneg hp.le (by linarith), (div_le_one (by linarith)).mpr (by linarith)⟩

lemma boundDenseScores_getD_mem (scores : Table String K) (distance id : String) :
    ((boundDenseScores R scores distance).lookup id).getD 0 ∈ Set.Icc 0 1 := by
  unfold boundDenseScores
  split_ifs
  · exact mapFinite_getD_mem clampUnit_mem scores id
  · exact mapFinite_getD_mem saturate_mem scores id

lemma blendedScore_mem (hal : alpha ∈ Set.Icc 0 1) :
    blendedScore R sparse dense alpha gamma distance now obj ∈ Set.Icc 0 1 := by
  obtain ⟨ha, ha'⟩ := hal
  obtain ⟨hs, hs'⟩ : ((clampUnitScores R (extractScores sparse)).lookup obj).getD 0 ∈
      Set.Icc 0 1 := mapFinite_getD_mem clampUnit_mem _ _
  obtain ⟨hd, hd'⟩ :=
    boundDenseScores_getD_mem (R := R) (extractScores dense) distance obj
  refine decayed_mem ⟨?_, ?_⟩
  · exact add_nonneg (mul_nonneg ha hs) (mul_nonneg (by linarith) hd)
  · calc _ ≤ alpha * 1 + (1 - alpha) * 1 :=
          add_le_add (mul_le_mul_of_nonneg_left hs' ha)
            (mul_le_mul_of_nonneg_left hd' (by linarith))
      _ = 1 := by ring

end Unit

lemma mem_boundDenseScores : id ∈ boundDenseScores R scores distance ↔
      ∃ v, scores.lookup id = some v ∧ R.finiteScore v = true := by
  unfold boundDenseScores
  split_ifs <;> exact mem_mapFinite

/-- The arm has a finite score for some object. -/
def HasScore (R : Runtime K) (points : List (ScoredPoint K)) : Prop :=
  ∃ o v, (extractScores points).lookup o = some v ∧ R.finiteScore v = true

lemma blendHybridScores_eq_nil_iff [IsStrictOrderedRing K]
    (hu : ∀ x ∈ Set.Icc (0 : K) 1, R.finiteScore x = true) (ha : alpha ∈ Set.Icc 0 1) :
    blendHybridScores R sparse dense alpha gamma distance now = [] ↔
      ¬ HasScore R sparse ∧ ¬ HasScore R dense := by
  have hm : ∀ o, Scored R sparse dense distance o →
      blendHybridScores R sparse dense alpha gamma distance now ≠ [] := fun o h =>
    List.ne_nil_of_mem (mem_blendHybridScores_iff (x := (o, _)).mpr
      ⟨h, hu _ (blendedScore_mem ha), rfl⟩)
  constructor
  · intro h
    exact ⟨fun ⟨o, v, hv⟩ => hm o (.inl (mem_mapFinite.mpr ⟨v, hv⟩)) h,
      fun ⟨o, v, hv⟩ => hm o (.inr (mem_boundDenseScores.mpr ⟨v, hv⟩)) h⟩
  · rintro ⟨hs, hd⟩
    refine List.eq_nil_iff_forall_not_mem.mpr fun x hx => ?_
    rcases (mem_blendHybridScores_iff.mp hx).1 with h | h
    · exact hs ⟨x.1, mem_mapFinite.mp h⟩
    · exact hd ⟨x.1, mem_boundDenseScores.mp h⟩

end Scores

end Codohue.Recommend
