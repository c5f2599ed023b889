import Codohue.RecommendPoints

/-!
The order of the blend: it does not depend on the order in which anything is read, and an object
whose score is raised moves past others or stays where it is.
-/

namespace Codohue.Recommend

open Ranking

variable {K : Type} {sparse dense sparse' dense' : List (ScoredPoint K)} {o : String}

section Arms

/-- Each object has at most one point. -/
def Once (points : List (ScoredPoint K)) : Prop := (points.filterMap ScoredPoint.objectID).Nodup

/-- The score of `o` is raised, or left as it is. -/
def Raised [LE K] (o : String) : List (ScoredPoint K) → List (ScoredPoint K) → Prop :=
  List.Forall₂ fun p p' =>
    p' = p ∨ p.objectID = some o ∧ ∃ v, p.score ≤ v ∧ p' = { p with score := v }

lemma Once.pointsOf_eq (h : Once points) (o : String) :
    ∃ x : Option (ScoredPoint K), pointsOf o points = x.toList := by
  have hpa : (pointsOf o points).Pairwise fun p q =>
      ∀ a, p.objectID = some a → ∀ b, q.objectID = some b → a ≠ b :=
    (List.pairwise_filterMap.mp h).filter _
  have ho : ∀ p ∈ pointsOf o points, p.objectID = some o := fun p hp => by
    simpa using (List.mem_filter.mp hp).2
  match hpo : pointsOf o points with
  | [] => exact ⟨none, rfl⟩
  | [p] => exact ⟨some p, rfl⟩
  | p :: q :: rest =>
    rw [hpo] at hpa ho
    have hne := (List.pairwise_cons.mp hpa).1 q List.mem_cons_self
    exact absurd rfl (hne o (ho p (by simp)) o (ho q (by simp)))

lemma pointsOf_of_perm {x : Option (ScoredPoint K)} (h : points'.Perm points)
    (hx : pointsOf o points = x.toList) : pointsOf o points' = x.toList := by
  have hp : (pointsOf o points').Perm x.toList := hx ▸ h.filter _
  cases x with
  | none => exact hp.eq_nil
  | some p => exact List.perm_singleton.mp hp

lemma Once.raised [Preorder K] (h : Once points) (hra : Raised o points points') (a : String) :
    ∃ x y : Option (ScoredPoint K), pointsOf a points = x.toList ∧ pointsOf a points' = y.toList ∧
      (a ≠ o → y = x) ∧ y.bind ScoredPoint.createdAt = x.bind ScoredPoint.createdAt ∧
        Option.Rel (· ≤ ·) (x.map ScoredPoint.score) (y.map ScoredPoint.score) := by
  obtain ⟨x, hx⟩ := h.pointsOf_eq a
  have hr := List.rel_filter (p := fun p => p.objectID = some a) (q := fun p => p.objectID = some a)
    (fun p p' hp => by rcases hp with rfl | ⟨-, v, -, rfl⟩ <;> rfl) hra
  change List.Forall₂ _ (pointsOf a points) (pointsOf a points') at hr
  rw [hx] at hr
  cases x with
  | none => exact ⟨none, none, hx, List.forall₂_nil_left_iff.mp hr, fun _ => rfl, rfl, .none⟩
  | some p =>
    obtain ⟨p', rest, hp, hre, heq⟩ := List.forall₂_cons_left_iff.mp hr
    rw [List.forall₂_nil_left_iff.mp hre] at heq
    refine ⟨some p, some p', hx, heq, ?_⟩
    rcases hp with rfl | ⟨ho, v, hv, rfl⟩
    · exact ⟨fun _ => rfl, rfl, .some le_rfl⟩
    · have ha : p ∈ pointsOf a points := hx ▸ List.mem_singleton_self p
      have hn : some a = some o := (of_decide_eq_true (List.mem_filter.mp ha).2).symm.trans ho
      exact ⟨fun hne => absurd (Option.some.inj hn) hne, rfl, .some hv⟩

lemma feedOf_of_perm (hsp : Once sparse) (hde : Once dense) (hs : sparse'.Perm sparse)
    (hd : dense'.Perm dense) (o : String) : feedOf sparse' dense' o = feedOf sparse dense o := by
  obtain ⟨x, hx⟩ := hsp.pointsOf_eq o
  obtain ⟨y, hy⟩ := hde.pointsOf_eq o
  rw [feedOf_eq hx hy, feedOf_eq (pointsOf_of_perm hs hx) (pointsOf_of_perm hd hy)]

end Arms

/-! ### Feeds -/

variable {R : Runtime K} {alpha gamma : K} {distance : String} {now : ℤ}

section Feeds

variable [Field K] [LinearOrder K]

/-- The dense score of the blend. -/
def boundDense (R : Runtime K) (distance : String) (v : K) : K :=
  if distance ≠ denseDistanceDot then clampUnit R v else if v ≤ 0 then 0 else v / (v + dotNormK)

lemma decayed_eq (t₁ : Option ℤ) (score : K) :
    decayed R now gamma t₁ score = score * decayed R now gamma t₁ 1 := by
  cases t₁ <;> simp [decayed]

variable [IsStrictOrderedRing K]

lemma saturate_lt {u v : K} (hu : 0 < u) (huv : u < v) :
    u / (u + dotNormK) < v / (v + dotNormK) := by
  have hk : (0 : K) < dotNormK := by
    unfold dotNormK
    norm_num
  rw [div_lt_div_iff₀ (by linarith) (by linarith)]
  nlinarith

variable (hfinite : ∀ v, R.finiteScore v = true)

include hfinite

lemma clampUnit_mono : Monotone (clampUnit R) := by
  intro u v huv
  simp only [clampUnit, hfinite, Bool.not_true, Bool.false_or, decide_eq_true_eq]
  split_ifs <;> linarith

lemma boundDense_mono : Monotone (boundDense R distance) := by
  intro u v huv
  unfold boundDense
  split_ifs with hd hu hv hv
  · exact clampUnit_mono hfinite huv
  · exact le_rfl
  · simpa [hv] using (saturate_mem v).1
  · exact absurd (huv.trans hv) hu
  · rcases huv.lt_or_eq with hlt | rfl
    · exact (saturate_lt (not_le.mp hu) hlt).le
    · exact le_rfl

omit [IsStrictOrderedRing K] in
lemma score_of_finite (x : Feed K) : x.score R alpha gamma distance now =
    if x.sparse.isSome || x.dense.isSome then some ((alpha * (x.sparse.map (clampUnit R)).getD 0 +
        (1 - alpha) * (x.dense.map (boundDense R distance)).getD 0) *
          decayed R now gamma x.createdAt 1) else none := by
  have ha : ∀ s : Option K, s.filter R.finiteScore = s := fun s => by cases s <;> simp [hfinite]
  simp only [Feed.score, ha, hfinite, Bool.and_true, Option.isSome_map, ← decayed_eq]
  rfl

/-- A feed with higher scores has the higher score, and one without a score still has none. -/
lemma score_mono (ha : alpha ∈ Set.Icc 0 1) {x y : Feed K} (hc : x.createdAt = y.createdAt)
    (hs : Option.Rel (· ≤ ·) x.sparse y.sparse) (hd : Option.Rel (· ≤ ·) x.dense y.dense) :
    Option.Rel (· ≤ ·) (x.score R alpha gamma distance now)
      (y.score R alpha gamma distance now) := by
  have hso : ∀ {a b : Option K}, Option.Rel (· ≤ ·) a b → a.isSome = b.isSome := by
    rintro _ _ (_ | _) <;> rfl
  have hm : ∀ {f : K → K} {a b : Option K}, Monotone f → Option.Rel (· ≤ ·) a b →
      (a.map f).getD 0 ≤ (b.map f).getD 0 := by
    rintro f _ _ hf (hle | _)
    · exact hf hle
    · exact le_rfl
  rw [score_of_finite hfinite, score_of_finite hfinite, hso hs, hso hd, hc]
  have hs' := mul_le_mul_of_nonneg_left (hm (clampUnit_mono hfinite) hs) ha.1
  have hb : Monotone (boundDense R distance) := boundDense_mono hfinite
  have hd' := mul_le_mul_of_nonneg_left (hm hb hd) (sub_nonneg.mpr ha.2)
  split_ifs
  · exact .some (mul_le_mul_of_nonneg_right (add_le_add hs' hd')
      (decayed_mem ⟨zero_le_one, le_rfl⟩).1)
  · exact .none

end Feeds

/-! ### Places -/

section Places

variable [Field K] [LinearOrder K] [IsStrictOrderedRing K]

/-- The other entries are what they were, and `o` is still there, with no object ahead of it that
was not before. -/
structure Lifted (o : String) (l l' : List (String × K)) : Prop where
  others : l'.filter (·.1 ≠ o) = l.filter (·.1 ≠ o)
  stays : o ∈ l.map Prod.fst → o ∈ l'.map Prod.fst
  ahead : ∀ a, [a, o].Sublist (l'.map Prod.fst) → [a, o].Sublist (l.map Prod.fst)

lemma lifted_of_raised (hfinite : ∀ v, R.finiteScore v = true) (hal : alpha ∈ Set.Icc 0 1)
    (hsp : Once sparse) (hde : Once dense) (hs : Raised o sparse sparse')
    (hd : Raised o dense dense') :
    Lifted o (blendHybridScores R sparse dense alpha gamma distance now)
      (blendHybridScores R sparse' dense' alpha gamma distance now) := by
  have hm : ∀ x : String × K, x.1 ≠ o →
      (x ∈ blendHybridScores R sparse' dense' alpha gamma distance now ↔
        x ∈ blendHybridScores R sparse dense alpha gamma distance now) := by
    intro x hx
    obtain ⟨p, p', hp, hp', hsa, -⟩ := hsp.raised hs x.1
    obtain ⟨q, q', hq, hq', hsa', -⟩ := hde.raised hd x.1
    rw [mem_blend_iff_score, mem_blend_iff_score, feedOf_eq hp' hq', feedOf_eq hp hq, hsa hx,
      hsa' hx]
  have hup : Option.Rel (· ≤ ·) ((feedOf sparse dense o).score R alpha gamma distance now)
      ((feedOf sparse' dense' o).score R alpha gamma distance now) := by
    obtain ⟨p, p', hp, hp', -, hc, hle⟩ := hsp.raised hs o
    obtain ⟨q, q', hq, hq', -, hc', hle'⟩ := hde.raised hd o
    rw [feedOf_eq hp' hq', feedOf_eq hp hq, hc, hc']
    exact score_mono hfinite hal rfl hle hle'
  constructor
  · refine eq_of_mem_iff (nodup_blendHybridScores.of_map.filter _)
      (nodup_blendHybridScores.of_map.filter _) (pairwise_blendHybridScores.filter _)
      (pairwise_blendHybridScores.filter _) fun x => ?_
    simp only [List.mem_filter, decide_eq_true_eq]
    exact and_congr_left (hm x)
  · intro ho
    obtain ⟨x, hx, rfl⟩ := List.mem_map.mp ho
    rw [mem_blend_iff_score.mp hx] at hup
    generalize hy : (feedOf sparse' dense' x.1).score R alpha gamma distance now = y at hup
    cases hup with
    | @some _ t _ =>
      exact List.mem_map.mpr ⟨(x.1, t), mem_blend_iff_score.mpr hy, rfl⟩
  · intro a ha
    have hne : a ≠ o := by simpa using ha.nodup nodup_blendHybridScores
    obtain ⟨s, t, hs, ht, hb⟩ := before_of_sublist pairwise_blendHybridScores ha
    obtain ⟨t', hle, ht'⟩ : ∃ t' ≤ t,
        (feedOf sparse dense o).score R alpha gamma distance now = some t' := by
      rw [mem_blend_iff_score.mp ht] at hup
      generalize (feedOf sparse dense o).score R alpha gamma distance now = y at hup
      cases hup with | some hle => exact ⟨_, hle, rfl⟩
    refine (sublist_of_before pairwise_blendHybridScores ((hm _ hne).mp hs)
      (mem_blend_iff_score.mpr ht') (fun heq => hne (Prod.mk.inj heq).1) ?_).map Prod.fst
    rcases hle.lt_or_eq with hlt | rfl
    · exact .inl (hb.elim hlt.trans fun h => h.1 ▸ hlt)
    · exact hb

end Places

/-- The blend is one list for every order of its inputs and every sort, its scores are in the unit
interval, an object whose score is raised changes nothing for the others and is not overtaken, and
of two objects that differ in their dot products the higher product comes first. -/
theorem blend_ordered {K : Type} [Field K] [LinearOrder K] [IsStrictOrderedRing K] (R : Runtime K)
    (hfinite : ∀ v, R.finiteScore v = true) (sparse dense : List (ScoredPoint K))
    (alpha gamma : K) (distance : String) (now : ℤ) (halpha : alpha ∈ Set.Icc 0 1)
    (hsparse : Once sparse) (hdense : Once dense) :
    let blend sparse dense := blendHybridScores R sparse dense alpha gamma distance now
    let feed := feedOf sparse dense
    let multiplier o := decayed R now gamma (feed o).createdAt 1
    (∀ (R' : Runtime K) sparse' dense', R'.finiteScore = R.finiteScore → R'.exp = R.exp →
      sparse'.Perm sparse → dense'.Perm dense →
        blendHybridScores R' sparse' dense' alpha gamma distance now = blend sparse dense) ∧
    (∀ x ∈ blend sparse dense, x.2 ∈ Set.Icc 0 1) ∧
    (∀ o sparse' dense', Raised o sparse sparse' → Raised o dense dense' →
      Lifted o (blend sparse dense) (blend sparse' dense')) ∧
    (distance = denseDistanceDot → alpha < 1 → ∀ a b u v, (feed a).sparse = (feed b).sparse →
      multiplier a = multiplier b → 0 < multiplier b → (feed a).dense = some u →
      (feed b).dense = some v → 0 < u → u < v →
        [b, a].Sublist ((blend sparse dense).map Prod.fst)) := by
  intro blend feed multiplier
  refine ⟨?_, ?_, fun o _ _ => lifted_of_raised hfinite halpha hsparse hdense, ?_⟩
  · intro R' sparse' dense' hf he hs hd
    refine eq_of_mem_iff nodup_blendHybridScores.of_map nodup_blendHybridScores.of_map
      pairwise_blendHybridScores pairwise_blendHybridScores fun x => ?_
    rw [mem_blend_iff_score, mem_blend_iff_score, feedOf_of_perm hsparse hdense hs hd]
    obtain ⟨_, _, _, _, _⟩ := R
    obtain ⟨_, _, _, _, _⟩ := R'
    cases hf
    cases he
    exact Iff.rfl
  · intro x hx
    rw [(mem_blendHybridScores_iff.mp hx).2.2]
    exact blendedScore_mem halpha
  · rintro rfl hlt a b u v hs hm hp ha hb hu huv
    have hsc : ∀ o d, (feed o).dense = some d → 0 < d →
        (feed o).score R alpha gamma denseDistanceDot now = some
          ((alpha * ((feed o).sparse.map (clampUnit R)).getD 0 +
            (1 - alpha) * (d / (d + dotNormK))) * multiplier o) := by
      intro o d hd hp
      simp [score_of_finite hfinite, hd, boundDense, not_le.mpr hp, multiplier]
    have hlt' : (1 - alpha) * (u / (u + dotNormK)) < (1 - alpha) * (v / (v + dotNormK)) :=
      mul_lt_mul_of_pos_left (saturate_lt hu huv) (sub_pos.mpr hlt)
    refine (sublist_of_before pairwise_blendHybridScores
      (mem_blend_iff_score (x := (b, _)).mpr (hsc b v hb (hu.trans huv)))
      (mem_blend_iff_score (x := (a, _)).mpr (hsc a u ha hu)) ?_ (.inl ?_)).map Prod.fst
    · intro heq
      cases (Prod.mk.inj heq).1
      exact huv.ne (Option.some.inj (ha.symm.trans hb))
    · rw [hs, hm]
      exact mul_lt_mul_of_pos_right (by linarith) hp

/-- Two objects with these scores. -/
def twoPoints (x y : ℚ) : List (ScoredPoint ℚ) := [⟨1, some "x", none, x⟩, ⟨2, some "y", none, y⟩]

theorem blend_ordered_twoPoints : Once (twoPoints 1 1) ∧ Once (twoPoints 2 3) ∧
    ["y", "x"].Sublist ((blendHybridScores rationals (twoPoints 1 1) (twoPoints 2 3) (1 / 2) 0
      denseDistanceDot 0).map Prod.fst) := by
  have ho : ∀ x y, Once (twoPoints x y) := fun x y => by simp [Once, twoPoints]
  refine ⟨ho 1 1, ho 2 3, ?_⟩
  exact (blend_ordered rationals (fun _ => rfl) _ _ (1 / 2) 0 denseDistanceDot 0 (by norm_num)
    (ho 1 1) (ho 2 3)).2.2.2 rfl (by norm_num) "x" "y" 2 3 (by decide) (by decide)
      (by decide) (by decide) (by decide) (by norm_num) (by norm_num)

end Codohue.Recommend
