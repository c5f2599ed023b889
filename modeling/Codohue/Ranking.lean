import Mathlib.Data.List.Sort

/-!
Rankings by a partial score: the names that have one, the best first.

The score of a name does not depend on the names that it is ranked with, so a ranking can be put
together from those of the parts of its list.
-/

namespace Codohue.Ranking

variable {α K : Type} [LinearOrder α] [LinearOrder K]

/-- The higher score comes first, and of equal scores the smaller name. -/
def Before (x y : α × K) : Prop := y.2 < x.2 ∨ (x.2 = y.2 ∧ x.1 ≤ y.1)

instance : DecidableRel (Before : α × K → α × K → Prop) :=
  fun _ _ => inferInstanceAs (Decidable (_ ∨ _))

instance : Std.Antisymm (Before : α × K → α × K → Prop) where
  antisymm x y hxy hyx := by
    rcases hxy with hxy | ⟨heq, hle⟩ <;> rcases hyx with hyx | ⟨heq', hle'⟩
    · exact absurd hyx hxy.asymm
    · exact absurd heq' hxy.ne
    · exact absurd heq hyx.ne
    · exact Prod.ext (le_antisymm hle hle') heq

instance : Std.Total (Before : α × K → α × K → Prop) where
  total x y := by
    rcases lt_trichotomy x.2 y.2 with hlt | heq | hlt
    · exact .inr (.inl hlt)
    · exact (le_total x.1 y.1).imp (fun h => .inr ⟨heq, h⟩) fun h => .inr ⟨heq.symm, h⟩
    · exact .inl (.inl hlt)

instance : IsTrans (α × K) Before where
  trans x y z hxy hyz := by
    rcases hxy with hxy | ⟨heq, hle⟩ <;> rcases hyz with hyz | ⟨heq', hle'⟩
    · exact .inl (hyz.trans hxy)
    · exact .inl (heq' ▸ hxy)
    · exact .inl (heq ▸ hyz)
    · exact .inr ⟨heq.trans heq', hle.trans hle'⟩

section Places

variable {l l' : List (α × K)}

lemma eq_of_mem_iff (hl : l.Nodup) (hl' : l'.Nodup) (hs : l.Pairwise Before)
    (hs' : l'.Pairwise Before) (h : ∀ x, x ∈ l ↔ x ∈ l') : l = l' :=
  ((List.perm_ext_iff_of_nodup hl hl').mpr h).eq_of_pairwise' hs hs'

lemma sublist_of_before (hl : l.Pairwise Before) (hx : x ∈ l) (hy : y ∈ l) (hne : x ≠ y)
    (h : Before x y) : [x, y].Sublist l := by
  obtain ⟨l₁, l₂, rfl⟩ := List.append_of_mem hx
  rcases List.mem_append.mp hy with hy | hy
  · have hb := (List.pairwise_append.mp hl).2.2 y hy x List.mem_cons_self
    exact absurd (antisymm h hb) hne
  · have hy₂ := (List.mem_cons.mp hy).resolve_left hne.symm
    exact ((List.singleton_sublist.mpr hy₂).cons_cons x).trans (List.sublist_append_right l₁ _)

lemma before_of_sublist (hl : l.Pairwise Before) (h : [a, b].Sublist (l.map Prod.fst)) :
    ∃ s t, (a, s) ∈ l ∧ (b, t) ∈ l ∧ Before (a, s) (b, t) := by
  obtain ⟨m, hm, heq⟩ := List.sublist_map_iff.mp h
  match m, heq with
  | [(_, s), (_, t)], rfl =>
    exact ⟨s, t, hm.subset (by simp), hm.subset (by simp),
      List.pairwise_iff_forall_sublist.mp hl hm⟩

end Places

section Scored

variable (scoreOf : α → Option K)

omit [LinearOrder α] [LinearOrder K] in
/-- The names that have a score, with it. -/
def scored (names : List α) : List (α × K) :=
  names.filterMap fun a => (scoreOf a).map fun s => (a, s)

def ranking (names : List α) : List (α × K) := (scored scoreOf names).insertionSort Before

omit [LinearOrder α] [LinearOrder K] in
lemma mem_scored : x ∈ scored scoreOf names ↔ x.1 ∈ names ∧ scoreOf x.1 = some x.2 := by
  simp only [scored, List.mem_filterMap, Option.map_eq_some_iff]
  constructor
  · rintro ⟨a, ha, s, hs, rfl⟩
    exact ⟨ha, hs⟩
  · rintro ⟨ha, hs⟩
    exact ⟨x.1, ha, x.2, hs, rfl⟩

omit [LinearOrder α] [LinearOrder K] in
lemma nodup_scored (h : names.Nodup) : (scored scoreOf names).Nodup := by
  refine h.filterMap fun a b x hx hy => ?_
  obtain ⟨s, -, rfl⟩ := Option.map_eq_some_iff.mp hx
  obtain ⟨s', -, heq⟩ := Option.map_eq_some_iff.mp hy
  exact (congrArg Prod.fst heq).symm

/-- A list in order that holds the scored names is the ranking. -/
lemma eq_ranking (hn : names.Nodup) (hl : l.Nodup) (hs : l.Pairwise Before)
    (hm : ∀ x, x ∈ l ↔ x.1 ∈ names ∧ scoreOf x.1 = some x.2) : l = ranking scoreOf names := by
  refine eq_of_mem_iff hl ?_ hs (List.pairwise_insertionSort _ _) fun x => ?_
  · exact (List.perm_insertionSort _ _).nodup_iff.mpr (nodup_scored scoreOf hn)
  · rw [hm, ranking, List.mem_insertionSort, mem_scored]

end Scored

/-- The entries of all lists in one order. -/
def merge (lists : List (List (α × K))) : List (α × K) := lists.flatten.insertionSort Before

/-- The rankings of the parts, merged, are the ranking of the whole. -/
theorem merge_ranking (scoreOf : α → Option K) (parts : List (List α)) :
    merge (parts.map (ranking scoreOf)) = ranking scoreOf parts.flatten := by
  have hp : (parts.map (ranking scoreOf)).flatten.Perm (scored scoreOf parts.flatten) := by
    induction parts with
    | nil => exact .refl _
    | cons part parts ih =>
      rw [List.map_cons, List.flatten_cons, List.flatten_cons, scored, List.filterMap_append]
      exact (List.perm_insertionSort _ _).append ih
  exact ((List.perm_insertionSort _ _).trans (hp.trans
    (List.perm_insertionSort _ _).symm)).eq_of_pairwise' (List.pairwise_insertionSort _ _)
      (List.pairwise_insertionSort _ _)

end Codohue.Ranking
