import Codohue.Compute
import Codohue.Tally
import Mathlib.Algebra.Order.BigOperators.Group.List

/-!
The passes of the co-occurrence of objects.

Every contribution to the matrix is one step: a target, and another entry of its row. A pass makes
the steps of its own targets, in the order in which all of them stand in the rows. So each cell gets
its additions in the same order as without passes.
-/

namespace Codohue.Compute

open Tally

/-! ### Steps -/

variable {K : Type} {passOf : Table ℕ ℕ} {pass n m : ℕ} {row : List (CoEntry K)}

section Steps

/-- The steps that a pass makes for a row. -/
def steps (passOf : Table ℕ ℕ) (pass : ℕ) (row : List (CoEntry K)) : List (ℕ × CoEntry K) :=
  (row.filter fun target => (passOf.lookup target.id).getD 0 = pass).flatMap fun target =>
    (row.filter fun other => other.id ≠ target.id).map fun other => (target.id, other)

/-- What a row contributes to a cell: the score of the object, if the target is in the row and is
another one. -/
def rowContributions (row : List (CoEntry K)) (n m : ℕ) : List K :=
  if n ∈ row.map CoEntry.id ∧ m ≠ n then (row.filter fun e => e.id = m).map CoEntry.score else []

/-- The scores of one object beside the target, in the order of the rows. -/
def contributions (rows : List (List (CoEntry K))) (n m : ℕ) : List K :=
  rows.flatMap fun row => rowContributions row n m

lemma flatMap_key {α β : Type} {key : α → ℕ} {l : List α} (hn : (l.map key).Nodup) (n : ℕ)
    (r : List β) :
    (l.flatMap fun a => if key a = n then r else []) = if n ∈ l.map key then r else [] := by
  induction l with
  | nil => rfl
  | cons a l ih =>
    obtain ⟨ha, hl⟩ := List.nodup_cons.mp hn
    rw [List.flatMap_cons, ih hl, List.map_cons]
    rcases eq_or_ne (key a) n with rfl | hne
    · rw [if_pos rfl, if_neg ha, if_pos List.mem_cons_self, List.append_nil]
    · rw [if_neg hne]
      exact if_congr (List.mem_cons.trans (or_iff_right hne.symm)).symm rfl rfl

lemma scores_target (target : CoEntry K) :
    (((row.filter fun other => other.id ≠ target.id).map fun other => (target.id, other)).filter
        fun s => (s.1, s.2.id) = (n, m)).map (·.2.score) =
      if target.id = n then
        (if m ≠ n then (row.filter fun e => e.id = m).map CoEntry.score else []) else [] := by
  rw [List.filter_map, List.map_map, List.filter_filter]
  split_ifs with hn hm
  · refine congrArg (List.map CoEntry.score) (List.filter_congr fun e _ => ?_)
    simp only [Function.comp_apply, Prod.mk.injEq, hn, true_and]
    by_cases he : e.id = m
    · simp [he, hm]
    · simp [he]
  · simp only [Function.comp_apply, Prod.mk.injEq, hn, not_not.mp hm]
    simp
  · simp [hn]

lemma scores_steps (hr : (row.map CoEntry.id).Nodup) :
    ((steps passOf pass row).filter fun s => (s.1, s.2.id) = (n, m)).map (·.2.score) =
      if (passOf.lookup n).getD 0 = pass then rowContributions row n m else [] := by
  have hm : n ∈ (row.filter fun t => (passOf.lookup t.id).getD 0 = pass).map CoEntry.id ↔
      (passOf.lookup n).getD 0 = pass ∧ n ∈ row.map CoEntry.id := by
    simp only [List.mem_map, List.mem_filter, decide_eq_true_eq]
    constructor
    · rintro ⟨e, ⟨he, hp⟩, rfl⟩
      exact ⟨hp, e, he, rfl⟩
    · rintro ⟨hp, e, he, rfl⟩
      exact ⟨e, ⟨he, hp⟩, rfl⟩
  have hn : ((row.filter fun t => (passOf.lookup t.id).getD 0 = pass).map CoEntry.id).Nodup :=
    (List.filter_sublist.map CoEntry.id).nodup hr
  rw [steps, List.filter_flatMap, List.map_flatMap]
  simp only [scores_target]
  rw [flatMap_key hn, rowContributions]
  split_ifs <;> tauto

end Steps

/-! ### Cells -/

variable {co : Cooccurrence K}

section Cells

variable [Zero K] [Add K]

/-- The other entry contributes to the target. -/
def addCell (accum : Table ℕ (Table ℕ K)) (s : ℕ × CoEntry K) : Table ℕ (Table ℕ K) :=
  let row := (accum.lookup s.1).getD ∅
  accum.insert s.1 (row.insert s.2.id ((row.lookup s.2.id).getD 0 + s.2.score))

def cell (accum : Table ℕ (Table ℕ K)) (k : ℕ × ℕ) : Option K :=
  (accum.lookup k.1).bind (·.lookup k.2)

lemma adds_addCell : Adds (V := K) cell addCell (fun s => (s.1, s.2.id)) (fun s => s.2.score) := by
  intro acc s k
  obtain ⟨n, m⟩ := k
  simp only [cell, addCell, Prod.mk.injEq]
  by_cases hn : s.1 = n
  · subst hn
    rw [AList.lookup_insert, Option.bind_some]
    by_cases hm : s.2.id = m
    · subst hm
      rw [AList.lookup_insert, if_pos ⟨rfl, rfl⟩]
      cases acc.lookup s.1 <;> rfl
    · rw [AList.lookup_insert_ne (Ne.symm hm), if_neg fun h => hm h.2]
      cases acc.lookup s.1 <;> rfl
  · rw [AList.lookup_insert_ne (Ne.symm hn), if_neg fun h => hn h.1]

lemma mem_foldl_addCell {l : List (ℕ × CoEntry K)} :
    n ∈ l.foldl addCell acc ↔ n ∈ acc ∨ ∃ s ∈ l, s.1 = n := by
  induction l generalizing acc with
  | nil => simp
  | cons s l ih =>
    rw [List.foldl_cons, ih, addCell, AList.mem_insert, List.exists_mem_cons_iff]
    constructor
    · rintro ((rfl | h) | h)
      · exact .inr (.inl rfl)
      · exact .inl h
      · exact .inr (.inr h)
    · rintro (h | rfl | h)
      · exact .inl (.inr h)
      · exact .inl (.inl rfl)
      · exact .inr h

lemma foldl_contribute (target : CoEntry K) (accum : Table ℕ (Table ℕ K)) :
    row.foldl (Cooccurrence.contribute target) accum =
      ((row.filter fun other => other.id ≠ target.id).map fun other => (target.id, other)).foldl
        addCell accum := by
  rw [List.foldl_map, List.foldl_filter]
  refine List.foldl_ext _ _ accum fun accum other _ => ?_
  simp only [Cooccurrence.contribute, addCell]
  split_ifs <;> simp_all

lemma accumulate_eq :
    co.accumulate passOf pass = (co.rows.flatMap (steps passOf pass)).foldl addCell ∅ := by
  rw [List.foldl_flatMap]
  refine List.foldl_ext _ _ _ fun acc row _ => ?_
  rw [steps, List.foldl_flatMap, List.foldl_filter]
  refine List.foldl_ext _ _ acc fun acc target _ => ?_
  rw [Cooccurrence.accumulateTarget, ← foldl_contribute]
  split_ifs <;> simp_all

lemma cell_accumulate (hr : ∀ row ∈ co.rows, (row.map CoEntry.id).Nodup) :
    cell (co.accumulate passOf pass) (n, m) =
      if (passOf.lookup n).getD 0 = pass then total (contributions co.rows n m) else none := by
  rw [accumulate_eq, adds_addCell.foldl, List.filter_flatMap, List.map_flatMap]
  have hc : co.rows.flatMap (fun row => ((steps passOf pass row).filter
      fun s => (s.1, s.2.id) = (n, m)).map (·.2.score)) =
        if (passOf.lookup n).getD 0 = pass then contributions co.rows n m else [] := by
    rw [List.flatMap_congr fun row hro => scores_steps (hr row hro)]
    split_ifs
    · rfl
    · exact List.flatMap_eq_nil_iff.mpr fun _ _ => rfl
  rw [hc]
  split_ifs <;> rfl

lemma mem_iff_cell {l : List (ℕ × CoEntry K)} :
    n ∈ l.foldl addCell ∅ ↔ ∃ m, (cell (l.foldl addCell ∅) (n, m)).isSome := by
  constructor
  · intro h
    obtain ⟨s, hs, rfl⟩ := (mem_foldl_addCell.mp h).resolve_left (AList.notMem_empty n)
    refine ⟨s.2.id, ?_⟩
    rw [adds_addCell.foldl]
    exact isSome_total.mpr (List.ne_nil_of_mem (List.mem_map_of_mem
      (List.mem_filter.mpr ⟨hs, decide_eq_true rfl⟩)))
  · rintro ⟨m, hm⟩
    obtain ⟨v, hv⟩ := Option.isSome_iff_exists.mp hm
    obtain ⟨row, hr, -⟩ := Option.bind_eq_some_iff.mp hv
    exact AList.lookup_isSome.mp (hr ▸ rfl)

lemma mem_accumulate_iff (hr : ∀ row ∈ co.rows, (row.map CoEntry.id).Nodup) :
    n ∈ co.accumulate passOf pass ↔
      (passOf.lookup n).getD 0 = pass ∧ ∃ m, contributions co.rows n m ≠ [] := by
  rw [accumulate_eq, mem_iff_cell, ← accumulate_eq]
  simp only [cell_accumulate hr]
  split_ifs with h
  · simp [h, isSome_total]
  · simp [h]

end Cells

/-! ### Loads -/

section Loads

/-- What a target takes: a contribution from every other entry of a row that it is in. -/
def loadOf (rows : List (List (CoEntry K))) (n : ℕ) : ℕ :=
  ((rows.filter fun row => n ∈ row.map CoEntry.id).map fun row => row.length - 1).sum

/-- The objects of the rows. -/
def objects (rows : List (List (CoEntry K))) : List ℕ := (rows.flatMap (·.map CoEntry.id)).dedup

lemma mem_objects : n ∈ objects rows ↔ ∃ row ∈ rows, n ∈ row.map CoEntry.id := by
  rw [objects, List.mem_dedup, List.mem_flatMap]

def addLoad (load : Table ℕ ℕ) (s : ℕ × ℕ) : Table ℕ ℕ :=
  load.insert s.1 ((load.lookup s.1).getD 0 + s.2)

lemma load_eq : co.load =
      (co.rows.flatMap fun row => row.map fun e => (e.id, row.length - 1)).foldl addLoad ∅ := by
  rw [List.foldl_flatMap]
  simp only [List.foldl_map]
  rfl

lemma adds_addLoad : Adds (flip AList.lookup) addLoad Prod.fst Prod.snd := by
  intro load s n
  rw [flip, flip, addLoad]
  by_cases hn : s.1 = n
  · subst hn
    rw [AList.lookup_insert, if_pos rfl, plus]
  · rw [AList.lookup_insert_ne (Ne.symm hn), if_neg hn]

lemma loads_row {row : List (CoEntry K)} (hr : (row.map CoEntry.id).Nodup) (k : ℕ) :
    ((row.map fun e => (e.id, k)).filter fun s => s.1 = n).map Prod.snd =
      if n ∈ row.map CoEntry.id then [k] else [] := by
  rw [← flatMap_key hr n [k]]
  clear hr
  induction row with
  | nil => rfl
  | cons e row ih =>
    rw [List.map_cons, List.flatMap_cons, ← ih]
    by_cases he : e.id = n <;> simp [he]

lemma loads_rows {rows : List (List (CoEntry K))} (hr : ∀ row ∈ rows, (row.map CoEntry.id).Nodup) :
    ((rows.flatMap fun row => row.map fun e => (e.id, row.length - 1)).filter
        fun s => s.1 = n).map Prod.snd =
      (rows.filter fun row => n ∈ row.map CoEntry.id).map fun row => row.length - 1 := by
  rw [List.filter_flatMap, List.map_flatMap,
    List.flatMap_congr fun row hro => loads_row (hr row hro) (row.length - 1)]
  clear hr
  induction rows with
  | nil => rfl
  | cons row rows ih =>
    rw [List.flatMap_cons, List.filter_cons, ih]
    split_ifs with h h' h'
    · rfl
    · exact absurd (decide_eq_true h) h'
    · exact absurd (of_decide_eq_true h') h
    · rfl

lemma lookup_load (hro : ∀ row ∈ co.rows, (row.map CoEntry.id).Nodup) :
    co.load.lookup n = if n ∈ objects co.rows then some (loadOf co.rows n) else none := by
  have hl : co.load.lookup n =
      total ((co.rows.filter fun row => n ∈ row.map CoEntry.id).map fun row => row.length - 1) := by
    rw [load_eq, ← loads_rows hro]
    exact adds_addLoad.foldl _ ∅ n
  rw [hl]
  split_ifs with h
  · obtain ⟨row, hr, hn⟩ := mem_objects.mp h
    exact total_eq_sum (List.ne_nil_of_mem (List.mem_map_of_mem
      (List.mem_filter.mpr ⟨hr, decide_eq_true hn⟩)))
  · rw [List.filter_eq_nil_iff.mpr fun row hr hn =>
      h (mem_objects.mpr ⟨row, hr, of_decide_eq_true hn⟩)]
    rfl

end Loads

/-! ### Plans -/

variable {budget : ℕ}

section Plans

open Cooccurrence (Plan)

/-- The loads that have been put into a pass. -/
def members (passOf : Table ℕ ℕ) (done : List (ℕ × ℕ)) (pass : ℕ) : List ℕ :=
  (done.filter fun x => passOf.lookup x.1 = some pass).map Prod.snd

/-- The loads keep to the budget, unless there is only one. -/
def Fits (budget : ℕ) (loads : List ℕ) : Prop :=
  loads.sum ≤ budget ∨ (loads.filter (· ≠ 0)).length ≤ 1

/-- What holds once the loads of the list have been assigned. -/
structure Packed (budget : ℕ) (done : List (ℕ × ℕ)) (p : Plan) : Prop where
  assigned : ∀ x ∈ done, ∃ pass ≤ p.passes, p.passOf.lookup x.1 = some pass
  current : p.current = (members p.passOf done p.passes).sum
  fits : ∀ pass, Fits budget (members p.passOf done pass)

variable {p : Plan} {x : ℕ × ℕ}

lemma members_insert (hx : x.1 ∉ done.map Prod.fst) (k pass : ℕ) :
    members (passOf.insert x.1 k) (done ++ [x]) pass =
      members passOf done pass ++ if k = pass then [x.2] else [] := by
  have ho : (done.filter fun y => (passOf.insert x.1 k).lookup y.1 = some pass) =
      done.filter fun y => passOf.lookup y.1 = some pass := by
    refine List.filter_congr fun y hy => ?_
    have hne : y.1 ≠ x.1 := fun h => hx (h ▸ List.mem_map_of_mem hy)
    rw [AList.lookup_insert_ne hne]
  rw [members, List.filter_append, ho, List.map_append, members, List.filter_singleton,
    AList.lookup_insert]
  split_ifs <;> simp_all

/-- A load is put into the pass with this number. -/
def Plan.put (p : Plan) (pass current : ℕ) (x : ℕ × ℕ) : Plan :=
  ⟨p.passOf.insert x.1 pass, pass, current + x.2⟩

lemma Packed.put (h : Packed budget done p) (hx : x.1 ∉ done.map Prod.fst) {pass current : ℕ}
    (hp : p.passes ≤ pass) (hc : current = (members p.passOf done pass).sum)
    (hf : Fits budget (members p.passOf done pass ++ [x.2])) :
    Packed budget (done ++ [x]) (Plan.put p pass current x) where
  assigned := by
    intro y hy
    rcases List.mem_append.mp hy with hy | hy
    · obtain ⟨k, hk, hl⟩ := h.assigned y hy
      refine ⟨k, hk.trans hp, ?_⟩
      rw [← hl]
      exact AList.lookup_insert_ne fun heq => hx (heq ▸ List.mem_map_of_mem hy)
    · obtain rfl := List.mem_singleton.mp hy
      exact ⟨pass, le_rfl, AList.lookup_insert _⟩
  current := by
    change current + x.2 = (members (p.passOf.insert x.1 pass) (done ++ [x]) pass).sum
    rw [members_insert hx, if_pos rfl, List.sum_append, ← hc, List.sum_singleton]
  fits := by
    intro k
    change Fits budget (members (p.passOf.insert x.1 pass) (done ++ [x]) k)
    rw [members_insert hx]
    split_ifs with hk
    · exact hk ▸ hf
    · rw [List.append_nil]
      exact h.fits k

lemma fits_of_sum_eq_zero (h : loads.sum = 0) (l : ℕ) : Fits budget (loads ++ [l]) := by
  refine .inr ?_
  have hz : loads.filter (· ≠ 0) = [] := by
    refine List.filter_eq_nil_iff.mpr fun k hk => ?_
    have hle : k ≤ 0 := h ▸ List.le_sum_of_mem hk
    simp [Nat.eq_zero_of_le_zero hle]
  rw [List.filter_append, hz]
  exact (List.length_filter_le _ _).trans_eq rfl

/-- One step: a new pass is begun if the load does not fit into the current one, and the current one
is not without any load. -/
lemma Packed.assign (h : Packed budget done p) (hx : x.1 ∉ done.map Prod.fst) :
    Packed budget (done ++ [x]) (p.assign budget x) := by
  unfold Plan.assign
  split_ifs with hf
  · have hn : members p.passOf done (p.passes + 1) = [] := by
      refine List.map_eq_nil_iff.mpr (List.filter_eq_nil_iff.mpr fun y hy hl => ?_)
      obtain ⟨k, hk, hl'⟩ := h.assigned y hy
      have hk' := Option.some.inj (hl'.symm.trans (of_decide_eq_true hl))
      omega
    refine h.put hx (Nat.le_succ _) (by rw [hn]; rfl) ?_
    rw [hn]
    exact fits_of_sum_eq_zero rfl x.2
  · refine h.put hx le_rfl h.current ?_
    rcases Nat.eq_zero_or_pos p.current with hz | hp
    · exact fits_of_sum_eq_zero (h.current ▸ hz) x.2
    · refine .inl ?_
      rw [List.sum_append, ← h.current]
      exact not_lt.mp fun hlt => hf ⟨hp, hlt⟩

lemma packed_foldl (hn : (l.map Prod.fst).Nodup) :
    Packed budget l (l.foldl (Plan.assign budget) ⟨∅, 0, 0⟩) := by
  induction l using List.reverseRecOn with
  | nil => exact ⟨nofun, rfl, fun pass => .inl (Nat.zero_le _)⟩
  | append_singleton l x ih =>
    rw [List.map_append, List.nodup_append] at hn
    rw [List.foldl_append, List.foldl_cons]
    refine (ih hn.1).assign fun hx => ?_
    exact hn.2.2 x.1 hx x.1 List.mem_cons_self rfl

end Plans

/-! ### The matrix -/

section Matrix

variable {R : Runtime K}

/-- The targets of a pass. -/
def targets (co : Cooccurrence K) (passOf : Table ℕ ℕ) (pass : ℕ) : List ℕ :=
  (objects co.rows).filter fun n => passOf.lookup n = some pass

section

variable (hr : ∀ row ∈ co.rows, (row.map CoEntry.id).Nodup)

include hr

lemma pairs_load_perm :
    (R.pairs co.load).Perm ((objects co.rows).map fun n => (n, loadOf co.rows n)) := by
  have hno : ((objects co.rows).map fun n => (n, loadOf co.rows n)).Nodup :=
    (List.nodup_dedup _).map fun _ _ h => (Prod.mk.inj h).1
  rw [List.perm_ext_iff_of_nodup (List.Nodup.of_map _ (nodup_pairs _)) hno]
  rintro ⟨n, l⟩
  rw [mem_pairs, lookup_load hr, List.mem_map]
  split_ifs with hn
  · constructor
    · exact fun h => ⟨n, hn, Prod.ext rfl (Option.some.inj h)⟩
    · rintro ⟨n', -, h⟩
      obtain ⟨rfl, rfl⟩ := Prod.mk.inj h
      rfl
  · constructor
    · exact nofun
    · rintro ⟨n', hn', h⟩
      exact absurd ((Prod.mk.inj h).1 ▸ hn') hn

lemma members_perm (passOf : Table ℕ ℕ) (pass : ℕ) : (members passOf (R.pairs co.load) pass).Perm
      ((targets co passOf pass).map (loadOf co.rows)) := by
  have hp := ((pairs_load_perm (R := R) hr).filter
    fun x => passOf.lookup x.1 = some pass).map Prod.snd
  rw [List.filter_map, List.map_map] at hp
  exact hp

lemma pass_fits (pass : ℕ) (h : budget <
      ((targets co (co.planPasses R budget).1 pass).map (loadOf co.rows)).sum) :
    ∃ n, (targets co (co.planPasses R budget).1 pass).filter (fun n => loadOf co.rows n ≠ 0) =
      [n] := by
  have hf : Fits budget (members (co.planPasses R budget).1 (R.pairs co.load) pass) :=
    (packed_foldl (nodup_pairs co.load)).fits pass
  have hp := members_perm (R := R) hr (co.planPasses R budget).1 pass
  generalize targets co (co.planPasses R budget).1 pass = ts at h hp
  have hlen : (ts.filter fun n => loadOf co.rows n ≠ 0).length ≤ 1 := by
    rcases hf with hle | hle
    · exact absurd (hp.sum_eq ▸ hle) (not_le.mpr h)
    · rw [(hp.filter _).length_eq, List.filter_map, List.length_map] at hle
      exact hle
  have hne : (ts.filter fun n => loadOf co.rows n ≠ 0) ≠ [] := by
    intro hni
    have hz : (ts.map (loadOf co.rows)).sum = 0 := by
      refine List.sum_eq_zero fun l hl => ?_
      obtain ⟨n, hn, rfl⟩ := List.mem_map.mp hl
      by_contra hlo
      exact List.filter_eq_nil_iff.mp hni n hn (decide_eq_true hlo)
    omega
  exact List.length_eq_one_iff.mp (hlen.antisymm (List.length_pos_iff.mpr hne))

end

lemma exists_pass_of_mem (R : Runtime K) (budget : ℕ)
    (hr : ∀ row ∈ co.rows, (row.map CoEntry.id).Nodup) (hn : n ∈ objects co.rows) :
    ∃ pass < (co.planPasses R budget).2, (co.planPasses R budget).1.lookup n = some pass := by
  have hm : (n, loadOf co.rows n) ∈ R.pairs co.load := by
    rw [mem_pairs, lookup_load hr, if_pos hn]
  have hp : Packed budget _ ((R.pairs co.load).foldl (Cooccurrence.Plan.assign budget)
      ⟨∅, 0, 0⟩) := packed_foldl (nodup_pairs co.load)
  obtain ⟨pass, hle, hpa⟩ := hp.assigned _ hm
  exact ⟨pass, Nat.lt_succ_of_le hle, hpa⟩

lemma mem_objects_of_contributions (h : contributions co.rows n m ≠ []) : n ∈ objects co.rows := by
  obtain ⟨v, hv⟩ := List.exists_mem_of_ne_nil _ h
  obtain ⟨row, hr, hv⟩ := List.mem_flatMap.mp hv
  rw [rowContributions] at hv
  split_ifs at hv with hn
  · exact mem_objects.mpr ⟨row, hr, hn.1⟩
  · cases hv

/-- The co-occurrence matrix in passes is that without passes, whatever the addition is: every
object has one pass, the passes together have the cells that the rows give in their order, and a
pass keeps to the budget unless one target alone has a load. -/
theorem passes_partition [Zero K] [Add K] (R : Runtime K) (co : Cooccurrence K) (budget : ℕ)
    (hrows : ∀ row ∈ co.rows, (row.map CoEntry.id).Nodup) :
    (∀ row ∈ co.rows, ∀ e ∈ row, ∃! pass, pass < (co.planPasses R budget).2 ∧
      (co.planPasses R budget).1.lookup e.id = some pass) ∧
    (∀ n m v, (∃ pass < (co.planPasses R budget).2,
        cell (co.accumulate (co.planPasses R budget).1 pass) (n, m) = some v) ↔
      total (contributions co.rows n m) = some v) ∧
    (∀ n, (∃ pass < (co.planPasses R budget).2, n ∈ co.accumulate (co.planPasses R budget).1 pass) ↔
      ∃ m, (total (contributions co.rows n m)).isSome) ∧
    (∀ pass < (co.planPasses R budget).2,
      budget < ((targets co (co.planPasses R budget).1 pass).map (loadOf co.rows)).sum →
      ∃ n, (targets co (co.planPasses R budget).1 pass).filter (fun n => loadOf co.rows n ≠ 0) =
        [n]) := by
  refine ⟨fun row hr e he => ?_, fun n m v => ?_, fun n => ?_,
    fun pass _ h => pass_fits hrows pass h⟩
  · have hme := mem_objects.mpr ⟨row, hr, List.mem_map_of_mem he⟩
    obtain ⟨pass, hlt, hp⟩ := exists_pass_of_mem R budget hrows hme
    refine ⟨pass, ⟨hlt, hp⟩, fun pass' h => ?_⟩
    exact Option.some.inj (h.2.symm.trans hp)
  · simp only [cell_accumulate hrows]
    constructor
    · rintro ⟨pass, -, h⟩
      split_ifs at h
      exact h
    · intro h
      have hne := isSome_total.mp (Option.isSome_of_eq_some h)
      obtain ⟨pass, hlt, hp⟩ := exists_pass_of_mem R budget hrows (mem_objects_of_contributions hne)
      exact ⟨pass, hlt, by rw [hp, Option.getD_some, if_pos rfl, h]⟩
  · simp only [mem_accumulate_iff hrows, isSome_total]
    constructor
    · rintro ⟨pass, -, -, h⟩
      exact h
    · rintro ⟨m, hm⟩
      obtain ⟨pass, hlt, hp⟩ := exists_pass_of_mem R budget hrows (mem_objects_of_contributions hm)
      exact ⟨pass, hlt, by rw [hp, Option.getD_some], m, hm⟩

end Matrix

/-- Two subjects that share two objects. -/
def shelves : Cooccurrence ℚ := ⟨[[⟨1, 2⟩, ⟨2, 5⟩, ⟨3, 1⟩], [⟨1, 1⟩, ⟨2, 4⟩]], ∅, ∅, ∅⟩

theorem passes_partition_shelves : ∃ pass < (shelves.planPasses rationals 3).2,
      cell (shelves.accumulate (shelves.planPasses rationals 3).1 pass) (1, 2) = some 9 :=
  ((passes_partition rationals shelves 3 (by decide)).2.1 1 2 9).mpr (by decide +kernel)

end Codohue.Compute
