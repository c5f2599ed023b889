import Mathlib.Data.List.AList

/-!
Tables with a primary key, over Mathlib's association lists: an update of every row at
once, and the rows a condition selects.
-/

namespace Codohue

abbrev Table (K V : Type*) := AList (fun _ : K => V)

namespace Table

variable {K V : Type*}

/-- `UPDATE t SET v = f v`. -/
def mapRows (f : V → V) (t : Table K V) : Table K V where
  entries := t.entries.map fun e => ⟨e.1, f e.2⟩
  nodupKeys := List.NodupKeys.map₂ (fun _ => f) t.entries t.nodupKeys

/-- The rows that meet `p`. -/
def select (p : V → Bool) (t : Table K V) : List (K × V) :=
  (t.entries.filter fun e => p e.2).map fun e => (e.1, e.2)

/-- The rows under the keys that meet `p`. -/
def restrict (p : K → Bool) (t : Table K V) : Table K V where
  entries := t.entries.filter fun e => p e.1
  nodupKeys := t.nodupKeys.sublist List.filter_sublist

/-- `UPDATE t SET v = f v WHERE p`. -/
def updateWhere (p : K → V → Bool) (f : V → V) (t : Table K V) : Table K V where
  entries := t.entries.map fun e => ⟨e.1, if p e.1 e.2 then f e.2 else e.2⟩
  nodupKeys := List.NodupKeys.map₂ (fun k v => if p k v then f v else v) t.entries t.nodupKeys

/-- `DELETE FROM t WHERE p`. -/
def deleteWhere (p : K → V → Bool) (t : Table K V) : Table K V where
  entries := t.entries.filter fun e => !p e.1 e.2
  nodupKeys := t.nodupKeys.sublist List.filter_sublist

/-- `SELECT … FROM t WHERE p`, with the keys. -/
def selectWhere (p : K → V → Bool) (t : Table K V) : List (K × V) :=
  (t.entries.filter fun e => p e.1 e.2).map fun e => (e.1, e.2)

variable [DecidableEq K]

variable {t : Table K V} {k : K} {v : V} {l : List (K × V)}

@[simp] lemma lookup_mapRows (f : V → V) (t : Table K V) (k : K) :
    (mapRows f t).lookup k = (t.lookup k).map f :=
  List.dlookup_map₂ (γ := fun _ => V) (δ := fun _ => V) (f := fun _ => f) k

lemma lookup_insert_eq (t : Table K V) (k k' : K) (v : V) :
    (t.insert k v).lookup k' = if k' = k then some v else t.lookup k' := by
  split_ifs with h
  · subst h
    exact AList.lookup_insert t
  · exact AList.lookup_insert_ne h

lemma eq_or_of_lookup_insert (h : (t.insert k v).lookup j = some u) :
    (j = k ∧ u = v) ∨ t.lookup j = some u := by
  rw [lookup_insert_eq] at h
  split_ifs at h with hjk
  · exact .inl ⟨hjk, (Option.some.inj h).symm⟩
  · exact .inr h

lemma lookup_of_erase (h : (t.erase k).lookup j = some v) : t.lookup j = some v := by
  by_cases hjk : j = k
  · rw [hjk, AList.lookup_erase] at h
    cases h
  · rwa [AList.lookup_erase_ne hjk] at h

@[simp] lemma lookup_updateWhere (p : K → V → Bool) (f : V → V) (t : Table K V) (k : K) :
    (updateWhere p f t).lookup k = (t.lookup k).map fun v => if p k v then f v else v :=
  List.dlookup_map₂ (γ := fun _ => V) (δ := fun _ => V) (f := fun k v => if p k v then f v else v) k

lemma lookup_eq_some_iff : t.lookup k = some v ↔ (⟨k, v⟩ : Sigma fun _ => V) ∈ t.entries :=
  AList.mem_lookup_iff

lemma lookup_deleteWhere_eq_some :
    (deleteWhere p t).lookup k = some v ↔ t.lookup k = some v ∧ p k v = false := by
  rw [lookup_eq_some_iff, lookup_eq_some_iff]
  simp [deleteWhere]

lemma mem_selectWhere : (k, v) ∈ selectWhere p t ↔ t.lookup k = some v ∧ p k v = true := by
  rw [lookup_eq_some_iff]
  simp only [selectWhere, List.mem_map, List.mem_filter, Prod.mk.injEq]
  constructor
  · rintro ⟨e, ⟨he, hp⟩, rfl, rfl⟩
    exact ⟨he, hp⟩
  · rintro ⟨he, hp⟩
    exact ⟨⟨k, v⟩, ⟨he, hp⟩, rfl, rfl⟩

omit [DecidableEq K] in
lemma nodup_selectWhere (p : K → V → Bool) (t : Table K V) :
    ((selectWhere p t).map Prod.fst).Nodup := by
  have hk : (t.entries.map Sigma.fst).Nodup := t.nodupKeys
  rw [selectWhere, List.map_map]
  exact hk.sublist (List.filter_sublist.map Sigma.fst)

lemma lookup_restrict (p : K → Bool) (t : Table K V) (k : K) :
    (restrict p t).lookup k = if p k then t.lookup k else none := by
  refine Option.ext fun v => ?_
  by_cases hp : p k
  · rw [if_pos hp, lookup_eq_some_iff, lookup_eq_some_iff, restrict, List.mem_filter]
    exact and_iff_left hp
  · simp [lookup_eq_some_iff, restrict, hp]

lemma lookup_foldl_insert_of_notMem
    (hk : k ∉ l.map Prod.fst) :
    (l.foldl (fun t e => t.insert e.1 e.2) t).lookup k = t.lookup k := by
  induction l generalizing t with
  | nil => rfl
  | cons e l ih =>
    rw [List.map_cons, List.mem_cons, not_or] at hk
    rw [List.foldl_cons, ih hk.2, lookup_insert_eq, if_neg hk.1]

/-- What was inserted does not depend on what was there before. -/
lemma lookup_foldl_insert_of_mem {t' : Table K V}
    (hk : k ∈ l.map Prod.fst) : (l.foldl (fun t e => t.insert e.1 e.2) t).lookup k =
      (l.foldl (fun t e => t.insert e.1 e.2) t').lookup k := by
  induction l generalizing t t' with
  | nil => cases hk
  | cons e l ih =>
    rw [List.foldl_cons, List.foldl_cons]
    by_cases hm : k ∈ l.map Prod.fst
    · exact ih hm
    · obtain rfl : k = e.1 := (List.mem_cons.mp hk).resolve_right hm
      rw [lookup_foldl_insert_of_notMem hm, lookup_foldl_insert_of_notMem hm,
        AList.lookup_insert, AList.lookup_insert]

lemma lookup_foldl_insert_filter (p : K → Bool) :
    ((l.filter fun e => p e.1).foldl (fun t e => t.insert e.1 e.2) t).lookup k =
      if p k then (l.foldl (fun t e => t.insert e.1 e.2) t).lookup k else t.lookup k := by
  induction l generalizing t with
  | nil => exact (ite_self _).symm
  | cons e l ih =>
    cases he : p e.1 with
    | true =>
      rw [List.filter_cons_of_pos (by exact he), List.foldl_cons, ih, List.foldl_cons,
        lookup_insert_eq]
      by_cases hk : k = e.1 <;> simp [hk, he]
    | false =>
      rw [List.filter_cons_of_neg (by simp [he]), ih, List.foldl_cons]
      by_cases hk : k = e.1
      · simp [hk, he]
      · by_cases hm : k ∈ l.map Prod.fst
        · rw [lookup_foldl_insert_of_mem hm]
        · rw [lookup_foldl_insert_of_notMem hm, lookup_foldl_insert_of_notMem hm,
            lookup_insert_eq, if_neg hk]

lemma mem_or_of_lookup_foldl_insert
    (h : (l.foldl (fun t e => t.insert e.1 e.2) t).lookup k = some v) :
    (k, v) ∈ l ∨ t.lookup k = some v := by
  induction l generalizing t with
  | nil => exact .inr h
  | cons e l ih =>
    rcases ih h with hm | hl
    · exact .inl (List.mem_cons_of_mem _ hm)
    · rw [lookup_insert_eq] at hl
      split_ifs at hl with hk
      · cases hl
        exact .inl (hk ▸ List.mem_cons_self)
      · exact .inr hl

end Table

end Codohue
