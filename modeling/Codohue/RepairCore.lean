import Codohue.RepairGate

/-!
What an apply does to the two stores, as a function.

The core of a world is what the repair is about: the mappings and the points, without the notes
on runs and items. An item that gets through acts on the core as a function, and so does a
recompute that gets through, so an apply that gets through is their composition.
-/

namespace Codohue.Repair

open Script Prog

variable {V : Type}

@[ext]
structure Core (V : Type) where
  mapping : Identity → Option ℤ
  point : String × ℤ → Option (Point V)

def World.core (w : World V) : Core V := ⟨w.mappings.get, fun key => w.points.lookup key⟩

namespace Core

/-- The points at the old ids go to the target, the last one of each collection staying, and the
mapping follows. -/
def moveItem (k : Core V) (item : Item) : Core V where
  mapping := Function.update k.mapping item.identity (some item.goal)
  point key :=
    if key ∈ moves item item.goal then none
    else if key.1 ∈ copyableCollections item ∧ key.2 = item.goal then
      (item.stale item.goal).getLast?.elim (k.point key) fun old => k.point (key.1, old)
    else k.point key

def applyItem (k : Core V) (item : Item) : Core V :=
  if item.needsCopy then k.moveItem item else k

def applyItems (k : Core V) (items : List Item) : Core V := items.foldl applyItem k

/-- The sparse collections hold what the recompute writes, and nothing else. -/
def rebuildSparse (env : Env V) (k : Core V) (ns : String) : Core V where
  mapping := k.mapping
  point key :=
    if sparseCollection env ns key.1 then
      ((recomputedPoints env ns k.mapping).foldl (fun t e => t.insert e.1 e.2)
        (∅ : Table (String × ℤ) (Point V))).lookup key
    else k.point key

def rebuildNamespaces (env : Env V) (k : Core V) (namespaces : List String) : Core V :=
  namespaces.foldl (rebuildSparse env) k

/-- With healthy stores, the item can be moved. -/
structure CanMove (k : Core V) (item : Item) : Prop where
  positive : ∀ m ∈ moves item item.goal, 1 ≤ m.2 ∧ 1 ≤ item.goal
  present : ∀ m ∈ moves item item.goal, (k.point m).isSome
  mapped : (k.mapping item.identity).isSome
  free : ∀ y, y ≠ item.identity → y.ns = item.identity.ns →
    y.entityType = item.identity.entityType → k.mapping y ≠ some item.goal

/-- Each item can be moved when its turn comes. -/
def Movable : Core V → List Item → Prop
  | _, [] => True
  | k, item :: items => (item.needsCopy → k.CanMove item) ∧ (k.applyItem item).Movable items

lemma movable_append {k : Core V} :
    k.Movable (done ++ todo) ↔ k.Movable done ∧ (k.applyItems done).Movable todo := by
  induction done generalizing k with
  | nil => simp [Movable, applyItems]
  | cons item done ih => simp [Movable, applyItems, ih, and_assoc]

/-- The cores agree on all that a recompute of the namespaces leaves alone. -/
structure Agree (env : Env V) (namespaces : List String) (k k' : Core V) : Prop where
  mapping : k.mapping = k'.mapping
  point : ∀ key, (∀ ns ∈ namespaces, sparseCollection env ns key.1 = false) →
    k.point key = k'.point key

lemma Agree.rebuildNamespaces (h : Agree env namespaces k k') :
    k.rebuildNamespaces env namespaces = k'.rebuildNamespaces env namespaces := by
  induction namespaces generalizing k k' with
  | nil => exact Core.ext h.mapping (funext fun key => h.point key (by simp))
  | cons ns namespaces ih =>
    refine ih ⟨h.mapping, fun key hk => ?_⟩
    by_cases hns : sparseCollection env ns key.1
    · simp only [rebuildSparse, hns, if_true, h.mapping]
    · simp only [rebuildSparse, hns, if_false, Bool.false_eq_true]
      refine h.point key fun ns' hns' => ?_
      rcases List.mem_cons.mp hns' with rfl | hns'
      · simpa using hns
      · exact hk ns' hns'

end Core

/-! ### The stores refine the core -/

variable {w w' : World V} {run : ℕ} {item : Item}

lemma Mappings.taken_iff {m : Mappings} :
    m.Taken x n ↔ ∃ y, y ≠ x ∧ y.ns = x.ns ∧ y.entityType = x.entityType ∧ m.get y = some n := by
  constructor
  · rintro ⟨⟨y, n'⟩, hm, hne, hns, ht, rfl⟩
    exact ⟨y, hne, hns, ht, AList.mem_lookup_iff.mpr hm⟩
  · rintro ⟨y, hne, hns, ht, hg⟩
    exact ⟨⟨y, n⟩, AList.mem_lookup_iff.mp hg, hne, hns, ht, rfl⟩

lemma canMove_core : CanMove item item.goal w ↔ w.core.CanMove item := by
  have hf : ¬ w.mappings.Taken item.identity item.goal ↔ ∀ y, y ≠ item.identity →
      y.ns = item.identity.ns → y.entityType = item.identity.entityType →
      w.mappings.get y ≠ some item.goal := by
    rw [Mappings.taken_iff]
    push Not
    rfl
  constructor
  · exact fun h => ⟨h.positive, h.present, h.mapped, hf.mp h.free⟩
  · exact fun h => ⟨h.positive, h.present, h.mapped, hf.mpr h.free⟩

lemma exists_stale_of_needsCopy (h : item.needsCopy) :
    ∃ old, (item.stale item.goal).getLast? = some old := by
  have hs : ∃ n, n ∈ item.stale item.goal := by
    cases ht : item.targetNumericID with
    | none => simp [Item.needsCopy, ht] at h
    | some target =>
      simp only [Item.needsCopy, ht, Option.any_some, Bool.and_eq_true, List.any_eq_true,
        decide_eq_true_eq] at h
      obtain ⟨-, n, hn, hne⟩ := h
      refine ⟨n, Item.mem_stale.mpr ⟨hn, ?_⟩⟩
      rwa [Item.goal, ht]
  obtain ⟨n, hn⟩ := hs
  exact ⟨_, List.getLast?_eq_some_getLast (List.ne_nil_of_mem hn)⟩

/-- **An item that got through acted on the core as a function.** -/
theorem Finished.core (h : Finished run item w w') : w'.core = w.core.applyItem item := by
  unfold Core.applyItem
  by_cases hm : item.needsCopy
  · have ha := h.moved hm
    rw [if_pos hm]
    obtain ⟨old, ho⟩ := exists_stale_of_needsCopy hm
    refine Core.ext ha.mapping (funext fun key => ?_)
    simp only [Core.moveItem, ho, Option.elim]
    by_cases hk : key ∈ moves item item.goal
    · rw [if_pos hk]
      exact ha.gone key hk
    · rw [if_neg hk]
      by_cases ht : key.1 ∈ copyableCollections item ∧ key.2 = item.goal
      · rw [if_pos ht]
        obtain ⟨c, n⟩ := key
        obtain ⟨hc, rfl : n = item.goal⟩ := ht
        exact ha.landed c hc old ho
      · rw [if_neg ht]
        exact h.progress.frame key ht hk
  · have ha := h.halted.still hm
    rw [if_neg hm, World.core, World.core, ha.mappings, ha.points]

/-- The same for a recompute. -/
theorem core_recomputed (env : Env V) (ns : String) (w : World V) :
    (recomputed env ns (fun _ => true) (fun _ => true) w).core = w.core.rebuildSparse env ns := by
  refine Core.ext rfl (funext fun key => ?_)
  by_cases hk : sparseCollection env ns key.1
  · simp only [World.core, Core.rebuildSparse, hk, if_true]
    rw [recomputed, Table.lookup_restrict]
    simp only [List.filter_true, hk, Bool.true_and, Bool.and_true, Bool.not_not,
      List.contains_iff_mem]
    by_cases hm : key ∈ (recomputedPoints env ns w.mappings.get).map Prod.fst
    · rw [if_pos hm]
      exact Table.lookup_foldl_insert_of_mem hm
    · rw [if_neg hm]
      exact ((Table.lookup_foldl_insert_of_notMem hm).trans (AList.lookup_empty key)).symm
  · have hf : sparseCollection env ns key.1 = false := by simpa using hk
    simp only [World.core, Core.rebuildSparse, hf, Bool.false_eq_true, if_false]
    exact lookup_recomputed_of_ne hf

lemma agree_recomputed (hns : ns ∈ nss) (ups swept : String × ℤ → Bool) :
    Core.Agree env nss (recomputed env ns ups swept w).core w.core where
  mapping := rfl
  point _ hk := lookup_recomputed_of_ne (hk ns hns)

end Codohue.Repair
