import Codohue.RepairCore
import Codohue.RepairHistory

/-!
Whether a complete run is repaired.

Verify looks at the collections in which an item moved. What it does not look at has to be right
for another reason: the mapping of an item that did not move, because the audit found it at its
target, and the sparse points of an identity with a dense point, because the recompute removed
them. Neither reason is checked. A fresh id that is in use already gives an item a target at which
its points are while its mapping is elsewhere, and a recompute that reports success may not have
removed anything.
-/

namespace Codohue.Repair

open Script Prog Transition

variable {V : Type} {env : Env V} {run : ℕ} {w w' w₀ : World V} {items : List Item} {row : Row}

/-! ### What a repaired item is -/

structure Repaired (env : Env V) (w : World V) (item : Item) : Prop where
  target : item.targetNumericID = some item.goal
  mapping : w.mappings.get item.identity = some item.goal
  moved : item.needsCopy → ∀ c ∈ copyableCollections item, ∃ p,
    w.points.lookup (c, item.goal) = some p ∧ Carries item.identity p ∧
      env.hashPayload p.payload = item.payloadHash ∧
      (item.vectorHash ≠ "" → env.hashVectors p.vector = item.vectorHash)
  olds : ∀ kind, ∀ n ∈ item.oldNumericIDs, n ≠ item.goal → ¬ At env w item.identity kind n

/-- A recompute that reports success has written all its points and removed all stale ones. -/
def Thorough : Reply Error Torn → Prop
  | .torn t => t.answer = .ok () → (∀ key, t.upserted key) ∧ ∀ key, t.swept key
  | _ => True

/-- The hash of a payload is never empty and tells its fields. -/
structure CollisionFree (env : Env V) : Prop where
  nonempty : ∀ payload, env.hashPayload payload ≠ ""
  fields : ∀ p q, env.hashPayload p = env.hashPayload q → ∀ key, p.lookup key = q.lookup key

/-! ### What a recompute leaves -/

variable {p : Point V} {ns : String} {key : String × ℤ}

lemma mem_recomputedPoints : (key, p) ∈ recomputedPoints env ns m ↔ ∃ r ∈ env.recompute ns m, ∃ id,
      m ⟨ns, r.entityType, r.stringID⟩ = some id ∧
      key = (env.collection ns r.entityType.sparseKind, id) ∧
      p = ⟨(r.entityType.idField, r.stringID) :: r.payload, r.vector⟩ := by
  simp only [recomputedPoints, List.mem_filterMap, Option.map_eq_some_iff, Prod.mk.injEq]
  constructor
  · rintro ⟨r, hr, id, hid, rfl, rfl⟩
    exact ⟨r, hr, id, hid, rfl, rfl⟩
  · rintro ⟨r, hr, id, hid, rfl, rfl⟩
    exact ⟨r, hr, id, hid, rfl, rfl⟩

lemma lookup_recomputed (h : (recomputed env ns ups swept w).points.lookup key = some p) :
    w.points.lookup key = some p ∨ (key, p) ∈ recomputedPoints env ns w.mappings.get := by
  rw [recomputed, Table.lookup_restrict] at h
  split_ifs at h
  rcases Table.mem_or_of_lookup_foldl_insert h with hm | hl
  · exact .inr (List.mem_filter.mp hm).1
  · exact .inl hl

lemma sparseKind_injective : Function.Injective EntityType.sparseKind := by
  intro a b h
  cases a <;> cases b <;> first | rfl | cases h

variable {x : Identity} {n : ℤ}

lemma mapping_of_carries
    (h : ((env.collection x.ns x.entityType.sparseKind, n), p) ∈ recomputedPoints env x.ns m)
    (hp : Carries x p) : m x = some n := by
  obtain ⟨r, -, id, hid, hk, rfl⟩ := mem_recomputedPoints.mp h
  obtain ⟨hc, rfl⟩ := Prod.mk.inj hk
  have ht : x.entityType = r.entityType :=
    sparseKind_injective (collectionName_injective _ _ hc)
  have hl : r.stringID = x.stringID := by
    rw [Carries, Point.field, ht, List.lookup_cons_self] at hp
    exact hp
  rw [← ht, hl] at hid
  exact hid

/-- Every sparse point of the namespace is at the mapped id of the identity it carries. -/
def Swept (env : Env V) (ns : String) (w : World V) : Prop :=
  ∀ x n, x.ns = ns → At env w x x.entityType.sparseKind n → w.mappings.get x = some n

lemma swept_recomputed (ns : String) (w : World V) :
    Swept env ns (recomputed env ns (fun _ => true) (fun _ => true) w) := by
  rintro x n rfl ⟨-, p, hl, hp⟩
  have hs : sparseCollection env x.ns (env.collection x.ns x.entityType.sparseKind) := by
    cases x.entityType <;> simp [sparseCollection, EntityType.sparseKind]
  have hpo := congrArg (fun k : Core V => k.point (env.collection x.ns x.entityType.sparseKind, n))
    (core_recomputed env x.ns w)
  simp only [Core.rebuildSparse, hs, if_true] at hpo
  have hf := hpo.symm.trans hl
  rcases Table.mem_or_of_lookup_foldl_insert hf with hm | hn
  · exact mapping_of_carries hm hp
  · cases hn

section Recompute

variable (hapart : Apart env) {ns ns' : String} (hns : ns ∈ env.namespaces)
  (hns' : ns' ∈ env.namespaces)

include hapart hns hns'

lemma Swept.recomputed (h : Swept env ns w) : Swept env ns (recomputed env ns' ups swept w) := by
  rintro x n rfl ⟨ht, p, hl, hp⟩
  rcases lookup_recomputed hl with hl | hm
  · exact h x n rfl ⟨ht, p, hl, hp⟩
  · obtain ⟨r, -, id, -, hk, -⟩ := mem_recomputedPoints.mp hm
    obtain rfl := hapart _ hns _ hns' _ _ (Prod.mk.inj hk).1
    exact mapping_of_carries hm hp

lemma lookup_recomputed_dense (hk : kind.dense)
    (h : (Repair.recomputed env ns' ups swept w).points.lookup (env.collection ns kind, n) =
      some p) : w.points.lookup (env.collection ns kind, n) = some p := by
  refine (lookup_recomputed h).resolve_right fun hm => ?_
  obtain ⟨r, -, id, -, hke, -⟩ := mem_recomputedPoints.mp hm
  have hc := (Prod.mk.inj hke).1
  obtain rfl := hapart _ hns _ hns' _ _ hc
  obtain rfl := collectionName_injective _ _ hc
  cases hr : r.entityType <;> rw [hr] at hk <;> cases hk

end Recompute

/-! ### The items of a run in progress -/

/-- An item of the manifest, in whatever state apply or verify left it. -/
def Version (items : List Item) (i : Item) : Prop :=
  ∃ item ∈ items, ∃ state error, state ≠ .quarantined ∧ i = item.withState state error

variable {i : Item}

lemma Version.withState (h : Version items i) (error : String) (hs : state ≠ .quarantined) :
    Version items (i.withState state error) := by
  obtain ⟨item, hi, _, _, -, rfl⟩ := h
  exact ⟨item, hi, state, error, hs, rfl⟩

lemma finished_withState :
    (i.withState state error).finished ↔ state = .cleaned ∨ state = .verified :=
  decide_eq_true_iff

variable {item : Item}

section Versions

variable (hman : Manifest env w₀ items)

include hman

lemma Version.eq_of_identity (hi : Version items i) (hj : Version items j)
    (heq : i.identity = j.identity) : i.goal = j.goal ∧ i.needsCopy = j.needsCopy := by
  obtain ⟨a, ha, s, e, hs, rfl⟩ := hi
  obtain ⟨b, hb, s', e', hs', rfl⟩ := hj
  obtain rfl := hman.distinct ha hb heq
  exact ⟨rfl, by simp [Item.needsCopy, Item.resolved, Item.withState, hs, hs']⟩

lemma Manifest.mapping_of_stays (hi : ∀ key pt, w₀.points.lookup key = some pt →
      key.2 < w₀.nextID) (hite : item ∈ items) (hs : ¬ item.needsCopy) :
    w₀.mappings.get item.identity = some item.goal := by
  have hd := hman.decided item hite
  obtain ⟨n, hma, ⟨-, ht⟩ | ⟨hc, -, n', hn', ht⟩⟩ := hd.target
  · rw [hma, ← ht]
    exact hd.goal_eq
  · -- a contested item has points, and they are not at the fresh id
    exfalso
    unfold Free at hc
    push Not at hc
    obtain ⟨kind, m, hat, -⟩ := hc
    obtain ⟨-, pt, hl, -⟩ := id hat
    have hm : m < w₀.nextID := hi _ pt hl
    rw [hd.goal_eq, Option.some.injEq] at ht
    exact hs (hd.needsCopy_iff.mpr ⟨m, (hd.olds m).mpr ⟨kind, hat⟩, by omega⟩)

end Versions

/-! ### The invariant of a run -/

/-- What holds of a run from the audit on, whatever the stores do. -/
structure Repairing (env : Env V) (w₀ : World V) (items : List Item) (row : Row) (w : World V) :
    Prop where
  versions : ∀ i ∈ row.items, Version items i
  covers : ∀ item ∈ items, ∃ i ∈ row.items, i.identity = item.identity
  mapping : ∀ i ∈ row.items, i.finished ∨ ¬ i.needsCopy → w.mappings.get i.identity = some i.goal
  dense : ∀ ns ∈ env.namespaces, ∀ kind : CollectionKind, kind.dense → ∀ n p,
    w.points.lookup (env.collection ns kind, n) = some p →
      ∃ n', w₀.points.lookup (env.collection ns kind, n') = some p
  rebuilt : ∀ ns ∈ row.run.rebuiltNamespaces, ns ∈ env.namespaces ∧
    (∀ i ∈ row.items, i.finished) ∧ Swept env ns w

lemma Progress.lookup (h : Progress run item target w w') (hp : w'.points.lookup (c, n) = some p) :
    ∃ n', w.points.lookup (c, n') = some p := by
  by_cases ht : IsTarget item target (c, n)
  · obtain rfl : n = target := ht.2
    rcases h.targets c with hs | ⟨old, -, ho⟩
    · exact ⟨n, hs ▸ hp⟩
    · exact ⟨old, ho ▸ hp⟩
  by_cases hm : (c, n) ∈ moves item target
  · rcases h.sources _ hm with hs | hn
    · exact ⟨n, hs ▸ hp⟩
    · rw [hn] at hp
      cases hp
  · exact ⟨n, h.frame _ ht hm ▸ hp⟩

namespace Repairing

variable (h : Repairing env w₀ items row w)

include h

lemma note (hi : row'.items = row.items)
    (hr : row'.run.rebuiltNamespaces = row.run.rebuiltNamespaces) (hm : w'.mappings = w.mappings)
    (hp : w'.points = w.points) :
    Repairing env w₀ items row' w' where
  versions := by
    rw [hi]
    exact h.versions
  covers := by
    rw [hi]
    exact h.covers
  mapping := by
    rw [hi, hm]
    exact h.mapping
  dense := by
    rw [hp]
    exact h.dense
  rebuilt ns hns := by
    rw [hr] at hns
    obtain ⟨hme, hf, hs⟩ := h.rebuilt ns hns
    rw [hi]
    refine ⟨hme, hf, ?_⟩
    unfold Swept At at hs ⊢
    rw [hm, hp]
    exact hs

/-- A note on an item. A state that says the item is done needs the mapping to be right, and one
that does not is given before anything is recomputed. -/
lemma setItem (hs : state ≠ .quarantined)
    (hd : state = .cleaned ∨ state = .verified → ∀ i ∈ row.items, i.identity = x →
      w.mappings.get x = some i.goal)
    (ho : row.run.rebuiltNamespaces = [] ∨ state = .cleaned ∨ state = .verified) :
    Repairing env w₀ items (row.setItem x state error) w where
  versions i hi := by
    obtain ⟨j, hj, rfl⟩ := List.mem_map.mp hi
    split_ifs
    · exact (h.versions j hj).withState error hs
    · exact h.versions j hj
  covers item hite := by
    obtain ⟨i, hi, hx⟩ := h.covers item hite
    refine ⟨_, List.mem_map.mpr ⟨i, hi, rfl⟩, ?_⟩
    split_ifs <;> exact hx
  mapping i hi hc := by
    obtain ⟨j, hj, rfl⟩ := List.mem_map.mp hi
    by_cases hx : j.identity = x
    · rw [if_pos hx] at hc ⊢
      rcases hc with hf | hst
      · subst hx
        exact hd (finished_withState.mp hf) j hj rfl
      · obtain ⟨item, -, state', error', hs', rfl⟩ := h.versions j hj
        refine h.mapping (item.withState state' error') hj (.inr ?_)
        simpa [Item.needsCopy, Item.resolved, Item.withState, hs, hs'] using hst
    · rw [if_neg hx] at hc ⊢
      exact h.mapping j hj hc
  dense := h.dense
  rebuilt ns hns := by
    rcases ho with hn | hf
    · change ns ∈ row.run.rebuiltNamespaces at hns
      rw [hn] at hns
      cases hns
    · obtain ⟨hm, ha, hsw⟩ := h.rebuilt ns hns
      refine ⟨hm, fun i hi => ?_, hsw⟩
      obtain ⟨j, hj, rfl⟩ := List.mem_map.mp hi
      split_ifs
      · exact finished_withState.mpr hf
      · exact ha j hj

lemma moved (hman : Manifest env w₀ items) (hite : Version items item)
    (hn : row.run.rebuiltNamespaces = []) (hpr : Progress run item item.goal w w') :
    Repairing env w₀ items row w' where
  versions := h.versions
  covers := h.covers
  mapping i hi hc := by
    have hi' := h.mapping i hi hc
    rcases hpr.mapping with hm | hm <;> rw [hm]
    · exact hi'
    · by_cases hx : i.identity = item.identity
      · rw [hx, Function.update_self, (Version.eq_of_identity hman (h.versions i hi) hite hx).1]
      · rw [Function.update_of_ne hx]
        exact hi'
  dense ns hns kind hk n p hp := by
    obtain ⟨n', hp'⟩ := hpr.lookup hp
    exact h.dense ns hns kind hk n' p hp'
  rebuilt ns hns := by
    rw [hn] at hns
    cases hns

lemma recomputed (hapart : Apart env) (hns : ns ∈ env.namespaces)
    (ups swept : String × ℤ → Bool) :
    Repairing env w₀ items row (recomputed env ns ups swept w) where
  versions := h.versions
  covers := h.covers
  mapping := h.mapping
  dense ns' hns' kind hk n p hp :=
    h.dense ns' hns' kind hk n p (lookup_recomputed_dense hapart hns' hns hk hp)
  rebuilt ns' hns' := by
    obtain ⟨hm, hf, hs⟩ := h.rebuilt ns' hns'
    exact ⟨hm, hf, hs.recomputed hapart hm hns⟩

lemma addRebuilt (hns : ns ∈ env.namespaces) (hf : ∀ i ∈ row.items, i.finished)
    (hs : Swept env ns w) : Repairing env w₀ items (row.addRebuilt ns) w where
  versions := h.versions
  covers := h.covers
  mapping := h.mapping
  dense := h.dense
  rebuilt ns' hns' := by
    rcases List.mem_append.mp (List.mem_dedup.mp hns') with ho | hn
    · exact h.rebuilt ns' ho
    · rw [List.mem_singleton.mp hn]
      exact ⟨hns, hf, hs⟩

lemma rebuilt_eq_nil (hi : i ∈ row.items) (ho : ¬ i.finished) : row.run.rebuiltNamespaces = [] := by
  rw [List.eq_nil_iff_forall_not_mem]
  exact fun ns hns => ho ((h.rebuilt ns hns).2.1 i hi)

end Repairing

/-! ### Runs keep the invariant -/

/-- The invariant, of the row that the run has in this world. -/
def InRepair (env : Env V) (w₀ : World V) (items : List Item) (run : ℕ) (w : World V) : Prop :=
  ∃ row, w.runs.get run = some row ∧ Repairing env w₀ items row w

lemma InRepair.note (h : InRepair env w₀ items run w) (hu : w.runs.Updated run f runs)
    (hi : ∀ row, (f row).items = row.items)
    (hr : ∀ row, (f row).run.rebuiltNamespaces = row.run.rebuiltNamespaces) :
    InRepair env w₀ items run { w with runs := runs, log := log } := by
  obtain ⟨row, hro, hre⟩ := h
  exact ⟨f row, hu.get hro, hre.note (hi row) (hr row) rfl rfl⟩

section Apply

variable (hman : Manifest env w₀ items)

include hman

lemma Repairing.applied (h : Repairing env w₀ items row w) (hite : Version items item)
    (hn : row.run.rebuiltNamespaces = []) (hp : Progress run item item.goal w w')
    (ha : Applied run item w w') :
    Repairing env w₀ items (row.setItem item.identity .cleaned "") w' := by
  have hm := h.moved hman hite hn hp
  refine hm.setItem nofun (fun _ i hi hx => ?_) (.inl hn)
  obtain ⟨hg, hne⟩ := Version.eq_of_identity hman (h.versions i hi) hite hx
  by_cases hmo : item.needsCopy
  · rw [Applied, if_pos hmo] at ha
    rw [ha.mapping, Function.update_self, hg]
  · rw [← hx]
    exact hm.mapping i hi (.inr (hne ▸ hmo))

lemma InRepair.stopsIn (hr : w.runs.get run = some row) (h : Repairing env w₀ items row w)
    (hi : Version items item) (hn : row.run.rebuiltNamespaces = []) :
    StopsIn run item w (InRepair env w₀ items run) := by
  refine ⟨fun w' => ∃ row', w'.runs.get run = some row' ∧ Repairing env w₀ items row' w' ∧
    row'.run.rebuiltNamespaces = [], ⟨?_, ?_⟩, ?_, ?_⟩
  · rintro x - w' runs text ⟨row', hr', h', hn'⟩ hu
    have hs : Repairing env w₀ items (row'.setItem x .failed text) w' :=
      h'.setItem nofun (by simp) (.inl hn')
    exact ⟨_, hu.get hr', hs.note rfl rfl rfl rfl, hn'⟩
  · rintro w' runs text ⟨row', hr', h', hn'⟩ hu
    exact ⟨_, hu.get hr', h'.note rfl rfl rfl rfl, hn'⟩
  · intro w' hh
    cases hh.left with
    | kept hp hru => exact ⟨row, hru ▸ hr, h.moved hman hi hn hp, hn⟩
    | copied hp hru =>
      exact ⟨_, hru.get hr, (h.moved hman hi hn hp).setItem nofun (by simp) (.inl hn), hn⟩
    | applied hp hru ha =>
      exact ⟨_, hru.get hr, h.applied hman hi hn hp ha, hn⟩
  · rintro w' ⟨row', hr', h', -⟩
    exact ⟨row', hr', h'⟩

/-- **Apply keeps the invariant**, and in the end every item and every namespace is done. -/
lemma wp_apply_inRepair (hapart : Apart env) (h : InRepair env w₀ items run w) :
    Wp Thorough (apply env run) (InRepair env w₀ items run)
      (fun _ w' => ∃ row, w'.runs.get run = some row ∧ Repairing env w₀ items row w' ∧
        (∀ i ∈ row.items, i.finished) ∧
        ∀ i ∈ row.items, i.identity.ns ∈ row.run.rebuiltNamespaces) w := by
  refine wp_apply trivial h (fun _ h => h.imp fun _ h => ⟨h.1, h.2.1⟩) fun row hr _ => ?_
  obtain ⟨row', hr', hre⟩ := id h
  obtain rfl : row = row' := Option.some.inj (hr.symm.trans hr')
  refine wp_bind (wp_setRunState trivial (by rintro ⟨⟩) h fun runs hu => ?_)
  have hst : Repairing env w₀ items (row.setState .applying "") { w with runs := runs } :=
    hre.note rfl rfl rfl rfl
  refine ⟨?_, _, hu.get hr, hst⟩
  -- the items that are not done are left as they were, and nothing is recomputed before them
  refine wp_bind (wp_mono (wp_applyItems (I := fun todo w' => ∃ row', w'.runs.get run = some row' ∧
    Repairing env w₀ items row' w' ∧ row'.run.rebuiltNamespaces = row.run.rebuiltNamespaces ∧
      ∀ i ∈ row'.items, i.finished ∨ i ∈ todo) trivial ?_ ?_ ?_
    ⟨_, hu.get hr, hst, rfl, fun i hi => .inr hi⟩) (fun _ => id) fun _ w₂ hw₂ => ?_)
  · rintro item - todo w' ⟨row', hr', h', hs, hl⟩ hf
    refine ⟨row', hr', h', hs, fun i hi => ?_⟩
    rcases hl i hi with hd | hm
    · exact .inl hd
    · rcases List.mem_cons.mp hm with rfl | hm
      · exact .inl hf
      · exact .inr hm
  · rintro item hite todo w' ⟨row', hr', h', hs, -⟩ ho
    have hn := hs.trans (hre.rebuilt_eq_nil hite ho)
    exact InRepair.stopsIn hman hr' h' (hre.versions item hite) hn
  · rintro item hite todo w' w'' ⟨row', hr', h', hs, hl⟩ ho hf
    have hn := hs.trans (hre.rebuilt_eq_nil hite ho)
    refine ⟨_, hf.runs.get hr', h'.applied hman (hre.versions item hite) hn hf.progress
      hf.applied, hs, fun i hi => ?_⟩
    obtain ⟨j, hj, rfl⟩ := List.mem_map.mp hi
    by_cases hx : j.identity = item.identity
    · rw [if_pos hx]
      exact .inl (finished_withState.mpr (.inl rfl))
    · rw [if_neg hx]
      refine (hl j hj).imp_right fun hm => ?_
      exact (List.mem_cons.mp hm).resolve_left fun heq => hx (heq ▸ rfl)
  obtain ⟨row₂, hr₂, hre₂, -, hd⟩ := hw₂
  have hf : ∀ i ∈ row₂.items, i.finished := fun i hi => by simpa using hd i hi
  have hns : ∀ ns ∈ sortedNamespaces row.items, ns ∈ env.namespaces := by
    intro ns hns
    obtain ⟨i, hi, rfl⟩ := mem_sortedNamespaces.mp hns
    obtain ⟨item, hite, _, _, -, rfl⟩ := hre.versions i hi
    exact (hman.decided item hite).ns
  refine wp_bind (wp_mono (wp_rebuildNamespaces (J := fun todo w' =>
    (∀ ns ∈ todo, ns ∈ env.namespaces) ∧ ∃ row', w'.runs.get run = some row' ∧
      Repairing env w₀ items row' w' ∧ (∀ i ∈ row'.items, i.finished) ∧
      ∀ ns ∈ sortedNamespaces row.items, ns ∈ row'.run.rebuiltNamespaces ∨ ns ∈ todo) trivial
    ?_ ?_ ?_ ?_ ⟨hns, row₂, hr₂, hre₂, hf, fun _ => .inr⟩) (fun _ => id) fun _ w₃ hw₃ => ?_)
  · exact ⟨by rintro _ ⟨⟩, fun w' runs text h' hu => h'.note hu (fun _ => rfl) fun _ => rfl⟩
  · rintro todo w' ⟨-, row', hr', h', -⟩
    exact ⟨row', hr', h'⟩
  · rintro ns todo w' ups swept ⟨hns', row', hr', h', -⟩
    exact ⟨row', hr', h'.recomputed hapart (hns' ns List.mem_cons_self) ups swept⟩
  · rintro ns todo w' ups swept runs' ⟨hns', row', hr', h', hf', hl⟩ ha hu'
    obtain ⟨rfl, rfl⟩ : ups = (fun _ => true) ∧ swept = fun _ => true := by
      rcases ha with hal | ⟨t, ht, hok, rfl, rfl⟩
      · exact hal
      · exact ⟨funext (ht hok).1, funext (ht hok).2⟩
    have hm := hns' ns List.mem_cons_self
    have hne := (h'.recomputed hapart hm _ _).addRebuilt hm hf' (swept_recomputed ns w')
    refine ⟨fun ns' hns'' => hns' ns' (List.mem_cons_of_mem _ hns''), _, hu'.get hr',
      hne.note rfl rfl rfl rfl, hf', fun ns' hm' => ?_⟩
    simpa [Row.addRebuilt, or_assoc] using hl ns' hm'
  · obtain ⟨-, row₃, hr₃, hre₃, hf₃, hl⟩ := hw₃
    refine wp_setRunState trivial (by rintro ⟨⟩) ⟨row₃, hr₃, hre₃⟩ fun runs' hu' => ?_
    have he : Repairing env w₀ items (row₃.setState .verifying "") { w₃ with runs := runs' } :=
      hre₃.note rfl rfl rfl rfl
    refine ⟨⟨_, hu'.get hr₃, he, hf₃, fun i hi => (hl _ ?_).resolve_right List.not_mem_nil⟩,
      _, hu'.get hr₃, he⟩
    -- the items are those that were there before
    obtain ⟨item, hite, _, _, -, rfl⟩ := hre₃.versions i hi
    obtain ⟨j, hj, hx⟩ := hre.covers item hite
    exact mem_sortedNamespaces.mpr ⟨j, hj, congrArg Identity.ns hx⟩

end Apply

/-! ### Verify -/

lemma Repaired.of_stores (h : Repaired env w item) (hm : w'.mappings = w.mappings)
    (hp : w'.points = w.points) : Repaired env w' item where
  target := h.target
  mapping := hm ▸ h.mapping
  moved := hp ▸ h.moved
  olds := by
    unfold At
    rw [hp]
    exact h.olds

lemma unrebuiltNamespaces_eq_nil : unrebuiltNamespaces items rebuilt = [] ↔
    ∀ item ∈ items, item.identity.ns ∈ rebuilt := by
  rw [List.eq_nil_iff_forall_not_mem]
  simp [unrebuiltNamespaces, List.mem_insertionSort]

section Verify

variable (hman : Manifest env w₀ items) (hhash : CollisionFree env)

include hman hhash

/-- **What verify confirms is repaired.** -/
theorem Repairing.repaired (h : Repairing env w₀ items row w)
    (hre : unrebuiltNamespaces row.items row.run.rebuiltNamespaces = [])
    (hco : ∀ i ∈ row.items, Confirmed env w i) (hite : item ∈ items) :
    Repaired env w item := by
  have hde := hman.decided item hite
  obtain ⟨i, hi, hx⟩ := h.covers item hite
  obtain ⟨item', hite', state, error, hst, rfl⟩ := h.versions i hi
  obtain rfl := hman.distinct hite' hite hx
  have hnee : (item'.withState state error).needsCopy = item'.needsCopy := by
    simp [Item.needsCopy, Item.resolved, Item.withState, hst, hde.pending]
  have hma : w.mappings.get item'.identity = some item'.goal :=
    h.mapping (item'.withState state error) hi (.inl (hco _ hi).finished)
  have hla : item'.needsCopy → ∀ c ∈ copyableCollections item',
      Landed env w (item'.withState state error) c :=
    fun hm => (hco _ hi).moved (hnee ▸ hm)
  refine ⟨hde.goal_eq, hma, fun hm c hc => ?_, ?_⟩
  · obtain ⟨p, hp, -, hv, hpa⟩ := (hla hm c hc).target
    obtain ⟨n, hn, -⟩ := hde.needsCopy_iff.mp hm
    obtain ⟨q, hq, hr⟩ := hde.payload hhash.nonempty (List.ne_nil_of_mem hn)
    have hs : env.hashPayload p.payload = item'.payloadHash :=
      hpa (hr ▸ hhash.nonempty q.payload)
    refine ⟨p, hp, ?_, hs, hv⟩
    rw [Carries, Point.field, hhash.fields _ _ (hs.trans hr)]
    exact hq
  · rintro kind n hn hne ⟨ht, p, hl, hp⟩
    rcases kind_cases ht with rfl | rfl
    · -- a sparse point is where the recompute put it
      have hsw := (h.rebuilt _ (unrebuiltNamespaces_eq_nil.mp hre _ hi)).2.2
      have hma' := hsw item'.identity n rfl ⟨ht, p, hl, hp⟩
      exact hne (Option.some.inj (hma'.symm.trans hma))
    · -- a dense point is one that the audit saw, so verify has looked for it
      obtain ⟨d, hd⟩ := h.dense _ hde.ns _ (denseKind_dense _) n p hl
      have hc := (hde.mem_copyable_of_dense ⟨ht, p, hd, hp⟩).mpr rfl
      have hno := (hla (hde.needsCopy_iff.mpr ⟨n, hn, hne⟩) _ hc).olds n
        (Item.mem_stale.mpr ⟨hn, hne⟩)
      rw [hl] at hno
      cases hno

lemma wp_verify_inRepair (hG : G .ok) (h : InRepair env w₀ items run w) : Wp G (verify env run)
      (fun w' => InRepair env w₀ items run w' ∧ w'.mappings = w.mappings ∧
        (w'.log = w.log ∨ ∀ item ∈ items, Repaired env w' item))
      (fun _ w' => InRepair env w₀ items run w' ∧ w'.mappings = w.mappings ∧
        (w'.log = w.log ∨ ∀ item ∈ items, Repaired env w' item)) w := by
  obtain ⟨row, hr, hre⟩ := id h
  refine wp_verify hG ⟨h, rfl, .inl rfl⟩ ?_ ?_ ?_
  · rintro row' hr' i hi hf w' runs ⟨⟨row₁, hr₁, hre₁⟩, hm, hl⟩ hu
    obtain rfl : row = row' := Option.some.inj (hr.symm.trans hr')
    have hs : Repairing env w₀ items (row₁.setItem i.identity .verified "") w' := by
      refine hre₁.setItem nofun (fun _ j hj hx => ?_) (.inr (.inr rfl))
      rw [hm, hre.mapping i hi (.inl hf),
        (Version.eq_of_identity hman (hre₁.versions j hj) (hre.versions i hi) hx).1]
    refine ⟨⟨_, hu.get hr₁, hs.note rfl rfl rfl rfl⟩, hm, hl.imp_right ?_⟩
    exact fun ha item hite => (ha item hite).of_stores rfl rfl
  · rintro w' runs text ⟨hin, hm, hl⟩ hu
    refine ⟨hin.note hu (fun _ => rfl) fun _ => rfl, hm, hl.imp_right ?_⟩
    exact fun ha item hite => (ha item hite).of_stores rfl rfl
  · rintro w' runs row' ⟨hin, hm, -⟩ hp hr' hreb hc hu
    obtain rfl : row = row' := Option.some.inj (hr.symm.trans hr')
    refine ⟨hin.note hu (fun _ => rfl) fun _ => rfl, hm, .inr fun item hite => ?_⟩
    exact (hre.repaired hman hhash hreb hc hite).of_stores hm hp

end Verify

/-! ### Histories of one run -/

/-- The call is about this run. -/
def Call.On (run : ℕ) : Call → Prop
  | .audit => False
  | .prepareSnapshots r _ _ | .apply r | .resume r | .verify r => r = run

/-- An item in quarantine keeps the gate shut. -/
def Blocked (run : ℕ) (x : Identity) (w : World V) : Prop :=
  ∃ row, w.runs.get run = some row ∧ ∃ i ∈ row.items, i.identity = x ∧ i.state = .quarantined

lemma step_on {S : World V → Prop} (hG : G .ok) (hon : e.call.On run) (hs : ∀ r ∈ e.script, G r)
    (hst : step env w e = some w') (h : S w)
    (hsna : ∀ f runs, SnapshotNote f → w.runs.Updated run f runs → S { w with runs := runs })
    (ha : Wp G (apply env run) S (fun _ => S) w) (hv : Wp G (verify env run) S (fun _ => S) w) :
    S w' := by
  obtain ⟨call, script⟩ := e
  cases hst
  cases call with
  | audit => exact hon.elim
  | prepareSnapshots r pgRef refs =>
    obtain rfl : r = run := hon
    have hsn : ∀ w', Snapshotted r w w' → S w' := by
      rintro _ ⟨row, f, runs, -, -, hf, hu⟩
      exact hsna f runs hf hu
    have hp : Wp G (prepareSnapshots r pgRef refs) S (fun _ => S) w := by
      refine wp_mono (wp_prepareSnapshots hG) ?_ fun _ => hsn
      rintro w' (rfl | hw')
      · exact h
      · exact hsn w' hw'
    exact hp.world hs
  | apply r =>
    obtain rfl : r = run := hon
    exact ha.world hs
  | resume r =>
    obtain rfl : r = run := hon
    exact (wp_resume hG h (fun _ _ _ => h) fun _ _ _ _ => ha).world hs
  | verify r =>
    obtain rfl : r = run := hon
    exact hv.world hs

lemma InRepair.step (hman : Manifest env w₀ items) (hapart : Apart env) (hhash : CollisionFree env)
    (h : InRepair env w₀ items run w) (hon : e.call.On run) (hs : ∀ r ∈ e.script, Thorough r)
    (hst : step env w e = some w') : InRepair env w₀ items run w' := by
  refine step_on trivial hon hs hst h ?_ (wp_mono (wp_apply_inRepair hman hapart h)
    (fun _ => id) fun _ _ h => h.imp fun _ h => ⟨h.1, h.2.1⟩) ?_
  · exact fun f runs hf hu => h.note hu hf.items hf.rebuilt
  · exact wp_mono (wp_verify_inRepair hman hhash trivial h) (fun _ => And.left) fun _ _ => And.left

lemma wp_verify_blocked (hG : G .ok) (h : Blocked run x w) :
    Wp G (verify env run) (fun w' => Blocked run x w' ∧ w'.log = w.log)
      (fun _ w' => Blocked run x w' ∧ w'.log = w.log) w := by
  obtain ⟨row, hr, q, hq, hx, hs⟩ := id h
  refine wp_verify hG ⟨h, rfl⟩ ?_ ?_ ?_
  · rintro row' hr' i hi hf w' runs ⟨⟨row₁, hr₁, q₁, hq₁, hx₁, hs₁⟩, hl⟩ hu
    obtain rfl : row = row' := Option.some.inj (hr.symm.trans hr')
    have hne : q₁.identity ≠ i.identity := by
      intro heq
      have hsa := List.inj_on_of_nodup_map row.distinct hi hq (heq.symm.trans (hx₁.trans hx.symm))
      rw [hsa] at hf
      simp [Item.finished, hs] at hf
    refine ⟨⟨_, hu.get hr₁, q₁, List.mem_map.mpr ⟨q₁, hq₁, if_neg hne⟩, hx₁, hs₁⟩, hl⟩
  · rintro w' runs text ⟨⟨row₁, hr₁, hb⟩, hl⟩ hu
    exact ⟨⟨_, hu.get hr₁, hb⟩, hl⟩
  · rintro w' runs row' - - hr' - hc -
    obtain rfl : row = row' := Option.some.inj (hr.symm.trans hr')
    have hf := (hc q hq).finished
    simp [Item.finished, hs] at hf

lemma Blocked.step {e : Event} (h : Blocked run x w) (hon : e.call.On run)
    (hst : step env w e = some w') : Blocked run x w' := by
  obtain ⟨row, hr, q, hq, hx, hs⟩ := id h
  refine step_on (G := fun _ => True) trivial hon (fun _ _ => trivial) hst h ?_ ?_ ?_
  · exact fun f runs hf hu => ⟨_, hu.get hr, q, (hf.items row).symm ▸ hq, hx, hs⟩
  · refine wp_apply trivial h (fun _ => id) fun row' hr' hg => ?_
    obtain rfl : row = row' := Option.some.inj (hr.symm.trans hr')
    exact absurd hs (hg.decided q hq)
  · exact wp_mono (wp_verify_blocked trivial h) (fun _ => And.left) fun _ _ => And.left

lemma AuditLeft.opened_of_new (h : AuditLeft env w w') (hn : w.runs.get run = none)
    (hr : w'.runs.get run = some row) : ∃ items, Opened env w run items w' := by
  have hc : ∀ w₁, Cleared w w₁ → w₁.runs.get run = none := by
    rintro w₁ (⟨hi⟩ | ⟨id, other, runs, hot, -, -, hu⟩)
    · exact hn
    · have hne : run ≠ id := by
        rintro rfl
        rw [hn] at hot
        cases hot
      exact (hu.others run hne).trans hn
  cases h with
  | start => rw [hn] at hr; cases hr
  | cleared w₁ n hw₁ =>
    have hno := (hc w₁ hw₁).symm.trans hr
    cases hno
  | opened r items w' ho =>
    obtain ⟨w₁, n, hw₁, hite, hk, hi, hid⟩ := id ho
    rw [Runs.get_create] at hr
    split_ifs at hr with heq
    · exact ⟨items, by rw [heq, ← hid]; exact ho⟩
    · rw [hc w₁ hw₁] at hr
      cases hr

lemma Opened.inRepair (h : Opened env w run items w') (hr : w'.runs.get run = some row)
    (hc : ∀ item ∈ row.items, item.state ≠ .quarantined)
    (his : ∀ key pt, w.points.lookup key = some pt → key.2 < w.nextID) :
    Manifest env w row.items ∧ InRepair env w row.items run w' := by
  have hs := h.stores
  have hre : row.items = ordered items ∧ row.run.rebuiltNamespaces = [] := by
    obtain ⟨w₁, n, -, -, hk, hid, rfl⟩ := h
    rw [Runs.get_create, if_pos rfl, Option.some.injEq] at hr
    exact hr ▸ ⟨rfl, rfl⟩
  obtain ⟨row', hr', -, -, hman⟩ := h.manifest fun item hite => by
    rw [hre.1] at hc
    exact hc item (mem_ordered.mpr hite)
  obtain rfl : row = row' := Option.some.inj (hr.symm.trans hr')
  refine ⟨hman, row, hr, ?_, ?_, ?_, ?_, ?_⟩
  · exact fun i hi => ⟨i, hi, i.state, i.error, hc i hi, rfl⟩
  · exact fun item hite => ⟨item, hite, rfl⟩
  · intro i hi hca
    rw [hs.1]
    refine hman.mapping_of_stays his hi (hca.resolve_left ?_)
    simp [Item.finished, (hman.decided i hi).pending]
  · intro ns _ kind _ n p hp
    exact ⟨n, hs.2 ▸ hp⟩
  · intro ns hns
    rw [hre.2] at hns
    cases hns

/-- The text with a mark before each character and one at the end. -/
def escaped (text : List Char) : List Char := text.foldr (fun c rest => '+' :: c :: rest) ['.']

def payloadText : List (String × String) → List Char
  | [] => ['!']
  | e :: payload => escaped e.1.toList ++ (escaped e.2.toList ++ payloadText payload)

lemma escaped_append_inj (h : escaped a ++ r = escaped b ++ s) : a = b ∧ r = s := by
  induction a generalizing b with
  | nil =>
    cases b with
    | nil => simpa [escaped] using h
    | cons c b => simp [escaped] at h
  | cons c a ih =>
    cases b with
    | nil => simp [escaped] at h
    | cons d b =>
      obtain ⟨rfl, hr⟩ : c = d ∧ escaped a ++ r = escaped b ++ s := by simpa [escaped] using h
      obtain ⟨rfl, rfl⟩ := ih hr
      exact ⟨rfl, rfl⟩

lemma payloadText_injective : Function.Injective payloadText := by
  have hh : ∀ text r, escaped text ++ r ≠ ['!'] := by
    intro text r
    cases text <;> simp [escaped]
  intro p
  induction p with
  | nil =>
    intro q h
    cases q with
    | nil => rfl
    | cons e q => exact absurd h.symm (hh _ _)
  | cons e p ih =>
    intro q h
    cases q with
    | nil => exact absurd h (hh _ _)
    | cons e' q =>
      obtain ⟨hk, hr⟩ := escaped_append_inj h
      obtain ⟨hv, hr⟩ := escaped_append_inj hr
      rw [ih hr, Prod.ext (String.toList_injective hk) (String.toList_injective hv)]

/-- The small namespace, with payloads that are their own hash. -/
def plainEnv : Env String := { smallEnv with hashPayload := fun p => String.ofList (payloadText p) }

lemma collisionFree_plainEnv : CollisionFree plainEnv where
  nonempty payload h := by
    have hn : payloadText payload = [] := by simpa [plainEnv] using h
    cases payload with
    | nil => cases hn
    | cons e payload => cases ht : e.1.toList <;> simp [payloadText, escaped, ht] at hn
  fields p q h key := by
    have ht : payloadText p = payloadText q := by simpa [plainEnv] using congrArg String.toList h
    rw [payloadText_injective ht]

/-- An audit, the events, and a verify, with the worlds in between. -/
def story (w : World String) (events : List Event) :
    Option (World String × World String × World String) := do
  let w₁ ← step plainEnv w ⟨.audit, []⟩
  let u ← exec (step plainEnv) w₁ events
  let u' ← step plainEnv u ⟨.verify 0, []⟩
  some (w₁, u, u')

lemma story_of_map {w : World String} (h : (story w events).map f = some a) : ∃ w₁ u u',
    step plainEnv w ⟨.audit, []⟩ = some w₁ ∧ exec (step plainEnv) w₁ events = some u ∧
      step plainEnv u ⟨.verify 0, []⟩ = some u' ∧ f (w₁, u, u') = a := by
  obtain ⟨r, h, hf⟩ := Option.map_eq_some_iff.mp h
  simp only [story, Option.bind_eq_bind, Option.bind_eq_some_iff, Option.some.injEq] at h
  obtain ⟨w₁, ha, u, hr, u', hv, rfl⟩ := h
  exact ⟨w₁, u, u', ha, hr, hv, hf⟩

/-- Apply, with this reply to the recompute. -/
def applyStory (reply : Reply Error Torn) : List Event :=
  [⟨.prepareSnapshots 0 "pg" smallRefs, []⟩, ⟨.apply 0, List.replicate 13 .ok ++ [reply]⟩]

/-- The recompute fails, and the run is resumed. -/
def resumedStory : List Event :=
  applyStory (.fail (.other "connection reset")) ++ [⟨.resume 0, []⟩]

/-- The id that the sequence issues next is the one at which `x` has its point, and `y` has its
point at the id that `x` is mapped to. -/
def usedWorld : World String :=
  smallWorld xyIDs
    [(("n_objects_dense", 100), objectPoint "x" "dense x"),
      (("n_objects_dense", 7), objectPoint "y" "dense y")]

end Codohue.Repair
