import Codohue.RepairDecisions

/-!
Whether a repair keeps every vector.

An item moves the points at the old ids of its identity, and the old ids are collected over all
collections: an id under which the identity has a sparse point is also copied and deleted in the
dense collection. The repair is safe exactly if the sparse and the dense point of an identity
have the same id, or the sparse one is at the mapped id and that id is empty in the dense
collection.
-/

namespace Codohue.Repair

open Script Prog

variable {V : Type} {env : Env V} {w : World V} {items : List Item}

/-! ### Conditions -/

/-- Different namespaces keep their points in different collections. -/
def Apart (env : Env V) : Prop :=
  ∀ ns ∈ env.namespaces, ∀ ns' ∈ env.namespaces, ∀ kind kind',
    env.collection ns kind = env.collection ns' kind' → ns = ns'

/-- The ids that the sequence is going to issue are unused. -/
structure Unissued (w : World V) : Prop where
  points : ∀ key pt, w.points.lookup key = some pt → key.2 < w.nextID
  mappings : ∀ x n, w.mappings.get x = some n → n < w.nextID

/-- The sparse and the dense point of an identity have the same id, or the sparse one is where it
should be and nothing is in the way of the dense one. -/
def Aligned (env : Env V) (w : World V) : Prop :=
  ∀ x, x.ns ∈ env.namespaces → ∀ s d, At env w x x.entityType.sparseKind s →
    At env w x x.entityType.denseKind d → s = d ∨ (w.mappings.get x = some s ∧
      w.points.lookup (env.collection x.ns x.entityType.denseKind, s) = none)

/-- Nothing but a point of the item's own identity was overwritten or deleted. -/
def Spares : Effect V → Prop
  | .copied _ x _ _ _ overwritten => ∀ p ∈ overwritten, Carries x p
  | .deleted _ x _ _ removed => ∀ p ∈ removed, Carries x p
  | _ => True

/-- The dense point of the item's identity is at the target, as it was before. -/
def Settled (env : Env V) (w w' : World V) (item : Item) : Prop :=
  ∀ d, At env w item.identity item.identity.entityType.denseKind d →
    ∃ target, item.targetNumericID = some target ∧ ∃ n ∈ item.oldNumericIDs, ∃ p,
      w.points.lookup (env.collection item.identity.ns item.identity.entityType.denseKind, n) =
        some p ∧ Carries item.identity p ∧
      w'.points.lookup (env.collection item.identity.ns item.identity.entityType.denseKind,
        target) = some p

/-- The dense point has left the old ids of the item, which were valid. -/
structure Rehomed (env : Env V) (w w' : World V) (item : Item) : Prop where
  settled : Settled env w w' item
  olds : ∀ d, At env w item.identity item.identity.entityType.denseKind d →
    ∀ m ∈ moves item item.goal, w'.points.lookup m = none ∧ 1 ≤ m.2 ∧ 1 ≤ item.goal

/-! ### Kinds -/

variable {kind : CollectionKind} {type : EntityType}

lemma kind_cases (h : kind.entityType = type) : kind = type.sparseKind ∨ kind = type.denseKind := by
  cases kind <;> subst h <;> decide

lemma eq_denseKind (h : kind.entityType = type) (hde : kind.dense) : kind = type.denseKind := by
  cases kind <;> subst h <;> first | rfl | cases hde

lemma denseKind_dense (type : EntityType) : type.denseKind.dense := by
  cases type <;> rfl

lemma sparseKind_ne_denseKind (type : EntityType) : type.sparseKind ≠ type.denseKind := by
  cases type <;> decide

/-! ### The cells of an item -/

/-- A cell that the item copies from or to. -/
def Cell (item : Item) (key : String × ℤ) : Prop :=
  IsTarget item item.goal key ∨ key ∈ moves item item.goal

variable {item : Item}

variable {key : String × ℤ}

lemma Cell.collection (h : Cell item key) : key.1 ∈ copyableCollections item := by
  rcases h with h | h
  · exact h.1
  · exact (mem_moves.mp h).1

namespace Decided

variable (h : Decided env w item)
include h

lemma goal_eq : item.targetNumericID = some item.goal := by
  obtain ⟨n, -, ⟨-, ht⟩ | ⟨-, -, n', -, ht⟩⟩ := h.target
  · simp [Item.goal, ht]
  · simp [Item.goal, ht]

lemma goal_cases : (w.mappings.get item.identity = some item.goal ∧
      Free env w item.identity item.goal) ∨
    (w.nextID ≤ item.goal ∧ item.sources.targetReassignedFrom.isSome) := by
  obtain ⟨n, hm, ⟨hf, ht⟩ | ⟨-, hfr, n', hn', ht⟩⟩ := h.target
  · rw [h.goal_eq, Option.some.injEq] at ht
    rw [ht]
    exact .inl ⟨hm, hf⟩
  · rw [h.goal_eq, Option.some.injEq] at ht
    rw [ht, hfr]
    exact .inr ⟨hn', rfl⟩

lemma goal_of_free (hm : w.mappings.get item.identity = some n) (hf : Free env w item.identity n) :
    item.goal = n := by
  obtain ⟨n', hm', hcas⟩ := h.target
  obtain rfl : n' = n := Option.some.inj (hm'.symm.trans hm)
  rcases hcas with ⟨-, ht⟩ | ⟨hc, -⟩
  · exact Option.some.inj (h.goal_eq.symm.trans ht)
  · exact absurd hf hc

lemma needsCopy_iff : item.needsCopy ↔ ∃ n ∈ item.oldNumericIDs, n ≠ item.goal := by
  simp [Item.needsCopy, Item.resolved, h.pending, h.goal_eq]

/-- What is stored at the target, where the identity has points, carries the identity. -/
lemma carries_target (hi : Unissued w) (hc : c ∈ itemCollections item)
    (hp : w.points.lookup (c, item.goal) = some p) : Carries item.identity p := by
  obtain ⟨kind, n, rfl, hat⟩ := (h.collections c).mp hc
  rcases h.goal_cases with ⟨-, hf⟩ | ⟨hfr, -⟩
  · exact hf kind n hat p hp
  · have hlt : item.goal < w.nextID := hi.points _ p hp
    omega

lemma mem_copyable_of_dense (hd : At env w item.identity item.identity.entityType.denseKind d) :
    c ∈ copyableCollections item ↔
      c = env.collection item.identity.ns item.identity.entityType.denseKind := by
  have hm : env.collection item.identity.ns item.identity.entityType.denseKind ∈
      item.sources.denseCollections :=
    (h.dense _).mpr ⟨_, d, denseKind_dense _, rfl, hd⟩
  rw [copyableCollections, if_neg (List.ne_nil_of_mem hm), List.mem_insertionSort]
  constructor
  · intro hc
    obtain ⟨kind, n, hk, rfl, hat⟩ := (h.dense c).mp hc
    rw [eq_denseKind hat.1 hk]
  · rintro rfl
    exact hm

/-- **Under alignment an item moves its own points only.** -/
lemma carries_moves (hal : Aligned env w) (hm : m ∈ moves item item.goal) :
    ∃ p, w.points.lookup m = some p ∧ Carries item.identity p := by
  obtain ⟨c, n⟩ := m
  obtain ⟨hc, hn, hne⟩ := mem_moves.mp hm
  obtain ⟨kind, k, rfl, hat⟩ := (h.collections c).mp (copyableCollections_subset item hc)
  obtain ⟨kind', hat'⟩ := (h.olds n).mp hn
  suffices ho : At env w item.identity kind n from ho.2
  rcases kind_cases hat.1 with rfl | rfl <;> rcases kind_cases hat'.1 with rfl | rfl
  · exact hat'
  · -- with a dense point, nothing is copied in the sparse collection
    have heq := (h.mem_copyable_of_dense hat').mp hc
    exact absurd (collectionName_injective _ _ heq) (sparseKind_ne_denseKind _)
  · rcases hal item.identity h.ns n k hat' hat with rfl | ⟨hma, hno⟩
    · exact hat
    · -- the sparse point is at the mapped id, which is then the target
      refine absurd (h.goal_of_free hma ?_).symm hne
      intro kind m hk p hp
      rcases kind_cases hk.1 with rfl | rfl
      · obtain ⟨-, p', hp', hcar⟩ := hat'
        obtain rfl : p' = p := Option.some.inj (hp'.symm.trans hp)
        exact hcar
      · rw [hno] at hp
        cases hp
  · exact hat'

end Decided

namespace Manifest

variable (h : Manifest env w items) (hapart : Apart env) {a b : Item} (ha : a ∈ items)
  (hb : b ∈ items) {c : String} (hca : c ∈ itemCollections a) (hcb : c ∈ itemCollections b)

include h hapart ha hb hca hcb

lemma same_kind : a.identity.ns = b.identity.ns ∧
    a.identity.entityType = b.identity.entityType := by
  obtain ⟨kind, n, rfl, hat⟩ := ((h.decided a ha).collections c).mp hca
  obtain ⟨kind', n', hc, hat'⟩ := ((h.decided b hb).collections _).mp hcb
  have hns := hapart _ (h.decided a ha).ns _ (h.decided b hb).ns kind kind' hc
  rw [hns] at hc
  have hk : kind = kind' := collectionName_injective _ _ hc
  exact ⟨hns, hat.1.symm.trans (hk ▸ hat'.1)⟩

lemma eq_of_carries (hpa : Carries a.identity p) (hpb : Carries b.identity p) : a = b := by
  obtain ⟨hns, ht⟩ := h.same_kind hapart ha hb hca hcb
  refine h.distinct ha hb ?_
  have hte : a.identity.stringID = b.identity.stringID := by
    rw [← hpa, ← hpb, ht]
  cases hi : a.identity
  cases hid : b.identity
  simp_all

lemma eq_of_goal (hi : Unissued w) (hg : a.goal = b.goal) : a = b := by
  obtain ⟨hns, ht⟩ := h.same_kind hapart ha hb hca hcb
  have hda := h.decided a ha
  have hdb := h.decided b hb
  rcases hda.goal_cases with ⟨hma, -⟩ | ⟨hfre, hf⟩ <;>
    rcases hdb.goal_cases with ⟨hm, -⟩ | ⟨hfreshb, hfr⟩
  · rw [← hg] at hm
    exact h.distinct ha hb (w.mappings.unique _ _ _ hns ht hma hm)
  · have hlt := hi.mappings _ _ hma
    omega
  · have hlt := hi.mappings _ _ hm
    omega
  · by_contra hne
    refine h.fresh_ne a ha b hb hne hf hfr ?_
    rw [hda.goal_eq, hdb.goal_eq, hg]

end Manifest

/-- **Under alignment different items have different cells.** -/
lemma Manifest.eq_of_cell (h : Manifest env w items) (hapart : Apart env) (hi : Unissued w)
    (hal : Aligned env w) (ha : a ∈ items) (hb : b ∈ items) (hka : Cell a key) (hkb : Cell b key) :
    a = b := by
  have hca := copyableCollections_subset a hka.collection
  have hcb := copyableCollections_subset b hkb.collection
  have hda := h.decided a ha
  have hdb := h.decided b hb
  rcases hka with ⟨-, hta⟩ | hma <;> rcases hkb with ⟨-, htb⟩ | hmb
  · exact h.eq_of_goal hapart ha hb hca hcb hi (hta.symm.trans htb)
  · obtain ⟨p, hp, hc⟩ := hdb.carries_moves hal hmb
    have hp' : w.points.lookup (key.1, a.goal) = some p := hta ▸ hp
    exact h.eq_of_carries hapart ha hb hca hcb (hda.carries_target hi hca hp') hc
  · obtain ⟨p, hp, hc⟩ := hda.carries_moves hal hma
    have hp' : w.points.lookup (key.1, b.goal) = some p := htb ▸ hp
    exact h.eq_of_carries hapart ha hb hca hcb hc (hdb.carries_target hi hcb hp')
  · obtain ⟨p, hp, hc⟩ := hda.carries_moves hal hma
    obtain ⟨p', hp', hc'⟩ := hdb.carries_moves hal hmb
    obtain rfl : p = p' := Option.some.inj (hp.symm.trans hp')
    exact h.eq_of_carries hapart ha hb hca hcb hc hc'

/-! ### One item whose cells are as the audit found them -/

variable {run : ℕ} {w₁ w₂ : World V}

section Item

variable (hd : Decided env w item) (hal : Aligned env w)
  (hcells : ∀ key, Cell item key → w₁.points.lookup key = w.points.lookup key)
include hd hal hcells

lemma settled_of_finished (hf : Finished run item w₁ w₂) : Settled env w w₂ item := by
  intro d hat
  obtain ⟨-, p, hp, hcar⟩ := id hat
  have hc := (hd.mem_copyable_of_dense hat).mpr rfl
  have ho : d ∈ item.oldNumericIDs := (hd.olds d).mpr ⟨_, hat⟩
  -- the only point the item moves in its dense collection is its dense point
  have hon : ∀ n, (env.collection item.identity.ns item.identity.entityType.denseKind, n) ∈
      moves item item.goal → n = d := by
    intro n hn
    exact hd.single _ n d ⟨hat.1, hd.carries_moves hal hn⟩ hat
  refine ⟨item.goal, hd.goal_eq, d, ho, p, hp, hcar, ?_⟩
  by_cases hg : d = item.goal
  · rcases hf.progress.targets
      (env.collection item.identity.ns item.identity.entityType.denseKind) with hk | ⟨n, hn, -⟩
    · rw [hk, hcells _ (.inl ⟨hc, rfl⟩), ← hg]
      exact hp
    · exact absurd ((hon n hn).trans hg) (mem_moves.mp hn).2.2
  · have hmov : item.needsCopy := hd.needsCopy_iff.mpr ⟨d, ho, hg⟩
    have hmo := hf.moved hmov
    have hs : d ∈ item.stale item.goal := Item.mem_stale.mpr ⟨ho, hg⟩
    have hl := List.getLast?_eq_some_getLast (List.ne_nil_of_mem hs)
    have hm : (env.collection item.identity.ns item.identity.entityType.denseKind,
        (item.stale item.goal).getLast (List.ne_nil_of_mem hs)) ∈ moves item item.goal := by
      have hl' := List.getLast_mem (List.ne_nil_of_mem hs)
      exact mem_moves.mpr ⟨hc, Item.mem_stale.mp hl'⟩
    rw [hmo.landed _ hc _ hl, hcells _ (.inr hm), hon _ hm]
    exact hp

lemma rehomed_of_finished (hf : Finished run item w₁ w₂) : Rehomed env w w₂ item := by
  refine ⟨settled_of_finished hd hal hcells hf, fun _ _ m hm => ?_⟩
  have hmo := hf.moved (hd.needsCopy_iff.mpr ⟨m.2, (mem_moves.mp hm).2⟩)
  exact ⟨hmo.gone m hm, hmo.can.positive m hm⟩

lemma spares_of_progress (hi : Unissued w) (hpr : Progress run item item.goal w₁ w₂) :
    Grew Spares w₁ w₂ := by
  have ht : ∀ c ∈ copyableCollections item,
      ∀ p ∈ w₁.points.lookup (c, item.goal), Carries item.identity p := by
    intro c hc p hp
    rw [hcells _ (.inl ⟨hc, rfl⟩)] at hp
    exact hd.carries_target hi (copyableCollections_subset item hc) hp
  have hmo : ∀ m ∈ moves item item.goal, ∀ p ∈ w₁.points.lookup m, Carries item.identity p := by
    intro m hm p hp
    rw [hcells _ (.inr hm)] at hp
    obtain ⟨p', hp', hcar⟩ := hd.carries_moves hal hm
    obtain rfl : p' = p := Option.some.inj (hp'.symm.trans hp)
    exact hcar
  obtain ⟨new, hl, hne⟩ := hpr.log
  refine ⟨new, hl, fun e he => ?_⟩
  have ho := hne e he
  cases e with
  | copied r x c s t displaced =>
    obtain ⟨-, rfl, rfl, hm, rfl | ⟨n, hn, rfl⟩⟩ := ho
    · exact ht c (mem_moves.mp hm).1
    · exact hmo _ hn
  | deleted r x c id gone =>
    obtain ⟨-, rfl, hm, rfl | rfl⟩ := ho
    · exact hmo _ hm
    · exact fun p hp => by cases hp
  | retargeted | opened | superseded | completed => trivial

end Item

/-! ### A whole manifest -/

variable {w₃ : World V} {todo : List Item}
variable {G : Reply Error Torn → Prop}

section Run

/-- An apply that gets through: `I todo` holds whenever the items `todo` are left, and what it
gives at the end outlives the recompute. -/
lemma wp_applyManifest_points {I : List Item → World V → Prop} {Q : World V → Prop} (hG : G .ok)
    (hp : ∀ item ∈ items, item.state = .pending)
    (hs : ∀ runs, I items { w₁ with runs := runs })
    (hdo : ∀ item ∈ items, ∀ todo w w', I (item :: todo) w → Finished run item w w' → I todo w')
    (he : ∀ w', I [] w' → Q w') (hr : ∀ w' runs, Q w' → Q { w' with runs := runs })
    (hre : ∀ ns ∈ sortedNamespaces items, ∀ w' ups swept, Q w' →
      Q (recomputed env ns ups swept w')) :
    Wp G (applyManifest env run items) (fun _ => True) (fun _ => Q) w₁ := by
  refine wp_applyManifest_done (I := I)
    (J := fun todo w' => (∀ ns ∈ todo, ns ∈ sortedNamespaces items) ∧ Q w') hG
    (fun runs _ => hs runs) ?_ ?_ (fun w' hI => ⟨fun _ => id, he w' hI⟩) ?_ ?_
  · exact fun item hi todo w' _ hf => absurd hf (by simp [Item.finished, hp item hi])
  · exact fun item hi todo w' w'' hI _ hf => hdo item hi todo w' w'' hI hf
  · rintro ns todo w' ups swept runs ⟨hm, hQ⟩ - -
    refine ⟨fun ns' hns' => hm ns' (List.mem_cons_of_mem _ hns'), ?_⟩
    exact hr _ runs (hre ns (hm ns List.mem_cons_self) w' ups swept hQ)
  · exact fun w' runs hJ _ => hr w' runs hJ.2

lemma mem_sortedNamespaces :
    ns ∈ sortedNamespaces items ↔ ∃ item ∈ items, item.identity.ns = ns := by
  rw [sortedNamespaces, List.mem_insertionSort, List.mem_dedup, List.mem_map]

lemma sparseCollection_dense (h : Manifest env w items) (hapart : Apart env) (hi : item ∈ items)
    (hns : ns ∈ sortedNamespaces items) :
    sparseCollection env ns
      (env.collection item.identity.ns item.identity.entityType.denseKind) = false := by
  obtain ⟨other, ho, rfl⟩ := mem_sortedNamespaces.mp hns
  have hne : ∀ kind : CollectionKind, kind.dense = false →
      env.collection item.identity.ns item.identity.entityType.denseKind ≠
        env.collection other.identity.ns kind := by
    intro kind hk heq
    have hs := hapart _ (h.decided item hi).ns _ (h.decided other ho).ns _ _ heq
    rw [hs] at heq
    rw [← collectionName_injective _ _ heq, denseKind_dense] at hk
    cases hk
  simp [sparseCollection, hne .subjects rfl, hne .objects rfl]

/-- The items `todo` are as the audit found them, and the others have been moved. -/
structure Moving (env : Env V) (w w₁ : World V) (items todo : List Item) (w' : World V) : Prop where
  nodup : todo.Nodup
  cells : ∀ item ∈ items, item ∈ todo → ∀ key, Cell item key →
    w'.points.lookup key = w.points.lookup key
  rehomed : ∀ item ∈ items, item ∉ todo → Rehomed env w w' item
  grew : Grew Spares w₁ w'

lemma Rehomed.frame (h : Rehomed env w w₂ item) (hd : Decided env w item)
    (hf : ∀ d, At env w item.identity item.identity.entityType.denseKind d →
      ∀ key, Cell item key → w₃.points.lookup key = w₂.points.lookup key) :
    Rehomed env w w₃ item := by
  refine ⟨fun d hat => ?_, fun d hat m hm => ?_⟩
  · obtain ⟨target, ht, n, hn, p, hp, hc, hl⟩ := h.settled d hat
    obtain rfl : item.goal = target := Option.some.inj (hd.goal_eq.symm.trans ht)
    have hce : Cell item (_, item.goal) := .inl ⟨(hd.mem_copyable_of_dense hat).mpr rfl, rfl⟩
    exact ⟨item.goal, ht, n, hn, p, hp, hc, (hf d hat _ hce).trans hl⟩
  · obtain ⟨hn, hp⟩ := h.olds d hat m hm
    exact ⟨(hf d hat m (.inr hm)).trans hn, hp⟩

lemma Moving.step (hma : Manifest env w items) (hapart : Apart env) (his : Unissued w)
    (hal : Aligned env w) (hi : item ∈ items) (h : Moving env w w₁ items (item :: todo) w₂)
    (hf : Finished run item w₂ w₃) :
    Moving env w w₁ items todo w₃ := by
  obtain ⟨hnot, hno⟩ := List.nodup_cons.mp h.nodup
  have hd := hma.decided item hi
  have hcells := h.cells item hi List.mem_cons_self
  -- the item leaves the cells of the others alone
  have hfr : ∀ other ∈ items, other ≠ item → ∀ key, Cell other key →
      w₃.points.lookup key = w₂.points.lookup key := by
    intro other ho hne key hk
    have hn : ¬ Cell item key := fun hk' =>
      hne (hma.eq_of_cell hapart his hal ho hi hk hk')
    rw [Cell, not_or] at hn
    exact hf.progress.frame key hn.1 hn.2
  refine ⟨hno, ?_, ?_, h.grew.trans (spares_of_progress hd hal hcells his hf.progress)⟩
  · intro other ho hm key hk
    have hne : other ≠ item := fun heq => hnot (heq ▸ hm)
    rw [hfr other ho hne key hk]
    exact h.cells other ho (List.mem_cons_of_mem _ hm) key hk
  · intro other ho hm
    by_cases hne : other = item
    · exact hne ▸ rehomed_of_finished hd hal hcells hf
    · have hm' : other ∉ item :: todo := by simp [hne, hm]
      exact (h.rehomed other ho hm').frame (hma.decided other ho) fun _ _ => hfr other ho hne

/-- **An aligned repair keeps every vector.** -/
theorem wp_applyManifest_rehomed (hG : G .ok) (hm : Manifest env w items) (hapart : Apart env)
    (his : Unissued w) (hal : Aligned env w) (hp : w₁.points = w.points) :
    Wp G (applyManifest env run items) (fun _ => True)
      (fun _ w' => (∀ item ∈ items, Rehomed env w w' item) ∧ Grew Spares w₁ w') w₁ := by
  refine wp_applyManifest_points (I := Moving env w w₁ items) hG
    (fun item hi => (hm.decided item hi).pending) ?_ ?_ ?_ ?_ ?_
  · intro runs
    refine ⟨List.Nodup.of_map _ hm.nodup, ?_, fun item hi hn => absurd hi hn, .refl _ _⟩
    exact fun _ _ _ key _ => by rw [hp]
  · exact fun item hi todo w' w'' hI hf => hI.step hm hapart his hal hi hf
  · exact fun w' hI => ⟨fun item hi => hI.rehomed item hi List.not_mem_nil, hI.grew⟩
  · rintro w' runs ⟨hs, hg⟩
    exact ⟨fun item hi => (hs item hi).frame (hm.decided item hi) fun _ _ _ _ => rfl, hg⟩
  · rintro ns hns w' ups swept ⟨hs, hg⟩
    refine ⟨fun item hi => (hs item hi).frame (hm.decided item hi) fun d hat key hk => ?_, hg⟩
    refine lookup_recomputed_of_ne ?_
    rw [((hm.decided item hi).mem_copyable_of_dense hat).mp hk.collection]
    exact sparseCollection_dense hm hapart hi hns

end Run

/-! ### The converse -/

lemma Grew.split {P Q : Effect V → Prop} (h : Grew P w₁ w₃) (h₁ : Grew Q w₁ w₂)
    (hn : w₃.log = new ++ w₂.log) :
    Grew P w₁ w₂ ∧ ∀ e ∈ new, P e := by
  obtain ⟨all, hall, hP⟩ := h
  obtain ⟨before, hbe, -⟩ := h₁
  have hl : all ++ w₁.log = (new ++ before) ++ w₁.log := by
    rw [← hall, hn, hbe, List.append_assoc]
  obtain rfl : all = new ++ before := List.append_cancel_right hl
  exact ⟨⟨before, hbe, fun e he => hP e (List.mem_append_right _ he)⟩,
    fun e he => hP e (List.mem_append_left _ he)⟩

/-- While the log spares the others, the points of the items `todo` are those of the audit, and
the other items moved points of their own. -/
structure Traced (w w₁ : World V) (items todo : List Item) (w' : World V) : Prop where
  nodup : todo.Nodup
  log : Grew (fun _ => True) w₁ w'
  kept : Grew Spares w₁ w' → ∀ item ∈ items, item ∈ todo → ∀ c ∈ copyableCollections item,
    ∀ n p, w'.points.lookup (c, n) = some p → Carries item.identity p →
      w.points.lookup (c, n) = some p
  moved : Grew Spares w₁ w' → ∀ item ∈ items, item ∉ todo → item.needsCopy →
    ∀ m ∈ moves item item.goal, ∃ p, w.points.lookup m = some p ∧ Carries item.identity p

section Converse

lemma Moved.carries (h : Moved run item item.goal w₂ w₃) (hl : w₃.log = new ++ w₂.log)
    (hs : ∀ e ∈ new, Spares e) (hm : m ∈ moves item item.goal) :
    ∃ p, w₂.points.lookup m = some p ∧ Carries item.identity p := by
  obtain ⟨new', hl', hde⟩ := h.logged
  obtain rfl : new' = new := List.append_cancel_right (hl'.symm.trans hl)
  obtain ⟨p, hp⟩ := Option.isSome_iff_exists.mp (h.can.present m hm)
  exact ⟨p, hp, hs _ (hde m hm) p hp⟩

lemma Traced.step (hma : Manifest env w items) (hapart : Apart env) (hi : item ∈ items)
    (h : Traced w w₁ items (item :: todo) w₂) (hf : Finished run item w₂ w₃) :
    Traced w w₁ items todo w₃ := by
  obtain ⟨hnot, hno⟩ := List.nodup_cons.mp h.nodup
  obtain ⟨new, hl, -⟩ := hf.progress.log
  have hg : Grew (fun _ => True) w₁ w₃ := h.log.trans ⟨new, hl, fun _ _ => trivial⟩
  refine ⟨hno, hg, ?_, ?_⟩
  · intro hs other ho hme c hc n p hp hcar
    obtain ⟨hbe, hn⟩ := hs.split h.log hl
    have hne : other ≠ item := fun heq => hnot (heq ▸ hme)
    refine h.kept hbe other ho (List.mem_cons_of_mem _ hme) c hc n p ?_ hcar
    by_cases hmo : item.needsCopy
    · by_cases hk : (c, n) ∈ moves item item.goal
      · rw [(hf.moved hmo).gone _ hk] at hp
        cases hp
      · by_cases ht : IsTarget item item.goal (c, n)
        · obtain ⟨hc', rfl : n = item.goal⟩ := ht
          rcases hf.progress.targets c with hke | ⟨old, hol, hco⟩
          · exact hke ▸ hp
          · -- what the item wrote carries its own identity
            obtain ⟨p', hp', how⟩ := (hf.moved hmo).carries hl hn hol
            obtain rfl : p' = p := Option.some.inj (hp'.symm.trans (hco.symm.trans hp))
            exact absurd (hma.eq_of_carries hapart ho hi
              (copyableCollections_subset other hc) (copyableCollections_subset item hc')
              hcar how) hne
        · exact (hf.progress.frame _ ht hk).symm.trans hp
    · have hap := hf.applied
      rw [Applied, if_neg hmo] at hap
      rwa [hap.points] at hp
  · intro hs other ho hme hmo m hm
    obtain ⟨hbe, hn⟩ := hs.split h.log hl
    by_cases hne : other = item
    · subst hne
      obtain ⟨p, hp, hcar⟩ := (hf.moved hmo).carries hl hn hm
      exact ⟨p, h.kept hbe other ho List.mem_cons_self m.1 (mem_moves.mp hm).1 m.2 p hp hcar, hcar⟩
    · exact h.moved hbe other ho (by simp [hne, hme]) hmo m hm

lemma wp_applyManifest_traced (hG : G .ok) (hm : Manifest env w items) (hapart : Apart env)
    (hpo : w₁.points = w.points) :
    Wp G (applyManifest env run items) (fun _ => True)
      (fun _ w' => Grew Spares w₁ w' → ∀ item ∈ items, item.needsCopy →
        ∀ m ∈ moves item item.goal, ∃ p, w.points.lookup m = some p ∧ Carries item.identity p)
      w₁ := by
  refine wp_applyManifest_points (I := Traced w w₁ items) hG
    (fun item hi => (hm.decided item hi).pending) ?_ ?_ ?_ ?_ ?_
  · intro runs
    refine ⟨List.Nodup.of_map _ hm.nodup, .refl _ _, ?_, fun _ item hi hn => absurd hi hn⟩
    exact fun _ _ _ _ _ _ _ p hp _ => hpo ▸ hp
  · exact fun item hi todo w' w'' hI hf => hI.step hm hapart hi hf
  · exact fun w' hI hs item hi => hI.moved hs item hi List.not_mem_nil
  · exact fun w' runs hQ => hQ
  · exact fun ns hns w' ups swept hQ => hQ

lemma Manifest.aligned (hma : Manifest env w items) (his : Unissued w)
    (hmo : ∀ item ∈ items, item.needsCopy → ∀ m ∈ moves item item.goal,
      ∃ p, w.points.lookup m = some p ∧ Carries item.identity p) : Aligned env w := by
  intro x hns s d hs hd
  by_cases heq : s = d
  · exact .inl heq
  right
  obtain ⟨item, hi, rfl⟩ := hma.covers x _ s hns hs
  have hde := hma.decided item hi
  have hso : s ∈ item.oldNumericIDs := (hde.olds s).mpr ⟨_, hs⟩
  have hdo : d ∈ item.oldNumericIDs := (hde.olds d).mpr ⟨_, hd⟩
  -- of two different ids one is not the target
  have hmov : item.needsCopy := by
    rw [hde.needsCopy_iff]
    by_cases hsg : s = item.goal
    · exact ⟨d, hdo, fun hdg => heq (hsg.trans hdg.symm)⟩
    · exact ⟨s, hso, hsg⟩
  have hsg : s = item.goal := by
    by_contra hne
    have hm : (env.collection item.identity.ns item.identity.entityType.denseKind, s) ∈
        moves item item.goal :=
      mem_moves.mpr ⟨(hde.mem_copyable_of_dense hd).mpr rfl, hso, hne⟩
    exact heq (hde.single _ s d ⟨hd.1, hmo item hi hmov _ hm⟩ hd)
  rcases hde.goal_cases with ⟨hmap, hf⟩ | ⟨hfr, -⟩
  · refine ⟨hsg ▸ hmap, ?_⟩
    rw [Option.eq_none_iff_forall_ne_some]
    intro p hp
    have hc : Carries item.identity p := hf _ d hd p (hsg ▸ hp)
    exact heq (hde.single _ s d ⟨hd.1, p, hp, hc⟩ hd)
  · obtain ⟨-, p, hp, -⟩ := hs
    have hlt : s < w.nextID := his.points _ p hp
    omega

end Converse

/-- What an audit that put nothing in quarantine and the snapshots leave. -/
lemma prepared_of_run {report : AuditReport}
    (haudit : (audit env).run [] w = ⟨.ok report, [], w₁⟩) (hclean : report.quarantined = [])
    (hprepare : (prepareSnapshots report.runID pgRef refs).run [] w₁ = ⟨.ok (), [], w₂⟩) :
    ∃ items row f runs, Opened env w report.runID items w₁ ∧
      (∀ item ∈ items, item.state ≠ .quarantined) ∧ w₁.runs.get report.runID = some row ∧
      (∀ item, item ∈ row.items ↔ item ∈ items) ∧ Manifest env w row.items ∧ SnapshotNote f ∧
      w₁.runs.Updated report.runID f runs ∧ w₂ = { w₁ with runs := runs } ∧
      w₁.points = w.points := by
  have han : ∀ r ∈ ([] : List (Reply Error Torn)), (fun _ => True) r := fun _ _ => trivial
  obtain ⟨id, items, ho, rfl⟩ := (wp_audit (G := fun _ => True) trivial).of_run han haudit
  have hde : ∀ item ∈ items, item.state ≠ .quarantined := by
    intro item hi hst
    have hme : item ∈ (auditReport id (manifestHash env.sha256 items) items).quarantined :=
      List.mem_filter.mpr ⟨hi, by simpa using hst⟩
    rw [hclean] at hme
    cases hme
  obtain ⟨row, hr, -, hit, hm⟩ := ho.manifest hde
  obtain ⟨row', f, runs, -, -, hf, hu⟩ :=
    (wp_prepareSnapshots (G := fun _ => True) trivial).of_run han hprepare
  exact ⟨items, row, f, runs, ho, hde, hr, hit, hm, hf, hu, rfl, ho.stores.2⟩

/-- Apply reads the manifest that is on record. -/
lemma of_apply {row : Row} {D : Unit → World V → Prop} (hr : w.runs.get run = some row)
    (hi : row.items = items) (happly : (apply env run).run [] w = ⟨.ok (), [], w₁⟩)
    (h : Wp (fun _ => True) (applyManifest env run items) (fun _ => True) D w) : D () w₁ := by
  refine Wp.of_run (wp_apply trivial trivial (fun _ _ => trivial) fun row' hr' _ => ?_)
    (fun _ _ => trivial) happly
  obtain rfl : row = row' := Option.some.inj (hr.symm.trans hr')
  rwa [hi]

/-- **When a repair keeps every vector.** After an audit that put nothing in quarantine, the
snapshots and an apply that got through, every dense point stands at the target of its identity
and nothing of another identity was overwritten or deleted, exactly if the points were
aligned. -/
theorem repair_keeps_vectors_iff (env : Env V) (w w₁ w₂ w₃ : World V) (report : AuditReport)
    (pgRef : String) (refs : List (String × String)) (hapart : Apart env) (hissue : Unissued w)
    (haudit : (audit env).run [] w = ⟨.ok report, [], w₁⟩) (hclean : report.quarantined = [])
    (hprepare : (prepareSnapshots report.runID pgRef refs).run [] w₁ = ⟨.ok (), [], w₂⟩)
    (happly : (apply env report.runID).run [] w₂ = ⟨.ok (), [], w₃⟩) :
    ((∃ row, w₁.runs.get report.runID = some row ∧ ∀ item ∈ row.items, Settled env w w₃ item) ∧
      Grew Spares w₂ w₃) ↔ Aligned env w := by
  obtain ⟨items, row, f, runs, -, -, hr, -, hm, hf, hu, rfl, hp⟩ :=
    prepared_of_run haudit hclean hprepare
  have hr₂ := hu.get hr
  constructor
  · rintro ⟨-, hs⟩
    have htr := of_apply hr₂ (hf.items row) happly (wp_applyManifest_traced trivial hm hapart hp)
    exact hm.aligned hissue (htr hs)
  · intro hal
    have hdo := of_apply hr₂ (hf.items row) happly
      (wp_applyManifest_rehomed trivial hm hapart hissue hal hp)
    exact ⟨⟨row, hr, fun item hi => (hdo.1 item hi).settled⟩, hdo.2⟩

/-! ### Two small repairs -/

/-- Audit, snapshots and apply with healthy stores, with the worlds in between. -/
def repair (env : Env V) (pgRef : String) (refs : List (String × String)) (w : World V) :
    Option (AuditReport × World V × World V × World V) := do
  let (report, w₁) ← ((audit env).run [] w).returned
  let (_, w₂) ← ((prepareSnapshots report.runID pgRef refs).run [] w₁).returned
  let (_, w₃) ← ((apply env report.runID).run [] w₂).returned
  some (report, w₁, w₂, w₃)

lemma repair_of_map (h : (repair env pgRef refs w).map f = some a) : ∃ report w₁ w₂ w₃,
    (audit env).run [] w = ⟨.ok report, [], w₁⟩ ∧
      (prepareSnapshots report.runID pgRef refs).run [] w₁ = ⟨.ok (), [], w₂⟩ ∧
      (apply env report.runID).run [] w₂ = ⟨.ok (), [], w₃⟩ ∧ f (report, w₁, w₂, w₃) = a := by
  obtain ⟨r, h, hf⟩ := Option.map_eq_some_iff.mp h
  obtain ⟨⟨report, w₁⟩, hau, h⟩ := Option.bind_eq_some_iff.mp h
  obtain ⟨⟨_, w₂⟩, hp, h⟩ := Option.bind_eq_some_iff.mp h
  obtain ⟨⟨_, w₃⟩, hap, h⟩ := Option.bind_eq_some_iff.mp h
  obtain rfl := Option.some.inj h
  exact ⟨report, w₁, w₂, w₃, run_of_returned hau, run_of_returned hp, run_of_returned hap, hf⟩

/-- One namespace with two objects, whose vectors are recomputed under their mapped ids. -/
def smallEnv : Env String where
  namespaces := ["n"]
  generation _ := 1
  sha256 := id
  hashPayload payload := String.join (payload.map fun e => e.1 ++ e.2)
  hashVectors := id
  recompute _ _ := [⟨.object, "x", [], "sparse x"⟩, ⟨.object, "y", [], "sparse y"⟩]

def objectPoint (stringID vector : String) : Point String := ⟨[("object_id", stringID)], vector⟩

def smallWorld (m : Mappings) (points : List ((String × ℤ) × Point String)) : World String where
  mappings := m
  nextID := 100
  points := points.foldl (fun t e => t.insert e.1 e.2) ∅
  runs := .empty
  log := []

def smallRefs : List (String × String) := [("n_objects", "s1"), ("n_objects_dense", "s2")]

lemma apart_smallEnv : Apart smallEnv := by
  intro ns hns ns' hns' _ _ _
  exact (List.mem_singleton.mp hns).trans (List.mem_singleton.mp hns').symm

lemma unissued_of_entries (hp : ∀ e ∈ w.points.entries, e.1.2 < w.nextID)
    (hm : ∀ e ∈ w.mappings.rows.entries, e.2 < w.nextID) : Unissued w where
  points key pt h := hp ⟨key, pt⟩ (AList.mem_lookup_iff.mp h)
  mappings x n h := hm ⟨x, n⟩ (AList.mem_lookup_iff.mp h)

def xIDs : Mappings := Mappings.empty.set ⟨"n", .object, "x"⟩ 7 (by decide)

def xyIDs : Mappings := xIDs.set ⟨"n", .object, "y"⟩ 8 (by decide)

/-- `x` has to move from 5 to 7, and its sparse and dense point are both at 5. -/
def alignedWorld : World String :=
  smallWorld xyIDs
    [(("n_objects", 5), objectPoint "x" "sparse x"),
      (("n_objects_dense", 5), objectPoint "x" "dense x"),
      (("n_objects_dense", 8), objectPoint "y" "dense y")]

/-- The sparse point of `x` is at 5 and its dense point at 9; the dense point at 5 is the one of
`y`. -/
def misalignedWorld : World String :=
  smallWorld (xIDs.set ⟨"n", .object, "y"⟩ 5
      (by decide))
    [(("n_objects", 5), objectPoint "x" "sparse x"),
      (("n_objects_dense", 9), objectPoint "x" "dense x"),
      (("n_objects_dense", 5), objectPoint "y" "dense y")]

theorem repair_keeps_vectors_iff_alignedWorld : ∃ report w₁ w₂ w₃,
    Apart smallEnv ∧ Unissued alignedWorld ∧
    (audit smallEnv).run [] alignedWorld = ⟨.ok report, [], w₁⟩ ∧ report.quarantined = [] ∧
    (prepareSnapshots report.runID "pg" smallRefs).run [] w₁ = ⟨.ok (), [], w₂⟩ ∧
    (apply smallEnv report.runID).run [] w₂ = ⟨.ok (), [], w₃⟩ ∧
    (((∃ row, w₁.runs.get report.runID = some row ∧
        ∀ item ∈ row.items, Settled smallEnv alignedWorld w₃ item) ∧ Grew Spares w₂ w₃) ↔
      Aligned smallEnv alignedWorld) := by
  have hv : (repair smallEnv "pg" smallRefs alignedWorld).map (fun r => r.1.quarantined) =
      some [] := by decide +kernel
  obtain ⟨report, w₁, w₂, w₃, hau, hp, hap, hc⟩ := repair_of_map hv
  have hi : Unissued alignedWorld := unissued_of_entries (by decide) (by decide)
  exact ⟨report, w₁, w₂, w₃, apart_smallEnv, hi, hau, hc, hp, hap,
    repair_keeps_vectors_iff smallEnv alignedWorld w₁ w₂ w₃ report "pg" smallRefs apart_smallEnv
      hi hau hc hp hap⟩

/-- The repair of `x` deletes the dense point of `y`, and its vector is gone. -/
theorem misaligned_repair_loses_vector : ∃ report w₁ w₂ w₃,
    Apart smallEnv ∧ Unissued misalignedWorld ∧
    (audit smallEnv).run [] misalignedWorld = ⟨.ok report, [], w₁⟩ ∧ report.quarantined = [] ∧
    (prepareSnapshots report.runID "pg" smallRefs).run [] w₁ = ⟨.ok (), [], w₂⟩ ∧
    (apply smallEnv report.runID).run [] w₂ = ⟨.ok (), [], w₃⟩ ∧
    misalignedWorld.points.lookup ("n_objects_dense", 5) = some (objectPoint "y" "dense y") ∧
    .deleted report.runID ⟨"n", .object, "x"⟩ "n_objects_dense" 5
      (some (objectPoint "y" "dense y")) ∈ w₃.log ∧
    ∀ e ∈ w₃.points.entries, e.2 ≠ objectPoint "y" "dense y" := by
  have hv : (repair smallEnv "pg" smallRefs misalignedWorld).map (fun r =>
      (r.1.quarantined, decide (.deleted r.1.runID ⟨"n", .object, "x"⟩ "n_objects_dense" 5
          (some (objectPoint "y" "dense y")) ∈ r.2.2.2.log),
        r.2.2.2.points.entries.all fun e => decide (e.2 ≠ objectPoint "y" "dense y"))) =
      some ([], true, true) := by decide +kernel
  obtain ⟨report, w₁, w₂, w₃, hau, hp, hap, hf⟩ := repair_of_map hv
  obtain ⟨hc, hl, hg⟩ : report.quarantined = [] ∧ _ = true ∧ _ = true := by
    simpa only [Prod.mk.injEq] using hf
  refine ⟨report, w₁, w₂, w₃, apart_smallEnv, unissued_of_entries (by decide) (by decide), hau,
    hc, hp, hap, by decide, of_decide_eq_true hl, fun e he => ?_⟩
  exact of_decide_eq_true (List.all_eq_true.mp hg e he)

end Codohue.Repair
