import Codohue.RepairDecisions
import Codohue.Text
import Mathlib.Data.Finset.Sort

/-!
The rule that the audit of a namespace follows, stated for identities and unlabeled points one by
one, and the audit itself with every loop over a map in an order of its own.
-/

namespace Codohue.Repair

open Text

/-! ### Keys -/

/-! ### The audit, in any order -/

/-- The orders of the loops over maps: over the mappings, over the identities, and over the
collections of an identity. -/
structure Orders where
  mappings : List (EntityType × String) → List (EntityType × String)
  identities : List Item → List Item
  collections : EntityType × String → List (String × List ℤ) → List (String × List ℤ)
  mappings_perm : ∀ l, (mappings l).Perm l
  identities_perm : ∀ l, (identities l).Perm l
  collections_perm : ∀ k l, (collections k l).Perm l

/-- As the evidence lists them. -/
def Orders.listed : Orders := ⟨id, id, fun _ => id, .refl, .refl, fun _ => .refl⟩

section In

variable (O : Orders)

def byIdentityIn (ev : NamespaceEvidence) : Table (EntityType × String) Observed :=
  (O.mappings (ev.mappings.map Prod.fst)).foldl observeMapping (ev.points.foldl observe ∅)

def targetHolderIn (points : List CollectionEvidence) (o : Observed) (target : ℤ)
    (self : EntityType × String) : Option (EntityType × String) :=
  (O.collections self o.collections).findSome? fun e =>
    (occupant points e.1 target).filter (· ≠ self)

def auditItemIn (ev : NamespaceEvidence) (k : EntityType × String) (o : Observed) : Item :=
  let item := auditItem ev k o
  match item.targetNumericID with
  | none => item
  | some target =>
    { item with sources := { item.sources with
        targetConflictWith := (targetHolderIn O ev.points o target k).elim "" Prod.snd } }

def auditNamespaceIn (ev : NamespaceEvidence) : List Item :=
  ordered (O.identities ((byIdentityIn O ev).entries.map fun e => auditItemIn O ev e.1 e.2))

end In

lemma auditItemIn_listed (ev : NamespaceEvidence) (k : EntityType × String) (o : Observed) :
    auditItemIn .listed ev k o = auditItem ev k o := by
  by_cases hun : o.unlabeled = true
  · simp [auditItemIn, auditItem, hun, Item.withState]
  · by_cases ha : o.ambiguous = true
    · simp [auditItemIn, auditItem, hun, ha, Item.withState]
    · cases hm : ev.mappings.lookup k with
      | none => simp [auditItemIn, auditItem, hun, ha, hm, Item.withState]
      | some target =>
        simp [auditItemIn, auditItem, hun, ha, hm, targetHolderIn, targetHolder, Orders.listed]

lemma auditNamespaceIn_listed (ev : NamespaceEvidence) :
    auditNamespaceIn .listed ev = auditNamespace ev := by
  simp only [auditNamespaceIn, auditItemIn_listed]
  rfl

/-! ### The rule -/

/-- What an item says about an identity. -/
structure Decision where
  identity : Identity
  quarantined : Bool
  target : Option ℤ
  oldNumericIDs : List ℤ
  conflict : Bool
  deriving DecidableEq, Repr

def Item.decision (item : Item) : Decision where
  identity := item.identity
  quarantined := item.state = .quarantined
  target := item.targetNumericID
  oldNumericIDs := item.oldNumericIDs
  conflict := item.sources.targetConflictWith ≠ ""

section Rule

variable (ev : NamespaceEvidence)

def labelled : List CollectionEvidence := ev.points.filter fun p => p.stringID ≠ ""

def unlabeled : List CollectionEvidence := ev.points.filter fun p => p.stringID = ""

/-- The logical identities: those that have a point or a mapping. -/
def logical : List (EntityType × String) :=
  ((labelled ev).map CollectionEvidence.key ++ ev.mappings.map Prod.fst).dedup

/-- The points of an identity. -/
def pointsFor (k : EntityType × String) : List CollectionEvidence :=
  (labelled ev).filter fun p => p.key = k

/-- Two different ids in one collection. -/
def Split (points : List CollectionEvidence) : Prop :=
  ∃ p ∈ points, ∃ q ∈ points, p.collection = q.collection ∧ p.numericID ≠ q.numericID

instance (points : List CollectionEvidence) : Decidable (Split points) :=
  inferInstanceAs (Decidable (∃ p ∈ points, _))

/-- Another identity holds the id in a collection where this one has a point. -/
def Contended (k : EntityType × String) (n : ℤ) : Prop :=
  ∃ p ∈ pointsFor ev k, ∃ q ∈ labelled ev, q.key ≠ k ∧ q.collection = p.collection ∧
    q.numericID = n

instance (k : EntityType × String) (n : ℤ) : Decidable (Contended ev k n) :=
  inferInstanceAs (Decidable (∃ p ∈ pointsFor ev k, _))

/-- The mapping is authoritative, and what it cannot explain is quarantined. -/
def rule (k : EntityType × String) : Decision :=
  let quarantined : Bool :=
    Split (pointsFor ev k) ∨ (pointsFor ev k ≠ [] ∧ ev.mappings.lookup k = none)
  let target := if quarantined then none else ev.mappings.lookup k
  { identity := ⟨ev.ns, k.1, k.2⟩
    quarantined := quarantined
    target := target
    oldNumericIDs := ((pointsFor ev k).map CollectionEvidence.numericID).toFinset.sort
    conflict := target.any fun n => Contended ev k n }

def unlabeledRule (p : CollectionEvidence) : Decision where
  identity := ⟨ev.ns, p.key.1, p.key.2⟩
  quarantined := true
  target := none
  oldNumericIDs := [p.numericID]
  conflict := false

end Rule

/-! ### What was seen -/

/-- No numeric id occurs twice in a collection. -/
def UniqueIDs (ev : NamespaceEvidence) : Prop :=
  (ev.points.map fun p => (p.collection, p.numericID)).Nodup

instance (ev : NamespaceEvidence) : Decidable (UniqueIDs ev) :=
  inferInstanceAs (Decidable (List.Nodup _))

/-- The numeric ids are unique, and no text id contains a NUL. -/
structure Sound (ev : NamespaceEvidence) : Prop where
  unique : UniqueIDs ev
  points : ∀ p ∈ ev.points, '\x00' ∉ p.stringID.toList
  mappings : ∀ k ∈ ev.mappings.map Prod.fst, '\x00' ∉ k.2.toList

section Seen

variable {ev : NamespaceEvidence} {k : EntityType × String} {p q : CollectionEvidence}

lemma mem_labelled : p ∈ labelled ev ↔ p ∈ ev.points ∧ p.stringID ≠ "" := by
  simp [labelled]

lemma mem_unlabeled : p ∈ unlabeled ev ↔ p ∈ ev.points ∧ p.stringID = "" := by
  simp [unlabeled]

lemma mem_pointsFor : p ∈ pointsFor ev k ↔ p ∈ labelled ev ∧ p.key = k := by
  simp [pointsFor]

lemma nul_mem_key (hp : p.stringID = "") : '\x00' ∈ p.key.2.toList := by
  rw [CollectionEvidence.key, if_pos hp]
  simp only [String.toList_append]
  exact List.mem_append_left _ (List.mem_append_left _ (List.mem_append_left _ (by decide)))

lemma Sound.nul_notMem_key (h : Sound ev) (hp : p ∈ labelled ev) :
    '\x00' ∉ p.key.2.toList := by
  obtain ⟨hm, hl⟩ := mem_labelled.mp hp
  rw [key_of_labelled hl]
  exact h.points p hm

lemma key_inj (hp : p.stringID = "") (hq : q.stringID = "") (h : p.key = q.key) :
    (p.collection, p.numericID) = (q.collection, q.numericID) := by
  have hk := congrArg (fun k => k.2.toList) h
  simp only [CollectionEvidence.key, if_pos hp, if_pos hq, String.toList_append] at hk
  have hs : p.collection.toList ++ ':' :: (toString p.numericID).toList =
      q.collection.toList ++ ':' :: (toString q.numericID).toList := by
    simpa [List.append_assoc] using hk
  have hd : ∀ n : ℤ, ∀ c ∈ (toString n).toList, ¬ c = ':' := by
    rintro n c hc rfl
    rcases mem_toString_int hc with h | h <;> exact absurd h (by decide)
  obtain ⟨hco, -, hid⟩ :=
    split_right (P := (· = ':')) (hd _) (hd _) rfl rfl hs
  rw [String.toList_inj.mp hco, toString_int_injective (String.toList_inj.mp hid)]

lemma lookup_observe_ne (hk : k ≠ p.key) : (observe t p).lookup k = t.lookup k := by
  unfold observe
  split_ifs <;> exact AList.lookup_insert_ne hk

lemma lookup_foldl_observe_ne {ps : List CollectionEvidence} (h : ∀ p ∈ ps, k ≠ p.key) :
    (ps.foldl observe t).lookup k = t.lookup k := by
  induction ps generalizing t with
  | nil => rfl
  | cons p ps ih =>
    rw [List.foldl_cons, ih fun q hq => h q (List.mem_cons_of_mem _ hq),
      lookup_observe_ne (h p List.mem_cons_self)]

lemma lookup_observe_congr (h : t.lookup k = t'.lookup k) :
    (observe t p).lookup k = (observe t' p).lookup k := by
  by_cases hp : p.stringID = ""
  · simp only [observe, if_pos hp, Table.lookup_insert_eq, h]
  · rw [lookup_observe hp, lookup_observe hp, h]

lemma lookup_foldl_observe_filter {ps : List CollectionEvidence}
    (h : ∀ p ∈ ps, P p = false → k ≠ p.key) :
    ∀ t t' : Table (EntityType × String) Observed, t.lookup k = t'.lookup k →
      (ps.foldl observe t).lookup k = ((ps.filter P).foldl observe t').lookup k := by
  induction ps with
  | nil => exact fun t t' ht => ht
  | cons p ps ih =>
    intro t t' ht
    have hr : ∀ q ∈ ps, P q = false → k ≠ q.key := fun q hq => h q (List.mem_cons_of_mem _ hq)
    rw [List.filter_cons]
    split_ifs with hp
    · exact ih hr _ _ (lookup_observe_congr ht)
    · refine ih hr _ _ ?_
      rw [lookup_observe_ne (h p List.mem_cons_self (Bool.eq_false_iff.mpr hp)), ht]

lemma lookup_points (hk : '\x00' ∉ k.2.toList) :
    (ev.points.foldl observe ∅).lookup k =
      if pointsFor ev k = [] then none else some ⟨pointsFor ev k, false⟩ := by
  have hke : ∀ p ∈ ev.points, decide (p.stringID ≠ "") = false → k ≠ p.key := by
    intro p _ hp hkey
    have hp : p.stringID = "" := not_not.mp (of_decide_eq_false hp)
    exact hk (hkey ▸ nul_mem_key hp)
  have hf := lookup_foldl_observe_filter hke ∅ ∅ rfl
  rw [hf, ← labelled, lookup_foldl_observe fun p hp => (mem_labelled.mp hp).2]
  rfl

lemma Sound.lookup_unlabeled (h : Sound ev) (hp : p ∈ unlabeled ev) :
    (ev.points.foldl observe ∅).lookup p.key =
      some ⟨[{ p with payloadHash := "", vectorHash := "" }], true⟩ := by
  obtain ⟨hm, hl⟩ := mem_unlabeled.mp hp
  obtain ⟨before, after, hs⟩ := List.append_of_mem hm
  have ha : ∀ q ∈ after, p.key ≠ q.key := by
    intro q hq hk
    have hq' : q ∈ ev.points := by simp [hs, hq]
    by_cases hl' : q.stringID = ""
    · have hu := h.unique
      rw [UniqueIDs, hs, List.map_append, List.map_cons, List.nodup_append, List.nodup_cons] at hu
      exact hu.2.1.1 (key_inj hl hl' hk ▸ List.mem_map_of_mem hq)
    · exact h.nul_notMem_key (mem_labelled.mpr ⟨hq', hl'⟩) (hk ▸ nul_mem_key hl)
  rw [hs, List.foldl_append, List.foldl_cons, lookup_foldl_observe_ne ha, observe,
    if_pos hl]
  exact AList.lookup_insert _

variable (O : Orders)

lemma lookup_byIdentityIn : (byIdentityIn O ev).lookup k =
    ((ev.points.foldl observe ∅).lookup k).or
      (if k ∈ ev.mappings.map Prod.fst then some ⟨[], false⟩ else none) := by
  rw [byIdentityIn, lookup_foldl_observeMapping]
  simp only [(O.mappings_perm _).mem_iff]

lemma mem_logical : k ∈ logical ev ↔ pointsFor ev k ≠ [] ∨ k ∈ ev.mappings.map Prod.fst := by
  rw [logical, List.mem_dedup, List.mem_append, List.mem_map]
  refine or_congr_left ⟨?_, fun h => ?_⟩
  · rintro ⟨p, hp, hk⟩
    exact List.ne_nil_of_mem (mem_pointsFor.mpr ⟨hp, hk⟩)
  · obtain ⟨p, hp⟩ := List.exists_mem_of_ne_nil _ h
    exact ⟨p, mem_pointsFor.mp hp⟩

lemma Sound.nul_notMem (h : Sound ev) (hk : k ∈ logical ev) : '\x00' ∉ k.2.toList := by
  rcases mem_logical.mp hk with hpo | hm
  · obtain ⟨p, hp⟩ := List.exists_mem_of_ne_nil _ hpo
    obtain ⟨hl, rfl⟩ := mem_pointsFor.mp hp
    exact h.nul_notMem_key hl
  · exact h.mappings k hm

lemma Sound.lookup_logical (h : Sound ev) (hk : k ∈ logical ev) :
    (byIdentityIn O ev).lookup k = some ⟨pointsFor ev k, false⟩ := by
  rw [lookup_byIdentityIn, lookup_points (h.nul_notMem hk)]
  split_ifs with hp hm
  · simp [hp]
  · exact absurd hk fun hk => (mem_logical.mp hk).elim (absurd hp) hm
  · rfl
  · rfl

lemma Sound.lookup_unlabeled_key (h : Sound ev) (hp : p ∈ unlabeled ev) :
    (byIdentityIn O ev).lookup p.key =
      some ⟨[{ p with payloadHash := "", vectorHash := "" }], true⟩ := by
  rw [lookup_byIdentityIn, h.lookup_unlabeled hp]
  rfl

end Seen

/-! ### What was decided -/

section Decided

variable {ev : NamespaceEvidence} {k : EntityType × String}

lemma ambiguous_iff : Observed.ambiguous ⟨points, u⟩ = true ↔ Split points := by
  simp only [Observed.ambiguous, Observed.collections, List.any_map, List.any_eq_true,
    List.mem_dedup, List.mem_map, Function.comp_apply, decide_eq_true_eq, ← List.card_toFinset,
    Finset.one_lt_card, List.mem_toFinset, List.mem_filter]
  constructor
  · rintro ⟨c, -, a, ⟨p, ⟨hp, hpc⟩, rfl⟩, b, ⟨q, ⟨hq, hqc⟩, rfl⟩, hne⟩
    exact ⟨p, hp, q, hq, hpc.trans hqc.symm, hne⟩
  · rintro ⟨p, hp, q, hq, hc, hne⟩
    exact ⟨p.collection, ⟨p, hp, rfl⟩, _, ⟨p, ⟨hp, rfl⟩, rfl⟩, _, ⟨q, ⟨hq, hc.symm⟩, rfl⟩, hne⟩

lemma numericIDs_eq (o : Observed) :
    o.numericIDs = (o.points.map CollectionEvidence.numericID).toFinset.sort := by
  have hp : o.numericIDs.Perm (o.points.map CollectionEvidence.numericID).dedup :=
    List.perm_insertionSort _ _
  have hn : o.numericIDs.Nodup := hp.nodup_iff.mpr (List.nodup_dedup _)
  have hs : (o.points.map CollectionEvidence.numericID).toFinset = o.numericIDs.toFinset := by
    ext n
    rw [List.mem_toFinset, List.mem_toFinset, hp.mem_iff, List.mem_dedup]
  rw [hs]
  exact ((List.toFinset_sort (· ≤ ·) hn).mpr (List.pairwise_insertionSort _ _)).symm

lemma UniqueIDs.occupant_iff (h : UniqueIDs ev) :
    occupant ev.points c n = some k' ↔
      ∃ q ∈ labelled ev, q.collection = c ∧ q.numericID = n ∧ q.key = k' := by
  constructor
  · intro ho
    obtain ⟨q, hq, hc, hn, hl, hke⟩ := occupant_some ho
    exact ⟨q, mem_labelled.mpr ⟨hq, hl⟩, hc, hn, hke⟩
  · rintro ⟨q, hq, rfl, rfl, rfl⟩
    obtain ⟨hm, hl⟩ := mem_labelled.mp hq
    obtain ⟨k'', hk''⟩ := occupant_isSome hm hl
    obtain ⟨q', hm', hc, hn, -, rfl⟩ := occupant_some hk''
    have heq : q' = q := List.inj_on_of_nodup_map h hm' hm (Prod.ext hc hn)
    rw [hk'', heq]

lemma holder_ne_empty (h : targetHolderIn O ev.points o n k = some k') : k'.2 ≠ "" := by
  obtain ⟨e, -, he⟩ := List.exists_of_findSome?_eq_some h
  obtain ⟨ho, -⟩ := Option.filter_eq_some_iff.mp he
  obtain ⟨p, hp, -, -, hl, rfl⟩ := occupant_some ho
  rwa [key_of_labelled hl]

lemma UniqueIDs.conflict_iff (h : UniqueIDs ev) (O : Orders) :
    (targetHolderIn O ev.points ⟨pointsFor ev k, u⟩ n k).elim "" Prod.snd ≠ "" ↔
      Contended ev k n := by
  have hs : (targetHolderIn O ev.points ⟨pointsFor ev k, u⟩ n k).isSome ↔
      Contended ev k n := by
    simp only [targetHolderIn, List.findSome?_isSome_iff, (O.collections_perm _ _).mem_iff]
    constructor
    · rintro ⟨e, he, hh⟩
      obtain ⟨k', hk'⟩ := Option.isSome_iff_exists.mp hh
      obtain ⟨ho, hne⟩ := Option.filter_eq_some_iff.mp hk'
      obtain ⟨c, hc, rfl⟩ := List.mem_map.mp he
      obtain ⟨p, hp, rfl⟩ := List.mem_map.mp (List.mem_dedup.mp hc)
      obtain ⟨q, hq, hco, hn, rfl⟩ := h.occupant_iff.mp ho
      exact ⟨p, hp, q, hq, of_decide_eq_true hne, hco, hn⟩
    · rintro ⟨p, hp, q, hq, hne, hco, hn⟩
      refine ⟨_, List.mem_map.mpr ⟨p.collection, List.mem_dedup.mpr (List.mem_map_of_mem hp), rfl⟩,
        ?_⟩
      rw [h.occupant_iff.mpr ⟨q, hq, hco, hn, rfl⟩]
      simpa using hne
  rw [← hs]
  cases hh : targetHolderIn O ev.points ⟨pointsFor ev k, u⟩ n k with
  | none => simp
  | some k' => simpa using holder_ne_empty hh

lemma Sound.decision_logical (h : Sound ev) (O : Orders) (hk : k ∈ logical ev) :
    (auditItemIn O ev k ⟨pointsFor ev k, false⟩).decision = rule ev k := by
  have ha : Observed.ambiguous ⟨pointsFor ev k, false⟩ = true ↔ Split (pointsFor ev k) :=
    ambiguous_iff
  have hi := numericIDs_eq ⟨pointsFor ev k, false⟩
  by_cases hs : Split (pointsFor ev k)
  · simp [auditItemIn, auditItem, Item.decision, Item.withState, rule, ha.mpr hs, hs, hi]
  cases hm : ev.mappings.lookup k with
  | none =>
    have hp : pointsFor ev k ≠ [] := by
      refine (mem_logical.mp hk).resolve_right fun hme => ?_
      obtain ⟨e, he, rfl⟩ := List.mem_map.mp hme
      exact absurd (List.lookup_eq_none_iff.mp hm e he) (by simp)
    simp [auditItemIn, auditItem, Item.decision, Item.withState, rule, ha, hs, hm, hp,
      hi]
  | some target =>
    have hc := h.unique.conflict_iff O (k := k) (n := target) (u := false)
    simp [auditItemIn, auditItem, Item.decision, rule, ha, hs, hm, hi, ← hc]

end Decided

/-! ### The whole audit -/

section Audit

variable {ev : NamespaceEvidence}

lemma Sound.nodup_unlabeled (h : Sound ev) : ((unlabeled ev).map CollectionEvidence.key).Nodup := by
  have hpl : ((unlabeled ev).map fun p => (p.collection, p.numericID)).Nodup :=
    (List.filter_sublist.map _).nodup h.unique
  refine List.Nodup.map_on (fun p hp q hq hk => ?_) (List.Nodup.of_map _ hpl)
  exact List.inj_on_of_nodup_map hpl hp hq
    (key_inj (mem_unlabeled.mp hp).2 (mem_unlabeled.mp hq).2 hk)

lemma Sound.keys_perm (h : Sound ev) (O : Orders) :
    (byIdentityIn O ev).keys.Perm (logical ev ++ (unlabeled ev).map CollectionEvidence.key) := by
  have hn : (logical ev ++ (unlabeled ev).map CollectionEvidence.key).Nodup := by
    refine List.nodup_append.mpr ⟨List.nodup_dedup _, h.nodup_unlabeled, ?_⟩
    rintro k hk _ hk' rfl
    obtain ⟨p, hp, rfl⟩ := List.mem_map.mp hk'
    exact h.nul_notMem hk (nul_mem_key (mem_unlabeled.mp hp).2)
  rw [List.perm_ext_iff_of_nodup (AList.keys_nodup _) hn]
  intro k
  rw [← AList.mem_keys, ← AList.lookup_isSome, List.mem_append]
  constructor
  · intro hs
    by_contra hno
    obtain ⟨hl, hun⟩ := not_or.mp hno
    have hpo : ∀ p ∈ ev.points, k ≠ p.key := by
      rintro p hp rfl
      by_cases hla : p.stringID = ""
      · exact hun (List.mem_map_of_mem (mem_unlabeled.mpr ⟨hp, hla⟩))
      · exact hl (mem_logical.mpr (.inl (List.ne_nil_of_mem
          (mem_pointsFor.mpr ⟨mem_labelled.mpr ⟨hp, hla⟩, rfl⟩))))
    rw [lookup_byIdentityIn, lookup_foldl_observe_ne hpo,
      if_neg fun hm => hl (mem_logical.mpr (.inr hm))] at hs
    cases hs
  · rintro (hk | hk)
    · rw [h.lookup_logical O hk]
      rfl
    · obtain ⟨p, hp, rfl⟩ := List.mem_map.mp hk
      rw [h.lookup_unlabeled_key O hp]
      rfl

/-- The decision for a key, from what was seen of it. -/
def decisionOf (O : Orders) (ev : NamespaceEvidence) (k : EntityType × String) : Option Decision :=
  ((byIdentityIn O ev).lookup k).map fun o => (auditItemIn O ev k o).decision

lemma decisions_perm (O : Orders) (ev : NamespaceEvidence) :
    ((auditNamespaceIn O ev).map fun item => some item.decision).Perm
      ((byIdentityIn O ev).keys.map (decisionOf O ev)) := by
  have hen : ((byIdentityIn O ev).entries.map fun e => auditItemIn O ev e.1 e.2).map
      (fun item => some item.decision) = (byIdentityIn O ev).keys.map (decisionOf O ev) := by
    rw [List.map_map, AList.keys, List.keys, List.map_map]
    refine List.map_congr_left fun e he => ?_
    have hl := AList.mem_lookup_iff.mpr he
    rw [Function.comp_apply, Function.comp_apply, decisionOf, hl]
    rfl
  rw [← hen]
  exact ((List.perm_insertionSort _ _).trans (O.identities_perm _)).map _

/-- The audit follows the rule, in whatever order the points are listed and the maps are ranged
over: it returns one item for every logical identity and one for every unlabeled point, each with
the decision that the rule gives. -/
theorem audit_follows_rule (O : Orders) (ev : NamespaceEvidence) (h : Sound ev) :
    ((auditNamespaceIn O ev).map Item.decision).Perm
      ((logical ev).map (rule ev) ++ (unlabeled ev).map (unlabeledRule ev)) := by
  rw [← List.map_perm_map_iff (Option.some_injective _), List.map_map, List.map_append,
    List.map_map, List.map_map]
  refine (decisions_perm O ev).trans (((h.keys_perm O).map _).trans (.of_eq ?_))
  rw [List.map_append, List.map_map]
  refine congrArg₂ (· ++ ·) (List.map_congr_left fun k hk => ?_)
    (List.map_congr_left fun p hp => ?_)
  · rw [decisionOf, h.lookup_logical O hk, Option.map_some, h.decision_logical O hk]
    rfl
  · rw [Function.comp_apply, decisionOf, h.lookup_unlabeled_key O hp, Option.map_some]
    rfl

end Audit

/-- Two objects of which the first is mapped to the id that the second one holds, one without a
mapping, one without a point, and a point without a label. -/
def mixed : NamespaceEvidence where
  ns := "shop"
  mappings := [((.object, "a"), 1), ((.object, "b"), 2), ((.object, "d"), 4)]
  points := [⟨"shop_objects", .object, 7, "a", "p", "v"⟩,
    ⟨"shop_objects", .object, 1, "b", "p", "v"⟩,
    ⟨"shop_objects", .object, 3, "c", "p", "v"⟩, ⟨"shop_objects", .object, 9, "", "p", "v"⟩]
  denseCollections := []

theorem audit_follows_rule_mixed :
    ((auditNamespaceIn .listed mixed).map Item.decision).Perm
      [⟨⟨"shop", .object, "a"⟩, false, some 1, [7], true⟩,
        ⟨⟨"shop", .object, "b"⟩, false, some 2, [1], false⟩,
        ⟨⟨"shop", .object, "c"⟩, true, none, [3], false⟩,
        ⟨⟨"shop", .object, "d"⟩, false, some 4, [], false⟩,
        ⟨⟨"shop", .object, "\x00unlabeled:shop_objects:9"⟩, true, none, [9], false⟩] :=
  (audit_follows_rule .listed mixed ⟨by decide, by decide, by decide⟩).trans (by decide +kernel)

end Codohue.Repair
