import Codohue.RepairAudit

/-!
What an audit decides.

The decisions are read off the evidence, for a manifest with nothing in quarantine: an item
describes the points of its identity, and its target is the mapped id where no other identity
holds it, and a fresh id otherwise.
-/

namespace Codohue.Repair

variable {V : Type} {w : World V} {env : Env V}

/-! ### What was seen of an identity -/

variable {t : Table (EntityType × String) Observed} {p : CollectionEvidence}
  {ps : List CollectionEvidence} {ev : NamespaceEvidence} {k : EntityType × String}

/-- The points that carry the key. -/
def seen (ev : NamespaceEvidence) (k : EntityType × String) : List CollectionEvidence :=
  ev.points.filter fun p => p.key = k

def Labelled (ev : NamespaceEvidence) : Prop := ∀ p ∈ ev.points, p.stringID ≠ ""

lemma lookup_observe (hp : p.stringID ≠ "") (k : EntityType × String) :
    (observe t p).lookup k = if k = p.key then
      some ⟨((t.lookup k).getD ⟨[], false⟩).points ++ [p],
        ((t.lookup k).getD ⟨[], false⟩).unlabeled⟩
    else t.lookup k := by
  unfold observe
  rw [if_neg hp, Table.lookup_insert_eq]
  by_cases hk : k = p.key
  · rw [if_pos hk, if_pos hk, hk]
  · rw [if_neg hk, if_neg hk]

lemma lookup_foldl_observe (hps : ∀ p ∈ ps, p.stringID ≠ "")
    (t : Table (EntityType × String) Observed) (k : EntityType × String) :
    (ps.foldl observe t).lookup k = if ps.filter (fun p => p.key = k) = [] then t.lookup k else
      some ⟨((t.lookup k).getD ⟨[], false⟩).points ++ ps.filter (fun p => p.key = k),
        ((t.lookup k).getD ⟨[], false⟩).unlabeled⟩ := by
  induction ps generalizing t with
  | nil => rfl
  | cons p ps ih =>
    have hp := hps p List.mem_cons_self
    rw [List.foldl_cons, ih (fun q hq => hps q (List.mem_cons_of_mem _ hq)), lookup_observe hp]
    by_cases hk : p.key = k
    · rw [if_pos hk.symm, List.filter_cons_of_pos (by simpa using hk)]
      by_cases hr : ps.filter (fun p => p.key = k) = [] <;> simp [hr]
    · rw [if_neg (Ne.symm hk), List.filter_cons_of_neg (by simpa using hk)]

lemma lookup_foldl_observeMapping (ks : List (EntityType × String))
    (t : Table (EntityType × String) Observed) (k : EntityType × String) :
    (ks.foldl observeMapping t).lookup k =
      (t.lookup k).or (if k ∈ ks then some ⟨[], false⟩ else none) := by
  induction ks generalizing t with
  | nil => simp
  | cons k' ks ih =>
    rw [List.foldl_cons, ih]
    unfold observeMapping
    by_cases hn : (t.lookup k').isNone
    · rw [if_pos hn]
      by_cases hk : k = k'
      · subst hk
        rw [Option.isNone_iff_eq_none] at hn
        simp [hn]
      · simp [hk]
    · rw [if_neg hn]
      by_cases hk : k = k'
      · subst hk
        cases ht : t.lookup k with
        | none => simp [ht] at hn
        | some o => simp
      · simp [hk]

lemma lookup_byIdentity (hlab : Labelled ev) : (byIdentity ev).lookup k = some o ↔
      o = ⟨seen ev k, false⟩ ∧ (seen ev k ≠ [] ∨ k ∈ ev.mappings.map Prod.fst) := by
  have hl : (byIdentity ev).lookup k = _ := lookup_foldl_observeMapping _ _ k
  rw [hl, lookup_foldl_observe hlab, ← seen]
  by_cases hs : seen ev k = []
  · rw [hs]
    by_cases hk : k ∈ ev.mappings.map Prod.fst
    · simp [hk, eq_comm]
    · simp [hk]
  · simp [hs, eq_comm]

lemma unlabeled_observe
    (h : ∃ o, t.lookup k = some o ∧ o.unlabeled = true) (p : CollectionEvidence) :
    ∃ o, (observe t p).lookup k = some o ∧ o.unlabeled = true := by
  obtain ⟨o, ho, hun⟩ := h
  by_cases hp : p.stringID = ""
  · unfold observe
    rw [if_pos hp, Table.lookup_insert_eq]
    split_ifs
    · exact ⟨_, rfl, rfl⟩
    · exact ⟨o, ho, hun⟩
  · rw [lookup_observe hp]
    split_ifs
    · exact ⟨_, rfl, by rw [ho]; exact hun⟩
    · exact ⟨o, ho, hun⟩

lemma unlabeled_foldl (h : ∃ o, t.lookup k = some o ∧ o.unlabeled = true) :
    ∃ o, (ps.foldl observe t).lookup k = some o ∧ o.unlabeled = true := by
  induction ps generalizing t with
  | nil => exact h
  | cons p ps ih => exact ih (unlabeled_observe h p)

lemma unlabeled_of_mem (hp : p ∈ ps) (hl : p.stringID = "") :
    ∃ o, (ps.foldl observe ∅).lookup p.key = some o ∧ o.unlabeled = true := by
  obtain ⟨before, after, rfl⟩ := List.append_of_mem hp
  rw [List.foldl_append, List.foldl_cons]
  refine unlabeled_foldl ⟨⟨[{ p with payloadHash := "", vectorHash := "" }], true⟩, ?_, rfl⟩
  rw [observe, if_pos hl]
  exact AList.lookup_insert _

lemma exists_unlabeled (h : ¬ Labelled ev) :
    ∃ k o, (byIdentity ev).lookup k = some o ∧ o.unlabeled = true := by
  unfold Labelled at h
  push Not at h
  obtain ⟨p, hp, hl⟩ := h
  obtain ⟨o, ho, hun⟩ := unlabeled_of_mem hp hl
  refine ⟨p.key, o, ?_, hun⟩
  rw [byIdentity, lookup_foldl_observeMapping, ho]
  rfl

variable {item : Item} {items : List Item}

lemma mem_ordered : item ∈ ordered items ↔ item ∈ items :=
  List.mem_insertionSort _

lemma mem_auditNamespace : item ∈ auditNamespace ev ↔
      ∃ k o, (byIdentity ev).lookup k = some o ∧ item = auditItem ev k o := by
  rw [auditNamespace, mem_ordered, List.mem_map]
  constructor
  · rintro ⟨⟨k, o⟩, hm, rfl⟩
    exact ⟨k, o, AList.mem_lookup_iff.mpr hm, rfl⟩
  · rintro ⟨k, o, hl, rfl⟩
    exact ⟨⟨k, o⟩, AList.mem_lookup_iff.mp hl, rfl⟩

lemma labelled_of_decided
    (h : ∀ item ∈ auditNamespace ev, item.state ≠ .quarantined) : Labelled ev := by
  by_contra hlab
  obtain ⟨k, o, hl, hun⟩ := exists_unlabeled hlab
  refine h _ (mem_auditNamespace.mpr ⟨k, o, hl, rfl⟩) ?_
  rw [auditItem, if_pos hun]
  rfl

/-! ### What was seen, in terms of the stores -/

/-- The point is labelled with `x`. -/
def Carries (x : Identity) (p : Point V) : Prop := p.field x.entityType.idField = x.stringID

/-- `x` has a point under `n` in its collection of this kind. -/
def At (env : Env V) (w : World V) (x : Identity) (kind : CollectionKind) (n : ℤ) : Prop :=
  kind.entityType = x.entityType ∧
    ∃ p, w.points.lookup (env.collection x.ns kind, n) = some p ∧ Carries x p

lemma lookup_mappingsOf (w : World V) (x : Identity) :
    (mappingsOf w x.ns).lookup (x.entityType, x.stringID) = w.mappings.get x := by
  have hm : ∀ n, ((x.entityType, x.stringID), n) ∈ mappingsOf w x.ns ↔
      w.mappings.get x = some n := by
    intro n
    have hg : w.mappings.get x = some n ↔ ⟨x, n⟩ ∈ w.mappings.rows.entries :=
      AList.mem_lookup_iff
    rw [hg, mappingsOf, List.mem_map]
    constructor
    · rintro ⟨⟨⟨ns, type, text⟩, n'⟩, he, heq⟩
      obtain ⟨hm, hns⟩ := List.mem_filter.mp he
      obtain ⟨hk, rfl⟩ := Prod.mk.inj heq
      obtain ⟨rfl, rfl⟩ := Prod.mk.inj hk
      have hns' : ns = x.ns := of_decide_eq_true hns
      subst hns'
      exact hm
    · intro hm
      exact ⟨⟨x, n⟩, List.mem_filter.mpr ⟨hm, by simp⟩, rfl⟩
  refine Option.ext fun n => ?_
  constructor
  · intro hl
    obtain ⟨before, after, hs, -⟩ := List.lookup_eq_some_iff.mp hl
    exact (hm n).mp (by rw [hs]; simp)
  · intro hg
    cases hl : (mappingsOf w x.ns).lookup (x.entityType, x.stringID) with
    | none =>
      have hne := List.lookup_eq_none_iff.mp hl _ ((hm n).mpr hg)
      simp at hne
    | some n' =>
      obtain ⟨before, after, hs, -⟩ := List.lookup_eq_some_iff.mp hl
      have hg' := (hm n').mp (by rw [hs]; simp)
      rw [hg] at hg'
      exact hg'.symm

lemma mem_evidence : p ∈ (evidenceOf env w ns).points ↔ ∃ kind n pt,
      w.points.lookup (env.collection ns kind, n) = some pt ∧
        p = pointEvidence env ns kind n pt := by
  have hk : ∀ kind, kind ∈ collectionKinds := by
    intro kind
    cases kind <;> decide
  simp only [evidenceOf, pointsOf, List.mem_flatten, List.mem_map, exists_exists_and_eq_and,
    List.mem_filter, decide_eq_true_eq]
  constructor
  · rintro ⟨kind, -, ⟨⟨c, n⟩, pt⟩, ⟨hm, rfl⟩, rfl⟩
    exact ⟨kind, n, pt, AList.mem_lookup_iff.mpr hm, rfl⟩
  · rintro ⟨kind, n, pt, hl, rfl⟩
    exact ⟨kind, hk kind, ⟨(_, n), pt⟩, ⟨AList.mem_lookup_iff.mp hl, rfl⟩, rfl⟩

lemma key_of_labelled (h : p.stringID ≠ "") : p.key = (p.entityType, p.stringID) := by
  rw [CollectionEvidence.key, if_neg h]

variable {n : ℤ} {kind : CollectionKind} {c : String}

section Seen

variable {x : Identity} (hlab : Labelled (evidenceOf env w x.ns))

include hlab

lemma mem_seen :
    p ∈ seen (evidenceOf env w x.ns) (x.entityType, x.stringID) ↔
      ∃ kind n, At env w x kind n ∧ ∃ pt, w.points.lookup (env.collection x.ns kind, n) = some pt ∧
        p = pointEvidence env x.ns kind n pt := by
  rw [seen, List.mem_filter, decide_eq_true_eq]
  constructor
  · rintro ⟨hm, hk⟩
    rw [key_of_labelled (hlab p hm)] at hk
    obtain ⟨kind, n, pt, hl, rfl⟩ := mem_evidence.mp hm
    obtain ⟨ht, hla⟩ := Prod.mk.inj hk
    have ht' : kind.entityType = x.entityType := ht
    have hf : pt.field x.entityType.idField = x.stringID := by
      rw [← ht']
      exact hla
    exact ⟨kind, n, ⟨ht, pt, hl, hf⟩, pt, hl, rfl⟩
  · rintro ⟨kind, n, ⟨ht, pt', hl', hf⟩, pt, hl, rfl⟩
    obtain rfl : pt' = pt := Option.some.inj (hl'.symm.trans hl)
    have hm : pointEvidence env x.ns kind n pt' ∈ (evidenceOf env w x.ns).points :=
      mem_evidence.mpr ⟨kind, n, pt', hl, rfl⟩
    refine ⟨hm, ?_⟩
    rw [key_of_labelled (hlab _ hm)]
    change (kind.entityType, pt'.field kind.entityType.idField) = _
    rw [ht, hf]

lemma mem_numericIDs :
    n ∈ Observed.numericIDs ⟨seen (evidenceOf env w x.ns) (x.entityType, x.stringID), u⟩ ↔
      ∃ kind, At env w x kind n := by
  rw [Observed.numericIDs, List.mem_insertionSort, List.mem_dedup, List.mem_map]
  constructor
  · rintro ⟨p, hp, rfl⟩
    obtain ⟨kind, n, hat, pt, -, rfl⟩ := (mem_seen hlab).mp hp
    exact ⟨kind, hat⟩
  · rintro ⟨kind, hat⟩
    obtain ⟨-, pt, hl, -⟩ := id hat
    exact ⟨_, (mem_seen hlab).mpr ⟨kind, n, hat, pt, hl, rfl⟩, rfl⟩

lemma mem_collections : c ∈ (Observed.collections
        ⟨seen (evidenceOf env w x.ns) (x.entityType, x.stringID), u⟩).map Prod.fst ↔
      ∃ kind n, c = env.collection x.ns kind ∧ At env w x kind n := by
  rw [Observed.collections, List.map_map]
  change c ∈ List.map id _ ↔ _
  rw [List.map_id, List.mem_dedup, List.mem_map]
  constructor
  · rintro ⟨p, hp, rfl⟩
    obtain ⟨kind, n, hat, pt, -, rfl⟩ := (mem_seen hlab).mp hp
    exact ⟨kind, n, rfl, hat⟩
  · rintro ⟨kind, n, rfl, hat⟩
    obtain ⟨-, pt, hl, -⟩ := id hat
    exact ⟨_, (mem_seen hlab).mpr ⟨kind, n, hat, pt, hl, rfl⟩, rfl⟩

lemma at_unique (h : Observed.ambiguous
      ⟨seen (evidenceOf env w x.ns) (x.entityType, x.stringID), u⟩ = false) (hn : At env w x kind n)
    (hn' : At env w x kind n') : n = n' := by
  obtain ⟨-, pt, hl, -⟩ := id hn
  obtain ⟨-, pt', hl', -⟩ := id hn'
  have hp := (mem_seen hlab).mpr ⟨kind, n, hn, pt, hl, rfl⟩
  have hp' := (mem_seen hlab).mpr ⟨kind, n', hn', pt', hl', rfl⟩
  rw [Observed.ambiguous, List.any_eq_false] at h
  have hid := h _ (List.mem_map.mpr ⟨env.collection x.ns kind,
    List.mem_dedup.mpr (List.mem_map.mpr ⟨_, hp, rfl⟩), rfl⟩)
  rw [decide_eq_true_eq, not_lt] at hid
  -- both ids are in a list that has at most one element
  have hm : ∀ {p}, p ∈ seen (evidenceOf env w x.ns) (x.entityType, x.stringID) →
      p.collection = env.collection x.ns kind → p.numericID ∈ (((seen (evidenceOf env w x.ns)
        (x.entityType, x.stringID)).filter fun p => p.collection = env.collection x.ns kind).map
          CollectionEvidence.numericID).dedup := by
    intro p hp hc
    exact List.mem_dedup.mpr
      (List.mem_map.mpr ⟨p, List.mem_filter.mpr ⟨hp, by simpa using hc⟩, rfl⟩)
  have hn₁ := hm hp rfl
  have hn₂ := hm hp' rfl
  rcases Nat.le_one_iff_eq_zero_or_eq_one.mp hid with hz | ho
  · rw [List.length_eq_zero_iff.mp hz] at hn₁
    cases hn₁
  · obtain ⟨a, ha⟩ := List.length_eq_one_iff.mp ho
    rw [ha, List.mem_singleton] at hn₁ hn₂
    exact hn₁.trans hn₂.symm

end Seen

/-! ### The decisions -/

/-- Where `x` has points, no other identity has a point under `n`. -/
def Free (env : Env V) (w : World V) (x : Identity) (n : ℤ) : Prop :=
  ∀ kind m, At env w x kind m → ∀ pt, w.points.lookup (env.collection x.ns kind, n) = some pt →
    Carries x pt

lemma occupant_some (h : occupant points c n = some k) :
    ∃ p ∈ points, p.collection = c ∧ p.numericID = n ∧ p.stringID ≠ "" ∧ p.key = k := by
  obtain ⟨p, hla, hk⟩ := Option.map_eq_some_iff.mp h
  have hm := List.mem_of_getLast? hla
  rw [List.mem_filter, decide_eq_true_eq] at hm
  obtain ⟨hp, hl, hc, hn⟩ := hm
  exact ⟨p, hp, hc, hn, hl, hk⟩

lemma occupant_isSome (hp : p ∈ points) (hl : p.stringID ≠ "") :
    ∃ k, occupant points p.collection p.numericID = some k := by
  have hm : p ∈ points.filter fun q => q.stringID ≠ "" ∧ q.collection = p.collection ∧
      q.numericID = p.numericID := by
    simp [hp, hl]
  rw [occupant, List.getLast?_eq_some_getLast (List.ne_nil_of_mem hm)]
  exact ⟨_, rfl⟩

section Holder

variable {x : Identity} (hlab : Labelled (evidenceOf env w x.ns))

include hlab

lemma occupant_evidence :
    occupant (evidenceOf env w x.ns).points (env.collection x.ns kind) n = some k ↔
      ∃ pt, w.points.lookup (env.collection x.ns kind, n) = some pt ∧
        k = (kind.entityType, pt.field kind.entityType.idField) := by
  have hs : ∀ {k}, occupant (evidenceOf env w x.ns).points (env.collection x.ns kind) n =
      some k → ∃ pt, w.points.lookup (env.collection x.ns kind, n) = some pt ∧
        k = (kind.entityType, pt.field kind.entityType.idField) := by
    intro k h
    obtain ⟨p, hp, hc, hn, hla, hke⟩ := occupant_some h
    obtain ⟨kind', n', pt, hl, rfl⟩ := mem_evidence.mp hp
    obtain rfl : kind' = kind := collectionName_injective _ _ hc
    obtain rfl : n' = n := hn
    rw [key_of_labelled hla] at hke
    exact ⟨pt, hl, hke.symm⟩
  constructor
  · exact hs
  · rintro ⟨pt, hl, rfl⟩
    have hm : pointEvidence env x.ns kind n pt ∈ (evidenceOf env w x.ns).points :=
      mem_evidence.mpr ⟨kind, n, pt, hl, rfl⟩
    obtain ⟨k, hk⟩ := occupant_isSome hm (hlab _ hm)
    obtain ⟨pt', hl', rfl⟩ := hs hk
    obtain rfl : pt' = pt := Option.some.inj (hl'.symm.trans hl)
    exact hk

lemma targetHolder_eq_none : targetHolder (evidenceOf env w x.ns).points
        ⟨seen (evidenceOf env w x.ns) (x.entityType, x.stringID), u⟩ n
        (x.entityType, x.stringID) = none ↔ Free env w x n := by
  rw [targetHolder, List.findSome?_eq_none_iff]
  constructor
  · intro h kind m hat pt hl
    obtain ⟨e, he, hc⟩ := List.mem_map.mp ((mem_collections hlab (u := u)).mpr ⟨kind, m, rfl, hat⟩)
    have hn := h e he
    rw [hc, (occupant_evidence hlab).mpr ⟨pt, hl, rfl⟩, hat.1] at hn
    simpa [Carries] using hn
  · intro hfr e he
    obtain ⟨kind, m, hc, hat⟩ := (mem_collections hlab (u := u)).mp (List.mem_map.mpr ⟨e, he, rfl⟩)
    rw [hc, Option.filter_eq_none_iff]
    intro k hk
    obtain ⟨pt, hl, rfl⟩ := (occupant_evidence hlab).mp hk
    have hf := hfr kind m hat pt hl
    rw [hat.1, hf]
    simp

end Holder

lemma targetConflict_eq_empty :
    (targetHolder points o n k).elim "" Prod.snd = "" ↔ targetHolder points o n k = none := by
  cases hh : targetHolder points o n k with
  | none => simp
  | some k' =>
    have hne : k'.2 ≠ "" := by
      obtain ⟨e, -, he⟩ := List.exists_of_findSome?_eq_some hh
      obtain ⟨ho, -⟩ := Option.filter_eq_some_iff.mp he
      obtain ⟨p, hp, -, -, hl, rfl⟩ := occupant_some ho
      rwa [key_of_labelled hl]
    simpa using hne

lemma lastHash_concat (hashes : List String) (hash : String) :
    lastHash (hashes ++ [hash]) = if hash = "" then lastHash hashes else hash := by
  simp [lastHash]

lemma lastHash_mem (hne : hashes ≠ []) (h : ∀ hash ∈ hashes, hash ≠ "") :
    lastHash hashes ∈ hashes := by
  obtain ⟨init, last, rfl⟩ := (List.eq_nil_or_concat' hashes).resolve_left hne
  rw [lastHash_concat, if_neg (h last (by simp))]
  simp

/-- What an item says about the points it was made from. -/
structure Describes (env : Env V) (w : World V) (item : Item) : Prop where
  olds : ∀ n, n ∈ item.oldNumericIDs ↔ ∃ kind, At env w item.identity kind n
  collections : ∀ c, c ∈ itemCollections item ↔
    ∃ kind n, c = env.collection item.identity.ns kind ∧ At env w item.identity kind n
  dense : ∀ c, c ∈ item.sources.denseCollections ↔ ∃ kind n, kind.dense ∧
    c = env.collection item.identity.ns kind ∧ At env w item.identity kind n
  single : ∀ kind n n', At env w item.identity kind n → At env w item.identity kind n' → n = n'
  payload : (∀ payload, env.hashPayload payload ≠ "") → item.oldNumericIDs ≠ [] →
    ∃ p : Point V, Carries item.identity p ∧ item.payloadHash = env.hashPayload p.payload

lemma auditItem_fields (ev : NamespaceEvidence) (k : EntityType × String) (o : Observed) :
    (auditItem ev k o).identity = ⟨ev.ns, k.1, k.2⟩ ∧
    (auditItem ev k o).oldNumericIDs = o.numericIDs ∧
    (auditItem ev k o).sources.collections = o.collections ∧
    (auditItem ev k o).sources.denseCollections =
      (o.collections.map Prod.fst).filter (· ∈ ev.denseCollections) ∧
    (auditItem ev k o).payloadHash = lastHash (o.points.map CollectionEvidence.payloadHash) ∧
    (auditItem ev k o).sources.targetReassignedFrom = none ∧
    (auditItem ev k o).vectorHash = lastHash (o.points.map CollectionEvidence.vectorHash) := by
  by_cases hun : o.unlabeled
  · simp [auditItem, hun, Item.withState]
  by_cases ha : o.ambiguous
  · simp [auditItem, hun, ha, Item.withState]
  cases hm : ev.mappings.lookup k with
  | none => simp [auditItem, hun, ha, hm, Item.withState]
  | some target => simp [auditItem, hun, ha, hm]

lemma auditItem_decided (h : (auditItem ev k o).state ≠ .quarantined) :
    o.ambiguous = false ∧ (auditItem ev k o).state = .pending ∧ ∃ target,
      ev.mappings.lookup k = some target ∧ (auditItem ev k o).targetNumericID = some target ∧
      (auditItem ev k o).sources.targetConflictWith =
        (targetHolder ev.points o target k).elim "" Prod.snd := by
  by_cases hun : o.unlabeled
  · simp [auditItem, hun, Item.withState] at h
  by_cases ha : o.ambiguous
  · simp [auditItem, hun, ha, Item.withState] at h
  cases hm : ev.mappings.lookup k with
  | none => simp [auditItem, hun, ha, hm, Item.withState] at h
  | some target => simp [auditItem, hun, ha, hm]

lemma describes_auditItem (hlab : Labelled (evidenceOf env w x.ns))
    (hite : item = auditItem (evidenceOf env w x.ns) (x.entityType, x.stringID)
      ⟨seen (evidenceOf env w x.ns) (x.entityType, x.stringID), false⟩)
    (h : item.state ≠ .quarantined) : item.identity = x ∧ Describes env w item := by
  obtain ⟨hid, holds, hc, hd, hh, -⟩ := auditItem_fields (evidenceOf env w x.ns)
    (x.entityType, x.stringID) ⟨seen (evidenceOf env w x.ns) (x.entityType, x.stringID), false⟩
  rw [← hite] at hid holds hc hd hh
  have hx : item.identity = x := hid
  obtain ⟨ha, -⟩ := auditItem_decided (hite ▸ h)
  refine ⟨hx, ?_, ?_, ?_, ?_, ?_⟩
  · intro n
    rw [holds, hx]
    exact mem_numericIDs hlab
  · intro c
    rw [mem_itemCollections, hc, hx]
    exact mem_collections hlab
  · intro c
    rw [hd, List.mem_filter, mem_collections hlab, hx]
    constructor
    · rintro ⟨⟨kind, n, rfl, hat⟩, hm⟩
      rw [decide_eq_true_eq] at hm
      obtain ⟨kind', hk', heq⟩ := List.mem_map.mp hm
      obtain rfl : kind' = kind := collectionName_injective _ _ heq
      exact ⟨kind', n, (List.mem_filter.mp hk').2, rfl, hat⟩
    · rintro ⟨kind, n, hk, rfl, hat⟩
      refine ⟨⟨kind, n, rfl, hat⟩, ?_⟩
      rw [decide_eq_true_eq]
      refine List.mem_map.mpr ⟨kind, List.mem_filter.mpr ⟨?_, hk⟩, rfl⟩
      cases kind <;> decide
  · intro kind n n'
    rw [hx]
    exact at_unique hlab ha
  · intro hne ho
    obtain ⟨n, hn⟩ := List.exists_mem_of_ne_nil _ ho
    rw [holds, mem_numericIDs hlab] at hn
    obtain ⟨kind, hat⟩ := hn
    obtain ⟨-, pt, hl, -⟩ := id hat
    have hs := (mem_seen hlab).mpr ⟨kind, n, hat, pt, hl, rfl⟩
    have hm : item.payloadHash ∈ (seen (evidenceOf env w x.ns)
        (x.entityType, x.stringID)).map CollectionEvidence.payloadHash := by
      rw [hh]
      refine lastHash_mem (List.ne_nil_of_mem (List.mem_map.mpr ⟨_, hs, rfl⟩)) ?_
      intro hash hh'
      obtain ⟨p, hp, rfl⟩ := List.mem_map.mp hh'
      obtain ⟨kind', n', -, pt', -, rfl⟩ := (mem_seen hlab).mp hp
      exact hne pt'.payload
    obtain ⟨p, hp, heq⟩ := List.mem_map.mp hm
    obtain ⟨kind', n', ⟨-, pt', hl', hca⟩, pt'', hl'', rfl⟩ := (mem_seen hlab).mp hp
    obtain rfl : pt' = pt'' := Option.some.inj (hl'.symm.trans hl'')
    exact ⟨pt', hx ▸ hca, heq.symm⟩

namespace Reassigned

lemma mem (h : Reassigned lo hi items items') (hm : item' ∈ items') :
    ∃ item ∈ items, (¬ item.Contested ∧ item' = item) ∨
      (item.Contested ∧ ∃ n, lo ≤ n ∧ item' = item.reassign n) := by
  induction h with
  | nil => cases hm
  | keep item hite rest ih =>
    rcases List.mem_cons.mp hm with rfl | hm
    · exact ⟨item', List.mem_cons_self, .inl ⟨hite, rfl⟩⟩
    · obtain ⟨other, ho, hc⟩ := ih hm
      exact ⟨other, List.mem_cons_of_mem _ ho, hc⟩
  | @fresh lo hi items items' item hite rest ih =>
    rcases List.mem_cons.mp hm with rfl | hm
    · exact ⟨item, List.mem_cons_self, .inr ⟨hite, lo, le_refl lo, rfl⟩⟩
    · obtain ⟨other, ho, hc⟩ := ih hm
      refine ⟨other, List.mem_cons_of_mem _ ho, hc.imp_right ?_⟩
      rintro ⟨hco, n, hn, heq⟩
      exact ⟨hco, n, by omega, heq⟩

lemma exists_of_mem (h : Reassigned lo hi items items') (hm : item ∈ items) :
    ∃ item' ∈ items', item'.identity = item.identity ∧ item'.state = item.state := by
  induction h with
  | nil => cases hm
  | keep kept hk rest ih =>
    rcases List.mem_cons.mp hm with rfl | hm
    · exact ⟨item, List.mem_cons_self, rfl, rfl⟩
    · obtain ⟨item', hite', heq⟩ := ih hm
      exact ⟨item', List.mem_cons_of_mem _ hite', heq⟩
  | @fresh lo hi items items' moved hmo rest ih =>
    rcases List.mem_cons.mp hm with rfl | hm
    · exact ⟨item.reassign lo, List.mem_cons_self, rfl, rfl⟩
    · obtain ⟨item', hite', heq⟩ := ih hm
      exact ⟨item', List.mem_cons_of_mem _ hite', heq⟩

lemma fresh_ne (h : Reassigned lo hi items items')
    (hno : ∀ item ∈ items, item.sources.targetReassignedFrom = none) :
    items'.Pairwise fun a b => a.sources.targetReassignedFrom.isSome →
      b.sources.targetReassignedFrom.isSome → a.targetNumericID ≠ b.targetNumericID := by
  induction h with
  | nil => exact .nil
  | keep item hite rest ih =>
    refine .cons (fun b _ ha => ?_) (ih fun i hi => hno i (List.mem_cons_of_mem _ hi))
    rw [hno item List.mem_cons_self] at ha
    cases ha
  | @fresh lo hi items items' item hite rest ih =>
    refine .cons (fun b hb _ hf => ?_) (ih fun i hi => hno i (List.mem_cons_of_mem _ hi))
    obtain ⟨old, ho, ⟨-, rfl⟩ | ⟨-, n, hn, rfl⟩⟩ := rest.mem hb
    · rw [hno b (List.mem_cons_of_mem _ ho)] at hf
      cases hf
    · intro heq
      have hlo : lo = n := Option.some.inj heq
      omega

end Reassigned

/-- An item of a manifest with nothing in quarantine. Its target is the mapped id where that is
free, and a fresh one otherwise. -/
structure Decided (env : Env V) (w : World V) (item : Item) : Prop
    extends Describes env w item where
  ns : item.identity.ns ∈ env.namespaces
  pending : item.state = .pending
  target : ∃ n, w.mappings.get item.identity = some n ∧
    ((Free env w item.identity n ∧ item.targetNumericID = some n) ∨
      (¬ Free env w item.identity n ∧ item.sources.targetReassignedFrom = some n ∧
        ∃ n', w.nextID ≤ n' ∧ item.targetNumericID = some n'))

lemma mem_manifestOf : item ∈ manifestOf env w ↔
    ∃ ns ∈ env.namespaces, ∃ k o, (byIdentity (evidenceOf env w ns)).lookup k = some o ∧
      item = auditItem (evidenceOf env w ns) k o := by
  simp [manifestOf, mem_auditNamespace]

lemma fresh_targets_ne (hitems : Reassigned w.nextID hi (manifestOf env w) items) (ha : a ∈ items)
    (hb : b ∈ items) (hne : a ≠ b) (hfa : a.sources.targetReassignedFrom.isSome)
    (hfb : b.sources.targetReassignedFrom.isSome) : a.targetNumericID ≠ b.targetNumericID := by
  have hn : ∀ item ∈ manifestOf env w, item.sources.targetReassignedFrom = none := by
    intro item hite
    obtain ⟨ns, -, k, o, -, rfl⟩ := mem_manifestOf.mp hite
    exact (auditItem_fields _ _ _).2.2.2.2.2.1
  have hs : Std.Symm fun a b : Item => a.sources.targetReassignedFrom.isSome →
      b.sources.targetReassignedFrom.isSome → a.targetNumericID ≠ b.targetNumericID :=
    ⟨fun a b h hb ha heq => h ha hb heq.symm⟩
  exact (hitems.fresh_ne hn).forall ha hb hne hfa hfb

section Manifest

variable {hi : ℤ} {items : List Item} (hitems : Reassigned w.nextID hi (manifestOf env w) items)
  (hclean : ∀ item ∈ items, item.state ≠ .quarantined)

include hitems hclean

lemma labelled_of_clean (hns : ns ∈ env.namespaces) : Labelled (evidenceOf env w ns) := by
  refine labelled_of_decided fun item hite => ?_
  obtain ⟨k, o, hl, rfl⟩ := mem_auditNamespace.mp hite
  obtain ⟨item', hite', -, hs⟩ :=
    hitems.exists_of_mem (mem_manifestOf.mpr ⟨ns, hns, k, o, hl, rfl⟩)
  exact hs ▸ hclean item' hite'

/-- **The decisions of an audit** that put nothing in quarantine. -/
theorem decided_of_clean (hite : item ∈ items) : Decided env w item := by
  obtain ⟨old, ho, hca⟩ := hitems.mem hite
  obtain ⟨ns, hns, k, o, hl, ho⟩ := mem_manifestOf.mp ho
  have hlab := labelled_of_clean hitems hclean hns
  obtain ⟨rfl, -⟩ := (lookup_byIdentity hlab).mp hl
  have hs : old.state ≠ .quarantined := by
    rcases hca with ⟨-, rfl⟩ | ⟨-, n, -, rfl⟩
    · exact hclean item hite
    · exact fun h => hclean _ hite h
  obtain ⟨hx, hd⟩ := describes_auditItem (x := ⟨ns, k.1, k.2⟩) hlab ho hs
  obtain ⟨-, hp, n, hm, ht, hco⟩ := auditItem_decided (ho ▸ hs)
  rw [← ho] at hp ht hco
  have hg : w.mappings.get old.identity = some n := by
    rw [hx, ← lookup_mappingsOf]
    exact hm
  have hfr : old.sources.targetConflictWith = "" ↔ Free env w old.identity n := by
    rw [hco, targetConflict_eq_empty, hx]
    exact targetHolder_eq_none (x := ⟨ns, k.1, k.2⟩) hlab
  have hc : old.Contested ↔ ¬ Free env w old.identity n := by
    rw [← hfr, Item.Contested, ht]
    simp [hs]
  have hns' : old.identity.ns ∈ env.namespaces := by
    rw [hx]
    exact hns
  rcases hca with ⟨hk, rfl⟩ | ⟨hf, n', hn', rfl⟩
  · rw [hc, not_not] at hk
    exact ⟨hd, hns', hp, n, hg, .inl ⟨hk, ht⟩⟩
  · rw [hc] at hf
    exact ⟨⟨hd.olds, hd.collections, hd.dense, hd.single, hd.payload⟩, hns',
      hp, n, hg, .inr ⟨hf, ht, n', hn', rfl⟩⟩

lemma exists_item_of_at (hns : x.ns ∈ env.namespaces) (hat : At env w x kind n) :
    ∃ item ∈ items, item.identity = x := by
  have hlab := labelled_of_clean hitems hclean hns
  obtain ⟨-, pt, hlo, -⟩ := id hat
  have hs := (mem_seen hlab).mpr ⟨kind, n, hat, pt, hlo, rfl⟩
  have hl := (lookup_byIdentity hlab).mpr ⟨rfl, .inl (List.ne_nil_of_mem hs)⟩
  obtain ⟨item, hite, hid, -⟩ :=
    hitems.exists_of_mem (mem_manifestOf.mpr ⟨x.ns, hns, _, _, hl, rfl⟩)
  refine ⟨item, hite, ?_⟩
  rw [hid, (auditItem_fields _ _ _).1]
  rfl

end Manifest

/-! ### The manifest -/

/-- The decisions of an audit with nothing in quarantine, taken together. -/
structure Manifest (env : Env V) (w : World V) (items : List Item) : Prop where
  decided : ∀ item ∈ items, Decided env w item
  nodup : (items.map Item.identity).Nodup
  fresh_ne : ∀ a ∈ items, ∀ b ∈ items, a ≠ b → a.sources.targetReassignedFrom.isSome →
    b.sources.targetReassignedFrom.isSome → a.targetNumericID ≠ b.targetNumericID
  covers : ∀ x kind n, x.ns ∈ env.namespaces → At env w x kind n → ∃ item ∈ items, item.identity = x

lemma Manifest.distinct (h : Manifest env w items) (ha : a ∈ items) (hb : b ∈ items)
    (heq : a.identity = b.identity) : a = b :=
  List.inj_on_of_nodup_map h.nodup ha hb heq

lemma Opened.stores {id : ℕ} {w' : World V} (h : Opened env w id items w') :
    w'.mappings = w.mappings ∧ w'.points = w.points := by
  obtain ⟨_, _, hc⟩ := h
  cases hc <;> exact ⟨rfl, rfl⟩

/-- **The manifest of an audit.** -/
theorem Opened.manifest {id : ℕ} {w' : World V} (h : Opened env w id items w')
    (hclean : ∀ item ∈ items, item.state ≠ .quarantined) :
    ∃ row, w'.runs.get id = some row ∧ row.run.state = .audited ∧
      (∀ item, item ∈ row.items ↔ item ∈ items) ∧ Manifest env w row.items := by
  obtain ⟨w₁, n, hc, hitems, hk, hid, rfl⟩ := h
  have hm : ∀ item, item ∈ ordered items ↔ item ∈ items := fun _ => mem_ordered
  refine ⟨_, by rw [Runs.get_create, if_pos rfl], rfl, hm, ?_, ?_, ?_, ?_⟩
  · exact fun item hite => decided_of_clean hitems hclean ((hm item).mp hite)
  · exact hk
  · exact fun a ha b hb => fresh_targets_ne hitems ((hm a).mp ha) ((hm b).mp hb)
  · intro x kind n hns hat
    obtain ⟨item, hite, hx⟩ := exists_item_of_at hitems hclean hns hat
    exact ⟨item, (hm item).mpr hite, hx⟩

end Codohue.Repair
