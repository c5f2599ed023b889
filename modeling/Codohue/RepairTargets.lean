import Codohue.RepairRule

/-!
The targets that the items of an audit have once the contested ones are reassigned.

A fresh id is new to the sequence and to the mappings. Nothing compares it with the points, so it
may be the id of a point that the sequence has not reached.
-/

namespace Codohue.Repair

/-! ### Reassigning -/

instance (item : Item) : Decidable item.Contested := inferInstanceAs (Decidable (_ ∧ _ ∧ _))

/-- The contested items take the ids that `NextNumericID` returns, beginning with the one at `i`. -/
def reassignContestedTargets (fresh : ℕ → ℤ) : ℕ → List Item → List Item
  | _, [] => []
  | i, item :: items =>
    if item.Contested then item.reassign (fresh i) :: reassignContestedTargets fresh (i + 1) items
    else item :: reassignContestedTargets fresh i items

lemma Reassigned.eq_reassignContestedTargets (h : Reassigned lo hi items items') :
    items' = reassignContestedTargets (fun i => lo + i) 0 items := by
  suffices ∀ (fresh : ℕ → ℤ) (i : ℕ), (∀ j, fresh (i + j) = lo + j) →
      items' = reassignContestedTargets fresh i items from this _ 0 fun j => by simp
  induction h with
  | nil => exact fun _ _ _ => rfl
  | keep item hite rest ih =>
    intro fresh i hf
    rw [reassignContestedTargets, if_neg hite, ← ih fresh i hf]
  | @fresh lo hi items items' item hite rest ih =>
    intro fresh i hf
    have hn : ∀ j, fresh (i + 1 + j) = lo + 1 + j := by
      intro j
      rw [Nat.add_assoc, hf]
      push_cast
      omega
    have hfi : fresh i = lo := by simpa using hf 0
    rw [reassignContestedTargets, if_pos hite, ← ih fresh (i + 1) hn, hfi]

variable {fresh : ℕ → ℤ}

section Reassign

/-- The contested items, each with the id that it draws. -/
def draws (fresh : ℕ → ℤ) : ℕ → List Item → List (Item × ℤ)
  | _, [] => []
  | i, item :: items =>
    if item.Contested then (item, fresh i) :: draws fresh (i + 1) items else draws fresh i items

lemma of_mem_draws (h : x ∈ draws fresh i items) :
    x.1 ∈ items ∧ x.1.Contested ∧ ∃ j, i ≤ j ∧ x.2 = fresh j := by
  induction items generalizing i with
  | nil => cases h
  | cons item items ih =>
    rw [draws] at h
    split_ifs at h with hi
    · rcases List.mem_cons.mp h with rfl | h
      · exact ⟨List.mem_cons_self, hi, i, le_rfl, rfl⟩
      · obtain ⟨hm, hc, j, hj, heq⟩ := ih h
        exact ⟨List.mem_cons_of_mem _ hm, hc, j, by omega, heq⟩
    · obtain ⟨hm, hc⟩ := ih h
      exact ⟨List.mem_cons_of_mem _ hm, hc⟩

lemma exists_draw (h : item ∈ items) (hc : item.Contested) :
    ∃ n, (item, n) ∈ draws fresh i items := by
  induction items generalizing i with
  | nil => cases h
  | cons other items ih =>
    rw [draws]
    rcases List.mem_cons.mp h with rfl | h
    · exact ⟨fresh i, by rw [if_pos hc]; exact List.mem_cons_self⟩
    · split_ifs
      · exact (ih h).imp fun n hn => List.mem_cons_of_mem _ hn
      · exact ih h

lemma mem_reassignContestedTargets : item' ∈ reassignContestedTargets fresh i items ↔
    (item' ∈ items ∧ ¬ item'.Contested) ∨
      ∃ x ∈ draws fresh i items, item' = x.1.reassign x.2 := by
  induction items generalizing i with
  | nil => simp [reassignContestedTargets, draws]
  | cons item items ih =>
    rw [reassignContestedTargets, draws]
    split_ifs with hi
    · simp only [List.mem_cons, ih, exists_eq_or_imp]
      have hn : ¬ (item' = item ∧ ¬ item'.Contested) := fun h => h.2 (h.1 ▸ hi)
      tauto
    · simp only [List.mem_cons, ih]
      have hn : item' = item → ¬ item'.Contested := fun h => h ▸ hi
      tauto

/-- Two items of one kind do not aim at the same id. -/
def TargetsDiffer (a b : Item) : Prop :=
  a.resolved → b.resolved → a.identity.ns = b.identity.ns →
    a.identity.entityType = b.identity.entityType → a.targetNumericID ≠ b.targetNumericID

lemma pairwise_targetsDiffer {issued : Set ℤ}
    (hi : ∀ item ∈ items, ∀ n, item.targetNumericID = some n → n ∈ issued)
    (hf : ∀ j, fresh j ∉ issued) (hin : Function.Injective fresh)
    (h : items.Pairwise TargetsDiffer) :
    (reassignContestedTargets fresh i items).Pairwise TargetsDiffer := by
  induction items generalizing i with
  | nil => exact .nil
  | cons item items ih =>
    obtain ⟨hh, ht⟩ := List.pairwise_cons.mp h
    have hr := fun other ho => hi other (List.mem_cons_of_mem _ ho)
    rw [reassignContestedTargets]
    split_ifs with hite
    · refine .cons (fun b hb _ hre _ _ heq => ?_) (ih hr ht)
      rcases mem_reassignContestedTargets.mp hb with ⟨ho, -⟩ | ⟨x, hx, rfl⟩
      · exact hf i (hr b ho _ heq.symm)
      · obtain ⟨-, -, j, hj, hxj⟩ := of_mem_draws hx
        have hij : i = j := hin ((Option.some.inj heq).trans hxj)
        omega
    · refine .cons (fun b hb ha hre hns hty heq => ?_) (ih hr ht)
      rcases mem_reassignContestedTargets.mp hb with ⟨ho, -⟩ | ⟨x, hx, rfl⟩
      · exact hh b ho ha hre hns hty heq
      · obtain ⟨-, -, j, -, hxj⟩ := of_mem_draws hx
        exact hf j (hxj ▸ hi item List.mem_cons_self _ heq)

end Reassign

/-! ### The items of an audit -/

variable {ev : NamespaceEvidence}

section Audited

/-- Where no unlabeled point has taken its key, an identity has been seen with its points. -/
lemma eq_of_lookup_byIdentityIn (h : (byIdentityIn O ev).lookup k = some o)
    (hun : o.unlabeled = false) : o.points = pointsFor ev k := by
  have hk : ∀ p ∈ ev.points, decide (p.stringID ≠ "") = false → k ≠ p.key := by
    rintro p hp hl rfl
    obtain ⟨o', ho', hun'⟩ := unlabeled_of_mem hp (not_not.mp (of_decide_eq_false hl))
    rw [lookup_byIdentityIn, ho'] at h
    cases h
    exact absurd hun' (Bool.eq_false_iff.mp hun)
  have hf := lookup_foldl_observe_filter hk ∅ ∅ rfl
  rw [lookup_byIdentityIn, hf, ← labelled,
    lookup_foldl_observe fun p hp => (mem_labelled.mp hp).2, ← pointsFor] at h
  split_ifs at h with hn hm hm
  · cases h
    exact hn.symm
  · cases h
  · cases h
    rfl
  · cases h
    rfl

lemma mem_auditNamespaceIn : item ∈ auditNamespaceIn O ev ↔
      ∃ k o, (byIdentityIn O ev).lookup k = some o ∧ item = auditItemIn O ev k o := by
  rw [auditNamespaceIn, mem_ordered, (O.identities_perm _).mem_iff, List.mem_map]
  constructor
  · rintro ⟨⟨k, o⟩, hm, rfl⟩
    exact ⟨k, o, AList.mem_lookup_iff.mpr hm, rfl⟩
  · rintro ⟨k, o, hl, rfl⟩
    exact ⟨⟨k, o⟩, AList.mem_lookup_iff.mp hl, rfl⟩

lemma identity_auditItemIn : (auditItemIn O ev k o).identity = ⟨ev.ns, k.1, k.2⟩ := by
  have hf := (auditItem_fields ev k o).1
  cases ht : (auditItem ev k o).targetNumericID with
  | none | some target => simpa only [auditItemIn, ht] using hf

/-- A target comes from the mapping, and then the identity was seen with its points alone. -/
lemma of_target_auditItemIn (h : (auditItemIn O ev k o).targetNumericID = some n) :
    o.unlabeled = false ∧ ev.mappings.lookup k = some n ∧ (auditItemIn O ev k o).state = .pending ∧
      (auditItemIn O ev k o).sources.collections = o.collections ∧
      (auditItemIn O ev k o).sources.targetConflictWith =
        (targetHolderIn O ev.points o n k).elim "" Prod.snd := by
  by_cases hun : o.unlabeled
  · simp [auditItemIn, auditItem, hun, Item.withState] at h
  by_cases ha : o.ambiguous
  · simp [auditItemIn, auditItem, hun, ha, Item.withState] at h
  cases hm : ev.mappings.lookup k with
  | none => simp [auditItemIn, auditItem, hun, ha, hm, Item.withState] at h
  | some target =>
    obtain rfl : target = n := by simpa [auditItemIn, auditItem, hun, ha, hm] using h
    simp [auditItemIn, auditItem, hun, ha, hm]

end Audited

/-! ### All namespaces -/

/-- The items of the namespaces, with the contested targets reassigned. -/
def auditedItems (O : NamespaceEvidence → Orders) (fresh : ℕ → ℤ) (evs : List NamespaceEvidence) :
    List Item :=
  reassignContestedTargets fresh 0 (evs.flatMap fun ev => auditNamespaceIn (O ev) ev)

/-- No point of another identity lies at the id in a collection that the item is copied in. -/
def FreeAt (evs : List NamespaceEvidence) (item : Item) (n : ℤ) : Prop :=
  ∀ ev ∈ evs, ev.ns = item.identity.ns → ∀ q ∈ labelled ev,
    q.collection ∈ copyableCollections item → q.numericID = n →
      q.key = (item.identity.entityType, item.identity.stringID)

instance (evs : List NamespaceEvidence) (item : Item) (n : ℤ) : Decidable (FreeAt evs item n) :=
  inferInstanceAs (Decidable (∀ ev ∈ evs, _ → ∀ q ∈ labelled ev, _))

/-- What the stores guarantee: every namespace is listed once, a collection has one point under an
id, an id is mapped once for a kind, the mapped ids were issued by the sequence, and the fresh ones
were not. -/
structure Issued (evs : List NamespaceEvidence) (issued : Set ℤ) (fresh : ℕ → ℤ) : Prop where
  namespaces : (evs.map NamespaceEvidence.ns).Nodup
  unique : ∀ ev ∈ evs, UniqueIDs ev
  mappings : ∀ ev ∈ evs, (ev.mappings.map fun e => (e.1.1, e.2)).Nodup
  drawn : ∀ ev ∈ evs, ∀ e ∈ ev.mappings, e.2 ∈ issued
  unissued : ∀ i, fresh i ∉ issued
  injective : Function.Injective fresh

section Namespaces

variable {O : NamespaceEvidence → Orders} {evs : List NamespaceEvidence} {issued : Set ℤ}
variable {O : Orders} {item : Item}

lemma pairwise_identity (O : Orders) (ev : NamespaceEvidence) :
    (auditNamespaceIn O ev).Pairwise fun a b => a.identity ≠ b.identity := by
  have hp := ((List.perm_insertionSort (fun a b : Item => a.identity.le b.identity) _).trans
    (O.identities_perm ((byIdentityIn O ev).entries.map fun e => auditItemIn O ev e.1 e.2))).map
    Item.identity
  have hk : ((byIdentityIn O ev).entries.map fun e => auditItemIn O ev e.1 e.2).map
      Item.identity = (byIdentityIn O ev).keys.map fun k => ⟨ev.ns, k.1, k.2⟩ := by
    rw [List.map_map, AList.keys, List.keys, List.map_map]
    exact List.map_congr_left fun e _ => identity_auditItemIn
  have hn : ((auditNamespaceIn O ev).map Item.identity).Nodup := by
    refine hp.nodup_iff.mpr (hk ▸ (AList.keys_nodup _).map fun k k' h => ?_)
    obtain ⟨-, ht, hid⟩ := Identity.mk.inj h
    exact Prod.ext ht hid
  exact List.pairwise_map.mp hn

lemma mapped_of_target (hi : item ∈ auditNamespaceIn O ev) (ht : item.targetNumericID = some n) :
    ((item.identity.entityType, item.identity.stringID), n) ∈ ev.mappings := by
  obtain ⟨k, o, -, rfl⟩ := mem_auditNamespaceIn.mp hi
  obtain ⟨-, hm, -⟩ := of_target_auditItemIn ht
  rw [identity_auditItemIn]
  obtain ⟨before, after, heq, -⟩ := List.lookup_eq_some_iff.mp hm
  simp [heq]

lemma ns_of_mem (hi : item ∈ auditNamespaceIn O ev) : item.identity.ns = ev.ns := by
  obtain ⟨k, o, -, rfl⟩ := mem_auditNamespaceIn.mp hi
  rw [identity_auditItemIn]

lemma Issued.pairwise (h : Issued evs issued fresh) (O : NamespaceEvidence → Orders) :
    (evs.flatMap fun ev => auditNamespaceIn (O ev) ev).Pairwise TargetsDiffer := by
  refine List.pairwise_flatMap.mpr ⟨fun ev hev => ?_, ?_⟩
  · refine (pairwise_identity (O ev) ev).imp_of_mem fun {a b} ha hb hne hra _ hns ht heq => ?_
    obtain ⟨n, hn⟩ := Option.isSome_iff_exists.mp (of_decide_eq_true hra).2
    have hk := List.inj_on_of_nodup_map (h.mappings ev hev) (mapped_of_target ha hn)
      (mapped_of_target hb (heq ▸ hn)) (by rw [ht])
    obtain ⟨-, hid⟩ := Prod.mk.inj (Prod.mk.inj hk).1
    exact hne (Identity.mk.injEq .. ▸ ⟨hns, ht, hid⟩)
  · refine (List.pairwise_map.mp h.namespaces).imp fun {ev ev'} hne a ha b hb _ _ hns => ?_
    rw [ns_of_mem ha, ns_of_mem hb] at hns
    exact absurd hns hne

lemma UniqueIDs.key_of_target (h : UniqueIDs ev) (hi : item ∈ auditNamespaceIn O ev)
    (hf : ¬ item.Contested) (hq : q ∈ labelled ev) (hcop : q.collection ∈ copyableCollections item)
    (ht : item.targetNumericID = some q.numericID) :
    q.key = (item.identity.entityType, item.identity.stringID) := by
  obtain ⟨k, ⟨points, u⟩, hl, rfl⟩ := mem_auditNamespaceIn.mp hi
  obtain ⟨hun, -, hst, hco, hh⟩ := of_target_auditItemIn ht
  obtain rfl : points = pointsFor ev k := eq_of_lookup_byIdentityIn hl hun
  have hs := mem_itemCollections.mp (copyableCollections_subset _ hcop)
  rw [hco] at hs
  obtain ⟨e, he, hc⟩ := List.mem_map.mp hs
  obtain ⟨c, hm, rfl⟩ := List.mem_map.mp he
  obtain ⟨p, hp, rfl⟩ := List.mem_map.mp (List.mem_dedup.mp hm)
  have hcon : q.key ≠ k → Contended ev k q.numericID := fun hne =>
    ⟨p, hp, q, hq, hne, hc.symm, rfl⟩
  rw [identity_auditItemIn]
  by_contra hne
  refine hf ⟨by rw [hst]; decide, by rw [ht]; rfl, ?_⟩
  rw [hh]
  exact (h.conflict_iff O).mpr (hcon hne)

/-- No two items of a kind have the same target. And no target is the id of another identity's
point in a collection that is copied, exactly if that is so of the ids that the contested items
draw. -/
theorem repair_targets_free (h : Issued evs issued fresh) (O : NamespaceEvidence → Orders) :
    (auditedItems O fresh evs).Pairwise TargetsDiffer ∧
      ((∀ item ∈ auditedItems O fresh evs, item.resolved →
          ∀ n, item.targetNumericID = some n → FreeAt evs item n) ↔
        ∀ x ∈ draws fresh 0 (evs.flatMap fun ev => auditNamespaceIn (O ev) ev),
          FreeAt evs x.1 x.2) := by
  refine ⟨?_, fun hr x hx => ?_, fun hd item hi _ n hn => ?_⟩
  · refine pairwise_targetsDiffer (fun item hi n hn => ?_) h.unissued h.injective (h.pairwise O)
    obtain ⟨ev, hev, hm⟩ := List.mem_flatMap.mp hi
    exact h.drawn ev hev _ (mapped_of_target hm hn)
  · have hm := mem_reassignContestedTargets.mpr (.inr ⟨x, hx, rfl⟩)
    obtain ⟨-, hc, -⟩ := of_mem_draws hx
    exact hr _ hm (decide_eq_true ⟨hc.1, rfl⟩) x.2 rfl
  · rcases mem_reassignContestedTargets.mp hi with ⟨hi, hf⟩ | ⟨x, hx, rfl⟩
    · obtain ⟨ev', hev', hm⟩ := List.mem_flatMap.mp hi
      intro ev hev hns q hq hc hqn
      obtain rfl : ev = ev' :=
        List.inj_on_of_nodup_map h.namespaces hev hev' (hns.trans (ns_of_mem hm))
      exact (h.unique ev hev).key_of_target hm hf hq hc (hqn ▸ hn)
    · cases hn
      exact hd x hx

end Namespaces

/-- The points were written after the mappings' backup was taken: `c` lies at an id that the
restored sequence returns next. -/
def restored : NamespaceEvidence where
  ns := "shop"
  mappings := [((.object, "a"), 1), ((.object, "b"), 2), ((.object, "c"), 3)]
  points := [⟨"shop_objects_dense", .object, 7, "a", "p", "v"⟩,
    ⟨"shop_objects_dense", .object, 1, "b", "p", "v"⟩,
    ⟨"shop_objects_dense", .object, 4, "c", "p", "v"⟩]
  denseCollections := ["shop_objects_dense"]

/-- The sequence after `last`. -/
def idsAfter (last : ℤ) (i : ℕ) : ℤ := last + 1 + i

lemma idsAfter_injective (last : ℤ) : Function.Injective (idsAfter last) := by
  intro i j h
  unfold idsAfter at h
  omega

lemma issued_restored (hl : 3 ≤ last) :
    Issued [restored] (Set.Iic last) (idsAfter last) where
  namespaces := by decide
  unique := by decide
  mappings := by decide
  drawn := by
    have hle : ∀ ev ∈ [restored], ∀ e ∈ ev.mappings, e.2 ≤ 3 := by decide
    exact fun ev hev e he => (hle ev hev e he).trans hl
  unissued := by
    intro i hi
    rw [idsAfter, Set.mem_Iic] at hi
    omega
  injective := idsAfter_injective last

/-- `a` leaves the id of `b` for the one at which `c` lies. -/
theorem fresh_target_occupied : Issued [restored] (Set.Iic 3) (idsAfter 3) ∧
      ∃ item ∈ auditedItems (fun _ => .listed) (idsAfter 3) [restored],
        item.identity = ⟨"shop", .object, "a"⟩ ∧ item.resolved ∧
          copyableCollections item = ["shop_objects_dense"] ∧ item.targetNumericID = some 4 ∧
            ∃ q ∈ labelled restored, q.key = (.object, "c") ∧
              q.collection = "shop_objects_dense" ∧ q.numericID = 4 :=
  ⟨issued_restored le_rfl, by decide +kernel⟩

/-- With the sequence past every point, `a` gets an id of its own. -/
theorem repair_targets_free_restored :
    (auditedItems (fun _ => .listed) (idsAfter 7) [restored]).map Item.targetNumericID =
        [some 8, some 2, some 3] ∧
      (auditedItems (fun _ => .listed) (idsAfter 7) [restored]).Pairwise TargetsDiffer ∧
      ∀ item ∈ auditedItems (fun _ => .listed) (idsAfter 7) [restored], item.resolved →
        ∀ n, item.targetNumericID = some n → FreeAt [restored] item n := by
  obtain ⟨hd, hf⟩ := repair_targets_free (issued_restored (by decide : 3 ≤ (7 : ℤ)))
    fun _ => .listed
  exact ⟨by decide +kernel, hd, hf.mpr (by decide +kernel)⟩

end Codohue.Repair
