import Codohue.RecommendScores
import Codohue.RepairMoves
import Codohue.RepairTargets

/-!
The rows that an audit leaves in Postgres.

A text column takes no NUL, and the key that the audit makes up for a point without a logical id
begins with one. So the manifest of a namespace is stored only if each of its points has a label.
-/

namespace Codohue.Repair

open Script Prog

/-! ### Reading back -/

/-- `json.Unmarshal` makes a `float64` of a number. -/
def decodeNumber (n : ℤ) : ℤ := n.sign * Recommend.roundToEven 53 n.natAbs

def Sources.readBack (s : Sources) : Sources where
  collections := s.collections.map fun e => (e.1, e.2.map decodeNumber)
  denseCollections := s.denseCollections
  targetConflictWith := s.targetConflictWith
  targetReassignedFrom := s.targetReassignedFrom.map decodeNumber
  dense_subset := by
    rw [List.map_map]
    exact s.dense_subset

/-- The item as `ListItems` returns it. Only the sources go through JSON. -/
def Item.readBack (item : Item) : Item := { item with sources := item.sources.readBack }

/-- The numbers in the sources of the item are exact as `float64`. -/
def Item.Exact (item : Item) : Prop :=
  (∀ e ∈ item.sources.collections, ∀ n ∈ e.2, decodeNumber n = n) ∧
    ∀ n, item.sources.targetReassignedFrom = some n → decodeNumber n = n

lemma map_eq_self_iff {α : Type} {f : α → α} {l : List α} : l.map f = l ↔ ∀ a ∈ l, f a = a := by
  simpa using List.map_inj_left (f := f) (g := id) (l := l)

lemma Item.readBack_eq_iff {item : Item} : item.readBack = item ↔ item.Exact := by
  obtain ⟨identity, olds, target, ⟨collections, dense, conflict, origin, hd⟩, _⟩ := item
  have ho : origin.map decodeNumber = origin ↔ ∀ n, origin = some n → decodeNumber n = n := by
    cases origin <;> simp
  simp only [Item.readBack, Sources.readBack, Item.Exact, Item.mk.injEq, Sources.mk.injEq,
    map_eq_self_iff, Prod.ext_iff, ho, true_and, and_true]

/-! ### Evidence that can be stored -/

/-- The namespace and its mappings come from text columns. -/
structure TextRows (ev : NamespaceEvidence) : Prop where
  ns : '\x00' ∉ ev.ns.toList
  mappings : ∀ e ∈ ev.mappings, '\x00' ∉ e.1.2.toList

/-- Every point has a label without a NUL, and the ids that go into the sources are exact as
`float64`. -/
structure Presentable (ev : NamespaceEvidence) : Prop where
  labelled : Labelled ev
  texts : ∀ p ∈ ev.points, '\x00' ∉ p.stringID.toList
  points : ∀ p ∈ ev.points, decodeNumber p.numericID = p.numericID
  /-- The mapped ids that are given up since another identity holds them. -/
  contested : ∀ item ∈ auditNamespace ev, item.Contested →
    ∀ n, item.targetNumericID = some n → decodeNumber n = n

section Evidence

lemma Presentable.storable (h : Presentable ev) (ht : TextRows ev)
    (hi : item ∈ auditNamespace ev) : storable item := by
  obtain ⟨k, o, hl, rfl⟩ := mem_auditNamespace.mp hi
  obtain ⟨-, hk⟩ := (lookup_byIdentity h.labelled).mp hl
  have hid : '\x00' ∉ k.2.toList := by
    rcases hk with hs | hma
    · obtain ⟨p, hp⟩ := List.exists_mem_of_ne_nil _ hs
      obtain ⟨hm, hke⟩ := List.mem_filter.mp hp
      rw [← of_decide_eq_true hke, key_of_labelled (h.labelled p hm)]
      exact h.texts p hm
    · obtain ⟨e, he, rfl⟩ := List.mem_map.mp hma
      exact ht.mappings e he
  rw [Repair.storable, (auditItem_fields ev k o).1]
  exact decide_eq_true ⟨ht.ns, hid⟩

lemma Presentable.exact (h : Presentable ev) (hi : item ∈ auditNamespace ev) : item.Exact := by
  obtain ⟨k, o, hl, rfl⟩ := mem_auditNamespace.mp hi
  obtain ⟨rfl, -⟩ := (lookup_byIdentity h.labelled).mp hl
  obtain ⟨-, -, hc, -, -, hf, -⟩ := auditItem_fields ev k ⟨seen ev k, false⟩
  constructor
  · intro e he n hn
    rw [hc] at he
    obtain ⟨c, -, rfl⟩ := List.mem_map.mp he
    obtain ⟨p, hp, rfl⟩ := List.mem_map.mp hn
    exact h.points p (List.mem_filter.mp (List.mem_filter.mp hp).1).1
  · intro n hn
    rw [hf] at hn
    cases hn

lemma Presentable.exact_reassign (h : Presentable ev) (hi : item ∈ auditNamespace ev)
    (hc : item.Contested) (n : ℤ) : (item.reassign n).Exact :=
  ⟨(h.exact hi).1, h.contested item hi hc⟩

lemma exists_item_of_mem (hp : p ∈ ev.points) (hl : p.stringID = "" ∨ Labelled ev) :
    ∃ o, auditItem ev p.key o ∈ auditNamespace ev ∧ (Labelled ev → p ∈ o.points) := by
  by_cases hlab : Labelled ev
  · have hs : p ∈ seen ev p.key := List.mem_filter.mpr ⟨hp, decide_eq_true rfl⟩
    exact ⟨_, mem_auditNamespace.mpr ⟨_, _, (lookup_byIdentity hlab).mpr
      ⟨rfl, .inl (List.ne_nil_of_mem hs)⟩, rfl⟩, fun _ => hs⟩
  · obtain ⟨o, ho, -⟩ := unlabeled_of_mem hp (hl.resolve_right hlab)
    refine ⟨o, mem_auditNamespace.mpr ⟨_, _, ?_, rfl⟩, fun h => absurd h hlab⟩
    rw [byIdentity, lookup_foldl_observeMapping, ho]
    rfl

lemma presentable_of_forall (hs : ∀ item ∈ auditNamespace ev, storable item)
    (he : ∀ item ∈ auditNamespace ev, item.Exact)
    (hc : ∀ item ∈ auditNamespace ev, item.Contested → ∃ n, (item.reassign n).Exact) :
    Presentable ev := by
  have hn : ∀ p ∈ ev.points, p.stringID = "" ∨ Labelled ev → '\x00' ∉ p.key.2.toList := by
    intro p hp hl
    obtain ⟨o, ho, -⟩ := exists_item_of_mem hp hl
    have hst := of_decide_eq_true (hs _ ho)
    rw [(auditItem_fields ev p.key o).1] at hst
    exact hst.2
  have hlab : Labelled ev := by
    intro p hp hl
    refine hn p hp (.inl hl) ?_
    rw [CollectionEvidence.key, if_pos hl]
    simp
  refine ⟨hlab, fun p hp => ?_, fun p hp => ?_, fun item hi hco n ht => ?_⟩
  · have := hn p hp (.inr hlab)
    rwa [key_of_labelled (hlab p hp)] at this
  · obtain ⟨o, ho, hm⟩ := exists_item_of_mem hp (.inr hlab)
    have hx := (he _ ho).1
    rw [(auditItem_fields ev p.key o).2.2.1] at hx
    refine hx _ (List.mem_map_of_mem (List.mem_dedup.mpr (List.mem_map_of_mem (hm hlab)))) _ ?_
    exact List.mem_map_of_mem (List.mem_filter.mpr ⟨hm hlab, decide_eq_true rfl⟩)
  · obtain ⟨m, hx⟩ := hc item hi hco
    exact hx.2 n ht

end Evidence

/-! ### The audit -/

section Audit

variable {V : Type} {env : Env V} {w : World V}

/-- The items that an undisturbed audit stores. -/
def itemsOf (env : Env V) (w : World V) : List Item :=
  reassignContestedTargets (fun i => w.nextID + i) 0 (manifestOf env w)

lemma identity_reassignContestedTargets (fresh : ℕ → ℤ) (i : ℕ) (items : List Item) :
    (reassignContestedTargets fresh i items).map Item.identity = items.map Item.identity := by
  induction items generalizing i with
  | nil => rfl
  | cons item items ih =>
    rw [reassignContestedTargets]
    split_ifs with hi
    · rw [List.map_cons, ih]
      rfl
    · rw [List.map_cons, List.map_cons, ih]

lemma nodup_itemsOf (hns : env.namespaces.Nodup) :
    ((ordered (itemsOf env w)).map Item.identity).Nodup := by
  have hp := (List.perm_insertionSort (fun a b : Item => a.identity.le b.identity)
    (itemsOf env w)).map Item.identity
  refine hp.nodup_iff.mpr ?_
  rw [itemsOf, identity_reassignContestedTargets]
  refine List.pairwise_map.mpr (List.pairwise_flatMap.mpr ⟨fun ev _ => ?_, ?_⟩)
  · rw [← auditNamespaceIn_listed]
    exact pairwise_identity _ ev
  · refine List.pairwise_map.mpr (hns.imp fun {ns ns'} hne a ha b hb heq => hne ?_)
    rw [← auditNamespaceIn_listed] at ha hb
    exact (ns_of_mem ha).symm.trans ((congrArg Identity.ns heq).trans (ns_of_mem hb))

lemma total_evidence (ns : String) : Total (evidence env ns) :=
  (total_read _).bind fun _ => (total_read _).bind fun _ =>
    (total_mapEach (fun _ => (total_read _).bind fun _ => total_pure _) _).bind fun _ =>
      total_pure _

lemma total_reassignContestedTarget (item : Item) :
    Total (reassignContestedTarget item : RepairM V Item) := by
  unfold reassignContestedTarget
  split
  · split_ifs
    · exact total_pure _
    · exact (Total.mapErr (total_op fun w => ⟨_, rfl⟩) _).bind fun _ => total_pure _
  · exact total_pure _

lemma wp_makeWay_healthy (hw : ∀ id row, w.runs.get id = some row → row.run.state.active →
    supersedable row.run.state) :
    Wp Healthy (makeWay w.runs.activeRun) (fun _ => False) (fun _ => Cleared w) w := by
  cases ha : w.runs.activeRun with
  | none => exact wp_pure (.idle (Runs.activeRun_eq_none.mp ha))
  | some found =>
    obtain ⟨id, run⟩ := found
    obtain ⟨row, hr, rfl, hs⟩ := Runs.activeRun_some ha
    have hsu := hw id row hr hs
    refine wp_bind (wp_require (fun _ => ?_) fun hn => hn hsu)
    refine wp_mapErr (wp_updateRun_healthy (fun _ _ hf => by cases hf) fun runs hu => ?_)
    exact Cleared.superseded id row runs hr hs hsu hu

lemma Cleared.not_inFlight (h : Cleared w w₁) : ¬ w₁.runs.InFlight := by
  cases h with
  | idle h => exact h
  | superseded id row runs hr ha hs hu =>
    rintro ⟨⟨other, row'⟩, hm, ha'⟩
    have hg : runs.get other = some row' := AList.mem_lookup_iff.mpr hm
    by_cases hne : other = id
    · subst hne
      cases (hu.get hr).symm.trans hg
      cases ha'
    · rw [hu.others other hne] at hg
      exact hne (w.runs.single other id row' row hg hr ha' ha)

lemma wp_createRun_healthy {S : World V → Prop} {D : ℕ × RepairRun → World V → Prop}
    (hi : ¬ w.runs.InFlight) (hk : ((ordered items).map Item.identity).Nodup)
    (hn : ¬ items.all storable → S w)
    (h : items.all storable →
      let run : RepairRun := ⟨.audited, "", [], manifestHash sha256 items, [], ""⟩
      D (w.runs.next, run) { w with
        runs := w.runs.create ⟨run, ordered items, hk⟩ hi
        log := .opened w.runs.next :: w.log }) : Wp Healthy (createRun sha256 items) S D w := by
  by_cases ha : items.all storable
  · exact wp_op_healthy (by rw [dif_neg hi, dif_pos hk, if_pos ha]) (h ha)
  · refine wp_op trivial (hn ha) fun a w' hf => ?_
    rw [dif_neg hi, dif_pos hk, if_neg ha] at hf
    cases hf

/-- The items that are stored are storable and exact, if the evidence is presentable. -/
lemma forall_itemsOf_iff (ht : ∀ ns ∈ env.namespaces, TextRows (evidenceOf env w ns)) :
    (∀ item ∈ itemsOf env w, storable item ∧ item.Exact) ↔
      ∀ ns ∈ env.namespaces, Presentable (evidenceOf env w ns) := by
  constructor
  · intro h ns hns
    have hm : ∀ item ∈ auditNamespace (evidenceOf env w ns), item ∈ manifestOf env w :=
      fun item hi => List.mem_flatMap.mpr ⟨_, List.mem_map_of_mem hns, hi⟩
    have hx : ∀ item ∈ auditNamespace (evidenceOf env w ns), storable item ∧ item.Exact ∧
        (item.Contested → ∃ n, (item.reassign n).Exact) := by
      intro item hi
      by_cases hc : item.Contested
      · obtain ⟨n, hn⟩ : ∃ n, (item, n) ∈ draws (fun i => w.nextID + i) 0 (manifestOf env w) :=
          exists_draw (hm item hi) hc
        have hr := h _ (mem_reassignContestedTargets.mpr (.inr ⟨_, hn, rfl⟩))
        obtain ⟨k, o, -, rfl⟩ := mem_auditNamespace.mp hi
        refine ⟨hr.1, ⟨hr.2.1, fun m hf => ?_⟩, fun _ => ⟨n, hr.2⟩⟩
        rw [(auditItem_fields _ k o).2.2.2.2.2.1] at hf
        cases hf
      · have hr := h _ (mem_reassignContestedTargets.mpr (.inl ⟨hm item hi, hc⟩))
        exact ⟨hr.1, hr.2, fun h => absurd h hc⟩
    exact presentable_of_forall (fun item hi => (hx item hi).1) (fun item hi => (hx item hi).2.1)
      fun item hi => (hx item hi).2.2
  · intro h item' hi'
    have hp : ∀ item ∈ manifestOf env w, ∃ ns ∈ env.namespaces,
        item ∈ auditNamespace (evidenceOf env w ns) := by
      intro item hi
      obtain ⟨ev, hev, hm⟩ := List.mem_flatMap.mp hi
      obtain ⟨ns, hns, rfl⟩ := List.mem_map.mp hev
      exact ⟨ns, hns, hm⟩
    rcases mem_reassignContestedTargets.mp hi' with ⟨hi, -⟩ | ⟨x, hx, rfl⟩
    · obtain ⟨ns, hns, hm⟩ := hp _ hi
      exact ⟨(h ns hns).storable (ht ns hns) hm, (h ns hns).exact hm⟩
    · obtain ⟨hi, hc, -⟩ := of_mem_draws hx
      obtain ⟨ns, hns, hm⟩ := hp _ hi
      have hs := (h ns hns).storable (ht ns hns) hm
      exact ⟨hs, (h ns hns).exact_reassign hm hc _⟩

lemma wp_audit_healthy (hns : env.namespaces.Nodup)
    (hw : ∀ id row, w.runs.get id = some row → row.run.state.active →
      supersedable row.run.state) :
    Wp Healthy (audit env) (fun _ => ¬ (itemsOf env w).all storable) (fun report w' =>
      (itemsOf env w).all storable ∧
        ∃ row, w'.runs.get report.runID = some row ∧ row.items = ordered (itemsOf env w)) w := by
  refine wp_bind (wp_read_healthy rfl ?_)
  refine wp_bind (wp_mono (wp_makeWay_healthy hw) (fun _ => False.elim) fun _ w₁ hc => ?_)
  refine wp_bind (wp_mapErr (wp_read_healthy rfl ?_))
  have ht := total_mapEach (fun ns => Total.mapErr (m := evidence env ns) (total_evidence ns)
    (Error.wrap ("collect evidence for " ++ ns))) env.namespaces
  refine wp_bind (wp_mono (ht.wp (wp_evidences trivial _)) (fun _ => False.elim) ?_)
  rintro found w' ⟨rfl, rfl⟩
  rw [hc.manifest]
  have hr := (total_mapEach total_reassignContestedTarget (manifestOf env w)).wp
    (wp_reassignAll trivial (manifestOf env w) w')
  refine wp_bind (wp_mono hr (fun _ => False.elim) ?_)
  rintro items w₂ ⟨n, rfl, hd⟩
  rw [hc.nextID] at hd
  obtain rfl : items = itemsOf env w := hd.eq_reassignContestedTargets
  have hi : ¬ w'.runs.InFlight := hc.not_inFlight
  let row : Row := ⟨⟨.audited, "", [], manifestHash env.sha256 (itemsOf env w), [], ""⟩,
    ordered (itemsOf env w), nodup_itemsOf hns⟩
  have hg : (w'.runs.create row hi).get w'.runs.next = some row := by
    rw [Runs.get_create, if_pos rfl]
  exact wp_bind (wp_createRun_healthy hi row.distinct id fun ha => wp_pure ⟨ha, row, hg, rfl⟩)

lemma apply_quarantined {run : ℕ} (hro : w.runs.get run = some row) (hi : item ∈ row.items)
    (hs : item.state = .quarantined) (script : List (Reply Error Torn)) :
    (∀ a, ((apply env run).run script w).ending ≠ .ok a) ∧
      ((apply env run).run script w).world = w := by
  have ha : Wp (fun _ => True) (apply env run) (· = w) (fun _ _ => False) w := by
    refine wp_apply trivial rfl (fun _ => False.elim) fun row' hro' hg => ?_
    obtain rfl : row = row' := Option.some.inj (hro.symm.trans hro')
    exact absurd hs (hg.decided item hi)
  have he := ha script fun _ _ => trivial
  rcases hr : ((apply env run).run script w).ending with a | e | _ <;> rw [hr] at he
  · exact he.elim
  · exact ⟨nofun, he⟩
  · exact ⟨nofun, he⟩

/-- **The manifest is stored** exactly if each point has a label that a text column takes and the
ids in the sources are exact as `float64`: then the audit returns, it leaves one row for each item,
and the rows read back as the items. As long as a row is quarantined, apply moves nothing. -/
theorem audit_stores_rows (env : Env V) (w : World V) (hns : env.namespaces.Nodup)
    (hway : ∀ id row, w.runs.get id = some row → row.run.state.active → supersedable row.run.state)
    (htext : ∀ ns ∈ env.namespaces, TextRows (evidenceOf env w ns)) :
    ((∃ report w' row, (audit env).run [] w = ⟨.ok report, [], w'⟩ ∧
        w'.runs.get report.runID = some row ∧
        (row.items.map Item.readBack).Perm (itemsOf env w)) ↔
      ∀ ns ∈ env.namespaces, Presentable (evidenceOf env w ns)) ∧
    ∀ run row u, u.runs.get run = some row → (∃ item ∈ row.items, item.state = .quarantined) →
      ∀ script, (∀ a, ((apply env run).run script u).ending ≠ .ok a) ∧
        ((apply env run).run script u).world = u := by
  have hwp := wp_audit_healthy hns hway
  rw [← forall_itemsOf_iff htext]
  refine ⟨⟨?_, fun h => ?_⟩, ?_⟩
  · rintro ⟨report, w', row, hru, hr, hp⟩
    have he := hwp [] (by simp)
    rw [hru] at he
    obtain ⟨ha, row', hr', ho⟩ := he
    obtain rfl : row = row' := Option.some.inj (hr.symm.trans hr')
    have hd : ((itemsOf env w).map Item.identity).Nodup :=
      ((List.perm_insertionSort _ _).map _).nodup_iff.mp (nodup_itemsOf hns)
    refine fun item hi => ⟨List.all_eq_true.mp ha item hi, Item.readBack_eq_iff.mp ?_⟩
    -- the row of an identity reads back as the item of that identity
    have hm : item.readBack ∈ itemsOf env w :=
      hp.subset (List.mem_map_of_mem (ho ▸ mem_ordered.mpr hi))
    exact List.inj_on_of_nodup_map hd hm hi rfl
  · obtain ⟨report, w', hru, -, row, hr, ho⟩ := (wp_mono hwp (fun _ hn => hn
      (List.all_eq_true.mpr fun item hi => (h item hi).1)) fun _ _ => id).exists_run
    refine ⟨report, w', row, hru, hr, ?_⟩
    have hb : row.items.map Item.readBack = row.items := map_eq_self_iff.mpr fun item hi =>
      Item.readBack_eq_iff.mpr (h item (mem_ordered.mp (ho ▸ hi))).2
    rw [hb, ho]
    exact List.perm_insertionSort _ _
  · rintro run row u hr ⟨item, hi, hs⟩ script
    exact apply_quarantined hr hi hs script

end Audit

/-- One point whose payload has no logical id. -/
def unlabeledWorld : World String :=
  smallWorld .empty [(("n_objects_dense", 5), ⟨[], "dense"⟩)]

/-- `x` has to move, and `z` has a point but no mapping. -/
def unmappedWorld : World String :=
  smallWorld xIDs
    [(("n_objects_dense", 5), objectPoint "x" "dense x"),
      (("n_objects_dense", 6), objectPoint "z" "dense z")]

/-- No store fails, and the insert of the made-up key does. -/
theorem unlabeled_point_stops_audit : smallEnv.namespaces.Nodup ∧ unlabeledWorld.runs = .empty ∧
      (∀ ns ∈ smallEnv.namespaces, TextRows (evidenceOf smallEnv unlabeledWorld ns)) ∧
      (itemsOf smallEnv unlabeledWorld).map (fun item => (item.identity, item.state)) =
        [(⟨"n", .object, "\x00unlabeled:n_objects_dense:5"⟩, .quarantined)] ∧
      ((audit smallEnv).run [] unlabeledWorld).ending =
        .err (.other "insert repair item: invalid byte sequence for encoding UTF8: 0x00") ∧
      ((audit smallEnv).run [] unlabeledWorld).world.runs.rows.entries = [] := by
  refine ⟨by decide, rfl, fun ns hns => ?_, by decide +kernel, rfl, by decide +kernel⟩
  obtain rfl := List.mem_singleton.mp hns
  exact ⟨by decide, by decide +kernel⟩

theorem audit_stores_rows_unmapped :
    (itemsOf smallEnv unmappedWorld).map Item.state = [.pending, .quarantined] ∧
      ∃ report w' row, (audit smallEnv).run [] unmappedWorld = ⟨.ok report, [], w'⟩ ∧
        w'.runs.get report.runID = some row ∧
        (row.items.map Item.readBack).Perm (itemsOf smallEnv unmappedWorld) ∧
        ∀ script, (∀ a, ((apply smallEnv report.runID).run script w').ending ≠ .ok a) ∧
          ((apply smallEnv report.runID).run script w').world = w' := by
  have hs : (itemsOf smallEnv unmappedWorld).map Item.state = [.pending, .quarantined] := by
    decide +kernel
  obtain ⟨hst, hap⟩ := audit_stores_rows smallEnv unmappedWorld (by decide) nofun fun ns hns => by
    obtain rfl := List.mem_singleton.mp hns
    exact ⟨by decide, by decide +kernel⟩
  obtain ⟨report, w', row, hru, hr, hp⟩ := hst.mpr fun ns hns => by
    obtain rfl := List.mem_singleton.mp hns
    exact ⟨by unfold Labelled; decide +kernel, by decide +kernel, by decide +kernel,
      by decide +kernel⟩
  refine ⟨hs, report, w', row, hru, hr, hp, hap _ row w' hr ?_⟩
  have hq : ItemState.quarantined ∈ (row.items.map Item.readBack).map Item.state :=
    (hp.map Item.state).mem_iff.mpr (hs ▸ by simp)
  obtain ⟨_, hm, hq⟩ := List.mem_map.mp hq
  obtain ⟨item, hi, rfl⟩ := List.mem_map.mp hm
  exact ⟨item, hi, hq⟩

end Codohue.Repair
