import Codohue.RepairCore
import Codohue.RepairMoves

/-!
When a repair that was cut short can be resumed.

Items are applied in order and an item that got through is marked, so wherever an apply stops,
some items have been applied, one item is half done, and the others are untouched. Applying the
half-done item again works as long as its originals are there. Once one of them has been deleted
the copy has no source any more, and the item stays stuck although its copies are in place.
-/

namespace Codohue.Repair

open Script Prog

variable {V : Type} {env : Env V} {run : ℕ} {w : World V}

/-! ### Healthy stores -/

variable {state : RunState}

lemma wp_setRunState_healthy {S : World V → Prop} (hne : state ≠ .complete) (hf : ¬ w.runs.Busy run)
    (h : ∀ runs, w.runs.Updated run (·.setState state error) runs → D () { w with runs := runs }) :
    Wp Healthy (setRunState run state error) S D w := by
  unfold setRunState
  rw [if_neg hne]
  exact wp_updateRun_healthy (fun _ _ _ => hf) h

lemma wp_recording_healthy (h : Wp Healthy m (fun _ => False) D w) :
    Wp Healthy (recording run who m) (fun _ => False) D w :=
  wp_catchErr h (fun _ _ => False.elim) fun _ => id

lemma wp_applyItems_healthy {I : List Item → World V → Prop}
    (hs : ∀ item todo w, I (item :: todo) w → item.finished → I todo w)
    (hc : ∀ item todo w, I (item :: todo) w → ¬ item.finished → item.needsCopy →
      CanMove item item.goal w)
    (hd : ∀ item todo w w', I (item :: todo) w → ¬ item.finished → Finished run item w w' →
      I todo w') (hw : I items w) :
    Wp Healthy (applyItems env run items) (fun _ => False) (fun _ => I []) w := by
  refine wp_forEach (I := I) ?_ items w hw
  intro item todo w' hw'
  by_cases hf : item.finished
  · simp only [hf, if_true]
    exact wp_pure (hs item todo w' hw' hf)
  · simp only [hf, Bool.false_eq_true, if_false]
    refine wp_mapErr (wp_recording_healthy ?_)
    exact wp_mono (wp_applyItem_healthy (hc item todo w' hw' hf)) (fun _ => id)
      fun _ w'' h => hd item todo w' w'' hw' hf h

lemma wp_rebuildNamespaces_healthy {J : List String → World V → Prop}
    (hd : ∀ ns todo w runs, J (ns :: todo) w → w.runs.Updated run (·.addRebuilt ns) runs →
      J todo { recomputed env ns (fun _ => true) (fun _ => true) w with runs := runs })
    (hw : J nss w) :
    Wp Healthy (rebuildNamespaces env run nss) (fun _ => False) (fun _ => J []) w := by
  refine wp_forEach (I := J) ?_ nss w hw
  intro ns todo w' hw'
  refine wp_bind (wp_mapErr (wp_recording_healthy (wp_composite_healthy ?_)))
  refine wp_recording_healthy (wp_updateRun_healthy ?_ fun runs hu => hd ns todo w' runs hw' hu)
  exact fun row hr ha => Runs.not_busy_of_active hr ha

lemma wp_apply_healthy (hr : w.runs.get run = some row) (hg : Gate env row)
    (h : Wp Healthy (applyManifest env run row.items) (fun _ => False) D w) :
    Wp Healthy (apply env run) (fun _ => False) D w := by
  have hf : Wp Healthy (applyFenced env run) (fun _ => False) D w := by
    have hq : (row.items.filter fun item => item.state = .quarantined) = [] := by
      rw [List.filter_eq_nil_iff]
      intro item hi
      simpa using hg.decided item hi
    refine wp_bind (wp_read_healthy (by rw [hr]) ?_)
    refine wp_bind (wp_read_healthy (by rw [hr]) ?_)
    refine wp_bind (wp_require (fun _ => ?_) fun hne => hne hg.manifest)
    refine wp_bind (wp_require (fun _ => ?_) fun hne => hne hq)
    refine wp_bind (wp_require (fun _ => ?_) fun hne => hne hg.postgres)
    refine wp_bind (wp_require (fun _ => ?_) fun hne => hne (missing_eq_nil_iff.mpr hg.qdrant))
    exact h
  refine wp_bind (wp_read_healthy rfl (wp_ensuring (wp_bind (wp_read_healthy rfl ?_))
    (fun _ => False.elim) fun _ => id))
  exact wp_mono hf (fun _ => id) fun _ w' hD => wp_read_healthy rfl hD

/-! ### The row of a run that is being applied -/

/-- The item with the state on record, if there is one. -/
def restate (st : Identity → Option (ItemState × String)) (item : Item) : Item :=
  (st item.identity).elim item fun s => item.withState s.1 s.2

variable {row row' : Row} {st : Identity → Option (ItemState × String)} {item : Item}

section Record

variable {rs : Runs}

lemma restate_of_none (h : st item.identity = none) : restate st item = item := by
  rw [restate, h]
  rfl

lemma restate_of_some (h : st item.identity = some s) :
    restate st item = item.withState s.1 s.2 := by
  rw [restate, h]
  rfl

/-- A state that is no quarantine changes nothing of what the repair does with an item. -/
lemma restate_cases (hd : ∀ x s, st x = some s → s.1 ≠ .quarantined) (item : Item) :
    restate st item = item ∨ ∃ state error, state ≠ .quarantined ∧
      restate st item = item.withState state error := by
  cases hst : st item.identity with
  | none => exact .inl (restate_of_none hst)
  | some s => exact .inr ⟨s.1, s.2, hd _ _ hst, restate_of_some hst⟩

lemma restate_update (st : Identity → Option (ItemState × String)) (x : Identity)
    (state : ItemState) (error : String) (item : Item) :
    (if (restate st item).identity = x then (restate st item).withState state error
      else restate st item) = restate (Function.update st x (some (state, error))) item := by
  have hid : (restate st item).identity = item.identity := by
    cases hst : st item.identity with
    | none => rw [restate_of_none hst]
    | some s => rw [restate_of_some hst]; rfl
  rw [hid]
  by_cases hx : item.identity = x
  · have hst' : Function.update st x (some (state, error)) item.identity = some (state, error) := by
      rw [hx, Function.update_self]
    rw [if_pos hx, restate_of_some hst']
    cases hst : st item.identity with
    | none => rw [restate_of_none hst]
    | some s => rw [restate_of_some hst]; rfl
  · rw [if_neg hx, restate, restate, Function.update_of_ne hx]

/-- `row'` is `row` with other states. -/
structure Restated (row : Row) (st : Identity → Option (ItemState × String)) (row' : Row) :
    Prop where
  items : row'.items = row.items.map (restate st)
  manifest : row'.run.manifestHash = row.run.manifestHash
  postgres : row'.run.pgSnapshotRef = row.run.pgSnapshotRef
  qdrant : row'.run.qdrantSnapshotRefs = row.run.qdrantSnapshotRefs
  state : row'.run.state ≠ .complete
  decided : ∀ x s, st x = some s → s.1 ≠ .quarantined

/-- The run stands on record with these states, and no other run is in flight. -/
structure OnRecord (run : ℕ) (row : Row) (st : Identity → Option (ItemState × String))
    (rs : Runs) : Prop where
  row : ∃ row', rs.get run = some row' ∧ Restated row st row'
  free : ¬ rs.Busy run

section

variable (h : OnRecord run row st rs)

include h

lemma OnRecord.restated (hr' : rs.get run = some row') : Restated row st row' := by
  obtain ⟨row'', hr'', hre⟩ := h.row
  rwa [Option.some.inj (hr'.symm.trans hr'')]

lemma OnRecord.updated (hu : rs.Updated run f rs')
    (hf : ∀ row', Restated row st row' → Restated row st' (f row')) : OnRecord run row st' rs' := by
  obtain ⟨row', hr', hre⟩ := h.row
  exact ⟨⟨f row', hu.get hr', hf row' hre⟩, by rw [hu.busy]; exact h.free⟩

lemma OnRecord.setItem {x : Identity} {state : ItemState}
    (hu : rs.Updated run (·.setItem x state error) rs') (hst : state ≠ .quarantined) :
    OnRecord run row (Function.update st x (some (state, error))) rs' := by
  refine h.updated hu fun row' hr => ⟨?_, hr.manifest, hr.postgres, hr.qdrant, hr.state, ?_⟩
  · change row'.items.map _ = _
    rw [hr.items, List.map_map]
    exact List.map_congr_left fun item _ => restate_update st x state error item
  · intro y s hs
    by_cases hy : y = x
    · rw [hy, Function.update_self] at hs
      rw [← Option.some.inj hs]
      exact hst
    · rw [Function.update_of_ne hy] at hs
      exact hr.decided y s hs

lemma OnRecord.setState
    (hu : rs.Updated run (·.setState state error) rs') (hs : state ≠ .complete) :
    OnRecord run row st rs' :=
  h.updated hu fun _ hr =>
    ⟨hr.items, hr.manifest, hr.postgres, hr.qdrant, hs, hr.decided⟩

lemma OnRecord.addRebuilt (hu : rs.Updated run (·.addRebuilt ns) rs') : OnRecord run row st rs' :=
  h.updated hu fun _ hr =>
    ⟨hr.items, hr.manifest, hr.postgres, hr.qdrant, hr.state, hr.decided⟩

end

lemma Restated.gate (h : Restated row st row') (hg : Gate env row) : Gate env row' := by
  have hm : ∀ item' ∈ row'.items, ∃ item ∈ row.items, item' = restate st item := by
    intro item' hi'
    rw [h.items, List.mem_map] at hi'
    obtain ⟨item, hi, rfl⟩ := hi'
    exact ⟨item, hi, rfl⟩
  refine ⟨?_, ?_, by rw [h.postgres]; exact hg.postgres, ?_⟩
  · rw [h.items, h.manifest, ← hg.manifest]
    refine manifestHash_map _ _ _ fun item => ?_
    rcases restate_cases h.decided item with heq | ⟨state, error, -, heq⟩ <;> rw [heq]
    rfl
  · intro item' hi'
    obtain ⟨item, hi, rfl⟩ := hm item' hi'
    rcases restate_cases h.decided item with heq | ⟨state, error, hs, heq⟩ <;> rw [heq]
    · exact hg.decided item hi
    · exact hs
  · intro item' hi' c hc
    obtain ⟨item, hi, rfl⟩ := hm item' hi'
    have hc' : c ∈ itemCollections item := by
      rcases restate_cases h.decided item with heq | ⟨state, error, -, heq⟩ <;> rw [heq] at hc <;>
        exact hc
    rw [Covered, h.qdrant]
    exact hg.qdrant item hi c hc'

lemma Restated.sortedNamespaces (h : Restated row st row') :
    sortedNamespaces row'.items = sortedNamespaces row.items := by
  have hns : (row'.items.map fun item => item.identity.ns) =
      row.items.map fun item => item.identity.ns := by
    rw [h.items, List.map_map]
    refine List.map_congr_left fun item _ => ?_
    rcases restate_cases h.decided item with heq | ⟨state, error, -, heq⟩ <;>
      rw [Function.comp_apply, heq]
    rfl
  rw [Repair.sortedNamespaces, Repair.sortedNamespaces, hns]

end Record

/-! ### Half-done items -/

/-- `k'` is what an item that was stopped left of `k`. -/
structure Core.Partial (item : Item) (k k' : Core V) : Prop where
  mapping : k'.mapping = k.mapping ∨
    k'.mapping = Function.update k.mapping item.identity (some item.goal)
  frame : ∀ key, ¬ IsTarget item item.goal key → key ∉ moves item item.goal →
    k'.point key = k.point key
  sources : ∀ m ∈ moves item item.goal, k'.point m = k.point m ∨ k'.point m = none
  still : ¬ item.needsCopy → k' = k

lemma Core.Partial.refl (item : Item) (k : Core V) : Core.Partial item k k :=
  ⟨.inl rfl, fun _ _ _ => rfl, fun _ _ => .inl rfl, fun _ => rfl⟩

lemma Halted.core (h : Halted run item w w') : Core.Partial item w.core w'.core where
  mapping := h.left.progress.mapping
  frame := h.left.progress.frame
  sources := h.left.progress.sources
  still hst := by
    have hs := h.still hst
    rw [World.core, World.core, hs.mappings, hs.points]

variable {k : Core V}

namespace Core.Partial

variable {k' : Core V} (h : Core.Partial item k k')
  (hpresent : ∀ m ∈ moves item item.goal, (k'.point m).isSome)
include h hpresent

lemma source_eq (hm : m ∈ moves item item.goal) : k'.point m = k.point m := by
  rcases h.sources m hm with hk | hg
  · exact hk
  · have hs := hpresent m hm
    rw [hg] at hs
    cases hs

lemma canMove (hc : k.CanMove item) : k'.CanMove item where
  positive := hc.positive
  present := hpresent
  mapped := by
    rcases h.mapping with hm | hm <;> rw [hm]
    · exact hc.mapped
    · rw [Function.update_self]
      rfl
  free y hne hns ht := by
    have hy : k'.mapping y = k.mapping y := by
      rcases h.mapping with hm | hm <;> rw [hm]
      rw [Function.update_of_ne hne]
    rw [hy]
    exact hc.free y hne hns ht

/-- **Moving an item again gives what moving it once gives.** -/
lemma moveItem_eq (hmo : item.needsCopy) : k'.moveItem item = k.moveItem item := by
  obtain ⟨old, hl⟩ := exists_stale_of_needsCopy hmo
  have ho : old ∈ item.stale item.goal := List.mem_of_getLast? hl
  refine Core.ext ?_ (funext fun key => ?_)
  · change Function.update k'.mapping _ _ = Function.update k.mapping _ _
    rcases h.mapping with hm | hm <;> rw [hm]
    rw [Function.update_idem]
  · simp only [Core.moveItem, hl, Option.elim]
    by_cases hk : key ∈ moves item item.goal
    · rw [if_pos hk, if_pos hk]
    rw [if_neg hk, if_neg hk]
    by_cases ht : key.1 ∈ copyableCollections item ∧ key.2 = item.goal
    · rw [if_pos ht, if_pos ht]
      exact h.source_eq hpresent (mem_moves.mpr ⟨ht.1, Item.mem_stale.mp ho⟩)
    · rw [if_neg ht, if_neg ht]
      exact h.frame key ht hk

end Core.Partial

/-! ### Where an apply can stop -/

/-- What an apply of `row` leaves of `k`, wherever it stops: in the middle of an item, or after
the last one. -/
inductive Interrupted (env : Env V) (run : ℕ) (row : Row) (k : Core V) (w : World V) : Prop
  | item (done rest : List Item) (item : Item) (st : Identity → Option (ItemState × String))
      (split : row.items = done ++ item :: rest) (record : OnRecord run row st w.runs)
      (before : ∀ i ∈ done, st i.identity = some (.cleaned, ""))
      (after : ∀ i ∈ rest, st i.identity = none) (unfinished : ¬ (restate st item).finished)
      (core : Core.Partial item (k.applyItems done) w.core)
  | rebuild (st : Identity → Option (ItemState × String)) (record : OnRecord run row st w.runs)
      (before : ∀ i ∈ row.items, st i.identity = some (.cleaned, ""))
      (core : Core.Agree env (sortedNamespaces row.items) w.core (k.applyItems row.items))

/-- The items `todo` are left, and the others have been applied. -/
def Applying (run : ℕ) (row : Row) (k : Core V) (todo : List Item) (w : World V) : Prop :=
  ∃ done st, row.items = done ++ todo ∧ OnRecord run row st w.runs ∧
    (∀ i ∈ done, st i.identity = some (.cleaned, "")) ∧ (∀ i ∈ todo, st i.identity = none) ∧
    w.core = k.applyItems done

variable {done rest : List Item}

variable {G : Reply Error Torn → Prop}

section Interruption

variable (hpending : ∀ item ∈ row.items, item.state = .pending)

lemma Row.update_others (hs : row.items = done ++ item :: rest)
    (hb : ∀ i ∈ done, st i.identity = some (.cleaned, ""))
    (ha : ∀ i ∈ item :: rest, st i.identity = none) (s : Option (ItemState × String)) :
    (∀ i ∈ done, Function.update st item.identity s i.identity = some (.cleaned, "")) ∧
      ∀ i ∈ rest, Function.update st item.identity s i.identity = none := by
  have hn := row.distinct
  rw [hs, List.map_append, List.nodup_append] at hn
  obtain ⟨-, hr, hd⟩ := hn
  refine ⟨fun i hi => ?_, fun i hi => ?_⟩
  · have hne := hd _ (List.mem_map.mpr ⟨i, hi, rfl⟩) _ List.mem_cons_self
    rw [Function.update_of_ne hne, hb i hi]
  · have hne : i.identity ≠ item.identity := fun heq =>
      (List.nodup_cons.mp hr).1 (heq ▸ List.mem_map.mpr ⟨i, hi, rfl⟩)
    rw [Function.update_of_ne hne, ha i (List.mem_cons_of_mem _ hi)]

lemma Core.applyItems_append (k : Core V) (done : List Item) (item : Item) :
    k.applyItems (done ++ [item]) = (k.applyItems done).applyItem item := by
  simp [applyItems]

lemma Interrupted.setState (h : Interrupted env run row k w)
    (hu : w.runs.Updated run (·.setState state error) runs) (hs : state ≠ .complete) :
    Interrupted env run row k { w with runs := runs } := by
  cases h with
  | item done rest item st split record before after unfinished core =>
    exact .item done rest item st split (record.setState hu hs) before after unfinished core
  | rebuild st record before core =>
    exact .rebuild st (record.setState hu hs) before core

lemma Interrupted.restated (h : Interrupted env run row k w) (hr' : w.runs.get run = some row') :
    ¬ w.runs.Busy run ∧ ∃ st, Restated row st row' := by
  cases h with
  | item _ _ _ st _ record | rebuild st record => exact ⟨record.free, st, record.restated hr'⟩

lemma Applying.next (hs : row.items = done ++ item :: todo)
    (hb : ∀ i ∈ done, st i.identity = some (.cleaned, ""))
    (ha : ∀ i ∈ item :: todo, st i.identity = none)
    (hr : OnRecord run row (Function.update st item.identity (some (.cleaned, ""))) w.runs)
    (hc : w.core = k.applyItems (done ++ [item])) : Applying run row k todo w := by
  obtain ⟨hb', ha'⟩ := row.update_others hs hb ha (some (.cleaned, ""))
  refine ⟨done ++ [item], _, ?_, hr, fun i hi => ?_, ha', hc⟩
  · rw [hs, List.append_assoc]
    rfl
  · rcases List.mem_append.mp hi with hi | hi
    · exact hb' i hi
    · rw [List.mem_singleton.mp hi, Function.update_self]

lemma Applying.step (h : Applying run row k (item :: todo) w) (hf : Finished run item w w') :
    Applying run row k todo w' := by
  obtain ⟨done, st, hs, hr, hb, ha, hc⟩ := h
  refine .next hs hb ha (hr.setItem hf.runs nofun) ?_
  rw [Core.applyItems_append, ← hc]
  exact hf.core

include hpending

lemma Applying.interrupted (h : Applying run row k todo w) : Interrupted env run row k w := by
  obtain ⟨done, st, hs, hr, hb, ha, hc⟩ := h
  cases todo with
  | nil =>
    rw [List.append_nil] at hs
    subst hs
    exact .rebuild st hr hb ⟨by rw [hc], fun _ _ => by rw [hc]⟩
  | cons item rest =>
    refine .item done rest item st hs hr hb
      (fun i hi => ha i (List.mem_cons_of_mem _ hi)) ?_ (hc ▸ .refl item _)
    rw [restate_of_none (ha item List.mem_cons_self)]
    have hm : item ∈ row.items := by simp [hs]
    simp [Item.finished, hpending item hm]

lemma Applying.stopsIn (h : Applying run row k (item :: todo) w) :
    StopsIn run item w (Interrupted env run row k) := by
  obtain ⟨done, st, hsp, hre, hb, ha, hco⟩ := h
  have hm : item ∈ row.items := by simp [hsp]
  have hst : st item.identity = none := ha item List.mem_cons_self
  refine ⟨fun w' => Core.Partial item (k.applyItems done) w'.core ∧
    ∃ s, OnRecord run row (Function.update st item.identity s) w'.runs ∧
      (s = some (.cleaned, "") → w'.core = k.applyItems (done ++ [item])) ∧
      (s ≠ some (.cleaned, "") → ¬ (restate (fun _ => s) item).finished), ?_, ?_, ?_⟩
  · -- a failure that is recorded reopens the item
    refine ⟨?_, ?_⟩
    · rintro x hx w' runs text ⟨hh, s, hr, -, -⟩ hu
      obtain rfl : item.identity = x := Option.mem_some_iff.mp hx
      refine ⟨hh, some (.failed, text), ?_, fun h => by simp at h, fun _ => ?_⟩
      · have hr' := hr.setItem hu (by rintro ⟨⟩)
        rwa [Function.update_idem] at hr'
      · rw [restate_of_some rfl]
        simp [Item.finished, Item.withState]
    · rintro w' runs text ⟨hh, s, hr, hc, ho⟩ hu
      exact ⟨hh, s, hr.setState hu (by rintro ⟨⟩), hc, ho⟩
  · intro w' hha
    have hh := hha.core
    rw [hco] at hh
    refine ⟨hh, ?_⟩
    cases hha.left with
    | kept _ hru =>
      refine ⟨none, ?_, fun h => by simp at h, fun _ => ?_⟩
      · rw [hru, ← hst, Function.update_eq_self]
        exact hre
      · rw [restate_of_none rfl]
        simp [Item.finished, hpending item hm]
    | copied _ hru =>
      refine ⟨some (.copied, ""), hre.setItem hru (by rintro ⟨⟩), fun h => by simp at h,
        fun _ => ?_⟩
      rw [restate_of_some rfl]
      simp [Item.finished, Item.withState]
    | applied hp hru hap =>
      refine ⟨some (.cleaned, ""), hre.setItem hru (by rintro ⟨⟩), fun _ => ?_,
        fun h => absurd rfl h⟩
      rw [Core.applyItems_append, ← hco]
      exact (Finished.mk hp hru hap).core
  · rintro w' ⟨hh, s, hr, hc, ho⟩
    by_cases hs : s = some (.cleaned, "")
    · exact (Applying.next hsp hb ha (hs ▸ hr) (hc hs)).interrupted hpending
    · obtain ⟨hb', ha'⟩ := row.update_others hsp hb ha s
      refine .item done todo item _ hsp hr hb' ha' ?_ hh
      have hres : restate (Function.update st item.identity s) item =
          restate (fun _ => s) item := by
        rw [restate, restate, Function.update_self]
      rw [hres]
      exact ho hs

end Interruption

lemma Core.Agree.trans (h : Core.Agree env nss k k') (h' : Core.Agree env nss k' k'') :
    Core.Agree env nss k k'' :=
  ⟨h.mapping.trans h'.mapping, fun key hk => (h.point key hk).trans (h'.point key hk)⟩

section Apply

/-- **Where an apply can stop.** -/
theorem wp_apply_interrupted (hG : G .ok)
    (hpending : ∀ item ∈ row.items, item.state = .pending) (hr : w.runs.get run = some row)
    (hst : row.run.state ≠ .complete) (hfr : ¬ w.runs.Busy run) :
    Wp G (apply env run) (Interrupted env run row w.core)
      (fun _ => Interrupted env run row w.core) w := by
  have hrecord : OnRecord run row (fun _ => none) w.runs := by
    refine ⟨⟨row, hr, ?_, rfl, rfl, rfl, hst, by rintro _ _ ⟨⟩⟩, hfr⟩
    exact (List.map_id' row.items).symm
  have hs : ∀ runs, OnRecord run row (fun _ => none) runs →
      Applying run row w.core row.items { w with runs := runs } :=
    fun runs hre => ⟨[], _, rfl, hre, by simp, fun _ _ => rfl, rfl⟩
  have ho : Interrupted env run row w.core w := (hs w.runs hrecord).interrupted hpending
  refine wp_apply hG ho (fun _ => id) fun row' hr' _ => ?_
  obtain rfl : row = row' := Option.some.inj (hr.symm.trans hr')
  refine wp_bind (wp_setRunState hG (by rintro ⟨⟩) ho fun runs hu => ?_)
  have ha := hs runs (hrecord.setState hu (by rintro ⟨⟩))
  refine ⟨?_, ha.interrupted hpending⟩
  refine wp_bind (wp_mono (wp_applyItems (I := Applying run row w.core) hG ?_ ?_ ?_ ha)
    (fun _ => id) fun _ w₂ hw₂ => ?_)
  · intro item hite todo w' _ hf
    simp [Item.finished, hpending item hite] at hf
  · exact fun item hite todo w' hI _ => hI.stopsIn hpending
  · exact fun item hite todo w' w'' hI _ hf => hI.step hf
  obtain ⟨done, st, hsp, hre, hd, -, hc⟩ := hw₂
  rw [List.append_nil] at hsp
  subst hsp
  refine wp_bind (wp_mono (wp_rebuildNamespaces
    (J := fun todo w' => (∀ ns ∈ todo, ns ∈ sortedNamespaces row.items) ∧
      OnRecord run row st w'.runs ∧ Core.Agree env (sortedNamespaces row.items) w'.core
        (w.core.applyItems row.items)) hG ?_ ?_ ?_ ?_
    ⟨fun _ => id, hre, ⟨by rw [hc], fun _ _ => by rw [hc]⟩⟩) (fun _ => id) fun _ w₃ hw₃ => ?_)
  · exact ⟨by rintro _ ⟨⟩, fun w' runs _ hi hu => hi.setState hu (by rintro ⟨⟩)⟩
  · exact fun todo w' hJ => .rebuild st hJ.2.1 hd hJ.2.2
  · intro ns todo w' ups swept hJ
    exact .rebuild st hJ.2.1 hd ((agree_recomputed (hJ.1 ns List.mem_cons_self) _ _).trans hJ.2.2)
  · intro ns todo w' ups swept runs' hJ _ hu
    refine ⟨fun ns' hns' => hJ.1 ns' (List.mem_cons_of_mem _ hns'), hJ.2.1.addRebuilt hu, ?_⟩
    exact (agree_recomputed (hJ.1 ns List.mem_cons_self) _ _).trans hJ.2.2
  · have hi : Interrupted env run row w.core w₃ := .rebuild st hw₃.2.1 hd hw₃.2.2
    refine wp_setRunState hG (by rintro ⟨⟩) hi fun runs' hu' => ?_
    exact ⟨hi.setState hu' (by rintro ⟨⟩), hi.setState hu' (by rintro ⟨⟩)⟩

/-- The core that an apply of the row is after. -/
def repairedCore (env : Env V) (row : Row) (k : Core V) : Core V :=
  (k.applyItems row.items).rebuildNamespaces env (sortedNamespaces row.items)

lemma wp_apply_core (hpending : ∀ item ∈ row.items, item.state = .pending)
    (hr : w.runs.get run = some row) :
    Wp Healthy (apply env run) (fun _ => True) (fun _ w' => Gate env row ∧ ¬ w.runs.Busy run ∧
      w.core.Movable row.items ∧ w'.core = repairedCore env row w.core) w := by
  refine wp_apply trivial trivial (fun _ _ => trivial) fun row' hr' hg => ?_
  obtain rfl : row = row' := Option.some.inj (hr.symm.trans hr')
  refine wp_applyManifest_done (I := fun todo w' => ¬ w.runs.Busy run ∧
      (w'.core.Movable todo → w.core.Movable row.items) ∧
      w'.core.applyItems todo = w.core.applyItems row.items)
    (J := fun todo w' => ¬ w.runs.Busy run ∧ w.core.Movable row.items ∧
      w'.core.rebuildNamespaces env todo = repairedCore env row w.core) trivial ?_ ?_ ?_ ?_ ?_ ?_
  · intro runs hu
    exact ⟨hu.not_busy hr rfl, id, rfl⟩
  · intro item hi todo w' _ hfi
    simp [Item.finished, hpending item hi] at hfi
  · rintro item hi todo w' w'' ⟨hf, hm, hc⟩ - hfi
    refine ⟨hf, fun hto => hm ⟨fun hmo => ?_, hfi.core ▸ hto⟩, ?_⟩
    · exact canMove_core.mp (hfi.moved hmo).can
    · rw [← hc, hfi.core]
      rfl
  · rintro w' ⟨hf, hm, hc⟩
    refine ⟨hf, hm trivial, ?_⟩
    rw [repairedCore, ← hc]
    rfl
  · rintro ns todo w' ups swept runs ⟨hf, hm, hc⟩ han -
    obtain ⟨rfl, rfl⟩ := han.resolve_right (by rintro ⟨t, ht, -⟩; exact ht)
    refine ⟨hf, hm, ?_⟩
    rw [← hc]
    exact congrArg (fun k => Core.rebuildNamespaces env k todo) (core_recomputed env ns w')
  · rintro w' runs ⟨hf, hm, hc⟩ -
    exact ⟨hg, hf, hm, hc⟩

end Apply

/-! ### Resuming -/

/-- The run has left its audit behind, and the first item that is not finished still has the
points it should move. -/
def Resumable (run : ℕ) (w : World V) : Prop :=
  ∃ row, w.runs.get run = some row ∧ row.run.state ≠ .audited ∧
    ∀ item, row.items.find? (fun i => !i.finished) = some item → item.needsCopy →
      ∀ m ∈ moves item item.goal, (w.points.lookup m).isSome

/-- The items that apply does not skip. -/
def unfinished (items : List Item) : List Item := items.filter fun i => !i.finished

lemma unfinished_cons (item : Item) (items : List Item) : unfinished (item :: items) =
    if item.finished then unfinished items else item :: unfinished items := by
  cases h : item.finished <;> simp [unfinished, h]

/-- **A run whose items can be moved is applied**, and acts on the core as a function. -/
theorem wp_apply_movable (hr : w.runs.get run = some row) (hg : Gate env row)
    (hfr : ¬ w.runs.Busy run) (hmo : w.core.Movable (unfinished row.items)) :
    Wp Healthy (apply env run) (fun _ => False) (fun _ w' => w'.core =
      (w.core.applyItems (unfinished row.items)).rebuildNamespaces env
        (sortedNamespaces row.items)) w := by
  refine wp_apply_healthy hr hg (wp_bind (wp_setRunState_healthy nofun hfr fun runs hu => ?_))
  refine wp_bind (wp_mono (wp_applyItems_healthy (I := fun todo w' => ¬ w'.runs.Busy run ∧
      w'.core.Movable (unfinished todo) ∧
      w'.core.applyItems (unfinished todo) = w.core.applyItems (unfinished row.items)) ?_ ?_ ?_
      ⟨by rw [hu.busy]; exact hfr, hmo, rfl⟩) (fun _ => id) ?_)
  · rintro item todo w' ⟨hb, hm, hc⟩ hf
    rw [unfinished_cons, if_pos hf] at hm hc
    exact ⟨hb, hm, hc⟩
  · rintro item todo w' ⟨-, hm, -⟩ ho hmove
    rw [unfinished_cons, if_neg ho] at hm
    exact canMove_core.mpr (hm.1 hmove)
  · rintro item todo w' w'' ⟨hb, hm, hc⟩ ho hf
    rw [unfinished_cons, if_neg ho] at hm hc
    refine ⟨by rw [hf.runs.busy]; exact hb, hf.core ▸ hm.2, ?_⟩
    rw [hf.core]
    exact hc
  · rintro - w₂ ⟨hb, -, hc⟩
    refine wp_bind (wp_mono (wp_rebuildNamespaces_healthy (J := fun todo w' =>
      ¬ w'.runs.Busy run ∧ w'.core.rebuildNamespaces env todo =
        (w.core.applyItems (unfinished row.items)).rebuildNamespaces env
          (sortedNamespaces row.items)) ?_ ⟨hb, congrArg
            (Core.rebuildNamespaces env · (sortedNamespaces row.items)) hc⟩) (fun _ => id) ?_)
    · rintro ns todo w' runs' ⟨hb', hc'⟩ hu'
      refine ⟨by rw [hu'.busy]; exact hb', ?_⟩
      rw [← hc']
      exact congrArg (Core.rebuildNamespaces env · todo) (core_recomputed env ns w')
    · rintro - w₃ ⟨hb', hc'⟩
      exact wp_setRunState_healthy nofun hb' fun _ _ => hc'

section Resume

lemma restate_congr (hd : ∀ x s, st x = some s → s.1 ≠ .quarantined)
    (hi : item.state ≠ .quarantined) :
    (restate st item).needsCopy = item.needsCopy ∧
      moves (restate st item) (restate st item).goal = moves item item.goal ∧
      (∀ k : Core V, k.applyItem (restate st item) = k.applyItem item) ∧
      ∀ k : Core V, k.CanMove item → k.CanMove (restate st item) := by
  rcases restate_cases hd item with heq | ⟨state, error, hs, heq⟩
  · rw [heq]
    exact ⟨rfl, rfl, fun _ => rfl, fun _ => id⟩
  · have hc : (item.withState state error).needsCopy = item.needsCopy := by
      simp [Item.needsCopy, Item.resolved, Item.withState, hi, hs]
    rw [heq]
    refine ⟨hc, rfl, fun k => ?_, fun k h => ⟨h.positive, h.present, h.mapped, h.free⟩⟩
    rw [Core.applyItem, hc]
    rfl

lemma unfinished_restate_cleaned (h : ∀ i ∈ done, st i.identity = some (.cleaned, "")) :
    unfinished (done.map (restate st)) = [] := by
  rw [unfinished, List.filter_eq_nil_iff]
  intro j hj
  obtain ⟨i, hi, rfl⟩ := List.mem_map.mp hj
  rw [restate_of_some (h i hi)]
  simp [Item.finished, Item.withState]

lemma unfinished_restate_none (hpending : ∀ item ∈ rest, item.state = .pending)
    (h : ∀ i ∈ rest, st i.identity = none) :
    unfinished (rest.map (restate st)) = rest := by
  have hm : rest.map (restate st) = rest := by
    rw [List.map_congr_left fun i hi => restate_of_none (h i hi), List.map_id']
  rw [hm, unfinished, List.filter_eq_self]
  intro i hi
  simp [Item.finished, hpending i hi]

section

variable (h : Interrupted env run row k w) (hg : Gate env row)
  (hpending : ∀ item ∈ row.items, item.state = .pending)

include h hg hpending

/-- What is left to do can be done, and gives what an apply without interruption gives. -/
lemma Interrupted.unfinished_movable (hmov : k.Movable row.items)
    (hro' : w.runs.get run = some row')
    (hpresent : ∀ item, row'.items.find? (fun i => !i.finished) = some item → item.needsCopy →
      ∀ m ∈ moves item item.goal, (w.points.lookup m).isSome) :
    w.core.Movable (unfinished row'.items) ∧ Core.Agree env (sortedNamespaces row.items)
      (w.core.applyItems (unfinished row'.items)) (k.applyItems row.items) := by
  cases h with
  | item done rest item st split record before after ho core =>
    have hre := record.restated hro'
    have hite : item ∈ row.items := by simp [split]
    have hr : ∀ i ∈ rest, i.state = .pending := fun i hi => hpending i (by simp [split, hi])
    obtain ⟨hc, hmoves, ha, hca⟩ := restate_congr hre.decided (hg.decided item hite)
    have hl : unfinished row'.items = restate st item :: rest := by
      have hsi : unfinished [restate st item] = [restate st item] := by
        simp [unfinished, ho]
      have hd := unfinished_restate_cleaned before
      have hr' := unfinished_restate_none hr after
      rw [hre.items, split, List.map_append, List.map_cons, unfinished, List.filter_append,
        ← List.singleton_append, List.filter_append]
      rw [unfinished] at hsi hd hr'
      rw [hsi, hd, hr']
      rfl
    -- the first item to do is the one that was in hand
    have hf : row'.items.find? (fun i => !i.finished) = some (restate st item) := by
      rw [← List.head?_filter, ← unfinished, hl]
      rfl
    have hs : item.needsCopy → ∀ m ∈ moves item item.goal, (w.core.point m).isSome := by
      intro hmo m hm
      exact hpresent _ hf (hc ▸ hmo) m (hmoves ▸ hm)
    rw [split, Core.movable_append] at hmov
    obtain ⟨-, hmov⟩ := hmov
    have hco : w.core.applyItem item = (k.applyItems done).applyItem item := by
      unfold Core.applyItem
      by_cases hmo : item.needsCopy
      · rw [if_pos hmo, if_pos hmo]
        exact core.moveItem_eq (hs hmo) hmo
      · rw [if_neg hmo, if_neg hmo]
        exact core.still hmo
    have hal : w.core.applyItems (unfinished row'.items) = k.applyItems row.items := by
      rw [hl, split, Core.applyItems, List.foldl_cons, ha, hco, Core.applyItems,
        Core.applyItems, List.foldl_append, List.foldl_cons]
    refine ⟨?_, by rw [hal], fun _ _ => by rw [hal]⟩
    rw [hl]
    refine ⟨fun hmo => ?_, ?_⟩
    · rw [hc] at hmo
      exact hca _ (core.canMove (hs hmo) (hmov.1 hmo))
    · rw [ha, hco]
      exact hmov.2
  | rebuild st record before core =>
    have hl : unfinished row'.items = [] := by
      rw [(record.restated hro').items]
      exact unfinished_restate_cleaned before
    rw [hl]
    exact ⟨trivial, core⟩

/-- **A resumable run is completed.** -/
theorem wp_resume_healthy (hmo : k.Movable row.items) (hresumable : Resumable run w) :
    Wp Healthy (resume env run) (fun _ => False)
      (fun _ w' => w'.core = repairedCore env row k) w := by
  obtain ⟨row', hr', hs, hpresent⟩ := hresumable
  obtain ⟨hfr, st, hre⟩ := h.restated hr'
  obtain ⟨hun, ha⟩ := h.unfinished_movable hg hpending hmo hr' hpresent
  refine wp_bind (wp_read_healthy (by rw [hr']) ?_)
  rw [if_neg hre.state, if_neg hs]
  refine wp_mono (wp_apply_movable hr' (hre.gate hg) hfr hun) (fun _ => id) fun _ w' hc => ?_
  rw [hc, hre.sortedNamespaces]
  exact ha.rebuildNamespaces

end

end Resume

lemma wp_resume_resumable {G : Reply Error Torn → Prop} (hG : G .ok)
    (hco : ∀ row, w.runs.get run = some row → row.run.state ≠ .complete) :
    Wp G (resume env run) (fun _ => True) (fun _ _ => Resumable run w) w := by
  refine wp_resume hG trivial (fun row hr h => absurd h (hco row hr)) ?_
  intro row hr hs _
  refine wp_apply hG trivial (fun _ _ => trivial) fun row' hr' _ => ?_
  obtain rfl : row = row' := Option.some.inj (hr.symm.trans hr')
  refine wp_applyManifest_done (I := fun todo w' => Resumable run w ∨ (w'.core = w.core ∧
      todo.find? (fun i => !i.finished) = row.items.find? fun i => !i.finished))
    (J := fun _ _ => Resumable run w) hG ?_ ?_ ?_ ?_ ?_ ?_
  · exact fun runs _ => .inr ⟨rfl, rfl⟩
  · rintro item hi todo w' (hd | ⟨hc, hf⟩) hfin
    · exact .inl hd
    · rw [List.find?_cons_of_neg (by simpa using hfin)] at hf
      exact .inr ⟨hc, hf⟩
  · rintro item hi todo w' w'' (hd | ⟨hc, hf⟩) ho hfin
    · exact .inl hd
    · -- this is the first item that is not finished
      rw [List.find?_cons_of_pos (by simpa using ho)] at hf
      refine .inl ⟨row, hr, hs, fun first hfi hmo m hm => ?_⟩
      obtain rfl : item = first := Option.some.inj (hf.trans hfi)
      have hpresent := (hfin.moved hmo).can.present m hm
      change (w'.core.point m).isSome at hpresent
      rw [hc] at hpresent
      exact hpresent
  · rintro w' (hd | ⟨-, hf⟩)
    · exact hd
    · refine ⟨row, hr, hs, fun first hfi => ?_⟩
      rw [← hf] at hfi
      cases hfi
  · exact fun _ _ _ _ _ _ hd _ _ => hd
  · exact fun _ _ hd _ => hd

/-- The run is about to be applied for the first time, and the rebuild has no id to mint: whatever
it recomputes belongs to an identity that is mapped. -/
structure Ready (env : Env V) (run : ℕ) (w : World V) (row : Row) : Prop where
  stored : w.runs.get run = some row
  pending : ∀ item ∈ row.items, item.state = .pending
  state : row.run.state = .audited ∨ row.run.state = .snapshotting
  mapped : ∀ ns ∈ sortedNamespaces row.items, ∀ mappings, ∀ r ∈ env.recompute ns mappings,
    (w.mappings.get ⟨ns, r.entityType, r.stringID⟩).isSome

/-- The small aligned repair, ready to be applied: `x` moves from 5 to 7. -/
def readyWorld : World String :=
  ((prepareSnapshots 0 "pg" smallRefs).run [] ((audit smallEnv).run [] alignedWorld).world).world

/-- The process is gone after `n` operations of apply. -/
def crashAfter (n : ℕ) : List (Reply Error Torn) := List.replicate n .ok ++ [.crash none]

lemma readyWorld_ready : ∃ row, Ready smallEnv 0 readyWorld row := by
  have hv : (readyWorld.runs.get 0).map (fun row =>
      decide ((∀ item ∈ row.items, item.state = .pending) ∧ row.run.state = .snapshotting ∧
        ∀ ns ∈ sortedNamespaces row.items, ∀ r ∈ smallEnv.recompute ns fun _ => none,
          (readyWorld.mappings.get ⟨ns, r.entityType, r.stringID⟩).isSome)) = some true := by
    decide +kernel
  obtain ⟨row, hr, hf⟩ := Option.map_eq_some_iff.mp hv
  obtain ⟨hpending, hs, hm⟩ := of_decide_eq_true hf
  exact ⟨row, hr, hpending, .inr hs, fun ns hns _ => hm ns hns⟩

lemma readyWorld_apply : ∃ w₁, (apply smallEnv 0).run [] readyWorld = ⟨.ok (), [], w₁⟩ := by
  have hv : (((apply smallEnv 0).run [] readyWorld).returned).isSome := by decide +kernel
  obtain ⟨⟨_, w₁⟩, hr⟩ := Option.isSome_iff_exists.mp hv
  exact ⟨w₁, run_of_returned hr⟩

end Codohue.Repair
