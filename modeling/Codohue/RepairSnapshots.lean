import Codohue.RepairResume

/-!
What the gate of apply covers.

The gate asks for a snapshot of every collection that an item was seen in, and the items move
points in no others. The rebuild that follows them goes over both sparse collections of the
namespaces of the run, whether an item was seen there or not.
-/

namespace Codohue.Repair

open Script Prog

variable {V : Type} {env : Env V} {run : ℕ} {row : Row} {w w' : World V} {key : String × ℤ}
variable {G : Reply Error Torn → Prop}

/-! ### The items -/

/-- The gate of the run was open, and the collection of the move, if any, has a snapshot. -/
def Permitted (env : Env V) (run : ℕ) (w : World V) (e : Effect V) : Prop :=
  ∃ row, w.runs.get run = some row ∧ Gate env row ∧ ∀ c, e.collection = some c → Covered row c

lemma wp_apply_permitted (hG : G .ok) : Wp G (apply env run) (Grew (Permitted env run w) w)
      (fun _ => Grew (Permitted env run w) w) w := by
  refine wp_apply hG (.refl _ w) (fun _ => id) fun row hr hg => ?_
  refine wp_applyManifest_lasting hG (lasting_grew w fun item hi e he => ?_) (.refl _ w)
    (fun _ _ => .refl _ w) fun _ => id
  exact ⟨row, hr, hg, fun c hc =>
    hg.qdrant item hi c (copyableCollections_subset item (he.2 c hc))⟩

/-- The points in collections without a snapshot are as they were. -/
def Spared (row : Row) (w w' : World V) : Prop :=
  ∀ key, ¬ Covered row key.1 → w'.points.lookup key = w.points.lookup key

lemma Spared.notable (who : Option Identity) : Notable run who (Spared row w) :=
  ⟨fun _ _ _ _ _ h _ => h, fun _ _ _ h _ => h⟩

lemma Halted.spared (hg : Gate env row) (hi : item ∈ row.items) (h : Halted run item w w') :
    Spared row w w' := by
  intro key hk
  have hc : key.1 ∉ copyableCollections item := fun hc =>
    hk (hg.qdrant item hi _ (copyableCollections_subset item hc))
  exact h.left.progress.frame key (fun ht => hc ht.1) fun hm => hc (mem_moves.mp hm).1

/-! ### The rebuild -/

/-- The apply gets as far as the rebuild, unless a store fails. -/
structure Rebuilds (env : Env V) (run : ℕ) (w : World V) (row : Row) : Prop where
  stored : w.runs.get run = some row
  gate : Gate env row
  free : ¬ w.runs.Busy run
  movable : w.core.Movable (unfinished row.items)

/-- The rebuild finds nothing to write or to remove in a collection without a snapshot: such a
collection holds what it computes from the mappings of the manifest. -/
def UpToDate (env : Env V) (row : Row) (w : World V) : Prop :=
  ∀ ns ∈ sortedNamespaces row.items, ∀ key, sparseCollection env ns key.1 = true →
    ¬ Covered row key.1 →
    w.points.lookup key =
      ((w.core.applyItems (unfinished row.items)).rebuildSparse env ns).point key

/-- A rebuild that is cut short leaves a point alone that it would have written as it is. -/
lemma lookup_recomputed_of_eq (ups swept : String × ℤ → Bool)
    (h : w.points.lookup key = (w.core.rebuildSparse env ns).point key) :
    (recomputed env ns ups swept w).points.lookup key = w.points.lookup key := by
  cases hs : sparseCollection env ns key.1 with
  | false => exact lookup_recomputed_of_ne hs
  | true =>
    simp only [Core.rebuildSparse, hs, if_true] at h
    rw [recomputed, Table.lookup_restrict, Table.lookup_foldl_insert_filter]
    by_cases hm : key ∈ (recomputedPoints env ns w.mappings.get).map Prod.fst
    · simp only [hs, List.contains_iff_mem.mpr hm, Bool.not_true, Bool.and_false, Bool.false_and,
        Bool.not_false, if_true]
      rw [Table.lookup_foldl_insert_of_mem hm, h]
      exact ite_self _
    · have hn : w.points.lookup key = none := by
        rw [h]
        exact (Table.lookup_foldl_insert_of_notMem hm).trans (AList.lookup_empty key)
      rw [Table.lookup_foldl_insert_of_notMem hm, hn, ite_self, ite_self]

lemma UpToDate.recomputed (h : UpToDate env row w) (hns : ns ∈ sortedNamespaces row.items)
    (hm : w'.mappings.get = (w.core.applyItems (unfinished row.items)).mapping)
    (hs : Spared row w w') (ups swept : String × ℤ → Bool) :
    Spared row w (recomputed env ns ups swept w') := by
  intro key hk
  refine (lookup_recomputed_of_eq ups swept ?_).trans (hs key hk)
  cases hsp : sparseCollection env ns key.1 with
  | false => simp only [Core.rebuildSparse, hsp, Bool.false_eq_true, if_false, World.core]
  | true =>
    rw [hs key hk, h ns hns key hsp hk]
    simp only [Core.rebuildSparse, hsp, if_true, World.core]
    rw [hm]
    rfl

/-- Nothing has happened, or the gate was open and the points without a snapshot are spared. -/
def Guarded (env : Env V) (run : ℕ) (w w' : World V) : Prop :=
  w' = w ∨ ∃ row, w.runs.get run = some row ∧ Gate env row ∧ Spared row w w'

/-- Whatever the stores do, the points without a snapshot are spared if the rebuild, once it is
reached, has nothing to do there. -/
lemma wp_apply_guarded (hG : G .ok) (h : ∀ row, Rebuilds env run w row → UpToDate env row w) :
    Wp G (apply env run) (Guarded env run w) (fun _ => Guarded env run w) w := by
  refine wp_apply hG (.inl rfl) (fun _ => id) fun row hr hg => ?_
  refine wp_mono (S := Spared row w) (D := fun _ => Spared row w) ?_
    (fun w' hw' => .inr ⟨row, hr, hg, hw'⟩) fun _ w' hw' => .inr ⟨row, hr, hg, hw'⟩
  refine wp_bind (wp_setRunState hG (by decide) (fun _ _ => rfl)
    fun runs hu => ⟨?_, fun _ _ => rfl⟩)
  refine wp_bind (wp_mono (wp_applyItems (I := fun todo w' => Spared row w w' ∧
      (w'.core.Movable (unfinished todo) → w.core.Movable (unfinished row.items)) ∧
      w'.core.applyItems (unfinished todo) = w.core.applyItems (unfinished row.items)) hG ?_ ?_ ?_
      ⟨fun _ _ => rfl, id, rfl⟩) (fun _ => id) fun _ w₂ hw₂ => ?_)
  · rintro item - todo w' ⟨hs, hm, hc⟩ hf
    rw [unfinished_cons, if_pos hf] at hm hc
    exact ⟨hs, hm, hc⟩
  · rintro item hi todo w' ⟨hs, -⟩ -
    exact ⟨_, Spared.notable _, fun w'' hh key hk =>
      (hh.spared hg hi key hk).trans (hs key hk), fun _ => id⟩
  · rintro item hi todo w' w'' ⟨hs, hm, hc⟩ ho hf
    rw [unfinished_cons, if_neg ho] at hm hc
    refine ⟨fun key hk => (hf.halted.spared hg hi key hk).trans (hs key hk),
      fun hto => hm ⟨fun hmo => ?_, hf.core ▸ hto⟩, ?_⟩
    · exact canMove_core.mp (hf.moved hmo).can
    · rw [← hc, hf.core]
      rfl
  obtain ⟨hs, hm, hc⟩ := hw₂
  have hup := h row ⟨hr, hg, hu.not_busy hr rfl, hm trivial⟩
  have hmap : w₂.mappings.get = (w.core.applyItems (unfinished row.items)).mapping :=
    congrArg Core.mapping hc
  refine wp_bind (wp_mono (wp_rebuildNamespaces (S := Spared row w)
    (J := fun todo w' => (∀ ns ∈ todo, ns ∈ sortedNamespaces row.items) ∧ Spared row w w' ∧
      w'.mappings.get = (w.core.applyItems (unfinished row.items)).mapping) hG
    (Spared.notable none) (fun _ _ hJ => hJ.2.1) ?_ ?_ ⟨fun _ => id, hs, hmap⟩)
    (fun _ => id) fun _ w₃ hw₃ => ?_)
  · exact fun ns todo w' ups swept hJ =>
      hup.recomputed (hJ.1 ns List.mem_cons_self) hJ.2.2 hJ.2.1 ups swept
  · exact fun ns todo w' ups swept runs hJ _ _ =>
      ⟨fun ns' hns' => hJ.1 ns' (List.mem_cons_of_mem _ hns'),
        hup.recomputed (hJ.1 ns List.mem_cons_self) hJ.2.2 hJ.2.1 ups swept, hJ.2.2⟩
  · exact wp_setRunState hG (by decide) hw₃.2.1 fun runs' _ => ⟨hw₃.2.1, hw₃.2.1⟩

/-- The sparse collections of one namespace of the run are not those of another. -/
def SparseApart (env : Env V) (row : Row) : Prop :=
  ∀ ns ∈ sortedNamespaces row.items, ∀ ns' ∈ sortedNamespaces row.items, ∀ c,
    sparseCollection env ns c = true → sparseCollection env ns' c = true → ns = ns'

lemma Core.point_rebuildNamespaces {k : Core V} (hs : sparseCollection env ns key.1 = true)
    (ha : ∀ ns' ∈ nss, sparseCollection env ns' key.1 = true → ns = ns') :
    (k.rebuildNamespaces env nss).point key =
      if ns ∈ nss then (k.rebuildSparse env ns).point key else k.point key := by
  induction nss generalizing k with
  | nil => rfl
  | cons ns' nss ih =>
    refine (ih (k := k.rebuildSparse env ns') fun n hn =>
      ha n (List.mem_cons_of_mem _ hn)).trans ?_
    by_cases hne : ns = ns'
    · subst hne
      simp [Core.rebuildSparse, hs]
    · have hf : sparseCollection env ns' key.1 = false :=
        Bool.eq_false_iff.mpr fun ht => hne (ha ns' List.mem_cons_self ht)
      simp [Core.rebuildSparse, hs, hf, hne]

/-! ### The gate -/

/-- Every point that is written or removed is in a collection with a snapshot, behind an open
gate. -/
def Secured (env : Env V) (run : ℕ) (w w' : World V) : Prop :=
  ∀ key, w'.points.lookup key ≠ w.points.lookup key →
    ∃ row, w.runs.get run = some row ∧ Gate env row ∧ Covered row key.1

/-- `x` has to move from 5 to 7, and no object has a sparse point when the audit is made. -/
def denseWorld : World String :=
  ((prepareSnapshots 0 "pg" [("n_objects_dense", "s2")]).run []
    ((audit smallEnv).run [] (smallWorld xyIDs
      [(("n_objects_dense", 5), objectPoint "x" "dense x"),
        (("n_objects_dense", 8), objectPoint "y" "dense y")])).world).world

/-- A sparse point of `z`, whose events are too old for the rebuild, is written after the audit. -/
def agedWorld : World String :=
  { denseWorld with points := denseWorld.points.insert ("n_objects", 9) (objectPoint "z" "old") }

lemma sparseApart_of_sortedNamespaces (h : sortedNamespaces row.items = ["n"]) :
    SparseApart env row := by
  intro ns hns ns' hns' _ _ _
  rw [h] at hns hns'
  exact (List.mem_singleton.mp hns).trans (List.mem_singleton.mp hns').symm

/-- The small aligned repair with a snapshot of every collection of the namespace. -/
def coveredWorld : World String :=
  ((prepareSnapshots 0 "pg" (("n_subjects", "s0") :: smallRefs)).run []
    ((audit smallEnv).run [] alignedWorld).world).world

end Codohue.Repair
