import Codohue.RepairApply

/-!
The gate of apply.

Before anything moves, apply compares the manifest with its recorded hash, refuses quarantined
items and asks for the snapshots of both stores. The checks stand in front of every operation
that moves something, on the first run and on every resumption.
-/

namespace Codohue.Repair

open Script Prog

variable {V : Type} {G : Reply Error Torn → Prop} {w : World V} {env : Env V} {run : ℕ}

variable {S : World V → Prop} {D : Unit → World V → Prop} {items : List Item} {P : Effect V → Prop}
  {item : Item} {w' : World V}

/-- A snapshot of the collection is on record. -/
def Covered (row : Row) (collection : String) : Prop :=
  blank (snapshotRef row.run.qdrantSnapshotRefs collection) = false

structure Gate (env : Env V) (row : Row) : Prop where
  manifest : manifestHash env.sha256 row.items = row.run.manifestHash
  decided : ∀ item ∈ row.items, item.state ≠ .quarantined
  postgres : row.run.pgSnapshotRef ≠ ""
  qdrant : ∀ item ∈ row.items, ∀ c ∈ itemCollections item, Covered row c

/-! ### Behind the gate -/

/-- Apply stops in front of the gate, or goes through it. -/
theorem wp_applyFenced (hG : G .ok)
    (hs : S w) (ho : ∀ row, w.runs.get run = some row → Gate env row →
      Wp G (applyManifest env run row.items) S D w) : Wp G (applyFenced env run) S D w := by
  refine wp_bind (wp_read hG hs fun r hr => ?_)
  cases hro : w.runs.get run with
  | none => simp [hro] at hr
  | some row =>
    obtain rfl : row.run = r := by simpa [hro] using hr
    refine wp_bind (wp_read hG hs fun items hite => ?_)
    obtain rfl : row.items = items := by simpa [hro] using hite
    refine wp_bind (wp_require (fun hma => ?_) fun _ => hs)
    refine wp_bind (wp_require (fun hd => ?_) fun _ => hs)
    refine wp_bind (wp_require (fun hpg => ?_) fun _ => hs)
    refine wp_bind (wp_require (fun hmi => ?_) fun _ => hs)
    refine ho row hro ⟨hma, fun item hi hst => ?_, hpg,
      fun item hi c hc => missing_eq_nil_iff.mp hmi item hi c hc⟩
    have hm : item ∈ row.items.filter fun item => item.state = .quarantined := by
      simp [hi, hst]
    rw [hd] at hm
    cases hm

lemma wp_withGlobalExclusive (hG : G .ok) (hs : S w) (h : Wp G m S D w)
    (hD : ∀ w', D () w' → S w') : Wp G (withGlobalExclusive m) S D w := by
  have hc : ∀ {w' : World V} {D' : Unit → World V → Prop}, S w' → D' () w' →
      Wp G fenceCall S D' w' := fun hS hD' => wp_read hG hS fun _ _ => hD'
  refine wp_bind (hc hs (wp_ensuring (T := S) (wp_bind (hc hs ?_)) ?_ fun _ => id))
  · exact wp_mono h (fun _ => id) fun _ w' hw' => hc (hD w' hw') hw'
  · exact fun w' hw' => hc hw' hw'

lemma wp_apply (hG : G .ok) (hs : S w)
    (hD : ∀ w', D () w' → S w') (ho : ∀ row, w.runs.get run = some row → Gate env row →
      Wp G (applyManifest env run row.items) S D w) : Wp G (apply env run) S D w :=
  wp_withGlobalExclusive hG hs (wp_applyFenced hG hs ho) hD

lemma wp_resume (hG : G .ok) (hs : S w)
    (hco : ∀ row, w.runs.get run = some row → row.run.state = .complete → D () w)
    (hap : ∀ row, w.runs.get run = some row → row.run.state ≠ .audited →
      row.run.state ≠ .complete → Wp G (apply env run) S D w) :
    Wp G (resume env run) S D w := by
  refine wp_bind (wp_read hG hs fun r hr => ?_)
  cases hro : w.runs.get run with
  | none => simp [hro] at hr
  | some row =>
    obtain rfl : row.run = r := by simpa [hro] using hr
    split_ifs with hc ha
    · exact wp_pure (hco row hro hc)
    · exact wp_throw hs
    · exact hap row hro ha hc

/-! ### Snapshots -/

lemma wp_setRunState (hG : G .ok) (hne : state ≠ .complete) (hs : S w)
    (hok : ∀ runs, w.runs.Updated run (·.setState state error) runs →
      D () { w with runs := runs } ∧ S { w with runs := runs }) :
    Wp G (setRunState run state error) S D w := by
  unfold setRunState
  rw [if_neg hne]
  exact wp_updateRun hG hs hok

/-- Recording snapshots leaves the items and the decisions of a run alone. -/
structure SnapshotNote (f : Row → Row) : Prop where
  items : ∀ row, (f row).items = row.items
  manifest : ∀ row, (f row).run.manifestHash = row.run.manifestHash
  rebuilt : ∀ row, (f row).run.rebuiltNamespaces = row.run.rebuiltNamespaces
  state : ∀ row, (f row).run.state = row.run.state ∨ (f row).run.state = .snapshotting

inductive Snapshotted (run : ℕ) (w : World V) : World V → Prop
  | mk (row : Row) (f : Row → Row) (runs : Runs) (hrow : w.runs.get run = some row)
      (hstate : row.run.state = .audited ∨ row.run.state = .snapshotting) (hf : SnapshotNote f)
      (hu : w.runs.Updated run f runs) : Snapshotted run w { w with runs := runs }

lemma wp_prepareSnapshots (hG : G .ok) :
    Wp G (prepareSnapshots run pgRef refs) (fun w' => w' = w ∨ Snapshotted run w w')
      (fun _ => Snapshotted run w) w := by
  refine wp_bind (wp_read hG (.inl rfl) fun r hr => ?_)
  cases hro : w.runs.get run with
  | none => simp [hro] at hr
  | some row =>
    obtain rfl : row.run = r := by simpa [hro] using hr
    refine wp_bind (wp_require (fun hs => ?_) fun _ => .inl rfl)
    refine wp_bind (wp_updateRun hG (.inl rfl) fun runs hu => ?_)
    have hn : SnapshotNote (·.setSnapshots pgRef refs) :=
      ⟨fun _ => rfl, fun _ => rfl, fun _ => rfl, fun _ => .inl rfl⟩
    have hre := Snapshotted.mk row _ runs hro hs hn hu
    refine ⟨wp_setRunState hG nofun (.inr hre) fun runs' hu' => ?_, .inr hre⟩
    have hn' : SnapshotNote fun row =>
        (row.setSnapshots pgRef refs).setState .snapshotting "" :=
      ⟨fun _ => rfl, fun _ => rfl, fun _ => rfl, fun _ => .inr rfl⟩
    have hd := Snapshotted.mk row _ runs' hro hs hn' (hu.trans hu')
    exact ⟨hd, .inr hd⟩

/-! ### The loops behind the gate -/

/-- Wherever the item is stopped, `S` holds once its failure is on record. -/
def StopsIn (run : ℕ) (item : Item) (w : World V) (S : World V → Prop) : Prop :=
  ∃ T : World V → Prop, Notable run (some item.identity) T ∧
    (∀ w', Halted run item w w' → T w') ∧ ∀ w', T w' → S w'

variable {I : List Item → World V → Prop}

/-- The items, one after the other: `I todo` holds whenever the items `todo` are left. -/
theorem wp_applyItems (hG : G .ok)
    (hs : ∀ item ∈ items, ∀ todo w, I (item :: todo) w → item.finished → I todo w)
    (hst : ∀ item ∈ items, ∀ todo w, I (item :: todo) w → ¬ item.finished → StopsIn run item w S)
    (hd : ∀ item ∈ items, ∀ todo w w', I (item :: todo) w → ¬ item.finished →
      Finished run item w w' → I todo w') (hw : I items w) :
    Wp G (applyItems env run items) S (fun _ => I []) w := by
  have hl := wp_forEach (G := G) (S := S) (f := fun item => if item.finished then pure () else
      mapErr (Error.wrap ("apply " ++ item.identity.text))
        (recording run (some item.identity) (applyItem env run item)))
    (I := fun todo w' => (∀ item ∈ todo, item ∈ items) ∧ I todo w') ?_ items w ⟨fun _ => id, hw⟩
  · exact wp_mono hl (fun _ => id) fun _ _ => And.right
  · rintro item todo w' ⟨hm, hw'⟩
    have hite := hm item List.mem_cons_self
    have hm' : ∀ item ∈ todo, item ∈ items := fun i hi => hm i (List.mem_cons_of_mem _ hi)
    by_cases hf : item.finished
    · simp only [hf, if_true]
      exact wp_pure ⟨hm', hs item hite todo w' hw' hf⟩
    · simp only [hf, Bool.false_eq_true, if_false]
      obtain ⟨T, hn, hh, hT⟩ := hst item hite todo w' hw' hf
      refine wp_mapErr (wp_mono (wp_recording hG hn ?_) hT fun _ _ => id)
      exact wp_mono (wp_applyItem hG) hh fun _ w'' h =>
        ⟨hm', hd item hite todo w' w'' hw' hf h⟩

lemma lookup_recomputed_of_ne (hk : sparseCollection env ns key.1 = false) :
    (recomputed env ns ups swept w).points.lookup key = w.points.lookup key := by
  have hs : ∀ e ∈ recomputedPoints env ns w.mappings.get, sparseCollection env ns e.1.1 = true := by
    intro e he
    obtain ⟨r, -, hr⟩ := List.mem_filterMap.mp he
    obtain ⟨id, -, rfl⟩ := Option.map_eq_some_iff.mp hr
    cases hr : r.entityType <;> simp [sparseCollection, EntityType.sparseKind]
  rw [recomputed, Table.lookup_restrict]
  simp only [hk, Bool.false_and, Bool.not_false, if_true]
  refine Table.lookup_foldl_insert_of_notMem fun hm => ?_
  obtain ⟨e, he, rfl⟩ := List.mem_map.mp hm
  have ht := hs e (List.mem_filter.mp he).1
  rw [hk] at ht
  cases ht

/-- A recompute that returns well: it got through, or it says so. -/
def Answered (G : Reply Error Torn → Prop) (upserted swept : String × ℤ → Bool) : Prop :=
  (upserted = (fun _ => true) ∧ swept = fun _ => true) ∨
    ∃ t, G (.torn t) ∧ t.answer = .ok () ∧ upserted = t.upserted ∧ swept = t.swept

variable {J : List String → World V → Prop}

/-- The namespaces, one after the other: `J todo` holds whenever the namespaces `todo` are
left. -/
theorem wp_rebuildNamespaces (hG : G .ok) (hn : Notable run none S) (hs : ∀ todo w, J todo w → S w)
    (hto : ∀ ns todo w ups swept, J (ns :: todo) w → S (recomputed env ns ups swept w))
    (hd : ∀ ns todo w ups swept runs, J (ns :: todo) w → Answered G ups swept →
      w.runs.Updated run (·.addRebuilt ns) runs →
      J todo { recomputed env ns ups swept w with runs := runs }) (hw : J nss w) :
    Wp G (rebuildNamespaces env run nss) S (fun _ => J []) w := by
  refine wp_forEach (I := J) ?_ nss w hw
  intro ns todo w' hw'
  have hr : ∀ ups swept, Answered G ups swept →
      Wp G (recording run none (recordRebuiltNamespace run ns)) S (fun _ => J todo)
        (recomputed env ns ups swept w') := by
    intro ups swept ha
    refine wp_recording hG hn (wp_updateRun hG (hto ns todo w' _ _ hw') fun runs hu => ?_)
    have hw₂ := hd ns todo w' ups swept runs hw' ha hu
    exact ⟨hw₂, hs todo _ hw₂⟩
  refine wp_bind (wp_mapErr (wp_recording hG hn (wp_composite hG (hs _ _ hw') ?_ ?_ ?_)))
  · exact ⟨hr _ _ (.inl ⟨rfl, rfl⟩), hto ns todo w' _ _ hw'⟩
  · exact fun t => hto ns todo w' _ _ hw'
  · exact fun t ht ha => hr _ _ (.inr ⟨t, ht, ha, rfl, rfl⟩)

/-- An apply that gets through: `I todo` holds whenever the items `todo` are left, and then
`J todo` whenever the namespaces `todo` are left. -/
theorem wp_applyManifest_done (hG : G .ok)
    (hs : ∀ runs, w.runs.Updated run (·.setState .applying "") runs →
      I items { w with runs := runs })
    (hsk : ∀ item ∈ items, ∀ todo w, I (item :: todo) w → item.finished → I todo w)
    (hd : ∀ item ∈ items, ∀ todo w w', I (item :: todo) w → ¬ item.finished →
      Finished run item w w' → I todo w') (hi : ∀ w, I [] w → J (sortedNamespaces items) w)
    (hr : ∀ ns todo w ups swept runs, J (ns :: todo) w → Answered G ups swept →
      w.runs.Updated run (·.addRebuilt ns) runs →
      J todo { recomputed env ns ups swept w with runs := runs })
    (he : ∀ w runs, J [] w → w.runs.Updated run (·.setState .verifying "") runs →
      D () { w with runs := runs }) :
    Wp G (applyManifest env run items) (fun _ => True) D w := by
  have hn : ∀ who, Notable run who fun _ : World V => True :=
    fun who => ⟨fun _ _ _ _ _ _ _ => trivial, fun _ _ _ _ _ => trivial⟩
  refine wp_bind (wp_setRunState hG nofun trivial fun runs hu => ⟨?_, trivial⟩)
  refine wp_bind (wp_mono (wp_applyItems (I := I) hG hsk ?_ hd (hs runs hu))
    (fun _ => id) fun _ w₂ hw₂ => ?_)
  · exact fun _ _ _ _ _ _ => ⟨_, hn _, fun _ _ => trivial, fun _ => id⟩
  refine wp_bind (wp_mono (wp_rebuildNamespaces (J := J) hG (hn none) (fun _ _ _ => trivial)
    (fun _ _ _ _ _ _ => trivial) hr (hi w₂ hw₂)) (fun _ => id) fun _ w₃ hw₃ => ?_)
  exact wp_setRunState hG nofun trivial fun runs hu' => ⟨he w₃ runs hw₃ hu', trivial⟩

/-! ### Invariants of apply -/

/-- What apply writes to the row of its run behind the gate, apart from the items it applies. -/
inductive ApplyNote : (Row → Row) → Prop
  | state (state : RunState) (error : String) (h : state = .verifying ∨ state = .failed) :
      ApplyNote (·.setState state error)
  | item (x : Identity) (error : String) : ApplyNote (·.setItem x .failed error)
  | rebuilt (ns : String) : ApplyNote (·.addRebuilt ns)

/-- `S` outlives everything that apply does to a run with these items. -/
structure Lasting (env : Env V) (run : ℕ) (items : List Item) (S : World V → Prop) : Prop where
  notes : ∀ w runs f, S w → w.runs.Updated run f runs → ApplyNote f → S { w with runs := runs }
  items : ∀ w w', ∀ item ∈ items, ¬ item.finished → S w → Halted run item w w' → S w'
  rebuild : ∀ w ns upserted swept, S w → S (recomputed env ns upserted swept w)

lemma Lasting.notable (h : Lasting env run items S)
    (who : Option Identity) : Notable run who S where
  item x _ w runs _ hw hu := h.notes w runs _ hw hu (.item x _)
  run w runs _ hw hu := h.notes w runs _ hw hu (.state .failed _ (.inr rfl))

/-- Apply stops before it has begun, or `S` holds from there on. -/
theorem wp_applyManifest_lasting {T : World V → Prop} (hG : G .ok)
    (h : Lasting env run items S) (hst : T w)
    (hs : ∀ runs, w.runs.Updated run (·.setState .applying "") runs → S { w with runs := runs })
    (hST : ∀ w', S w' → T w') : Wp G (applyManifest env run items) T (fun _ => S) w := by
  refine wp_bind (wp_setRunState hG nofun hst fun runs hu => ⟨?_, hST _ (hs runs hu)⟩)
  refine wp_mono (T := T) (S := S) ?_ hST fun _ _ => id
  refine wp_bind (wp_mono (wp_applyItems (I := fun _ => S) hG ?_ ?_ ?_ (hs runs hu))
    (fun _ => id) fun _ w₂ hw₂ => ?_)
  · exact fun _ _ _ _ hw' _ => hw'
  · exact fun item hi _ w' hw' ho =>
      ⟨S, h.notable _, fun w'' hh => h.items w' w'' item hi ho hw' hh, fun _ => id⟩
  · exact fun item hi _ w' w'' hw' ho hf =>
      h.items w' w'' item hi ho hw' hf.halted
  refine wp_bind (wp_mono (wp_rebuildNamespaces (J := fun _ => S) hG (h.notable none)
    (fun _ _ => id) ?_ ?_ hw₂) (fun _ => id) fun _ w₃ hw₃ => ?_)
  · exact fun ns _ w' ups swept hw' => h.rebuild w' ns ups swept hw'
  · intro ns _ w' ups swept runs hw' _ hu
    exact h.notes _ runs _ (h.rebuild w' ns ups swept hw') hu (.rebuilt ns)
  · refine wp_setRunState hG nofun hw₃ fun runs hu => ?_
    have hw₄ := h.notes w₃ runs _ hw₃ hu (.state .verifying _ (.inl rfl))
    exact ⟨hw₄, hw₄⟩

/-! ### The log -/

/-- The log grew by effects that meet `P`. -/
def Grew (P : Effect V → Prop) (w w' : World V) : Prop :=
  ∃ new, w'.log = new ++ w.log ∧ ∀ e ∈ new, P e

lemma Grew.refl (P : Effect V → Prop) (w : World V) : Grew P w w := ⟨[], rfl, by simp⟩

lemma Grew.trans (h : Grew P w₁ w₂) (h' : Grew P w₂ w₃) : Grew P w₁ w₃ := by
  obtain ⟨new, hl, hn⟩ := h
  obtain ⟨new', hl', hn'⟩ := h'
  refine ⟨new' ++ new, by rw [hl', hl, List.append_assoc], ?_⟩
  intro e he
  rcases List.mem_append.mp he with he | he
  · exact hn' e he
  · exact hn e he

/-- An effect for this item of this run, in one of the collections that the item moves in. -/
def MoveOf (run : ℕ) (item : Item) (e : Effect V) : Prop :=
  e.movedBy = some run ∧ ∀ c, e.collection = some c → c ∈ copyableCollections item

lemma Own.moveOf (h : Own run item target w e) : MoveOf run item e := by
  cases e with
  | copied r x c s t displaced =>
    obtain ⟨rfl, -, -, hm, -⟩ := h
    refine ⟨rfl, fun c' hc' => ?_⟩
    rw [← Option.some.inj hc']
    exact (mem_moves.mp hm).1
  | deleted r x c id gone =>
    obtain ⟨rfl, -, hm, -⟩ := h
    refine ⟨rfl, fun c' hc' => ?_⟩
    rw [← Option.some.inj hc']
    exact (mem_moves.mp hm).1
  | retargeted r x n => exact ⟨h.1 ▸ rfl, nofun⟩
  | opened | superseded | completed => exact h.elim

lemma Left.progress {applied : World V → Prop}
    (h : Left run item applied w w') : Progress run item item.goal w w' := by
  cases h <;> assumption

lemma Left.grew {applied : World V → Prop}
    (h : Left run item applied w w') : Grew (MoveOf run item) w w' := by
  obtain ⟨new, hl, hn⟩ := h.progress.log
  exact ⟨new, hl, fun e he => (hn e he).moveOf⟩

lemma Grew.mono {Q : Effect V → Prop} (h : Grew P w w') (hPQ : ∀ e, P e → Q e) : Grew Q w w' := by
  obtain ⟨new, hl, hn⟩ := h
  exact ⟨new, hl, fun e he => hPQ e (hn e he)⟩

lemma lasting_grew (w : World V) (h : ∀ item ∈ items, ∀ e, MoveOf run item e → P e) :
    Lasting env run items (Grew P w) where
  notes _ _ _ hw _ _ := hw
  items _ _ item hi _ hw hh := hw.trans (hh.left.grew.mono (h item hi))
  rebuild _ _ _ _ hw := hw

end Codohue.Repair
