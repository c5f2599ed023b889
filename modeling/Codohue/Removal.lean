import Codohue.CleanupAbsence
import Codohue.Fencing

/-!
The deletion of a namespace and the reset of everything, with the stores that they clean.

The calls of the lifecycle service run as before, one statement at a time; a call that has come to
its cleanup runs the program of the cleanup, one store call at a time, and goes on as the program
ends. Meanwhile writer callbacks write what belongs to their namespace at their lease.
-/

namespace Codohue.Removal

open Lifecycle LockTable Coordinator CallSteps LeaseInvariant Fencing RowWrites Transition
open PhysicalNames Repair Service Cleanup

/-! ### The system -/

structure World where
  sys : Sys
  stores : Stores
  /-- What is left of the cleanup that a call is in. -/
  cleaning : ℕ → Option (CleanupM Unit)

def boot (db : Store) (s : Stores) : World := ⟨Coordinator.boot db, s, fun _ => none⟩

/-- The cleanup to be run where a call stands. -/
def cleanupOf (clients : Clients) (k : Task) : Option (CleanupM Unit) :=
  match k.pc, k.op with
  | .deleting (.cleanup generation), .withNamespaceExclusive ns => some do
    let _ ← deleteNamespaceGeneration clients ns generation
    pure ()
  | .global (.wipe _), _ => some (wipe clients)
  | .global (.verifyAbsent ((ns, generation) :: _)), _ =>
    some (verifyNamespaceAbsent clients ns generation)
  | _, _ => none

/-- What a writer callback writes. -/
inductive Resource where
  | row (table : DataTable)
  | trending
  | embedStream
  | cached (subjectID : String) (limit offset : ℤ)
  | collection (kind : CollectionKind)
  deriving DecidableEq, Repr

def Resource.change (ns : String) (generation : ℤ) : Resource → Change
  | .row table => .addRow table ns
  | .trending => .addKey (PhysicalKind.nameOf .trending ns generation)
  | .embedStream => .addKey (PhysicalKind.nameOf .embedStream ns generation)
  | .cached subjectID limit offset => .addKey (recCacheKey ns generation subjectID limit offset)
  | .collection kind => .addCollection (collectionName ns generation kind)

inductive Action where
  | sys (a : Coordinator.Action)
  /-- The next store call of the cleanup that call `t` is in. -/
  | store (t : ℕ) (o : Cleanup.Outcome)
  /-- The running writer callback of call `t` writes. -/
  | write (t : ℕ) (resource : Resource)
  deriving DecidableEq, Repr

/-- How a cleanup ended. -/
def ended : Option (CleanupM Unit) → Option Coordinator.Outcome
  | some (.pure ()) => some .ok
  | some (.throw e) => some (.fail e)
  | _ => none

def step (clients : Clients) (w : World) : Action → Option World
  | .sys (.advance t o) =>
    -- a call leaves its cleanup with what the program returned
    if ((w.sys.tasks t).bind (cleanupOf clients)).isSome → ended (w.cleaning t) = some o then
      (Coordinator.step w.sys (.advance t o)).map fun sys =>
        { w with
          sys := sys
          cleaning := Function.update w.cleaning t ((sys.tasks t).bind (cleanupOf clients)) }
    else none
  | .sys a => (Coordinator.step w.sys a).map fun sys => { w with sys := sys }
  | .store t o =>
    match (w.sys.tasks t).bind (cleanupOf clients), w.cleaning t with
    | some _, some (.call c k) => (serve c w.stores o).map fun r =>
      { w with stores := r.2, cleaning := Function.update w.cleaning t (some (k r.1)) }
    | _, _ => none
  | .write t resource =>
    (w.sys.tasks t).bind fun k =>
      match k.pc, k.op with
      | .writing _ (generation :: _), .withWriter ns =>
        some { w with stores := w.stores.change (resource.change ns generation) }
      | _, _ => none

/-! ### What one step does -/

variable {o : Cleanup.Outcome} {a : Coordinator.Action}

section Steps

variable {clients : Clients} {w : World}

lemma step_advance {t : ℕ} {o : Coordinator.Outcome}
    (h : step clients w (.sys (.advance t o)) = some w') :
    Coordinator.step w.sys (.advance t o) = some w'.sys ∧ w'.stores = w.stores ∧
      w'.cleaning = Function.update w.cleaning t ((w'.sys.tasks t).bind (cleanupOf clients)) ∧
      (((w.sys.tasks t).bind (cleanupOf clients)).isSome → ended (w.cleaning t) = some o) := by
  simp only [step] at h
  split_ifs at h with he
  obtain ⟨sys, hs, rfl⟩ := Option.map_eq_some_iff.mp h
  exact ⟨hs, rfl, rfl, he⟩

lemma step_sys (h : step clients w (.sys a) = some w') :
    Coordinator.step w.sys a = some w'.sys ∧ w'.stores = w.stores ∧
      ∀ u, (∀ o, a ≠ .advance u o) → w'.cleaning u = w.cleaning u := by
  cases a with
  | advance t o =>
    obtain ⟨hs, hst, hc, -⟩ := step_advance h
    refine ⟨hs, hst, fun u hu => ?_⟩
    rw [hc, Function.update_of_ne (fun heq => hu o (by rw [heq]))]
  | start t session op | reenter t | upsertConfig t o | finish t err =>
    obtain ⟨sys, hs, rfl⟩ := Option.map_eq_some_iff.mp h
    exact ⟨hs, rfl, fun _ _ => rfl⟩
  | crash proc =>
    cases h
    exact ⟨rfl, rfl, fun _ _ => rfl⟩

lemma step_store (h : step clients w (.store t o) = some w') :
    w'.sys = w.sys ∧ ∃ c k r, w.cleaning t = some (.call c k) ∧
      serve c w.stores o = some (r, w'.stores) ∧
      w'.cleaning = Function.update w.cleaning t (some (k r)) := by
  simp only [step] at h
  split at h
  · next c k _ hc =>
    obtain ⟨⟨r, s⟩, hs, rfl⟩ := Option.map_eq_some_iff.mp h
    exact ⟨rfl, c, k, r, hc, hs, rfl⟩
  · cases h

lemma step_write (h : step clients w (.write t resource) = some w') :
    w'.sys = w.sys ∧ w'.cleaning = w.cleaning ∧ ∃ ns generation, WriterRuns w.sys t ns generation ∧
      w'.stores = w.stores.change (resource.change ns generation) := by
  obtain ⟨k, hk, h⟩ := Option.bind_eq_some_iff.mp h
  split at h
  · next lease generation received ns hpc hop =>
    cases h
    exact ⟨rfl, rfl, ns, generation, ⟨k, lease, _, hk, hop, hpc, by simp⟩, rfl⟩
  · cases h

lemma step_refines {a : Action} (h : step clients w a = some w') :
    w'.sys = w.sys ∨ ∃ b, a = .sys b ∧ Coordinator.step w.sys b = some w'.sys := by
  cases a with
  | sys b => exact .inr ⟨b, rfl, (step_sys h).1⟩
  | store t o => exact .inl (step_store h).1
  | write t resource => exact .inl (step_write h).1

end Steps

/-! ### Where a cleanup stands -/

/-- The call is in a cleanup that ends with a look at the namespace at this generation. -/
def Cleans (k : Task) (ns : String) (generation : ℤ) : Prop :=
  (k.op = .withNamespaceExclusive ns ∧ k.pc = .deleting (.cleanup generation)) ∨
  ∃ callback todo, k.op = .withGlobalExclusive callback ∧
    k.pc = .global (.verifyAbsent ((ns, generation) :: todo))

section Positions

variable {db db' : Store} {k : Task} {o : Coordinator.Outcome} {ns : String}

/-- **Only a cleanup that went well leads to the statement that completes a deletion.** -/
lemma cleans_of_turns (h : Turns db k o db' k'.pc) (hop : k'.op = k.op)
    (hc : Completes k' ns generation) : Cleans k ns generation ∧ o = .ok := by
  generalize hpc' : k'.pc = pc' at h
  rcases hc with ⟨hop', hpc⟩ | ⟨callback, todo, hop', hpc⟩ <;>
    rw [hop] at hop' <;> rw [hpc] at hpc' <;>
    subst hpc'
  · cases h with
    | gate _ _ hg => rcases hg with h | h <;> cases h
    | delete _ hpc _ hcl =>
      obtain ⟨rfl, rfl⟩ := hcl _ rfl
      exact ⟨.inl ⟨hop', hpc⟩, rfl⟩
  · generalize hpc' : Pc.global (.completeDelete ns generation todo) = pc' at h
    cases h with
    | gate _ _ hg => rcases hg with rfl | rfl <;> cases hpc'
    | @callback callback => cases callback <;> cases hpc'
    | global _ hpc _ _ hcl =>
      obtain ⟨rfl, rfl⟩ := hcl _ _ _ (Pc.global.inj hpc').symm
      exact ⟨.inr ⟨callback, todo, hop', hpc⟩, rfl⟩
    | _ => cases hpc'

/-- A call that takes a lock, or gives one back, or runs a writer is in no cleanup. -/
lemma idle_of_shifts (h : Shifts k k') (ns : String) (generation : ℤ) :
    ¬ Cleans k' ns generation ∧ ¬ Completes k' ns generation := by
  cases h <;> simp [Cleans, Completes, Task.finish, Task.goto]

lemma idle_of_entry (h : k'.pc = k'.op.entry) (ns : String) (generation : ℤ) :
    ¬ Cleans k' ns generation ∧ ¬ Completes k' ns generation := by
  rcases entry_cases k'.op with he | he <;> simp [Cleans, Completes, h, he]

end Positions

/-! ### The rows -/

/-- The namespace of the call, if it has one, has a name that cannot be taken for another one. -/
def PlainOp : Op → Prop
  | .withWriter ns | .withNamespaceExclusive ns | .activate ns => ns ≠ "" ∧ Plain ns
  | .withGlobalExclusive _ => True

def PlainStart : Action → Prop
  | .sys (.start _ _ op) => PlainOp op
  | _ => True

/-- Every row has a name and a positive generation. -/
def Named (db : Store) : Prop :=
  ∀ ns row, db.row ns = some row → ns ≠ "" ∧ 1 ≤ row.generation

section Rows

variable {db db' : Store} {ns : String}

variable {row : NamespaceLifecycle} {k : Task}

lemma Named.setRow (h : Named db) (hns : ns ≠ "")
    (hg : 1 ≤ row.generation) : Named (db.setRow ns row) := by
  intro ns' row' hr'
  rw [setRow_row] at hr'
  split_ifs at hr' with heq
  · cases hr'
    exact ⟨heq ▸ hns, hg⟩
  · exact h ns' row' hr'

lemma Named.activate (h : Named db) (hns : ns ≠ "")
    (ha : activate db ns = .ok (db', row)) : Named db' := by
  unfold Lifecycle.activate at ha
  split at ha
  · cases ha
    exact h.setRow hns le_rfl
  · next old ho =>
    have hp := (h ns old ho).2
    split at ha
    · cases ha
      exact h.setRow hns hp
    · cases ha
    · split_ifs at ha
      cases ha
      refine h.setRow hns ?_
      show 1 ≤ old.generation + 1
      omega

lemma Named.update (h : Named db) (ho : db.row ns = some old)
    (hg : row.generation = old.generation) : Named (db.setRow ns row) :=
  h.setRow (h ns old ho).1 (hg ▸ (h ns old ho).2)

lemma startDelete_ok (h : startDelete db ns = .ok (db', row)) :
    ∃ old, db.row ns = some old ∧ (old.state = .active ∨ old.state = .deleting) ∧
      row = { old with state := .deleting, lastError := none } ∧ db' = db.setRow ns row := by
  unfold startDelete at h
  split at h
  · cases h
  · next old ho =>
    split_ifs at h with hs
    cases h
    exact ⟨old, ho, hs, rfl, rfl⟩

lemma completeDelete_ok (h : completeDelete db ns generation = .ok db') :
    ∃ old, db.row ns = some old ∧ old.generation = generation ∧ old.state = .deleting ∧
      db' = db.setRow ns { old with state := .deleted, lastError := none } := by
  unfold completeDelete at h
  split at h
  · cases h
  · next old ho =>
    split_ifs at h with hs
    exact ⟨old, ho, hs.1, hs.2, (Except.ok.inj h).symm⟩

lemma Named.writes (h : Named db) (hk : PlainOp k.op) (hw : Writes k db db') : Named db' := by
  cases hw with
  | none | startReset => exact h
  | activate hop ha =>
    rw [hop] at hk
    exact h.activate hk.1 ha
  | startDelete hs =>
    obtain ⟨old, ho, -, rfl, rfl⟩ := startDelete_ok hs
    exact h.update ho rfl
  | completeDelete _ hc =>
    obtain ⟨old, ho, -, -, rfl⟩ := completeDelete_ok hc
    exact h.update ho rfl
  | recordNamespaceError ns generation message =>
    unfold recordNamespaceError
    split
    · exact h
    · next old ho =>
      split_ifs
      · exact h.update ho rfl
      · exact h
  | completeReset _ =>
    unfold completeReset
    split_ifs <;> exact h
  | recordResetError message =>
    unfold recordResetError
    split_ifs <;> exact h
  | disableLegacy hd =>
    intro ns row hr
    unfold disableLegacy at hd
    split_ifs at hd
    · cases hd
      exact h ns row hr
    · cases hd
      simp only [Store.row, Table.lookup_mapRows] at hr
      obtain ⟨old, ho, rfl⟩ := Option.map_eq_some_iff.mp hr
      exact h ns old ho
  | upsertConfig hop =>
    rw [hop] at hk
    unfold upsertConfig
    split_ifs
    · split
      · next ha => exact h.activate hk.1 ha
      · exact h
    · exact h

/-- What a statement of call `k` may make of the row of `ns`. Only the statement that completes a
deletion makes it a deleted one, and no statement revives a row that is being deleted. -/
inductive Becomes (k : Task) (ns : String) : Option NamespaceLifecycle → NamespaceLifecycle → Prop
    where
  | active {old : Option NamespaceLifecycle} {new : NamespaceLifecycle}
      (hold : ∀ row, old = some row → row.state ≠ .deleting) (hnew : new.state = .active) :
      Becomes k ns old new
  | deleting {old new : NamespaceLifecycle} (hgen : new.generation = old.generation)
      (hnew : new.state = .deleting) : Becomes k ns (some old) new
  | deleted {old new : NamespaceLifecycle} (hgen : new.generation = old.generation)
      (hold : old.state = .deleted) (hnew : new.state = .deleted) : Becomes k ns (some old) new
  | completed {old new : NamespaceLifecycle} (hgen : new.generation = old.generation)
      (hk : Completes k ns new.generation) (hnew : new.state = .deleted) :
      Becomes k ns (some old) new

lemma Becomes.same (k : Task) (ns : String) (hg : new.generation = old.generation)
    (hs : new.state = old.state) : Becomes k ns (some old) new := by
  cases ho : old.state with
  | active =>
    refine .active (fun row hr => ?_) (hs.trans ho)
    rw [← Option.some.inj hr, ho]
    nofun
  | deleting => exact .deleting hg (hs.trans ho)
  | deleted => exact .deleted hg ho (hs.trans ho)

lemma becomes_setRow (h : Becomes k ns (db.row ns) new)
    (hr : (db.setRow ns new).row ns' = some row) : Becomes k ns' (db.row ns') row := by
  rw [setRow_row] at hr
  split_ifs at hr with heq
  · cases hr
    exact heq ▸ h
  · rw [hr]
    exact .same k ns' rfl rfl

lemma becomes_activate (h : activate db ns = .ok (db', row)) (hr : db'.row ns' = some row') :
    Becomes k ns' (db.row ns') row' := by
  obtain ⟨rfl, ha, hc⟩ := activate_ok h
  refine becomes_setRow (.active (fun old ho => ?_) ha) hr
  rcases hc with hn | hs | ⟨old', ho', hd, -⟩
  · rw [hn] at ho
    cases ho
  · obtain rfl := Option.some.inj (hs.symm.trans ho)
    simp [ha]
  · obtain rfl := Option.some.inj (ho'.symm.trans ho)
    simp [hd]

theorem Writes.becomes (hw : Writes k db db')
    (hr : db'.row ns = some row) : Becomes k ns (db.row ns) row := by
  have hke : ∀ {db'' : Store}, db''.namespaces = db.namespaces → db''.row ns = some row →
      Becomes k ns (db.row ns) row := fun hsa hr => by
    simp only [Store.row, hsa] at hr
    rw [Store.row, hr]
    exact .same k ns rfl rfl
  cases hw with
  | none | startReset => exact hke rfl hr
  | activate _ ha => exact becomes_activate ha hr
  | startDelete hs =>
    obtain ⟨old, ho, -, rfl, rfl⟩ := startDelete_ok hs
    exact becomes_setRow (ho ▸ .deleting rfl rfl) hr
  | completeDelete hk hc =>
    obtain ⟨old, ho, rfl, -, rfl⟩ := completeDelete_ok hc
    exact becomes_setRow (ho ▸ .completed rfl hk rfl) hr
  | recordNamespaceError ns' generation message =>
    unfold recordNamespaceError at hr
    split at hr
    · exact hke rfl hr
    · next old ho =>
      split_ifs at hr
      · exact becomes_setRow (ho ▸ .same k _ rfl rfl) hr
      · exact hke rfl hr
  | completeReset _ =>
    unfold completeReset at hr
    split_ifs at hr <;> exact hke rfl hr
  | recordResetError message =>
    unfold recordResetError at hr
    split_ifs at hr <;> exact hke rfl hr
  | disableLegacy hd =>
    unfold disableLegacy at hd
    split_ifs at hd
    · cases hd
      exact hke rfl hr
    · cases hd
      simp only [Store.row, Table.lookup_mapRows] at hr
      obtain ⟨old, ho, rfl⟩ := Option.map_eq_some_iff.mp hr
      rw [Store.row, ho]
      exact .same k ns rfl rfl
  | upsertConfig _ =>
    unfold upsertConfig at hr
    split_ifs at hr
    · split at hr
      · next ha => exact becomes_activate ha hr
      · exact hke rfl hr
    · exact hke rfl hr

lemma Writes.resetting (hw : Writes k db db') (h : db.system.state = .resetting) :
    db'.system.state = .resetting ∨ k.pc = .global .completeReset := by
  cases hw with
  | none => exact .inl h
  | activate _ ha =>
    obtain ⟨rfl, -⟩ := activate_ok ha
    exact .inl h
  | startDelete hs => exact .inl ((startDelete_inRow hs).system ▸ h)
  | completeDelete _ hc => exact .inl ((completeDelete_inRow hc).system ▸ h)
  | recordNamespaceError ns generation message =>
    exact .inl ((recordNamespaceError_inRow db ns generation message).system ▸ h)
  | startReset => exact .inl rfl
  | completeReset hk => exact .inr hk
  | recordResetError message => exact .inl (by simp [recordResetError, h])
  | disableLegacy hd =>
    unfold disableLegacy at hd
    split_ifs at hd
    · cases hd
      exact .inl h
    · cases hd
      exact .inl h
  | upsertConfig _ => exact .inl (by simp [upsertConfig, h])

end Rows

/-! ### The invariant -/

/-- Whatever the stores answer, and whatever error the cleanup returns. -/
def anyOutcome : Contract Stores StoreCall Cleanup.Outcome String :=
  ⟨fun _ => True, fun _ _ => True, fun _ => True⟩

structure WorldInv (w : World) : Prop where
  sys : Inv w.sys
  named : Named w.sys.db
  plain : ∀ t k, w.sys.tasks t = some k → PlainOp k.op
  cleans : ∀ t k ns generation, w.sys.tasks t = some k → Cleans k ns generation →
    ∃ p, w.cleaning t = some p ∧
      Wp (stores (Spares ns generation)) anyOutcome p (fun _ => Absent ns generation) w.stores
  completes : ∀ t k ns generation, w.sys.tasks t = some k → Completes k ns generation →
    Absent ns generation w.stores

lemma worldInv_boot (h : Named db) (s : Stores) : WorldInv (boot db s) where
  sys := inv_boot db
  named := h
  plain t k hk := by cases hk
  cleans t k _ _ hk := by cases hk
  completes t k _ _ hk := by cases hk

section Invariant

variable {w : World} {k : Task} {ns ns' : String}

lemma spares_resource (hne : ns' ≠ ns) (hns : ns ≠ "" ∧ Plain ns) (hns' : ns' ≠ "" ∧ Plain ns')
    (resource : Resource) : Spares ns generation (resource.change ns' g) := by
  have ha := hns'.2.apart hns.2 hns'.1 hns.1
  have hk : ∀ {key : String}, KeyOf ns' g key → ¬ KeyOf ns generation key := fun h' h =>
    hne (KeyOf.inj hns'.1 hns.1 (le_max_right _ _) (le_max_right _ _) ha
      (keyOf_max.mpr h') (keyOf_max.mpr h)).1
  cases resource with
  | row table => exact hne
  | trending => exact hk (.inl rfl)
  | embedStream => exact hk (.inr (.inl rfl))
  | cached subj lim off =>
    exact hk (.inr (.inr ⟨_, by
      simp only [recCacheKey, String.toList_append, List.append_assoc]
      rfl⟩))
  | collection kind =>
    exact fun kind' heq => hne (collection_ns_eq ha heq)

/-- A writer callback writes nothing that a cleanup is removing: its namespace is another one. -/
lemma WorldInv.spares (hw : WorldInv w) (hwr : WriterRuns w.sys t ns' g)
    (hk : w.sys.tasks u = some k) (hc : Cleans k ns generation ∨ Completes k ns generation)
    (resource : Resource) : Spares ns generation (resource.change ns' g) := by
  have hp : PlainOp (.withWriter ns') := by
    obtain ⟨k', _, _, hk', hop', -⟩ := hwr
    exact hop' ▸ hw.plain t k' hk'
  have he : ∀ {pc : DeletePc}, k.op = .withNamespaceExclusive ns → k.pc = .deleting pc →
      Spares ns generation (resource.change ns' g) := by
    intro pc hop hpc
    refine spares_resource ?_ (hop ▸ hw.plain u k hk : PlainOp (.withNamespaceExclusive ns)) hp
      resource
    rintro rfl
    exact writer_not_exclusive hw.sys hwr ⟨k, pc, hk, hop, hpc⟩
  have hg : ∀ {pc : GlobalPc}, k.pc ≠ .global pc := fun hpc =>
    writer_not_global hw.sys hwr ⟨k, _, hk, hpc⟩
  rcases hc with (⟨hop, hpc⟩ | ⟨_, _, _, hpc⟩) | (⟨hop, hpc⟩ | ⟨_, _, _, hpc⟩)
  · exact he hop hpc
  · exact absurd hpc hg
  · exact he hop hpc
  · exact absurd hpc hg

lemma wp_change
    (h : Wp (stores (Spares ns generation)) anyOutcome p (fun _ => Absent ns generation) s)
    (hc : Spares ns generation change) :
    Wp (stores (Spares ns generation)) anyOutcome p (fun _ => Absent ns generation)
      (s.change change) :=
  h.perform (show (stores (Spares ns generation)).perform s ⟨change, hc⟩ = _ from rfl)
    fun _ ha => ha.change hc

lemma worldInv_write (hw : WorldInv w)
    (h : step ⟨true, true, job⟩ w (.write t resource) = some w') : WorldInv w' := by
  obtain ⟨hs, hcle, ns', g, hwr, hst⟩ := step_write h
  refine ⟨hs ▸ hw.sys, hs ▸ hw.named, hs ▸ hw.plain, ?_, ?_⟩
  · intro u k ns generation hk hcl
    rw [hs] at hk
    obtain ⟨p, hp, hwp⟩ := hw.cleans u k ns generation hk hcl
    refine ⟨p, hcle ▸ hp, ?_⟩
    rw [hst]
    exact wp_change hwp (hw.spares hwr hk (.inl hcl) resource)
  · intro u k ns generation hk hc
    rw [hs] at hk
    rw [hst]
    exact (hw.completes u k ns generation hk hc).change (hw.spares hwr hk (.inr hc) resource)

lemma serve_change (h : serve c s o = some (r, s')) : s' = s ∨ s' = s.change (.execute c) := by
  cases o with
  | ok | lost e =>
    cases h
    exact .inr rfl
  | fail e =>
    cases h
    exact .inl rfl

lemma worldInv_store (hw : WorldInv w) (h : step ⟨true, true, job⟩ w (.store t o) = some w') :
    WorldInv w' := by
  obtain ⟨hs, c, cont, r, hca, hse, hcl⟩ := step_store h
  refine ⟨hs ▸ hw.sys, hs ▸ hw.named, hs ▸ hw.plain, ?_, ?_⟩
  · intro u k ns generation hk hcle
    rw [hs] at hk
    obtain ⟨p, hp, hwp⟩ := hw.cleans u k ns generation hk hcle
    rw [hcl]
    by_cases hu : u = t
    · subst hu
      obtain rfl := Option.some.inj (hp.symm.trans hca)
      exact ⟨_, Function.update_self .., (hwp w.stores (.refl w.stores)).2 o r _ trivial hse⟩
    · refine ⟨p, (Function.update_of_ne hu ..).trans hp, ?_⟩
      rcases serve_change hse with heq | heq <;> rw [heq]
      · exact hwp
      · exact wp_change hwp trivial
  · intro u k ns generation hk hc
    rw [hs] at hk
    have ha := hw.completes u k ns generation hk hc
    rcases serve_change hse with heq | heq <;> rw [heq]
    · exact ha
    · exact ha.execute c

lemma lenient_anyOutcome : Lenient anyOutcome := fun _ _ _ _ => trivial

lemma wp_cleanupOf (job : Bool) (h : Cleans k ns generation) (s : Stores) :
    ∃ p, cleanupOf ⟨true, true, job⟩ k = some p ∧
      Wp (stores (Spares ns generation)) anyOutcome p (fun _ => Absent ns generation) s := by
  have hn : Nameable anyOutcome ns generation := .inr fun _ => trivial
  rcases h with ⟨hop, hpc⟩ | ⟨_, _, -, hpc⟩
  · refine ⟨_, by simp only [cleanupOf, hpc, hop]; rfl, wp_bind ?_⟩
    exact wp_mono (wp_deleteNamespaceGeneration lenient_anyOutcome (fun _ _ => trivial) job hn)
      fun _ _ ha => wp_pure ha
  · refine ⟨_, by simp only [cleanupOf, hpc]; rfl, ?_⟩
    exact wp_verifyNamespaceAbsent lenient_anyOutcome (fun _ _ => trivial) job hn
      (.inr fun _ => trivial)

lemma ended_ok (h : ended p = some .ok) : p = some (.pure ()) := by
  unfold ended at h
  split at h
  · rfl
  · cases h
  · cases h

lemma absent_of_turns {o : Coordinator.Outcome} (hw : WorldInv w)
    (h : step ⟨true, true, job⟩ w (.sys (.advance t o)) = some w') (hk : w.sys.tasks t = some k)
    (hop : k'.op = k.op) (ht : Turns w.sys.db k o w'.sys.db k'.pc)
    (hco : Completes k' ns generation) : Absent ns generation w'.stores := by
  obtain ⟨-, hs, -, he⟩ := step_advance h
  obtain ⟨hc, rfl⟩ := cleans_of_turns ht hop hco
  obtain ⟨p, hp, hwp⟩ := hw.cleans t k ns generation hk hc
  obtain ⟨_, hcl, -⟩ := wp_cleanupOf job hc w.stores
  have hpu := ended_ok (he (by rw [hk, Option.bind_some, hcl]; rfl))
  obtain rfl := Option.some.inj (hp.symm.trans hpu)
  rw [hs]
  exact hwp

lemma worldInv_sys (hw : WorldInv w) (ha : PlainStart (.sys a))
    (h : step ⟨true, true, job⟩ w (.sys a) = some w') : WorldInv w' := by
  obtain ⟨hs, hst, hcle⟩ := step_sys h
  refine ⟨inv_step hw.sys hs, ?_, ?_, ?_, ?_⟩
  · rcases step_writes hs with hdb | ⟨t, o, k, hk, hwr, -⟩
    · exact hdb ▸ hw.named
    · exact hw.named.writes (hw.plain t k hk) hwr
  · intro t k' hk'
    rcases step_task hs hk' with hsa | ⟨session, rfl, -⟩ | ⟨k, hk, hop, -⟩
    · exact hw.plain t k' hsa
    · exact ha
    · exact hop ▸ hw.plain t k hk
  · intro t k' ns generation hk' hcl
    by_cases had : ∃ o, a = .advance t o
    · obtain ⟨o, rfl⟩ := had
      obtain ⟨p, hp, hwp⟩ := wp_cleanupOf job hcl w'.stores
      refine ⟨p, ?_, hwp⟩
      rw [(step_advance h).2.2.1, Function.update_self, hk', Option.bind_some, hp]
    · rcases step_task hs hk' with hsa | ⟨_, _, he⟩ | ⟨k, -, -, hsh | ⟨o, rfl, -⟩⟩
      · rw [hcle t fun o heq => had ⟨o, heq⟩, hst]
        exact hw.cleans t k' ns generation hsa hcl
      · exact absurd hcl (idle_of_entry he ns generation).1
      · exact absurd hcl (idle_of_shifts hsh ns generation).1
      · exact absurd ⟨o, rfl⟩ had
  · intro t k' ns generation hk' hc
    rcases step_task hs hk' with hsa | ⟨_, _, he⟩ | ⟨k, hk, hop, hsh | ⟨o, rfl, ht⟩⟩
    · rw [hst]
      exact hw.completes t k' ns generation hsa hc
    · exact absurd hc (idle_of_entry he ns generation).2
    · exact absurd hc (idle_of_shifts hsh ns generation).2
    · exact absent_of_turns hw h hk hop ht hc

/-- **Every step keeps the invariant.** -/
theorem worldInv_step {a : Action} (hw : WorldInv w) (ha : PlainStart a)
    (h : step ⟨true, true, job⟩ w a = some w') : WorldInv w' := by
  cases a with
  | sys a => exact worldInv_sys hw ha h
  | store t o => exact worldInv_store hw h
  | write t resource => exact worldInv_write hw h

end Invariant

/-! ### What a step does to the rows -/

/-- `ns` is being deleted at generation `generation`. -/
def DeletingAt (db : Store) (ns : String) (generation : ℤ) : Prop :=
  ∃ row, db.row ns = some row ∧ row.state = .deleting ∧ row.generation = generation

section RowSteps

variable {clients : Clients} {w : World} {a : Action} {ns : String}

lemma step_rows (h : step clients w a = some w') :
    w'.sys.db = w.sys.db ∨ ∃ t o k, w.sys.tasks t = some k ∧ Writes k w.sys.db w'.sys.db ∧
      (a = .sys (.advance t o) ∨ ∃ lease received, k.pc = .writing lease received) := by
  rcases step_refines h with hsy | ⟨b, rfl, hs⟩
  · exact .inl (by rw [hsy])
  · refine (step_writes hs).imp_right ?_
    rintro ⟨t, o, k, hk, hwr, hb⟩
    exact ⟨t, o, k, hk, hwr, hb.imp (congrArg Action.sys) And.right⟩

lemma step_deleting (hw : WorldInv w) (h : step clients w a = some w')
    (hd : DeletingAt w.sys.db ns generation) :
    DeletingAt w'.sys.db ns generation ∨ DeletedAt w'.sys.db ns generation ∧
      ∃ t o k, a = .sys (.advance t o) ∧ w.sys.tasks t = some k ∧ Completes k ns generation := by
  obtain ⟨row, hr, hs, hg⟩ := hd
  have hf : Forward w.sys.db w'.sys.db := by
    rcases step_refines h with hsy | ⟨b, -, hst⟩
    · exact hsy ▸ .refl _
    · exact step_forward hw.sys hst
  rcases step_rows h with hdb | ⟨t, o, k, hk, hwr, ha⟩
  · exact .inl ⟨row, hdb ▸ hr, hs, hg⟩
  · obtain ⟨row', hr', -⟩ := row_of_stage_le (hr ▸ hf ns)
    have hb := Writes.becomes hwr hr'
    rw [hr] at hb
    cases hb with
    | active ho => exact absurd hs (ho row rfl)
    | deleting hg' hn => exact .inl ⟨row', hr', hn, hg'.trans hg⟩
    | deleted _ ho => rw [hs] at ho; cases ho
    | completed hg' hc hn =>
      have hg'' := hg'.trans hg
      have had : a = .sys (.advance t o) :=
        ha.resolve_right fun ⟨lease, received, hpc⟩ => by simp [Completes, hpc] at hc
      exact .inr ⟨⟨row', hr', hn, hg''⟩, t, o, k, had, hk, hg'' ▸ hc⟩

/-- **When a namespace is marked deleted, nothing of its generation is left.** -/
lemma absent_of_deleted (hw : WorldInv w) (h : step clients w a = some w')
    (hbe : ¬ DeletedAt w.sys.db ns generation) (haf : DeletedAt w'.sys.db ns generation) :
    Absent ns generation w'.stores := by
  obtain ⟨row', hr', hn, hg⟩ := haf
  rcases step_rows h with hdb | ⟨t, -, k, hk, hwr, -⟩
  · exact absurd ⟨row', hdb ▸ hr', hn, hg⟩ hbe
  · have hc : Completes k ns generation := by
      cases ho : w.sys.db.row ns with
      | none =>
        have hb := Writes.becomes hwr hr'
        rw [ho] at hb
        cases hb with
        | active _ ha => rw [hn] at ha; cases ha
      | some row =>
        have hb := Writes.becomes hwr hr'
        rw [ho] at hb
        cases hb with
        | active _ ha => rw [hn] at ha; cases ha
        | deleting _ hd => rw [hn] at hd; cases hd
        | deleted hg' hs => exact absurd ⟨row, ho, hs, hg'.symm.trans hg⟩ hbe
        | completed _ hc => exact hg ▸ hc
    have hab := hw.completes t k ns generation hk hc
    -- the statement is one of PostgreSQL, and leaves the other stores
    cases a with
    | sys b => rwa [(step_sys h).2.1]
    | store u o =>
      rw [(step_store h).1] at hr'
      exact absurd ⟨row', hr', hn, hg⟩ hbe
    | write u resource =>
      rw [(step_write h).1] at hr'
      exact absurd ⟨row', hr', hn, hg⟩ hbe

lemma step_resetting (h : step clients w a = some w') (hr : w.sys.db.system.state = .resetting) :
    w'.sys.db.system.state = .resetting ∨
      ∃ t o k, a = .sys (.advance t o) ∧ w.sys.tasks t = some k ∧
        k.pc = .global .completeReset := by
  rcases step_rows h with hdb | ⟨t, o, k, hk, hw, ha⟩
  · exact .inl (hdb ▸ hr)
  · refine (Writes.resetting hw hr).imp_right fun hpc => ⟨t, o, k, ?_, hk, hpc⟩
    exact ha.resolve_right fun ⟨lease, received, hpc'⟩ => nomatch hpc.symm.trans hpc'

lemma not_writer_of_deleting (hw : WorldInv w) (hd : DeletingAt w.sys.db ns generation)
    (t : ℕ) (g : ℤ) : ¬ WriterRuns w.sys t ns g := by
  intro hwr
  obtain ⟨row, hr, hs, -⟩ := hd
  obtain ⟨-, row', hr', ha, -⟩ := writer_active hw.sys hwr
  obtain rfl := Option.some.inj (hr.symm.trans hr')
  rw [hs] at ha
  cases ha

end RowSteps

/-! ### Runs -/

/-- **No write outside an active generation.** -/
theorem writes_active (clients : Clients) (db : Store) (s : Stores) (as : List Action)
    (h : exec (step clients) (boot db s) as = some w)
    (hw : step clients w (.write t resource) = some w') :
    ∃ ns g, w'.stores = w.stores.change (resource.change ns g) ∧ ActiveAt w.sys.db ns g ∧
      w.sys.db.system.state = .active := by
  have hs : Inv w.sys := by
    refine exec_invariant (I := fun w => Inv w.sys) (fun m a m' hm hst => ?_) h (inv_boot db)
    rcases step_refines hst with hsys | ⟨b, -, hb⟩
    · exact hsys ▸ hm
    · exact inv_step hm hb
  obtain ⟨-, -, ns, g, hwr, hst⟩ := step_write hw
  obtain ⟨hsys, ha⟩ := writer_active hs hwr
  exact ⟨ns, g, hst, ha, hsys⟩

/-- A writer callback stores a trending list. -/
theorem writes_active_trending : ∃ w w' ns g,
    exec (step ⟨true, true, true⟩) (boot emptyStore ⟨[], [], []⟩) (writerRun.map .sys) = some w ∧
      step ⟨true, true, true⟩ w (.write 1 .trending) = some w' ∧ ActiveAt w.sys.db ns g := by
  obtain ⟨u, hu⟩ := Option.isSome_iff_exists.mp (show (exec (step ⟨true, true, true⟩)
    (boot emptyStore ⟨[], [], []⟩) (writerRun.map .sys ++ [.write 1 .trending])).isSome by
      decide +kernel)
  obtain ⟨w, hw, hr⟩ := (exec_append _).mp hu
  obtain ⟨w', hw', -⟩ := (exec_cons _).mp hr
  obtain ⟨ns, g, -, ha, -⟩ := writes_active _ _ _ _ hw hw'
  exact ⟨w, w', ns, g, hw, hw', ha⟩

end Codohue.Removal
