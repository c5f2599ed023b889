import Codohue.RowWrites

/-!
What one statement of a call can do, by where the call stands and by the locks it holds.

Every later argument about the system uses only `step_moves`: a statement moves its own call,
and touches the rows of one namespace under the exclusive lock of that namespace, or any row
under the exclusive global lock.
-/

namespace Codohue.CallSteps

open Lifecycle LockTable Coordinator RowWrites

/-! ### Where a call stands -/

variable {pc : Pc} {db db' : Store}

/-- The call holds all its locks. -/
def locked : Pc → Bool
  | .getSystem | .getNamespace | .activating | .writing _ _ | .deleting _ | .global _ => true
  | .locking _ | .releasing _ _ | .returned _ => false

/-- The call has read an active system row. -/
def gated : Pc → Bool
  | .getNamespace | .activating | .writing _ _ | .deleting _ => true
  | _ => false

/-- The locks the call still has to take. -/
def pending : Pc → List HeldKey
  | .locking todo => todo
  | _ => []

/-- The call has not begun to release its locks. -/
def holding : Pc → Bool
  | .releasing _ _ | .returned _ => false
  | _ => true

/-- The call has not yet read the row of its namespace. -/
def entering : Pc → Bool
  | .locking _ | .getSystem | .getNamespace => true
  | _ => false

/-- The position belongs to the operation. -/
def Fits : Op → Pc → Prop
  | op, .getNamespace => ∃ ns, op = .withWriter ns ∨ op = .withNamespaceExclusive ns
  | op, .activating => ∃ ns, op = .activate ns
  | op, .writing _ _ => ∃ ns, op = .withWriter ns
  | op, .deleting _ => ∃ ns, op = .withNamespaceExclusive ns
  | op, .global _ => ∃ callback, op = .withGlobalExclusive callback
  | _, _ => True

lemma holding_of_locked (h : locked pc) : holding pc := by
  cases pc <;> simp_all [locked, holding]

lemma locked_of_gated (h : gated pc) : locked pc := by
  cases pc <;> simp_all [locked, gated]

lemma pending_of_locked (h : locked pc) : pending pc = [] := by
  cases pc <;> simp_all [locked, pending]

lemma global_mem_wants (hf : Fits op pc) (hg : gated pc) : globalLock .shared ∈ op.wants := by
  cases pc with
  | getNamespace => obtain ⟨ns, rfl | rfl⟩ := hf <;> simp [Op.wants]
  | activating | writing lease received | deleting pc => obtain ⟨ns, rfl⟩ := hf; simp [Op.wants]
  | _ => simp [gated] at hg

/-! ### What one statement of a call does -/

/-- What a call may do to the rows, by the locks it asks for. Only an activation takes a
namespace to another generation. -/
inductive Effect (k : Task) (db db' : Store) : Prop where
  | none (hdb : db' = db)
  | row (ns : String) (hw : namespaceLock ns .exclusive ∈ k.op.wants) (h : InRow ns db db')
  | activate (ns : String) (hop : k.op = .activate ns) (hpc : k.pc = .activating)
      (row : NamespaceLifecycle) (h : Lifecycle.activate db ns = .ok (db', row))
  | any (hw : globalLock .exclusive ∈ k.op.wants) (h : Within db db')

lemma Effect.forward (h : Effect k db db') : Forward db db' := by
  cases h with
  | none hdb => exact hdb ▸ .refl db
  | row ns hw h => exact h.within.forward
  | activate ns hop hpc row h => exact activate_forward h
  | any hw h => exact h.forward

/-- Where a statement of a call leads, and what it writes. -/
inductive Turns (db : Store) (k : Task) (o : Outcome) : Store → Pc → Prop where
  | finish {db' : Store} {err : Option Error} (hl : locked k.pc) (he : Effect k db db')
      (hw : Writes k db db')
      (hclosed : err = none → k.pc ≠ .getSystem ∧ ∀ evidence,
        k.pc = .global (.disableLegacy evidence) →
          ∃ changed, disableLegacy db evidence = .ok (db', changed)) :
      Turns db k o db' (.releasing k.held.reverse err)
  | callback {callback : GlobalCallback} (hpc : k.pc = .getSystem)
      (hop : k.op = .withGlobalExclusive callback) : Turns db k o db (.global callback.entry)
  | gate {pc : Pc} (hpc : k.pc = .getSystem) (hactive : db.system.state = .active)
      (hgated : pc = .activating ∨ pc = .getNamespace) (hfits : Fits k.op pc) : Turns db k o db pc
  | lease {ns : String} {row : NamespaceLifecycle} (hpc : k.pc = .getNamespace)
      (hop : k.op = .withWriter ns) (hrow : db.row ns = some row) (hactive : row.state = .active) :
      Turns db k o db (.writing row.generation [row.generation])
  | startDelete {ns : String} {row : NamespaceLifecycle} (hpc : k.pc = .getNamespace)
      (hop : k.op = .withNamespaceExclusive ns) : Turns db k o db (.deleting (.startDelete row))
  | delete {ns : String} {pc pc' : DeletePc} {db' : Store} (hop : k.op = .withNamespaceExclusive ns)
      (hpc : k.pc = .deleting pc) (h : InRow ns db db' ∧ Writes k db db')
      (hcleaned : ∀ generation, pc' = .completeDelete generation →
        pc = .cleanup generation ∧ o = .ok) : Turns db k o db' (.deleting pc')
  | global {callback : GlobalCallback} {pc pc' : GlobalPc} {db' : Store}
      (hop : k.op = .withGlobalExclusive callback) (hpc : k.pc = .global pc)
      (h : Within db db' ∧ Writes k db db') (hlegacy : ∀ evidence, pc ≠ .disableLegacy evidence)
      (hcleaned : ∀ ns generation todo, pc' = .completeDelete ns generation todo →
        pc = .verifyAbsent ((ns, generation) :: todo) ∧ o = .ok) : Turns db k o db' (.global pc')

/-- A call and the rows after a statement of the call. -/
def Turned (db : Store) (k : Task) (o : Outcome) (r : Store × Task) : Prop :=
  ∃ pc, r.2 = k.goto pc ∧ Turns db k o r.1 pc

lemma eq_ok_of_error {o : Outcome} (h : o.error = none) : o = .ok := by
  cases o with
  | ok => rfl
  | fail text | lost text => cases h

variable {k k' : Task} {o : Outcome}

section Statements

lemma deleteStep_turned {ns : String} {pc : DeletePc} (hop : k.op = .withNamespaceExclusive ns)
    (hpc : k.pc = .deleting pc) : Turned db k o (deleteStep db k ns o pc) := by
  have hf : ∀ {db' : Store} {err : Option Error}, InRow ns db db' ∧ Writes k db db' →
      Turned db k o (db', k.finish err) := fun h =>
    ⟨_, rfl, .finish (by rw [hpc]; rfl) (.row ns (by simp [hop, Op.wants]) h.1) h.2
      fun _ => by simp [hpc]⟩
  have hre : InRow ns db db ∧ Writes k db db := ⟨.refl ns db, .none⟩
  cases pc with
  | startDelete cur =>
    have hr := ran_startDelete k db o "start namespace deletion" ns
    simp only [deleteStep]
    split_ifs
    · exact hf hre
    · split <;> rename_i heq <;> rw [heq] at hr
      · exact ⟨_, rfl, .delete hop hpc hr nofun⟩
      · exact hf hr
  | cleanup gen =>
    simp only [deleteStep]
    split
    · next he =>
      refine ⟨_, rfl, .delete hop hpc hre fun g hg => ?_⟩
      cases hg
      exact ⟨rfl, eq_ok_of_error he⟩
    · exact ⟨_, rfl, .delete hop hpc hre nofun⟩
  | completeDelete gen =>
    have hr := ran_completeDelete (.inl ⟨hop, hpc⟩) db o "complete namespace deletion"
    simp only [deleteStep]
    split <;> rename_i heq <;> rw [heq] at hr
    · exact hf hr
    · exact ⟨_, rfl, .delete hop hpc hr nofun⟩
  | recordError gen message err =>
    exact hf (ran_set o _ (.refl ns db) (recordNamespaceError_inRow db ns gen message)
      (.recordNamespaceError ns gen message))

lemma globalStep_turned {pc : GlobalPc} (hop : k.op = .withGlobalExclusive callback)
    (hpc : k.pc = .global pc) : Turned db k o (globalStep db k o pc) := by
  have hf : ∀ {db' : Store} {err : Option Error}, Within db db' ∧ Writes k db db' →
      (∀ evidence, pc = .disableLegacy evidence → err = none →
        ∃ changed, disableLegacy db evidence = .ok (db', changed)) →
      Turned db k o (db', k.finish err) := fun h hc =>
    ⟨_, rfl, .finish (by rw [hpc]; rfl) (.any (by simp [hop, Op.wants]) h.1) h.2 fun hn =>
      ⟨by simp [hpc], fun evidence hpc' =>
        hc evidence (Pc.global.inj (hpc.symm.trans hpc')) hn⟩⟩
  have hre : Within db db ∧ Writes k db db := ⟨.refl db, .none⟩
  cases pc with
  | startReset =>
    have hr := ran_set (k := k) o "start system reset" hre.1 (startReset_within db) .startReset
    simp only [globalStep]
    split <;> rename_i heq <;> rw [heq] at hr
    · exact ⟨_, rfl, .global hop hpc hr nofun nofun⟩
    · exact hf hr nofun
  | listNonDeleted | wipe =>
    simp only [globalStep]
    split <;> exact ⟨_, rfl, .global hop hpc hre nofun nofun⟩
  | fence todo fenced =>
    cases todo with
    | nil => exact ⟨_, rfl, .global hop hpc hre nofun nofun⟩
    | cons ns todo =>
      have hr := ran_startDelete k db o "start namespace deletion" ns
      simp only [globalStep]
      split <;> rename_i heq <;> rw [heq] at hr <;>
        exact ⟨_, rfl, .global hop hpc ⟨hr.1.within, hr.2⟩ nofun nofun⟩
  | verifyAbsent todo =>
    cases todo with
    | nil => exact ⟨_, rfl, .global hop hpc hre nofun nofun⟩
    | cons item todo =>
      simp only [globalStep]
      split
      · next her =>
        refine ⟨_, rfl, .global hop hpc hre nofun fun ns gen todo' h => ?_⟩
        cases h
        exact ⟨rfl, eq_ok_of_error her⟩
      · exact ⟨_, rfl, .global hop hpc hre nofun nofun⟩
  | completeDelete ns gen todo =>
    have hr := ran_completeDelete (.inr ⟨callback, todo, hop, hpc⟩) db o
      "complete namespace deletion"
    simp only [globalStep]
    split <;> rename_i heq <;> rw [heq] at hr <;>
      exact ⟨_, rfl, .global hop hpc ⟨hr.1.within, hr.2⟩ nofun nofun⟩
  | completeReset =>
    have hr := ran_set o "complete system reset" hre.1 (completeReset_within db)
      (.completeReset hpc)
    simp only [globalStep]
    split <;> rename_i heq <;> rw [heq] at hr
    · exact hf hr nofun
    · exact ⟨_, rfl, .global hop hpc hr nofun nofun⟩
  | recordError err =>
    exact hf (ran_set o _ hre.1 (recordResetError_within db err.message)
      (.recordResetError err.message)) nofun
  | disableLegacy evidence =>
    have hr := ran (k := k) (P := Within db) o "disable legacy envelopes" hre.1
      fun _ _ (h : disableLegacy db evidence = _) => ⟨disableLegacy_within h, .disableLegacy h⟩
    simp only [globalStep]
    split <;> rename_i heq <;> rw [heq] at hr
    · refine hf hr fun _ he _ => ?_
      cases he
      exact ⟨_, run_ok heq⟩
    · exact hf hr nofun
  | repair => exact hf hre nofun

lemma activateStep_turned (hop : k.op = .activate ns) (hpc : k.pc = .activating) :
    Turned db k o (activateStep db k ns o) := by
  have hr := ran (P := Effect k db) o "activate namespace lifecycle" (.none rfl)
    fun _ row (h : activate db ns = _) => ⟨.activate ns hop hpc row h, .activate hop h⟩
  have hl : locked k.pc := by rw [hpc]; rfl
  simp only [activateStep]
  split <;> rename_i heq <;> rw [heq] at hr <;>
    exact ⟨_, rfl, .finish hl hr.1 hr.2 fun _ => by simp [hpc]⟩

lemma getSystemStep_turned (hpc : k.pc = .getSystem) :
    Turned db k o (db, getSystemStep db k o) := by
  have hf : ∀ err, Turned db k o (db, k.finish (some err)) := fun err =>
    ⟨_, rfl, .finish (by rw [hpc]; rfl) (.none rfl) .none nofun⟩
  unfold getSystemStep
  split
  · exact hf _
  · exact hf _
  · next hop => exact ⟨_, rfl, .callback hpc hop⟩
  · next ns _ hop =>
    split_ifs with ha
    · exact hf _
    · exact ⟨_, rfl, .gate hpc (not_not.mp ha) (.inl rfl) ⟨ns, hop⟩⟩
  · next hg hac =>
    split_ifs with ha
    · exact hf _
    · refine ⟨_, rfl, .gate hpc (not_not.mp ha) (.inr rfl) ?_⟩
      cases hop : k.op with
      | withWriter ns => exact ⟨ns, .inl rfl⟩
      | withNamespaceExclusive ns => exact ⟨ns, .inr rfl⟩
      | activate ns => exact absurd hop (hac ns)
      | withGlobalExclusive callback => exact absurd hop (hg callback)

lemma getNamespace_ok (h : getNamespace db ns = .ok row) : db.row ns = some row := by
  unfold getNamespace at h
  split at h
  · cases h
  · next hr => exact hr.trans (congrArg some (Except.ok.inj h))

lemma getNamespaceStep_turned (hpc : k.pc = .getNamespace)
    (h : getNamespaceStep db k o = some k') : Turned db k o (db, k') := by
  have hf : ∀ err, Turned db k o (db, k.finish err) := fun err =>
    ⟨_, rfl, .finish (by rw [hpc]; rfl) (.none rfl) .none fun _ => by simp [hpc]⟩
  unfold getNamespaceStep at h
  split at h
  · cases h
    exact hf _
  · next ns _ hop =>
    split at h
    · cases h
      exact hf _
    · next row hr =>
      split_ifs at h with ha
      · cases h
        exact hf _
      · cases h
        exact ⟨_, rfl, .lease hpc hop (getNamespace_ok hr) (not_not.mp ha)⟩
  · next ns _ hop =>
    split at h
    · cases h
      exact hf _
    · cases h
      exact ⟨_, rfl, .startDelete hpc hop⟩
  · cases h

/-- **What a statement of a call that has its locks can do.** -/
theorem step_turned (h : k.step db o = some (db', k')) : Turned db k o (db', k') := by
  unfold Task.step at h
  split at h
  · next hpc =>
    cases h
    exact getSystemStep_turned hpc
  · next hpc =>
    obtain ⟨k'', hk, heq⟩ := Option.map_eq_some_iff.mp h
    cases heq
    exact getNamespaceStep_turned hpc hk
  · next ns hpc hop => exact Option.some.inj h ▸ activateStep_turned hop hpc
  · next pc ns hpc hop => exact Option.some.inj h ▸ deleteStep_turned hop hpc
  · next pc callback hpc hop => exact Option.some.inj h ▸ globalStep_turned hop hpc
  · cases h

end Statements

section Summary

lemma Turns.locked (h : Turns db k o db' pc) : locked k.pc := by
  cases h with
  | finish hl => exact hl
  | callback hpc | gate hpc | lease hpc | startDelete hpc | delete _ hpc | global _ hpc =>
    rw [hpc]
    rfl

lemma Turns.effect (h : Turns db k o db' pc) : Effect k db db' := by
  cases h with
  | finish _ he => exact he
  | callback | gate | lease | startDelete => exact .none rfl
  | delete hop _ h => exact .row _ (by simp [hop, Op.wants]) h.1
  | global hop _ h => exact .any (by simp [hop, Op.wants]) h.1

lemma Turns.writes (h : Turns db k o db' pc) : Writes k db db' := by
  cases h with
  | finish _ _ hw => exact hw
  | callback | gate | lease | startDelete => exact .none
  | delete _ _ h | global _ _ h => exact h.2

end Summary

/-! ### What a call does apart from its statements -/

/-- A call takes or gives back a lock, or its writer callback moves on. -/
inductive Shifts (k : Task) : Task → Prop where
  | locked (hpc : k.pc = .locking []) : Shifts k (k.goto .getSystem)
  | lock {w : HeldKey} {rest : List HeldKey} (hpc : k.pc = .locking (w :: rest)) :
      Shifts k { k with held := k.held ++ [w], pc := .locking rest }
  | refused {todo : List HeldKey} {err : Error} (hpc : k.pc = .locking todo) :
      Shifts k (k.finish (some err))
  | unlock {w : HeldKey} {rest : List HeldKey} {err err' : Option Error}
      (hpc : k.pc = .releasing (w :: rest) err)
      (herr : err' = err ∨ ∃ text, err' = releaseError k.op err text) :
      Shifts k (k.goto (.releasing rest err'))
  | returned {err : Option Error} (hpc : k.pc = .releasing [] err) :
      Shifts k (k.goto (.returned err))
  | writing {lease : ℤ} {received received' : List ℤ} (hpc : k.pc = .writing lease received)
      (hsub : ∀ g ∈ received', g = lease ∨ g ∈ received) :
      Shifts k (k.goto (.writing lease received'))
  | done {lease : ℤ} {received : List ℤ} {err : Option Error}
      (hpc : k.pc = .writing lease received) :
      Shifts k (k.finish err)

/-- What a shift of `k` to `k'` leaves of the sessions and the locks. -/
structure Clears (s s' : Sys) (k k' : Task) : Prop where
  owner : ∀ session, session ≠ k.session ∨ (∀ err, k'.pc ≠ .returned err) →
    s'.owner session = s.owner session
  locks : ∀ g ∈ s.locks, g.session ≠ k.session ∨ holding k'.pc → g ∈ s'.locks
  held : holding k'.pc → ∀ w ∈ k'.held, w ∈ k.held ∨ k.grant w ∈ s'.locks

/-- **What a step can do.** -/
inductive Took (s : Sys) : Action → Sys → Prop where
  | start {t : ℕ} {session : Session} {op : Op}
      (hfree : (s.tasks t).isNone ∧ (s.owner session).isNone) :
      Took s (.start t session op) { s.put t ⟨session, op, [], op.entry⟩ with
        owner := Function.update s.owner session (some t) }
  | shift {a : Action} {s' : Sys} {t : ℕ} {k k' : Task} (hk : s.tasks t = some k)
      (h : Shifts k k') (htasks : s'.tasks = (s.put t k').tasks) (hdb : s'.db = s.db)
      (hclears : Clears s s' k k') : Took s a s'
  | statement {t : ℕ} {o : Outcome} {k : Task} {db' : Store} {pc : Pc} (hk : s.tasks t = some k)
      (h : Turns s.db k o db' pc) : Took s (.advance t o) { s.put t (k.goto pc) with db := db' }
  | upsertConfig {t : ℕ} {o : Outcome} {k : Task} {lease : ℤ} {received : List ℤ} {ns : String}
      (hk : s.tasks t = some k) (hpc : k.pc = .writing lease received)
      (hop : k.op = .withWriter ns) :
      Took s (.upsertConfig t o) { s with
        db := (o.run "create namespace config" s.db (.ok (upsertConfig s.db ns, ()))).1 }
  | crash {proc : ℕ} : Took s (.crash proc) { s with
          locks := drop s.locks fun session => session.proc = proc
          owner := fun session => if session.proc = proc then none else s.owner session
          tasks := fun t => (s.tasks t).filter fun k => k.session.proc ≠ proc }

section Steps

lemma Took.put (hk : s.tasks t = some k) (h : Shifts k k') (hh : ∀ w ∈ k'.held, w ∈ k.held) :
    Took s a (s.put t k') :=
  .shift hk h rfl rfl ⟨fun _ _ => rfl, fun _ hg _ => hg, fun _ w hw => .inl (hh w hw)⟩

lemma lockStep_took (hk : s.tasks t = some k) (hpc : k.pc = .locking (w :: rest))
    (h : lockStep s t k w rest o = some s') : Took s (.advance t o) s' := by
  cases o with
  | ok =>
    obtain ⟨locks, ha, rfl⟩ := Option.map_eq_some_iff.mp h
    refine .shift hk (.lock hpc) rfl rfl ⟨fun _ _ => rfl,
      fun g hg _ => (acquire_some ha).mpr (.inr hg), fun _ w' hw' => ?_⟩
    rcases List.mem_append.mp hw' with ho | hn
    · exact .inl ho
    · exact .inr ((acquire_some ha).mpr (.inl (List.mem_singleton.mp hn ▸ rfl)))
  | fail text =>
    cases h
    exact .put hk (.refused hpc) fun _ => id
  | lost text =>
    obtain ⟨locks, ha, rfl⟩ := Option.map_eq_some_iff.mp h
    exact .shift hk (.refused hpc) rfl rfl
      ⟨fun _ _ => rfl, fun g hg _ => (acquire_some ha).mpr (.inr hg), nofun⟩

lemma unlockStep_took (hk : s.tasks t = some k) (hpc : k.pc = .releasing (w :: rest) err) :
    Took s (.advance t o) (unlockStep s t k w rest err o) := by
  have hr : ∀ {err' : Option Error},
      Clears s { s.put t (k.goto (.releasing rest err')) with locks := release s.locks (k.grant w) }
        k (k.goto (.releasing rest err')) :=
    ⟨fun _ _ => rfl, fun g hg hne => (mem_release (hne.resolve_right nofun)).mpr hg, nofun⟩
  cases o with
  | ok => exact .shift hk (.unlock hpc (.inl rfl)) rfl rfl hr
  | fail text => exact .put hk (.unlock hpc (.inr ⟨text, rfl⟩)) fun _ => id
  | lost text => exact .shift hk (.unlock hpc (.inr ⟨text, rfl⟩)) rfl rfl hr

lemma advance_took (hk : s.tasks t = some k) (h : advance s t k o = some s') :
    Took s (.advance t o) s' := by
  unfold advance at h
  split at h
  · next hpc =>
    cases h
    exact .put hk (.locked hpc) fun _ => id
  · next hpc => exact lockStep_took hk hpc h
  · next hpc =>
    cases h
    exact unlockStep_took hk hpc
  · next err hpc =>
    cases h
    refine .shift hk (.returned hpc) rfl rfl ⟨fun session hne => ?_, fun _ hg _ => hg, nofun⟩
    exact Function.update_of_ne (hne.resolve_right fun h => h err rfl) _ _
  · obtain ⟨⟨db', k'⟩, hs, rfl⟩ := Option.map_eq_some_iff.mp h
    obtain ⟨pc, rfl, ht⟩ := step_turned hs
    exact .statement hk ht

theorem step_took (h : step s a = some s') : Took s a s' := by
  cases a with
  | start t session op =>
    simp only [step] at h
    split_ifs at h with hf
    cases h
    exact .start hf
  | advance t o =>
    obtain ⟨k, hk, h⟩ := Option.bind_eq_some_iff.mp h
    exact advance_took hk h
  | reenter t =>
    obtain ⟨k, hk, h⟩ := Option.bind_eq_some_iff.mp h
    split at h
    · next hpc =>
      cases h
      exact .put hk (.writing hpc fun g hg => List.mem_cons.mp hg) fun _ => id
    · cases h
  | upsertConfig t o =>
    obtain ⟨k, hk, h⟩ := Option.bind_eq_some_iff.mp h
    split at h
    · next hpc hop =>
      cases h
      exact .upsertConfig hk hpc hop
    · cases h
  | finish t err =>
    obtain ⟨k, hk, h⟩ := Option.bind_eq_some_iff.mp h
    split at h
    · next hpc =>
      cases h
      exact .put hk (.writing hpc fun g hg => .inr (List.mem_cons_of_mem _ hg)) fun _ => id
    · next hpc =>
      cases h
      exact .put hk (.done hpc) fun _ => id
    · cases h
  | crash proc =>
    cases h
    exact .crash

lemma entry_cases (op : Op) :
    op.entry = .locking op.wants ∨ op.entry = .releasing [] (some .adoptionEvidence) := by
  unfold Op.entry
  split
  · split_ifs
    · exact .inr rfl
    · exact .inl rfl
  · exact .inl rfl

lemma put_self (s : Sys) (t : ℕ) (k : Task) : (s.put t k).tasks t = some k :=
  Function.update_self ..

lemma put_of_ne (s : Sys) (k : Task) (h : u ≠ t) : (s.put t k).tasks u = s.tasks u :=
  Function.update_of_ne h ..

/-- Where a call stands after a step: where it stood, or at its entry, or where the call itself has
moved. -/
lemma step_task (h : step s a = some s') (hk' : s'.tasks t = some k') :
    s.tasks t = some k' ∨
    (∃ session, a = .start t session k'.op ∧ k'.pc = k'.op.entry) ∨
    ∃ k, s.tasks t = some k ∧ k'.op = k.op ∧ (Shifts k k' ∨
      ∃ o, a = .advance t o ∧ Turns s.db k o s'.db k'.pc) := by
  have hp : ∀ {u : ℕ} {l : Task}, s'.tasks = (s.put u l).tasks →
      s.tasks t = some k' ∨ t = u ∧ k' = l := by
    intro u l ht
    rw [ht] at hk'
    by_cases hu : t = u
    · subst hu
      exact .inr ⟨rfl, (Option.some.inj ((put_self ..).symm.trans hk')).symm⟩
    · exact .inl ((put_of_ne s l hu).symm.trans hk')
  cases step_took h with
  | start _ =>
    rcases hp rfl with hs | ⟨rfl, rfl⟩
    · exact .inl hs
    · exact .inr (.inl ⟨_, rfl, rfl⟩)
  | shift hk hsh ht =>
    rcases hp ht with hs | ⟨rfl, rfl⟩
    · exact .inl hs
    · exact .inr (.inr ⟨_, hk, by cases hsh <;> rfl, .inl hsh⟩)
  | statement hk htu =>
    rcases hp rfl with hs | ⟨rfl, rfl⟩
    · exact .inl hs
    · exact .inr (.inr ⟨_, hk, rfl, .inr ⟨_, rfl, htu⟩⟩)
  | upsertConfig => exact .inl hk'
  | crash => exact .inl (Option.filter_eq_some_iff.mp hk').1

/-- **A step writes the rows by one statement of one call, or not at all.** -/
theorem step_writes (h : step s a = some s') :
    s'.db = s.db ∨ ∃ t o k, s.tasks t = some k ∧ Writes k s.db s'.db ∧
      (a = .advance t o ∨
        a = .upsertConfig t o ∧ ∃ lease received, k.pc = .writing lease received) := by
  cases step_took h with
  | start | crash => exact .inl rfl
  | shift _ _ _ hdb => exact .inl hdb
  | statement hk ht => exact .inr ⟨_, _, _, hk, ht.writes, .inl rfl⟩
  | upsertConfig hk hpc hop =>
    exact .inr ⟨_, _, _, hk, (ran_set (P := fun _ => True) _ _ trivial trivial
      (.upsertConfig hop)).2, .inr ⟨rfl, _, _, hpc⟩⟩

end Steps

end Codohue.CallSteps
