import Codohue.Fencing

/-!
The gate for envelopes that name no generation.

Three statements write the flag of a namespace: an activation, the upsert of a configuration and
the closing of the gate. The first two take it over from the gate for a new name and clear it for
a re-created one, and the last clears it everywhere, so it never outlives the gate.
-/

namespace Codohue.LegacyGate

open Lifecycle Coordinator CallSteps LeaseInvariant Fencing RowWrites Transition

/-! ### The flag and the gate -/

variable {db : Store} {ns : String} {row : NamespaceLifecycle} {db' : Store}

/-- The gate is closed. -/
def Closed (db : Store) : Prop := db.system.legacyAdoptionEvidence.isSome

/-- Whoever accepts envelopes without a generation is of the first generation, and the gate is
open. -/
def FlagsOpen (db : Store) : Prop :=
  ∀ ns row, db.row ns = some row → row.legacyMessagesAllowed →
    row.generation = 1 ∧ db.system.legacyAdoptionEvidence = none

lemma flagsOpen_setRow (h : FlagsOpen db) (hr : row.legacyMessagesAllowed →
      row.generation = 1 ∧ db.system.legacyAdoptionEvidence = none) :
    FlagsOpen (db.setRow ns row) := by
  intro ns' row' hr'
  rw [setRow_row] at hr'
  split_ifs at hr'
  · exact Option.some.inj hr' ▸ hr
  · exact h ns' row' hr'

/-- What a statement keeps. -/
structure Keeps (db db' : Store) : Prop where
  closed : Closed db → Closed db'
  flags : FlagsOpen db → FlagsOpen db'

lemma Keeps.refl (db : Store) : Keeps db db := ⟨id, id⟩

lemma keeps_setRow (ho : db.row ns = some old) (hg : row.generation = old.generation)
    (hf : row.legacyMessagesAllowed = old.legacyMessagesAllowed) :
    Keeps db (db.setRow ns row) where
  closed := id
  flags h := flagsOpen_setRow h fun ha => by
    rw [hg]
    exact h ns old ho (hf ▸ ha)

lemma keeps_activate (h : activate db ns = .ok (db', row)) : Keeps db db' := by
  unfold activate at h
  split at h
  · -- a new name takes the flag from the gate
    cases h
    exact ⟨id, fun hf => flagsOpen_setRow hf fun ho =>
      ⟨rfl, Option.isNone_iff_eq_none.mp ho⟩⟩
  · next old hr =>
    split at h
    · cases h
      exact keeps_setRow hr rfl rfl
    · cases h
    · -- a re-created name loses it
      split_ifs at h
      cases h
      exact ⟨id, fun hf => flagsOpen_setRow hf nofun⟩

lemma keeps_startDelete (h : startDelete db ns = .ok (db', row)) : Keeps db db' := by
  unfold startDelete at h
  split at h
  · cases h
  · next old hr =>
    split_ifs at h
    cases h
    exact keeps_setRow hr rfl rfl

lemma keeps_completeDelete (h : completeDelete db ns gen = .ok db') : Keeps db db' := by
  unfold completeDelete at h
  split at h
  · cases h
  · next old hr =>
    split_ifs at h
    cases h
    exact keeps_setRow hr rfl rfl

lemma keeps_recordNamespaceError (db : Store) (ns : String) (gen : ℤ)
    (message : String) : Keeps db (recordNamespaceError db ns gen message) := by
  unfold recordNamespaceError
  split
  · exact .refl db
  · next old hr =>
    split_ifs
    · exact keeps_setRow hr rfl rfl
    · exact .refl db

lemma keeps_disableLegacy (h : disableLegacy db evidence = .ok (db', changed)) :
    Keeps db db' ∧ Closed db' := by
  unfold disableLegacy at h
  split_ifs at h with he hc
  · cases h
    exact ⟨.refl db, hc⟩
  · cases h
    refine ⟨⟨fun _ => rfl, fun _ ns row hr ha => ?_⟩, rfl⟩
    obtain ⟨old, -, rfl⟩ := Option.map_eq_some_iff.mp
      ((Table.lookup_mapRows _ db.namespaces ns).symm.trans hr)
    cases ha

lemma keeps_upsertConfig (db : Store) (ns : String) : Keeps db (upsertConfig db ns) := by
  unfold upsertConfig
  split_ifs
  · split
    · next db' row h => exact keeps_activate h
    · exact .refl db
  · exact .refl db

/-- **No statement opens the gate, or sets a flag behind it.** -/
theorem keeps_of_writes (h : Writes k db db') : Keeps db db' := by
  cases h with
  | none => exact .refl db
  | activate _ h => exact keeps_activate h
  | startDelete h => exact keeps_startDelete h
  | completeDelete _ h => exact keeps_completeDelete h
  | recordNamespaceError ns gen message =>
    exact keeps_recordNamespaceError db ns gen message
  | startReset => exact ⟨id, id⟩
  | completeReset _ =>
    unfold Lifecycle.completeReset
    split_ifs
    · exact ⟨id, id⟩
    · exact .refl db
  | recordResetError message =>
    unfold Lifecycle.recordResetError
    split_ifs
    · exact ⟨id, id⟩
    · exact .refl db
  | disableLegacy h => exact (keeps_disableLegacy h).1
  | upsertConfig _ => exact keeps_upsertConfig db _

lemma step_keeps (h : step s a = some s') : Keeps s.db s'.db := by
  rcases step_writes h with hdb | ⟨t, o, k, -, hw, -⟩
  · exact hdb ▸ .refl s.db
  · exact keeps_of_writes hw

/-! ### The call that closes the gate -/

/-- What the position of a call of `DisableLegacyEnvelopes` says about the gate. -/
def Closing (adoptionEvidence : String) (db : Store) : Pc → Prop
  | .locking _ | .getSystem | .releasing _ (some _) | .returned (some _) => True
  | .global pc => pc = .disableLegacy adoptionEvidence
  | .releasing _ none | .returned none => Closed db
  | .getNamespace | .activating | .writing _ _ | .deleting _ => False

lemma Closing.mono (h : Closing adoptionEvidence db pc) (hc : Closed db → Closed db') :
    Closing adoptionEvidence db' pc := by
  match pc, h with
  | .locking _, _ | .getSystem, _ | .releasing _ (some _), _ | .returned (some _), _ => trivial
  | .global _, h => exact h
  | .releasing _ none, h | .returned none, h => exact hc h

section Calls

variable {db : Store} {s : Sys} {k : Task} {adoptionEvidence : String}

section

variable (hop : k.op = .withGlobalExclusive (.disableLegacy adoptionEvidence))
  (hk : Closing adoptionEvidence db k.pc)

include hop hk

lemma closing_turns (h : Turns db k o db' pc) : Closing adoptionEvidence db' pc := by
  cases h with
  | @finish _ err hl _ _ hc =>
    cases err with
    | some err => trivial
    | none =>
      obtain ⟨hs, hc⟩ := hc rfl
      cases hpc : k.pc with
      | getSystem => exact absurd hpc hs
      | global pc =>
        rw [hpc] at hk
        obtain ⟨changed, hst⟩ := hc adoptionEvidence (hpc.trans (congrArg Pc.global hk))
        exact (keeps_disableLegacy hst).2
      | locking | releasing | returned =>
        rw [hpc] at hl
        cases hl
      | getNamespace | activating | writing | deleting =>
        rw [hpc] at hk
        exact hk.elim
  | callback _ hop' =>
    cases hop.symm.trans hop'
    rfl
  | gate _ _ hg hf =>
    rw [hop] at hf
    rcases hg with rfl | rfl
    · obtain ⟨ns, h⟩ := hf
      cases h
    · obtain ⟨ns, h | h⟩ := hf <;> cases h
  | lease hpc | startDelete hpc | delete _ hpc =>
    rw [hpc] at hk
    exact hk.elim
  | global _ hpc _ hle =>
    rw [hpc] at hk
    exact absurd hk (hle _)

lemma closing_shifts (h : Shifts k k') : Closing adoptionEvidence db k'.pc := by
  cases h with
  | locked | lock | refused => trivial
  | @unlock _ _ err err' hpc he =>
    rw [hpc] at hk
    rcases he with rfl | ⟨text, rfl⟩
    · cases err' <;> exact hk
    · -- a failed release turns success into an error
      simp only [hop]
      cases err <;> trivial
  | @returned err hpc =>
    rw [hpc] at hk
    cases err <;> exact hk
  | writing hpc | done hpc =>
    rw [hpc] at hk
    exact hk.elim

end

/-- The calls of a process that closes the gate, in every state. -/
def CallsClosing (s : Sys) : Prop :=
  ∀ t k adoptionEvidence, s.tasks t = some k →
    k.op = .withGlobalExclusive (.disableLegacy adoptionEvidence) →
    Closing adoptionEvidence s.db k.pc

lemma closing_step (hc : CallsClosing s) (h : step s a = some s') : CallsClosing s' := by
  intro u l' evidence hl' hop
  have hcl := (step_keeps h).closed
  rcases step_task h hl' with hl | ⟨_, -, hen⟩ | ⟨k, hk, ho, hs | ⟨o, -, ht⟩⟩
  · exact (hc u l' evidence hl hop).mono hcl
  · rw [hen]
    rcases entry_cases l'.op with he | he <;> rw [he] <;> trivial
  · exact (closing_shifts (ho ▸ hop) (hc u k evidence hk (ho ▸ hop)) hs).mono hcl
  · exact closing_turns (ho ▸ hop) (hc u k evidence hk (ho ▸ hop)) ht

end Calls

/-! ### Every run -/

/-- The tables as the migration leaves them: every namespace that had a configuration is of the
first generation and accepts envelopes without one. -/
structure Migrated (db : Store) : Prop where
  system : db.system = ⟨.active, none, none⟩
  rows : ∀ ns row, db.row ns = some row → row = ⟨1, .active, true, none⟩

lemma Migrated.flagsOpen (h : Migrated db) : FlagsOpen db := by
  intro ns row hr _
  rw [h.rows ns row hr, h.system]
  exact ⟨rfl, rfl⟩

lemma evaluateEnvelope_ne_process (hf : FlagsOpen db) (hc : Closed db)
    (hg : gen = none ∨ gen = some 0) : evaluateEnvelope db ns gen ≠ .ok .process := by
  have hl : evaluateEnvelope db ns gen = evaluateEnvelope db ns none := by
    rcases hg with rfl | rfl <;> rfl
  rw [hl]
  intro h
  cases hr : getNamespace db ns with
  | error err =>
    rw [evaluateEnvelope, hr] at h
    cases h
  | ok row =>
    rw [evaluateEnvelope, hr] at h
    change (if row.state ≠ .active then Except.ok EnvelopeDisposition.stale
      else evaluateEnvelope.legacy row) = .ok .process at h
    split_ifs at h
    · cases h
    · unfold evaluateEnvelope.legacy at h
      split_ifs at h with ha
      · have ho := (hf ns row (getNamespace_ok hr) ha.2).2
        rw [Closed, ho] at hc
        cases hc
      · cases h

/-- **The legacy gate stays closed.** In every state that any number of processes reach from the
migrated tables, in any interleaving and with any failures and crashes: a row whose flag is set is
of the first generation and the gate is open; and once a call of `DisableLegacyEnvelopes` has
returned without an error, no envelope without a generation is processed in the rest of the run,
whatever is created or re-created in it. -/
theorem legacy_gate_stays_closed (db : Store) (hdb : Migrated db) (as : List Action) (s : Sys)
    (h : exec step (boot db) as = some s) :
    (∀ ns row, s.db.row ns = some row → row.legacyMessagesAllowed →
      row.generation = 1 ∧ s.db.system.legacyAdoptionEvidence = none) ∧
    ∀ t k adoptionEvidence, s.tasks t = some k →
      k.op = .withGlobalExclusive (.disableLegacy adoptionEvidence) → k.pc = .returned none →
      ∀ as' s', exec step s as' = some s' → ∀ ns generation,
        generation = none ∨ generation = some 0 →
        evaluateEnvelope s'.db ns generation ≠ .ok .process := by
  have hflags_step : ∀ s a s', FlagsOpen s.db → step s a = some s' → FlagsOpen s'.db :=
    fun _ _ _ hf hs => (step_keeps hs).flags hf
  have hclosed_step : ∀ s a s', Closed s.db → step s a = some s' → Closed s'.db :=
    fun _ _ _ hc hs => (step_keeps hs).closed hc
  have hf : FlagsOpen s.db :=
    exec_invariant (I := fun s => FlagsOpen s.db) hflags_step h hdb.flagsOpen
  have hca : CallsClosing s := exec_invariant (fun _ _ _ => closing_step) h nofun
  refine ⟨hf, fun t k evidence hk hop hpc as' s' h' ns generation hg => ?_⟩
  have hc : Closed s.db := by
    have hcl := hca t k evidence hk hop
    rwa [hpc] at hcl
  exact evaluateEnvelope_ne_process
    (exec_invariant (I := fun s => FlagsOpen s.db) hflags_step h' hf)
    (exec_invariant (I := fun s => Closed s.db) hclosed_step h' hc) hg

/-- A database with one namespace from before the migration. -/
def migratedStore : Store := emptyStore.setRow "m" ⟨1, .active, true, none⟩

lemma migrated_migratedStore : Migrated migratedStore where
  system := rfl
  rows ns row h := by
    rw [migratedStore, setRow_row] at h
    split_ifs at h
    · exact (Option.some.inj h).symm
    · cases h

/-- A namespace is created, and then the gate is closed. -/
def closingRun : List Action :=
  call 0 ⟨0, 0⟩ (.activate "n") 8 ++
    call 1 ⟨1, 0⟩ (.withGlobalExclusive (.disableLegacy "all producers upgraded")) 6

theorem legacy_gate_stays_closed_closingRun : ∃ s k,
    exec step (boot migratedStore) closingRun = some s ∧ s.tasks 1 = some k ∧
    k.op = .withGlobalExclusive (.disableLegacy "all producers upgraded") ∧
    k.pc = .returned none ∧
    ∀ as' s', exec step s as' = some s' → evaluateEnvelope s'.db "n" none ≠ .ok .process := by
  have hv : (exec step (boot migratedStore) closingRun).map (fun s => s.tasks 1) =
      some (some ⟨⟨1, 0⟩, .withGlobalExclusive (.disableLegacy "all producers upgraded"),
        [globalLock .exclusive], .returned none⟩) := by decide +kernel
  obtain ⟨s, hs, ht⟩ := Option.map_eq_some_iff.mp hv
  refine ⟨s, _, hs, ht, rfl, rfl, fun as' s' h' => ?_⟩
  exact (legacy_gate_stays_closed migratedStore migrated_migratedStore closingRun s hs).2 1 _ _
    ht rfl rfl as' s' h' "n" none (.inl rfl)

end Codohue.LegacyGate
