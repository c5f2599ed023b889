import Codohue.LeaseInvariant

/-!
Generation fencing: what a writer callback may rely on, in every interleaving of the calls
of any number of processes.
-/

namespace Codohue.Fencing

open Lifecycle Coordinator LeaseInvariant Transition

/-- A writer callback of call `t` that received the lifecycle `(ns, g)` is running. -/
def WriterRuns (s : Sys) (t : ℕ) (ns : String) (g : ℤ) : Prop :=
  ∃ k lease received, s.tasks t = some k ∧ k.op = .withWriter ns ∧
    k.pc = .writing lease received ∧ g ∈ received

/-- The exclusive callback of call `t` on `ns` is running. -/
def ExclusiveRuns (s : Sys) (t : ℕ) (ns : String) : Prop :=
  ∃ k pc, s.tasks t = some k ∧ k.op = .withNamespaceExclusive ns ∧ k.pc = .deleting pc

/-- A global exclusive callback of call `t` is running. -/
def GlobalRuns (s : Sys) (t : ℕ) : Prop :=
  ∃ k pc, s.tasks t = some k ∧ k.pc = .global pc

/-- `ns` is active at generation `g`. -/
def ActiveAt (db : Store) (ns : String) (g : ℤ) : Prop :=
  ∃ row, db.row ns = some row ∧ row.state = .active ∧ row.generation = g

/-- `(ns, g)` has been marked deleted. -/
def DeletedAt (db : Store) (ns : String) (g : ℤ) : Prop :=
  ∃ row, db.row ns = some row ∧ row.state = .deleted ∧ row.generation = g

section Callbacks

variable {s : Sys} {t u : ℕ} {ns : String} {g : ℤ}

lemma writer_active (hs : Inv s) (hw : WriterRuns s t ns g) :
    s.db.system.state = .active ∧ ActiveAt s.db ns g := by
  obtain ⟨k, lease, recv, hk, hop, hpc, hg⟩ := hw
  have hki := hs t k hk
  obtain ⟨ns', row, hop', hr, ha, hge, hal⟩ := hki.row lease recv hpc
  obtain rfl : ns' = ns := Op.withWriter.inj (hop'.symm.trans hop)
  exact ⟨hki.gate (by rw [hpc]; rfl), row, hr, ha, hge.trans (hal g hg).symm⟩

lemma writer_not_exclusive (hs : Inv s) (hw : WriterRuns s t ns g) : ¬ ExclusiveRuns s u ns := by
  rintro ⟨l, pc, hl, ho, hp⟩
  obtain ⟨k, lease, recv, hk, hop, hpc, -⟩ := hw
  have hne : u ≠ t := by
    rintro rfl
    obtain rfl : l = k := Option.some.inj (hl.symm.trans hk)
    simp [hop] at ho
  have hx : namespaceLock ns .exclusive ∈ l.op.wants := by simp [ho, Op.wants]
  have hsh : namespaceLock ns .shared ∈ k.op.wants := by simp [hop, Op.wants]
  exact not_both (hs u l hl) (hs t k hk) hne (by rw [hp]; rfl) (by rw [hpc]; rfl) hx hsh rfl rfl

lemma writer_not_global (hs : Inv s) (hw : WriterRuns s t ns g) : ¬ GlobalRuns s u := by
  rintro ⟨l, pc, hl, hp⟩
  obtain ⟨k, lease, recv, hk, hop, hpc, -⟩ := hw
  have hf := (hs u l hl).fits
  rw [hp] at hf
  obtain ⟨callback, ho⟩ := hf
  have hne : u ≠ t := by
    rintro rfl
    obtain rfl : l = k := Option.some.inj (hl.symm.trans hk)
    simp [hop] at ho
  have hx : globalLock .exclusive ∈ l.op.wants := by simp [ho, Op.wants]
  have hsh : globalLock .shared ∈ k.op.wants := by simp [hop, Op.wants]
  exact not_both (hs u l hl) (hs t k hk) hne (by rw [hp]; rfl) (by rw [hpc]; rfl) hx hsh rfl rfl

end Callbacks

lemma generation_le_of_forward (h : Forward db db') (hr : db.row ns = some row) :
    ∃ row', db'.row ns = some row' ∧ row.generation ≤ row'.generation := by
  have hs := h ns
  rw [hr] at hs
  obtain ⟨row', hr', hlt | ⟨heq, -⟩⟩ := row_of_stage_le hs
  · exact ⟨row', hr', hlt.le⟩
  · exact ⟨row', hr', heq.le⟩

lemma not_activeAt_of_deletedAt (h : Forward db db') (hd : DeletedAt db ns g) :
    ¬ ActiveAt db' ns g := by
  rintro ⟨row', hr', ha, hg'⟩
  obtain ⟨row, hr, hst, hg⟩ := hd
  have hs := h ns
  rw [hr] at hs
  obtain ⟨row'', hr'', hc⟩ := row_of_stage_le hs
  obtain rfl : row'' = row' := Option.some.inj (hr''.symm.trans hr')
  rcases hc with hlt | ⟨-, hra⟩
  · omega
  · simp [hst, ha, NamespaceState.rank] at hra

/-- **Generation fencing.** In every state that any number of processes reach, in any
interleaving and with any failures and crashes: a writer callback that received `(ns, g)`
runs under an active system and with `ns` active at `g`, beside no exclusive callback on
`ns` and no global one; and in the rest of the run the generation of `ns` does not fall and
a deleted generation does not come back. -/
theorem generation_fencing (db : Store) (as : List Action) (s : Sys)
    (h : exec step (boot db) as = some s) (ns : String) :
    (∀ t g, WriterRuns s t ns g → s.db.system.state = .active ∧ ActiveAt s.db ns g ∧
      (∀ u, ¬ ExclusiveRuns s u ns) ∧ ∀ u, ¬ GlobalRuns s u) ∧
    ∀ as' s', exec step s as' = some s' → (∀ row, s.db.row ns = some row →
        ∃ row', s'.db.row ns = some row' ∧ row.generation ≤ row'.generation) ∧
      ∀ g, DeletedAt s.db ns g → ¬ ActiveAt s'.db ns g := by
  have hs := inv_exec h
  refine ⟨fun t g hw => ?_, fun as' s' h' => ?_⟩
  · obtain ⟨hsy, ha⟩ := writer_active hs hw
    exact ⟨hsy, ha, fun u => writer_not_exclusive hs hw, fun u => writer_not_global hs hw⟩
  · have hf := forward_exec hs h'
    exact ⟨fun row hr => generation_le_of_forward hf hr,
      fun g hg => not_activeAt_of_deletedAt hf hg⟩

/-- An empty database after its migrations. -/
def emptyStore : Store := ⟨⟨.active, none, none⟩, ∅⟩

/-- A call that runs `n` statements without a failure. -/
def call (t : ℕ) (session : Session) (op : Op) (n : ℕ) : List Action :=
  .start t session op :: List.replicate n (.advance t .ok)

/-- One process creates `n`, another one enters a writer callback and re-enters it. -/
def writerRun : List Action :=
  call 0 ⟨0, 0⟩ (.activate "n") 8 ++ call 1 ⟨1, 0⟩ (.withWriter "n") 5 ++ [.reenter 1]

theorem generation_fencing_writerRun :
    ∃ s, exec step (boot emptyStore) writerRun = some s ∧ WriterRuns s 1 "n" 1 ∧
      s.db.system.state = .active ∧ ActiveAt s.db "n" 1 := by
  obtain ⟨s, hs⟩ : ∃ s, exec step (boot emptyStore) writerRun = some s :=
    Option.isSome_iff_exists.mp (by decide +kernel)
  have ht : (exec step (boot emptyStore) writerRun).bind (fun s => s.tasks 1) =
      some ⟨⟨1, 0⟩, .withWriter "n", Op.wants (.withWriter "n"), .writing 1 [1, 1]⟩ := by
    decide +kernel
  rw [hs] at ht
  have hw : WriterRuns s 1 "n" 1 := ⟨_, 1, [1, 1], ht, rfl, rfl, by simp⟩
  obtain ⟨hsy, ha, -⟩ := (generation_fencing emptyStore writerRun s hs "n").1 1 1 hw
  exact ⟨s, hs, hw, hsy, ha⟩

/-- **Exclusion.** While a call is past its locks, no other call is past a lock on a key that the
first one holds for itself. -/
theorem calls_exclude (db : Store) (as : List Action) (s : Sys)
    (h : exec step (boot db) as = some s) {t u : ℕ} {k l : Task} (hk : s.tasks t = some k)
    (hl : s.tasks u = some l) (hne : t ≠ u) (hlk : CallSteps.locked k.pc)
    (hw : w ∈ k.op.wants) (hx : w.mode = .exclusive) (hw' : w' ∈ l.op.wants)
    (hkey : w.key = w'.key) : ¬ CallSteps.locked l.pc := by
  intro hll
  have hs := inv_exec h
  exact not_both (hs t k hk) (hs u l hl) hne hlk hll hw hw' hkey hx

/-- A writer of `n` waits for the call that creates it. -/
def writerWaits : List Action :=
  call 0 ⟨0, 0⟩ (.activate "n") 3 ++ call 1 ⟨1, 0⟩ (.withWriter "n") 1

theorem calls_exclude_writerWaits : ∃ s l, exec step (boot emptyStore) writerWaits = some s ∧
    s.tasks 1 = some l ∧ ¬ CallSteps.locked l.pc := by
  have hv : (exec step (boot emptyStore) writerWaits).map (fun s => (s.tasks 0, s.tasks 1)) =
      some (some ⟨⟨0, 0⟩, .activate "n", Op.wants (.activate "n"), .getSystem⟩,
        some ⟨⟨1, 0⟩, .withWriter "n", [globalLock .shared],
          .locking [namespaceLock "n" .shared]⟩) := by decide +kernel
  obtain ⟨s, hs, ht⟩ := Option.map_eq_some_iff.mp hv
  obtain ⟨h₁, h₂⟩ := Prod.mk.inj ht
  have hw : ∀ m, namespaceLock "n" m ∈ [globalLock .shared, namespaceLock "n" m] := by simp
  exact ⟨s, _, hs, h₂,
    calls_exclude _ _ s hs h₁ h₂ (by decide) rfl (hw .exclusive) rfl (hw .shared) rfl⟩

end Codohue.Fencing
