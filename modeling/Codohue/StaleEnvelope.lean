import Codohue.Fencing
import Codohue.Ingest

/-!
Which generation an entry of a stream lands in.

The envelope is compared with the row before the lease is taken, and the write happens under
whatever generation the lease sees. Between the two, the namespace may be deleted and created
again. As long as no such re-creation falls between the check and the read of the row under
the lease, an entry that names generation `g` is written at generation `g` only.
-/

namespace Codohue.StaleEnvelope

open Lifecycle Coordinator CallSteps LeaseInvariant Fencing Ingest Transition

/-- `ns` has a row of generation `g`, in whatever state. -/
def AtGeneration (db : Store) (ns : String) (g : ℤ) : Prop :=
  ∃ row, db.row ns = some row ∧ row.generation = g

/-- The handler has checked its envelope and has not yet read the row under its lease. -/
def Unfenced (sys : Sys) (handler : Handler) : Prop :=
  match handler.phase with
  | .evaluated => True
  | .leasing t _ => ∃ k, sys.tasks t = some k ∧ entering k.pc
  | _ => False

/-- What holds of a handler whose entry names a generation. -/
structure HandlerInv (sys : Sys) (handler : Handler) : Prop where
  call : ∀ t valid, handler.phase = .leasing t valid →
    ∃ k, sys.tasks t = some k ∧ k.op = .withWriter handler.entry.ns ∧
      k.session.proc = handler.proc ∧
      ∀ lease received, k.pc = .writing lease received → lease = handler.entry.namespaceGeneration
  unfenced : Unfenced sys handler →
    AtGeneration sys.db handler.entry.ns handler.entry.namespaceGeneration

lemma HandlerInv.idle (h : ¬ Unfenced sys handler)
    (hph : ∀ t valid, handler.phase ≠ .leasing t valid) : HandlerInv sys handler :=
  ⟨fun t valid hp => absurd hp (hph t valid), fun hu => absurd hu h⟩

variable {a : Coordinator.Action} {sys' : Sys}

/-- A step of the lifecycle service that does not re-create the namespace of an unfenced
handler keeps what is known of it. -/
lemma HandlerInv.step {sys : Sys} (hs : Inv sys) (hst : Coordinator.step sys a = some sys')
    (ha : a ≠ .crash handler.proc) (hno : Recreates sys a handler.entry.ns → ¬ Unfenced sys handler)
    (h : HandlerInv sys handler) : HandlerInv sys' handler := by
  have hs' := inv_step hs hst
  -- an unfenced handler was unfenced before
  have hb : Unfenced sys' handler → Unfenced sys handler := by
    unfold Unfenced
    cases hp : handler.phase with
    | leasing t valid =>
      rintro ⟨k', hk', he⟩
      obtain ⟨k, hk, -, hpr, -⟩ := h.call t valid hp
      rcases step_next hst hk with ⟨k'', hk'', hn⟩ | ⟨hc, -⟩
      · obtain rfl : k' = k'' := Option.some.inj (hk'.symm.trans hk'')
        exact ⟨k, hk, hn.enter he⟩
      · exact absurd (hpr ▸ hc) ha
    | _ => exact id
  have hge : Unfenced sys handler →
      AtGeneration sys'.db handler.entry.ns handler.entry.namespaceGeneration := by
    intro hu
    obtain ⟨row, hro, hg⟩ := h.unfenced hu
    obtain ⟨row', hro', hg'⟩ := step_generation hs hst hro fun hr => hno hr hu
    exact ⟨row', hro', hg'.trans hg⟩
  refine ⟨fun t valid hp => ?_, fun hu => hge (hb hu)⟩
  obtain ⟨k, hk, hop, hpr, hl⟩ := h.call t valid hp
  rcases step_next hst hk with ⟨k', hk', hn⟩ | ⟨hc, -⟩
  · refine ⟨k', hk', hn.op.trans hop, by rw [hn.session, hpr], ?_⟩
    intro lease recv hpc
    rcases hn.lease lease recv hpc with he | ⟨recv', hpc'⟩
    · -- the row was read just now, and its generation is the one the envelope names
      have hu : Unfenced sys handler := by
        unfold Unfenced
        rw [hp]
        exact ⟨k, hk, he⟩
      obtain ⟨row, hro, hg⟩ := hge hu
      obtain ⟨ns, row', hop', hro', -, hl', -⟩ := (hs' t k' hk').row lease recv hpc
      obtain rfl : ns = handler.entry.ns :=
        Op.withWriter.inj (hop'.symm.trans (hn.op.trans hop))
      obtain rfl : row = row' := Option.some.inj (hro.symm.trans hro')
      exact hl'.symm.trans hg
    · exact hl lease recv' hpc'
  · exact absurd (hpr ▸ hc) ha

structure WorldInv (w : World) : Prop where
  sys : Inv w.sys
  handlers : ∀ h handler, w.handlers h = some handler →
    0 < handler.entry.namespaceGeneration → HandlerInv w.sys handler
  log : ∀ write ∈ w.log, 0 < write.entry.namespaceGeneration →
    ActiveAt write.db write.entry.ns write.entry.namespaceGeneration

lemma worldInv_boot (db : Store) : WorldInv (Ingest.boot db) where
  sys := inv_boot db
  handlers := by simp [Ingest.boot]
  log := by simp [Ingest.boot]

/-- The action does not create a namespace again while a handler whose entry names a
generation of that namespace has checked its envelope and not yet read the row under its
lease. -/
def NoRecreation (w : World) (a : Ingest.Action) : Prop :=
  ∀ a' h handler, a = .sys a' → w.handlers h = some handler →
    0 < handler.entry.namespaceGeneration → Recreates w.sys a' handler.entry.ns →
    ¬ Unfenced w.sys handler

section Preservation

lemma WorldInv.put (hw : WorldInv w) (hs : Inv sys')
    (how : 0 < handler'.entry.namespaceGeneration → HandlerInv sys' handler')
    (ho : ∀ u other, w.handlers u = some other → 0 < other.entry.namespaceGeneration →
      HandlerInv w.sys other → HandlerInv sys' other)
    (hw' : w'.sys = sys' ∧ w'.handlers = Function.update w.handlers h (some handler'))
    (hl : ∀ write ∈ w'.log, 0 < write.entry.namespaceGeneration →
      ActiveAt write.db write.entry.ns write.entry.namespaceGeneration) : WorldInv w' := by
  obtain ⟨rfl, hh⟩ := hw'
  refine ⟨hs, fun u other hu hg => ?_, hl⟩
  rw [hh] at hu
  by_cases huh : u = h
  · subst huh
    rw [Function.update_self] at hu
    cases hu
    exact how hg
  · rw [Function.update_of_ne huh] at hu
    exact ho u other hu hg (hw.handlers u other hu hg)

lemma WorldInv.put_idle (hw : WorldInv w) (h : ℕ)
    (how : 0 < handler'.entry.namespaceGeneration → HandlerInv w.sys handler') :
    WorldInv (w.put h handler') :=
  hw.put hw.sys how (fun _ _ _ _ ho => ho) ⟨rfl, rfl⟩ hw.log

lemma handlerInv_driven (hw : WorldInv w) (hs : Coordinator.step w.sys a = some sys')
    (ha : (driven a).isSome) (ho : HandlerInv w.sys other) : HandlerInv sys' other := by
  refine ho.step hw.sys hs ?_ ?_
  · rintro rfl
    simp [driven] at ha
  · rintro ⟨t, o, k, row, rfl, -⟩
    simp [driven] at ha

lemma worldInv_sys (hw : WorldInv w) (hno : NoRecreation w (.sys a))
    (hs : sysStep w a = some w') : WorldInv w' := by
  unfold sysStep at hs
  split_ifs at hs
  obtain ⟨sys', hsy, rfl⟩ := Option.map_eq_some_iff.mp hs
  refine ⟨inv_step hw.sys hsy, fun u other hu hg => ?_, hw.log⟩
  -- a handler that survives was there before, and its process did not crash
  obtain ⟨hu', ha⟩ : w.handlers u = some other ∧ a ≠ .crash other.proc := by
    cases a with
    | crash proc =>
      obtain ⟨hu', hp⟩ := Option.filter_eq_some_iff.mp hu
      refine ⟨hu', fun heq => ?_⟩
      obtain rfl : proc = other.proc := Coordinator.Action.crash.inj heq
      simp at hp
    | _ => exact ⟨hu, by simp⟩
  exact (hw.handlers u other hu' hg).step hw.sys hsy ha (hno a u other rfl hu' hg)

lemma evaluate_process (hg : 0 < g) (he : evaluateEnvelope db ns (some g) = .ok .process) :
    AtGeneration db ns g := by
  unfold evaluateEnvelope getNamespace at he
  cases hr : db.row ns with
  | none => simp [hr, bind, Except.bind] at he
  | some row =>
    refine ⟨row, hr, ?_⟩
    by_contra hne
    simp [hr, bind, Except.bind, pure, Except.pure, hg.ne', Ne.symm hne] at he

lemma worldInv_evaluate (hw : WorldInv w) : WorldInv (evaluateStep w h handler o) := by
  unfold evaluateStep
  split
  · exact hw.put_idle h fun _ => .idle id (by simp)
  · exact hw.put_idle h fun _ => .idle id (by simp)
  · exact hw.put_idle h fun _ => .idle id (by simp)
  · next he =>
    refine hw.put_idle h fun hg => ⟨by simp, fun _ => ?_⟩
    have hen : handler.entry.envelope = some handler.entry.namespaceGeneration := if_pos hg
    rw [hen] at he
    exact evaluate_process hg he

lemma worldInv_validate (hw : WorldInv w) (hh : w.handlers h = some handler)
    (hph : handler.phase = .evaluated) (hst : validateStep w h handler now t conn = some w') :
    WorldInv w' := by
  unfold validateStep at hst
  split at hst
  · cases hst
    exact hw.put_idle h fun _ => .idle id (by simp)
  · next valid _ =>
    split_ifs at hst
    obtain ⟨sys', hs, rfl⟩ := Option.map_eq_some_iff.mp hst
    have hs' := hs
    simp only [Coordinator.step] at hs'
    split_ifs at hs'
    cases hs'
    refine hw.put (inv_step hw.sys hs) ?_
      (fun u other _ _ ho => handlerInv_driven hw hs rfl ho) ⟨rfl, rfl⟩ hw.log
    intro hg
    refine ⟨fun t' valid' hp => ?_, fun _ => ?_⟩
    · obtain ⟨rfl, -⟩ := Phase.leasing.inj hp
      exact ⟨_, Function.update_self .., rfl, rfl, by simp [Op.entry]⟩
    · refine (hw.handlers h handler hh hg).unfenced ?_
      unfold Unfenced
      rw [hph]
      trivial

lemma worldInv_callback {replies : Replies} (hw : WorldInv w) (hh : w.handlers h = some handler)
    (hp : handler.phase = .leasing t valid)
    (hs : callbackStep mb w h handler t valid replies = some w') : WorldInv w' := by
  obtain ⟨k, hk, hs⟩ := Option.bind_eq_some_iff.mp hs
  split at hs
  · next lease received hpc =>
    obtain ⟨sys', hsy, rfl⟩ := Option.map_eq_some_iff.mp hs
    refine hw.put (inv_step hw.sys hsy) (fun _ => .idle id (by simp))
      (fun u other _ _ ho => handlerInv_driven hw hsy rfl ho) ⟨rfl, rfl⟩ fun write hwr hg => ?_
    rcases List.mem_append.mp hwr with hol | hn
    · exact hw.log write hol hg
    · obtain ⟨row, -, rfl⟩ := List.mem_map.mp hn
      -- the lease protects the row, and the lease is of the generation the envelope names
      obtain ⟨k', hk', hop, -, hl⟩ := (hw.handlers h handler hh hg).call t valid hp
      obtain rfl : k = k' := Option.some.inj (hk.symm.trans hk')
      obtain ⟨ns, row', hop', hr', ha, hge, -⟩ := (hw.sys t k hk).row lease received hpc
      obtain rfl : ns = handler.entry.ns := Op.withWriter.inj (hop'.symm.trans hop)
      exact ⟨row', hr', ha, hge.trans (hl lease received hpc)⟩
  · cases hs

lemma worldInv_collect (hw : WorldInv w) (hs : collectStep w h handler t res = some w') :
    WorldInv w' := by
  obtain ⟨k, -, hs⟩ := Option.bind_eq_some_iff.mp hs
  split at hs
  · cases hs
    exact hw.put_idle h fun _ => .idle id (by simp)
  · cases hs
    exact hw.put_idle h fun _ => .idle id (by simp)
  · cases hs

theorem worldInv_step {a : Ingest.Action} (hw : WorldInv w) (hno : NoRecreation w a)
    (hs : Ingest.step mb w a = some w') : WorldInv w' := by
  cases a with
  | sys a => exact worldInv_sys hw hno hs
  | deliver h proc entry =>
    simp only [Ingest.step] at hs
    split_ifs at hs
    split at hs
    · cases hs
      exact hw
    · split_ifs at hs
      · cases hs
        exact hw
      · cases hs
        exact hw.put_idle h fun _ => .idle id (by simp)
  | evaluate h o =>
    obtain ⟨handler, -, hs⟩ := Option.bind_eq_some_iff.mp hs
    split at hs
    · cases hs
      exact worldInv_evaluate hw
    · cases hs
  | validate h now t conn =>
    obtain ⟨handler, hh, hs⟩ := Option.bind_eq_some_iff.mp hs
    split at hs
    · next hp => exact worldInv_validate hw hh hp hs
    · cases hs
  | callback h replies =>
    obtain ⟨handler, hh, hs⟩ := Option.bind_eq_some_iff.mp hs
    split at hs
    · next t valid hp => exact worldInv_callback hw hh hp hs
    · cases hs
  | collect h =>
    obtain ⟨handler, hh, hs⟩ := Option.bind_eq_some_iff.mp hs
    split at hs
    · exact worldInv_collect hw hs
    · exact worldInv_collect hw hs
    · cases hs

end Preservation

/-- **An entry lands in the generation its envelope names**, in every run that does not create
a namespace again while a handler stands between its check and its lease. -/
theorem envelope_generation (maxBytes : ℤ) (db : Store) (as : List Ingest.Action) (w : World)
    (hno : Along (Ingest.step maxBytes) NoRecreation (Ingest.boot db) as)
    (hrun : exec (Ingest.step maxBytes) (Ingest.boot db) as = some w) :
    ∀ write ∈ w.log, 0 < write.entry.namespaceGeneration →
      ActiveAt write.db write.entry.ns write.entry.namespaceGeneration :=
  (exec_guarded (fun _ _ _ => worldInv_step) hno hrun (worldInv_boot db)).log

/-! ### Runs -/

def eventEntry : Entry := .event ⟨"n", 1, "u", "o", "VIEW", none, none⟩

def catalogEntry : Entry := .catalog ⟨"n", 1, "o", "text", ""⟩

def replies : Replies := ⟨.ok (some ⟨false, [], "catalog", 0⟩), .ok, false, none⟩

/-- The handler takes its lease as call `t` and writes. -/
def leaseAndWrite (h t : ℕ) : List Ingest.Action :=
  .validate h 0 t 0 :: List.replicate 5 (.sys (.advance t .ok)) ++ [.callback h replies]

def created (t : ℕ) : List Ingest.Action := (call t ⟨t, 0⟩ (.activate "n") 8).map .sys

def removed (t : ℕ) : List Ingest.Action :=
  (call t ⟨t, 0⟩ (.withNamespaceExclusive "n") 11).map .sys

/-- The entry is checked and written without an interruption. -/
def promptRun (entry : Entry) : List Ingest.Action :=
  created 0 ++ [.deliver 0 9 (some entry), .evaluate 0 .ok] ++ leaseAndWrite 0 3

/-- The namespace is deleted and created again between the check and the lease. -/
def staleRun (entry : Entry) : List Ingest.Action :=
  created 0 ++ [.deliver 0 9 (some entry), .evaluate 0 .ok] ++ removed 1 ++ created 2 ++
    leaseAndWrite 0 3

/-- The step activates a deleted namespace. -/
def recreates (s : Sys) : Coordinator.Action → Bool
  | .advance t _ =>
    (s.tasks t).any fun k =>
      match k.op, k.pc with
      | .activate ns, .activating => (s.db.row ns).any fun row => row.state = .deleted
      | _, _ => false
  | _ => false

lemma recreates_of (h : Recreates s a ns) : recreates s a := by
  obtain ⟨t, o, k, row, rfl, hk, hop, hpc, hr, hd⟩ := h
  simp [recreates, hk, hop, hpc, hr, hd]

/-- Nothing is created again in this step. -/
def Quiet (w : World) : Ingest.Action → Prop
  | .sys a => recreates w.sys a = false
  | _ => True

instance (w : World) : ∀ a, Decidable (Quiet w a)
  | .sys a => inferInstanceAs (Decidable (recreates w.sys a = false))
  | .deliver _ _ _ | .evaluate _ _ | .validate _ _ _ _ | .callback _ _ | .collect _ =>
    isTrue trivial

lemma noRecreation_of_quiet {w : World} {a : Ingest.Action} (h : Quiet w a) : NoRecreation w a := by
  rintro a' u handler rfl - - hr
  rw [Quiet, recreates_of hr] at h
  cases h

theorem envelope_generation_promptRun :
    ∃ w, exec (Ingest.step 0) (Ingest.boot emptyStore) (promptRun eventEntry) = some w ∧
      w.log.length = 1 ∧ ∀ write ∈ w.log, 0 < write.entry.namespaceGeneration →
        ActiveAt write.db write.entry.ns write.entry.namespaceGeneration := by
  obtain ⟨w, hw⟩ : ∃ w, exec (Ingest.step 0) (Ingest.boot emptyStore) (promptRun eventEntry) =
      some w := Option.isSome_iff_exists.mp (by decide +kernel)
  have hl : (exec (Ingest.step 0) (Ingest.boot emptyStore) (promptRun eventEntry)).map
      (fun w => w.log.length) = some 1 := by decide +kernel
  rw [hw] at hl
  have hq : Along (Ingest.step 0) Quiet (Ingest.boot emptyStore) (promptRun eventEntry) := by
    decide +kernel
  exact ⟨w, hw, Option.some.inj hl, envelope_generation 0 emptyStore (promptRun eventEntry) w
    (hq.mono fun _ _ => noRecreation_of_quiet) hw⟩

/-- What a run leaves in the log: the generation of each envelope, and the row of `n` at the
moment of the write. -/
def landed (w : World) : List (ℤ × Option (ℤ × NamespaceState)) :=
  w.log.map fun write => (write.entry.namespaceGeneration,
    (write.db.row "n").map fun row => (row.generation, row.state))

/-- The run writes the entry of generation 1 while `n` is active at generation 2. -/
def Lands (as : List Ingest.Action) : Prop :=
  ∃ w, exec (Ingest.step 0) (Ingest.boot emptyStore) as = some w ∧
    ∃ write ∈ w.log, write.entry.ns = "n" ∧ write.entry.namespaceGeneration = 1 ∧
      ActiveAt write.db "n" 2 ∧ ¬ ActiveAt write.db "n" 1

lemma lands_of_landed (h : (exec (Ingest.step 0) (Ingest.boot emptyStore) as).map
      (fun w => (landed w, w.log.map fun write => write.entry.ns)) =
        some ([(1, some (2, .active))], ["n"])) : Lands as := by
  obtain ⟨w, hw, hl⟩ := Option.map_eq_some_iff.mp h
  obtain ⟨hro, hns⟩ := Prod.mk.inj hl
  obtain ⟨write, hwr⟩ : ∃ write, w.log = [write] := by
    refine List.length_eq_one_iff.mp ?_
    simpa [landed] using congrArg List.length hro
  simp only [landed, hwr, List.map_cons, List.map_nil, List.cons.injEq, and_true,
    Prod.mk.injEq] at hro hns
  obtain ⟨row, hr, hr'⟩ := Option.map_eq_some_iff.mp hro.2
  obtain ⟨hg, hs⟩ := Prod.mk.inj hr'
  refine ⟨w, hw, write, by simp [hwr], hns, hro.1, ⟨row, hr, hs, hg⟩, ?_⟩
  rintro ⟨row', hr', -, hg'⟩
  obtain rfl : row = row' := Option.some.inj (hr.symm.trans hr')
  omega

/-- **A stale envelope lands in the next incarnation**, for an event as for a catalog item. -/
theorem stale_envelope_lands : Lands (staleRun eventEntry) ∧ Lands (staleRun catalogEntry) :=
  ⟨lands_of_landed (by decide +kernel), lands_of_landed (by decide +kernel)⟩

end Codohue.StaleEnvelope
