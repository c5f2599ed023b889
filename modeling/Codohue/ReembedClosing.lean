import Codohue.ReembedRuns

/-!
When a re-embed run is closed.

Where every step is timely, a row that waits for a run keeps a null strategy version and a state
that the watcher counts, so a watcher that counted no stale row closes a run that nothing waits
for; and since the three statements that close a run look for an open one or hold the id of a run
of their own, a run is closed once.
-/

namespace Codohue.Reembed

open CatalogRows Transition
open Coordinator (Outcome)
open Catalog (State)

variable {η : Type}

/-! ### Rows that wait -/

/-- A row as a reset leaves it, up to what the embedder does on the way to an end. -/
structure Waits (row : Row η) : Prop where
  state : row.state ∈ [State.pending, .inFlight, .failed]
  strategyVersion : row.strategyVersion = none

/-- Row `i` is in the namespace and waits. -/
def Awaits (t : Items η) (ns : String) (i : ℕ) : Prop :=
  ∃ row, t.lookup i = some row ∧ row.ns = ns ∧ Waits row

namespace Awaits

variable {t : Items η} {ns : String} {i : ℕ}
variable {p : ℕ → Row η → Bool} {f : Row η → Row η}

lemma updateWhere (h : Awaits t ns i)
    (hf : ∀ row, t.lookup i = some row → p i row = true → Waits row →
      (f row).ns = row.ns ∧ Waits (f row)) :
    Awaits (t.updateWhere p f) ns i := by
  obtain ⟨row, hr, hns, hw⟩ := h
  by_cases hp : p i row
  · obtain ⟨hns', hw'⟩ := hf row hr hp hw
    exact ⟨f row, by simp [hr, hp], hns'.trans hns, hw'⟩
  · exact ⟨row, by simp [hr, hp], hns, hw⟩

lemma updateWhere_of_false (h : Awaits t ns i)
    (hp : ∀ row, t.lookup i = some row → Waits row → p i row = false) :
    Awaits (t.updateWhere p f) ns i :=
  h.updateWhere fun row hr hpr hw => by
    rw [hp row hr hw] at hpr
    cases hpr

lemma insert (h : Awaits t ns i) (row : Row η) : Awaits (t.insert row) ns i := by
  obtain ⟨old, ho, hns, hw⟩ := h
  exact ⟨old, SerialTable.lookup_insert_of_some ho, hns, hw⟩

lemma deleteWhere (h : Awaits t ns i)
    (hp : ∀ row, t.lookup i = some row → row.ns = ns → p i row = false) :
    Awaits (t.deleteWhere p) ns i := by
  obtain ⟨row, hr, hns, hw⟩ := h
  exact ⟨row, SerialTable.lookup_deleteWhere_eq_some.mpr ⟨hr, hp row hr hns⟩, hns, hw⟩

lemma countStale_pos (h : Awaits t ns i) (id version : String) :
    0 < countStaleCatalogItems ns id version t := by
  obtain ⟨row, hr, hns, hs, hv⟩ := h
  refine List.length_pos_of_mem (SerialTable.mem_selectWhere.mpr ⟨hr, ?_⟩)
  simp [stale, Row.under, hns, hv, hs]

end Awaits

section Statements

variable [DecidableEq η] {contentHash : String → η} {s : Scene η} {ns : String} {r i : ℕ}

lemma awaits_upsert (h : Awaits s.items ns i)
    (hk : settles contentHash s (.upsert ns' obj content now) r i = false) :
    Awaits (upsert contentHash ns' obj content now s.items) ns i := by
  rw [upsert]
  split_ifs
  · exact h.insert _
  · refine h.updateWhere fun row hr hs hw => ?_
    have hh : row.contentHash = contentHash content := by
      by_contra hne
      simp only [Bool.and_eq_true, decide_eq_true_eq] at hs
      simp [settles, hr, hs.1, hs.2, hne] at hk
    rw [reingest, if_pos hh]
    exact ⟨rfl, hw.state, hw.strategyVersion⟩

/-- **One statement**: a row goes on waiting unless the statement ends its wait. -/
lemma awaits_run (h : Awaits s.items ns i) (hm : (r, i) ∈ s.waiting)
    (hru : s.runs.lookup r = some run) (ho : run.completedAt = none) (ht : Timely s (.item stmt))
    (hk : settles contentHash s stmt r i = false) : Awaits (stmt.run contentHash s.items) ns i := by
  cases stmt with
  | upsert ns' obj content now => exact awaits_upsert h hk
  | markInFlight id now | markFailed id lastError now
  | resetStrandedInFlight ns' cutoff lim now =>
    exact h.updateWhere fun row _ _ hw => ⟨rfl, by simp, hw.strategyVersion⟩
  | markEmbedded id sid ver hash now =>
    refine h.updateWhere_of_false fun row hr _ => ?_
    by_contra hh
    obtain ⟨rfl, hha⟩ : i = id ∧ row.contentHash = hash := by simpa using hh
    obtain ⟨hid, hv⟩ := ht row hr hha r run hm hru ho
    simp [settles, hr, hru, hha, hid, hv] at hk
  | markDeadLetter id lastError now =>
    refine h.updateWhere_of_false fun row _ _ => ?_
    simpa [settles] using hk
  | redriveCatalogItem ns' id now =>
    exact h.updateWhere fun row _ _ hw => ⟨rfl, by simp [Row.pending], hw.strategyVersion⟩
  | bulkRedriveDeadletter ns' now =>
    exact h.updateWhere fun row _ _ hw => ⟨rfl, by simp [Row.pending], hw.strategyVersion⟩
  | deleteCatalogItem ns' id =>
    refine h.deleteWhere fun row hr _ => ?_
    by_contra hh
    obtain ⟨hns, rfl⟩ : row.ns = ns' ∧ i = id := by simpa using hh
    simp [settles, hr, hns] at hk

end Statements

/-! ### The invariant -/

/-- The later table holds what is left of the earlier one under its keys; a row keeps its
namespace and its trigger. -/
structure Extends (a b : Runs) : Prop where
  next : a.next ≤ b.next
  kept : ∀ {r run'}, r < a.next → b.lookup r = some run' →
    ∃ run, a.lookup r = some run ∧ run'.ns = run.ns ∧ run'.trigger = run.trigger

/-- No row waits for the run, as long as the run is there. -/
def Idle (s : Scene η) (r : ℕ) : Prop :=
  ∀ run, s.runs.lookup r = some run → ∀ i, (r, i) ∉ s.waiting

/-- A run as a watcher saw it. -/
structure Viewed (s : Scene η) (view : ReembedRun) : Prop where
  lt_next : view.id < s.runs.next
  ns : ∀ run, s.runs.lookup view.id = some run → run.ns = view.ns

def WatchInv (s : Scene η) : WatchPc → Prop
  | .listOpenReembedRuns => True
  | .countStale views => ∀ v ∈ views, Viewed s v
  | .countEmbedded view n rest =>
    (∀ v ∈ view :: rest, Viewed s v) ∧ (n = 0 → Idle s view.id)
  | .completeReembedRun view _ rest => (∀ v ∈ view :: rest, Viewed s v) ∧ Idle s view.id

/-- A job finalizes no run but its own. -/
def JobInv (s : Scene η) : JobPc → Prop
  | .updateBatchRunLog id _ _ =>
    id < s.runs.next ∧ ∀ run, s.runs.lookup id = some run → run.trigger ≠ .reembed
  | _ => True

/-- Run `r` was closed. -/
def Closed (s : Scene η) (r : ℕ) : Prop := r ∈ s.closings.map Prod.fst

structure Inv (s : Scene η) : Prop where
  old : ∀ {r i}, (r, i) ∈ s.waiting → r < s.runs.next
  waits : ∀ {r i run}, (r, i) ∈ s.waiting → s.runs.lookup r = some run →
    run.trigger = .reembed ∧ run.completedAt = none ∧ Awaits s.items run.ns i
  watchers : ∀ {w pc}, s.watchers.lookup w = some pc → WatchInv s pc
  jobs : ∀ {j pc}, s.jobs.lookup j = some pc → JobInv s pc
  idle : ∀ c ∈ s.closings, c.2 = []
  once : (s.closings.map Prod.fst).Nodup
  past : ∀ {r}, Closed s r → r < s.runs.next
  closed : ∀ {r run}, s.runs.lookup r = some run → run.trigger = .reembed →
    (run.completedAt.isSome ↔ Closed s r)

lemma inv_fresh (items : Items η) : Inv (fresh items) where
  old := nofun
  waits := nofun
  watchers := nofun
  jobs := nofun
  idle := nofun
  once := List.nodup_nil
  past := nofun
  closed := nofun

variable {pc : WatchPc} {f : Run → Run}

section Evolves

/-- What a step does to the runs and to the waits of the runs that were there. -/
structure Evolves (s s' : Scene η) : Prop where
  runs : Extends s.runs s'.runs
  waiting : ∀ {r i}, r < s.runs.next → (r, i) ∈ s'.waiting → (r, i) ∈ s.waiting

variable {s s' : Scene η}

lemma Extends.refl (a : Runs) : Extends a a :=
  ⟨le_rfl, fun _ h => ⟨_, h, rfl, rfl⟩⟩

lemma Extends.insert (a : Runs) (run : Run) : Extends a (a.insert run) where
  next := Nat.le_succ _
  kept hr h := by
    rw [SerialTable.lookup_insert, if_neg (Nat.ne_of_lt hr)] at h
    exact ⟨_, h, rfl, rfl⟩

lemma Extends.updateWhere (a : Runs) (p : ℕ → Run → Bool)
    (hf : ∀ run, (f run).ns = run.ns ∧ (f run).trigger = run.trigger) :
    Extends a (a.updateWhere p f) where
  next := le_rfl
  kept _ h := by
    rw [SerialTable.lookup_updateWhere] at h
    obtain ⟨run, hr, rfl⟩ := Option.map_eq_some_iff.mp h
    refine ⟨run, hr, ?_⟩
    split_ifs
    · exact hf run
    · exact ⟨rfl, rfl⟩

lemma Viewed.evolve (h : Viewed s v) (he : Evolves s s') : Viewed s' v where
  lt_next := h.lt_next.trans_le he.runs.next
  ns run' hr' := by
    obtain ⟨run, hr, hns, -⟩ := he.runs.kept h.lt_next hr'
    exact hns.trans (h.ns run hr)

lemma Idle.evolve (h : Idle s r) (hr : r < s.runs.next) (he : Evolves s s') : Idle s' r := by
  intro run' hru' i hm
  obtain ⟨run, hru, -⟩ := he.runs.kept hr hru'
  exact h run hru i (he.waiting hr hm)

lemma WatchInv.evolve (h : WatchInv s pc) (he : Evolves s s') : WatchInv s' pc := by
  cases pc with
  | listOpenReembedRuns => trivial
  | countStale views => exact fun v hv => (h v hv).evolve he
  | countEmbedded view n rest =>
    exact ⟨fun v hv => (h.1 v hv).evolve he, fun hn =>
      (h.2 hn).evolve (h.1 view List.mem_cons_self).lt_next he⟩
  | completeReembedRun view processed rest =>
    exact ⟨fun v hv => (h.1 v hv).evolve he, h.2.evolve (h.1 view List.mem_cons_self).lt_next he⟩

lemma JobInv.evolve {pc : JobPc} (h : JobInv s pc) (he : Evolves s s') : JobInv s' pc := by
  cases pc with
  | updateBatchRunLog id t₀ rest =>
    refine ⟨h.1.trans_le he.runs.next, fun run' hr' => ?_⟩
    obtain ⟨run, hr, -, ht⟩ := he.runs.kept h.1 hr'
    rw [ht]
    exact h.2 run hr
  | finalizeOrphanRuns | getScheduledNamespaces | insertBatchRunLog nss => trivial

end Evolves

/-! ### What keeps the invariant -/

section Close

variable {s : Scene η} {p : ℕ → Run → Bool} {f : Run → Run} {r : ℕ}

lemma waitingFor_eq_nil : s.waitingFor r = [] ↔ ∀ i, (r, i) ∉ s.waiting := by
  rw [Scene.waitingFor, List.map_eq_nil_iff, List.filter_eq_nil_iff]
  constructor
  · intro h i hm
    exact h (r, i) hm (by simp)
  · rintro h ⟨r', i⟩ hm hr
    obtain rfl : r' = r := by simpa using hr
    exact h i hm

lemma mem_hits :
    x ∈ s.runs.selectWhere (fun id run => p id run && run.trigger = .reembed) ↔
      s.runs.lookup x.1 = some x.2 ∧ p x.1 x.2 = true ∧ x.2.trigger = .reembed := by
  rw [SerialTable.mem_selectWhere]
  simp

lemma lookup_close (h : (s.close p f).runs.lookup r = some run') :
    ∃ run, s.runs.lookup r = some run ∧ (if p r run then f run else run) = run' := by
  simpa [Scene.close] using h

lemma closed_close : Closed (s.close p f) r ↔ Closed s r ∨
    ∃ run, s.runs.lookup r = some run ∧ p r run = true ∧ run.trigger = .reembed := by
  rw [Closed, Scene.close, List.map_append, List.mem_append, List.map_map]
  refine or_congr_right ⟨fun h => ?_, ?_⟩
  · obtain ⟨⟨r', run⟩, hx, rfl⟩ := List.mem_map.mp h
    exact ⟨run, mem_hits.mp hx⟩
  · rintro ⟨run, hr⟩
    exact List.mem_map.mpr ⟨(r, run), mem_hits.mpr hr, rfl⟩

end Close

namespace Inv

variable {s : Scene η}

lemma shrink (hs : Inv s) {items' : Items η} (hn : runs'.next = s.runs.next)
    (hruns : ∀ {r run}, runs'.lookup r = some run → s.runs.lookup r = some run)
    (hsu : ∀ {x}, x ∈ waiting' → x ∈ s.waiting)
    (ha : ∀ {r i run}, (r, i) ∈ waiting' → runs'.lookup r = some run →
      Awaits s.items run.ns i → Awaits items' run.ns i) :
    Inv { s with items := items', runs := runs', waiting := waiting' } := by
  have he : Evolves s { s with items := items', runs := runs', waiting := waiting' } :=
    ⟨⟨hn.ge, fun _ h => ⟨_, hruns h, rfl, rfl⟩⟩, fun _ h => hsu h⟩
  refine ⟨fun hm => (hs.old (hsu hm)).trans_eq hn.symm, fun hm hru => ?_,
    fun hw => (hs.watchers hw).evolve he, fun hj => (hs.jobs hj).evolve he, hs.idle, hs.once,
    fun hr => (hs.past hr).trans_eq hn.symm, fun hru => hs.closed (hruns hru)⟩
  obtain ⟨ht, ho, hro⟩ := hs.waits (hsu hm) (hruns hru)
  exact ⟨ht, ho, ha hm hru hro⟩

lemma insertRun (hs : Inv s) (run : Run) (ho : run.completedAt = none) :
    Inv { s with runs := s.runs.insert run } := by
  have he : Evolves s { s with runs := s.runs.insert run } :=
    ⟨.insert s.runs run, fun _ h => h⟩
  refine ⟨fun hm => Nat.lt_succ_of_lt (hs.old hm), fun hm hru => ?_,
    fun hw => (hs.watchers hw).evolve he, fun hj => (hs.jobs hj).evolve he, hs.idle, hs.once,
    fun hr => Nat.lt_succ_of_lt (hs.past hr), fun {r run'} hru => ?_⟩
  · rw [SerialTable.lookup_insert, if_neg (Nat.ne_of_lt (hs.old hm))] at hru
    exact hs.waits hm hru
  · rw [SerialTable.lookup_insert] at hru
    split_ifs at hru with hr
    · cases hru
      have hn : ¬ Closed s r := fun hc => Nat.ne_of_lt (hs.past hc) hr
      exact fun _ => iff_of_false (by simp [ho]) hn
    · exact hs.closed hru

/-- A statement that sets `completed_at` keeps the invariant if the re-embed runs it hits are open
and nothing waits for them. -/
lemma close (hs : Inv s)
    (hf : ∀ run, (f run).ns = run.ns ∧ (f run).trigger = run.trigger ∧ (f run).completedAt.isSome)
    (hp : ∀ {r run}, s.runs.lookup r = some run → p r run = true → run.trigger = .reembed →
      run.completedAt = none ∧ Idle s r) : Inv (s.close p f) := by
  have he : Evolves s (s.close p f) :=
    ⟨.updateWhere s.runs p fun run => ⟨(hf run).1, (hf run).2.1⟩, fun _ h => h⟩
  refine ⟨hs.old, fun {r i run'} hm hru => ?_, fun hw => (hs.watchers hw).evolve he,
    fun hj => (hs.jobs hj).evolve he, fun c hc => ?_, ?_, fun hr => ?_, fun {r run'} hru htr => ?_⟩
  · obtain ⟨run, ho, rfl⟩ := lookup_close hru
    obtain ⟨ht, hop, hro⟩ := hs.waits hm ho
    have hmi : p r run = false := by
      by_contra hh
      exact (hp ho (by simpa using hh) ht).2 run ho i hm
    rw [hmi]
    exact ⟨ht, hop, hro⟩
  · obtain hc | hc := List.mem_append.mp hc
    · exact hs.idle c hc
    · obtain ⟨⟨r, run⟩, hx, rfl⟩ := List.mem_map.mp hc
      obtain ⟨ho, hh, ht⟩ := mem_hits.mp hx
      exact waitingFor_eq_nil.mpr ((hp ho hh ht).2 run ho)
  · rw [Scene.close, List.map_append, List.map_map]
    refine hs.once.append SerialTable.nodup_selectWhere fun r hr hse => ?_
    obtain ⟨⟨r, run⟩, hx, rfl⟩ := List.mem_map.mp hse
    obtain ⟨ho, hh, ht⟩ := mem_hits.mp hx
    have hso := (hs.closed ho ht).mpr hr
    rw [(hp ho hh ht).1] at hso
    cases hso
  · obtain hr | ⟨run, ho, -⟩ := closed_close.mp hr
    · exact hs.past hr
    · exact s.runs.lt_next ho
  · obtain ⟨run, ho, rfl⟩ := lookup_close hru
    rw [closed_close]
    by_cases hh : p r run
    · rw [if_pos hh] at htr ⊢
      exact iff_of_true (hf run).2.2 (.inr ⟨run, ho, hh, (hf run).2.1 ▸ htr⟩)
    · rw [if_neg hh] at htr ⊢
      rw [hs.closed ho htr]
      refine ⟨.inl, fun h => h.resolve_right ?_⟩
      rintro ⟨run', hru', hh', -⟩
      rw [ho] at hru'
      exact hh (Option.some.inj hru' ▸ hh')

lemma threads (hs : Inv s) {ws : Table ℕ WatchPc} {js : Table ℕ JobPc}
    (hw : ∀ {w pc}, ws.lookup w = some pc → WatchInv s pc)
    (hj : ∀ {j pc}, js.lookup j = some pc → JobInv s pc) :
    Inv { s with watchers := ws, jobs := js } := by
  have he : Evolves s { s with watchers := ws, jobs := js } := ⟨.refl _, fun _ h => h⟩
  exact ⟨hs.old, hs.waits, fun h => (hw h).evolve he, fun h => (hj h).evolve he, hs.idle, hs.once,
    hs.past, hs.closed⟩

lemma watcher (hs : Inv s) (w : ℕ) (hpc : WatchInv s pc) :
    Inv { s with watchers := s.watchers.insert w pc } := by
  refine hs.threads (fun hw => ?_) hs.jobs
  obtain ⟨-, rfl⟩ | hw := Table.eq_or_of_lookup_insert hw
  · exact hpc
  · exact hs.watchers hw

lemma job (hs : Inv s) (j : ℕ) {pc : JobPc} (hpc : JobInv s pc) :
    Inv { s with jobs := s.jobs.insert j pc } := by
  refine hs.threads hs.watchers fun hj => ?_
  obtain ⟨-, rfl⟩ | hj := Table.eq_or_of_lookup_insert hj
  · exact hpc
  · exact hs.jobs hj

lemma stopWatcher (hs : Inv s) (w : ℕ) : Inv { s with watchers := s.watchers.erase w } :=
  hs.threads (fun hw => hs.watchers (Table.lookup_of_erase hw)) hs.jobs

lemma stopJob (hs : Inv s) (j : ℕ) : Inv { s with jobs := s.jobs.erase j } :=
  hs.threads hs.watchers fun hj => hs.jobs (Table.lookup_of_erase hj)

end Inv

/-! ### Steps -/

section Steps

variable {s s' : Scene η}

lemma viewed_of_listOpen (hv : v ∈ listOpenReembedRuns s.runs) : Viewed s v := by
  obtain ⟨⟨id, run⟩, hm, rfl⟩ := List.mem_map.mp hv
  have hr := (SerialTable.mem_selectWhere.mp hm).1
  refine ⟨s.runs.lt_next hr, fun run' hr' => ?_⟩
  have heq : some run = some run' := hr.symm.trans hr'
  rw [Option.some.inj heq]

lemma idle_of_countStale (hs : Inv s) (hv : Viewed s v)
    (hz : countStaleCatalogItems v.ns v.targetStrategyID v.targetStrategyVersion s.items = 0) :
    Idle s v.id := by
  intro run hr i hm
  obtain ⟨-, -, hro⟩ := hs.waits hm hr
  rw [hv.ns run hr] at hro
  have hp := hro.countStale_pos v.targetStrategyID v.targetStrategyVersion
  omega

lemma inv_watch (hs : Inv s) (hpc : WatchInv s pc) (h : watchStep s r pc = some (s', pc')) :
    Inv s' ∧ WatchInv s' pc' := by
  cases pc with
  | listOpenReembedRuns =>
    cases h
    refine ⟨hs, fun v hv => ?_⟩
    split_ifs at hv
    · exact viewed_of_listOpen hv
    · cases hv
  | countStale views =>
    cases views with
    | nil => cases h
    | cons view rest =>
      simp only [watchStep] at h
      split_ifs at h <;> cases h
      · exact ⟨hs, hpc, idle_of_countStale hs (hpc view List.mem_cons_self)⟩
      · exact ⟨hs, fun v hv => hpc v (List.mem_cons_of_mem _ hv)⟩
  | countEmbedded view n rest =>
    obtain ⟨hvi, hi⟩ := hpc
    simp only [watchStep] at h
    split_ifs at h with hn <;> cases h
    · exact ⟨hs, fun v hv => hvi v (List.mem_cons_of_mem _ hv)⟩
    · exact ⟨hs, hvi, hi (by omega)⟩
    · exact ⟨hs, hvi, hi (by omega)⟩
  | completeReembedRun view processed rest =>
    obtain ⟨hvi, hi⟩ := hpc
    have hr : WatchInv s (.countStale rest) :=
      fun v hv => hvi v (List.mem_cons_of_mem _ hv)
    have hc : Inv (s.completeReembedRun view.id processed r.now (r.now - view.startedAt)) := by
      refine hs.close (fun run => ⟨rfl, rfl, rfl⟩) fun {r' run} hru hh _ => ?_
      obtain ⟨⟨rfl, -⟩, ho⟩ : (r' = view.id ∧ _) ∧ run.completedAt = none := by
        simpa using hh
      exact ⟨ho, hi⟩
    have he : Evolves s (s.completeReembedRun view.id processed r.now (r.now - view.startedAt)) :=
      ⟨.updateWhere s.runs _ fun run => ⟨rfl, rfl⟩, fun _ h => h⟩
    simp only [watchStep] at h
    split at h <;> cases h
    · exact ⟨hs, hr⟩
    · exact ⟨hs, hr⟩
    · exact ⟨hc, hr.evolve he⟩
    · exact ⟨hc, hr.evolve he⟩

lemma inv_job {pc : JobPc} (hs : Inv s) (hpc : JobInv s pc)
    (hor : pc = .finalizeOrphanRuns → (∀ text, r.o ≠ .fail text) →
      ∀ id run, s.runs.lookup id = some run → run.trigger = .reembed → run.completedAt = none →
        r.now - orphanRunCutoff ≤ run.startedAt)
    (h : jobStep s r pc = some (s', pc')) : Inv s' ∧ JobInv s' pc' := by
  cases pc with
  | finalizeOrphanRuns =>
    have hc (ho : ∀ text, r.o ≠ .fail text) :
        Inv (s.finalizeOrphanRuns (r.now - orphanRunCutoff) r.dbNow) := by
      refine hs.close (fun run => ⟨rfl, rfl, rfl⟩) fun {id run} hr hh ht => ?_
      -- an open re-embed run is too young to be closed here
      obtain ⟨hop, hst⟩ : run.completedAt = none ∧ run.startedAt < r.now - orphanRunCutoff := by
        simpa using hh
      exact absurd hst (not_lt.mpr (hor rfl ho id run hr ht hop))
    simp only [jobStep] at h
    split at h <;> cases h
    · exact ⟨hs, trivial⟩
    · next ho => exact ⟨hc (by simp [ho]), trivial⟩
    · next ho => exact ⟨hc (by simp [ho]), trivial⟩
  | getScheduledNamespaces =>
    cases h
    exact ⟨hs, trivial⟩
  | insertBatchRunLog nss =>
    cases nss with
    | nil => cases h
    | cons ns rest =>
      have hi : Inv { s with runs := s.runs.insert (.opened ns r.now .cron none none) } :=
        hs.insertRun _ rfl
      simp only [jobStep] at h
      split at h <;> cases h
      · exact ⟨hs, trivial⟩
      · exact ⟨hs, trivial⟩
      · refine ⟨hi, Nat.lt_succ_self _, fun run hr => ?_⟩
        rw [SerialTable.lookup_insert, if_pos rfl] at hr
        cases hr
        nofun
      · exact ⟨hi, trivial⟩
  | updateBatchRunLog id t₀ rest =>
    have hc : Inv (s.updateBatchRunLog id r.now (r.now - t₀) r.subjects r.success
        r.errMsg) := by
      refine hs.close (fun run => ⟨rfl, rfl, rfl⟩) fun {id' run} hr hh ht => ?_
      obtain rfl : id' = id := by simpa using hh
      exact absurd ht (hpc.2 run hr)
    simp only [jobStep] at h
    split at h <;> cases h
    · exact ⟨hs, trivial⟩
    · exact ⟨hc, trivial⟩
    · exact ⟨hc, trivial⟩

lemma inv_start (ns sid strategyVersion : String) (onlyState : OnlyState)
    (t₀ now : ℤ) (hs : Inv s) :
    Inv (s.startReembedRun ns sid strategyVersion onlyState t₀ now) := by
  set s' := s.startReembedRun ns sid strategyVersion onlyState t₀ now with hs'
  have hre : ∀ row : Row η, Waits { row.pending now with strategyVersion := none } :=
    fun row => ⟨by simp [Row.pending], rfl⟩
  have hn : ∀ {r i}, (r, i) ∈ s'.waiting → (r, i) ∈ s.waiting ∨ r = s.runs.next ∧
      ∃ row, s.items.lookup i = some row ∧
        resets ns sid strategyVersion onlyState row = true := by
    intro r i hm
    obtain hm | hm := List.mem_append.mp hm
    · exact .inl hm
    · obtain ⟨⟨i, row⟩, hro, heq⟩ := List.mem_map.mp hm
      obtain ⟨rfl, rfl⟩ := Prod.mk.inj heq
      exact .inr ⟨rfl, row, SerialTable.mem_selectWhere.mp hro⟩
  have he : Evolves s s' :=
    ⟨.insert s.runs _, fun hr hm => (hn hm).resolve_right fun h => Nat.ne_of_lt hr h.1⟩
  have hru := hs.insertRun
    (.opened ns t₀ .reembed (some sid) (some strategyVersion)) rfl
  refine ⟨fun hm => ?_, fun {r i run} hm hrun => ?_, fun hw => (hs.watchers hw).evolve he,
    fun hj => (hs.jobs hj).evolve he, hs.idle, hs.once, hru.past, hru.closed⟩
  · obtain hm | ⟨rfl, -⟩ := hn hm
    · exact hru.old hm
    · exact Nat.lt_succ_self _
  · obtain hm | ⟨rfl, row, hro, hh⟩ := hn hm
    · obtain ⟨ht, ho, ha⟩ := hru.waits hm hrun
      exact ⟨ht, ho, ha.updateWhere fun row _ _ _ => ⟨rfl, hre row⟩⟩
    · rw [hs', Scene.startReembedRun, SerialTable.lookup_insert, if_pos rfl] at hrun
      cases hrun
      have hns : row.ns = ns := by
        simp only [resets, Bool.and_eq_true, decide_eq_true_eq] at hh
        exact hh.1
      refine ⟨rfl, rfl, { row.pending now with strategyVersion := none }, ?_, hns, hre row⟩
      simp [hs', Scene.startReembedRun, reembedReset, hro, hh]

variable [DecidableEq η] {contentHash : String → η}

/-- **A timely step keeps the invariant.** -/
lemma inv_step (hs : Inv s) (hti : Timely s a) (h : step contentHash s a = some s') : Inv s' := by
  cases a with
  | item stmt =>
    cases h
    refine hs.shrink rfl id (fun hx => (List.mem_filter.mp hx).1) fun hm hr hro => ?_
    obtain ⟨hm, hk⟩ := List.mem_filter.mp hm
    exact awaits_run hro hm hr (hs.waits hm hr).2.1 hti (by simpa using hk)
  | startReembedRun ns sid ver onlyState t₀ now =>
    cases h
    exact inv_start ns sid ver onlyState t₀ now hs
  | deleteNamespace ns =>
    cases h
    refine hs.shrink rfl (fun hr => (SerialTable.lookup_deleteWhere_eq_some.mp hr).1)
      (fun hx => (List.mem_filter.mp hx).1) fun _ hr hro => ?_
    -- the run is there still, so its namespace is another one
    have hns := (SerialTable.lookup_deleteWhere_eq_some.mp hr).2
    exact hro.deleteWhere fun row _ hrowns => by simpa [hrowns] using hns
  | pruneBatchRunLogs cutoff =>
    cases h
    exact hs.shrink rfl (fun hr => (SerialTable.lookup_deleteWhere_eq_some.mp hr).1) id
      fun _ _ hro => hro
  | tick w =>
    simp only [step] at h
    split_ifs at h
    cases h
    exact hs.watcher w trivial
  | watch w r =>
    obtain ⟨pc, hpc, h⟩ := Option.bind_eq_some_iff.mp h
    obtain ⟨⟨t, pc'⟩, hst, rfl⟩ := Option.map_eq_some_iff.mp h
    obtain ⟨ht, hpc'⟩ := inv_watch hs (hs.watchers hpc) hst
    exact ht.watcher w hpc'
  | stopWatcher w =>
    cases h
    exact hs.stopWatcher w
  | runOnce j =>
    simp only [step] at h
    split_ifs at h
    cases h
    exact hs.job j trivial
  | job j r =>
    obtain ⟨pc, hpc, h⟩ := Option.bind_eq_some_iff.mp h
    obtain ⟨⟨t, pc'⟩, hst, rfl⟩ := Option.map_eq_some_iff.mp h
    obtain ⟨ht, hpc'⟩ := inv_job hs (hs.jobs hpc) (fun heq => hti (heq ▸ hpc)) hst
    exact ht.job j hpc'
  | stopJob j =>
    cases h
    exact hs.stopJob j

/-- **A re-embed run is closed once, and when its work is done**, in every history whose steps
are timely: no row waited for the run at any of the closings on record, no run was closed twice,
and a run that is there carries a `completed_at` exactly if it was closed. -/
theorem reembed_closed_when_done (items : Items η) {as : List (Action η)} {u : Scene η}
    (htimely : Along (step contentHash) Timely (fresh items) as)
    (hrun : exec (step contentHash) (fresh items) as = some u) :
    (∀ c ∈ u.closings, c.2 = []) ∧ (u.closings.map Prod.fst).Nodup ∧
      ∀ r run, u.runs.lookup r = some run → run.trigger = .reembed →
        (run.completedAt.isSome ↔ r ∈ u.closings.map Prod.fst) := by
  have hu : Inv u :=
    exec_guarded (fun _ _ _ hs ht h => inv_step hs ht h) htimely hrun (inv_fresh items)
  exact ⟨hu.idle, hu.once, fun _ _ => hu.closed⟩

end Steps

/-! ### Histories -/

/-- `Timely`, as far as it can be computed. -/
def timely (s : Scene String) : Action String → Bool
  | .item (.markEmbedded id strategyID strategyVersion _ _) =>
    s.waiting.all fun x => x.2 ≠ id || (s.runs.lookup x.1).all fun run =>
      run.targetStrategyID = some strategyID && run.targetStrategyVersion = some strategyVersion
  | .job _ r =>
    (s.runs.selectWhere fun _ run => run.trigger = .reembed && run.completedAt.isNone).all
      fun x => r.now - orphanRunCutoff ≤ x.2.startedAt
  | _ => true

lemma timely_of_eq_true (h : timely s a = true) : Timely s a := by
  cases a with
  | item stmt =>
    cases stmt with
    | markEmbedded id sid ver hash now =>
      intro row _ _ r run hm hr _
      simpa [hr] using List.all_eq_true.mp h (r, id) hm
    | _ => trivial
  | job j r =>
    intro _ _ id run hr ht ho
    have hm := List.all_eq_true.mp h (id, run)
      (SerialTable.mem_selectWhere.mpr ⟨hr, by simp [ht, ho]⟩)
    simpa using hm
  | _ => trivial

/-- One row, embedded under version `v1`. -/
def oneEmbedded : Items String :=
  markEmbedded 1 "hashing" "v1" "one" 0 (upsert id "n" "o" "one" 0 .empty)

/-- The target is version `v2`. -/
def started : Action String := .startReembedRun "n" "hashing" "v2" .stale 0 0

def embeds (version : String) : List (Action String) :=
  [.item (.markInFlight 1 1000), .item (.markEmbedded 1 "hashing" version "one" 2000)]

/-- Watcher `w` looks at one run and closes it if it may. -/
def watched (w : ℕ) (now : ℤ) : List (Action String) :=
  .tick w :: List.replicate 4 (.watch w ⟨.ok, true, now⟩)

/-- The orphan sweep of a cron tick. -/
def swept (j : ℕ) (now : ℤ) : List (Action String) :=
  [.runOnce j, .job j ⟨.ok, now, now, true, [], 0, true, ""⟩]

/-- The closings, the state of row `1` and its version, and the completion of run `1`. -/
structure View where
  closings : List (ℕ × List ℕ)
  row : Option (State × Option String)
  run : Option (Option ℤ × Bool)
  deriving DecidableEq

def view (s : Scene String) : View where
  closings := s.closings
  row := (s.items.lookup 1).map fun row => (row.state, row.strategyVersion)
  run := (s.runs.lookup 1).map fun run => (run.completedAt, run.success)

theorem reembed_closed_when_done_embedded : ∃ u, exec (step id) (fresh oneEmbedded)
        (started :: embeds "v2" ++ watched 0 5000 ++ swept 0 6000000) = some u ∧
      u.closings = [(1, [])] ∧ (∀ c ∈ u.closings, c.2 = []) ∧
      (u.closings.map Prod.fst).Nodup ∧
      ∀ r run, u.runs.lookup r = some run → run.trigger = .reembed →
        (run.completedAt.isSome ↔ r ∈ u.closings.map Prod.fst) := by
  have hv : (exec (step id) (fresh oneEmbedded)
      (started :: embeds "v2" ++ watched 0 5000 ++ swept 0 6000000)).map view =
      some ⟨[(1, [])], some (.embedded, some "v2"), some (some 5000, true)⟩ := by decide +kernel
  obtain ⟨u, hr, hu⟩ := Option.map_eq_some_iff.mp hv
  have ht : Along (step id) (fun s a => timely s a = true) (fresh oneEmbedded)
      (started :: embeds "v2" ++ watched 0 5000 ++ swept 0 6000000) := by decide +kernel
  exact ⟨u, hr, congrArg View.closings hu, reembed_closed_when_done oneEmbedded
    (ht.mono fun _ _ => timely_of_eq_true) hr⟩

/-- **A run is closed over its work.** A cron tick a hundred minutes after the start closes the
run as orphaned while its row is pending; and where the row was embedded under a version that
became active after the start, the watcher closes the run as a success. -/
theorem reembed_closed_with_rows_waiting :
    (∃ u, exec (step id) (fresh oneEmbedded) (started :: swept 0 6000000) = some u ∧
      view u = ⟨[(1, [1])], some (.pending, none), some (some 6000000, false)⟩) ∧
    ∃ u, exec (step id) (fresh oneEmbedded) (started :: embeds "v3" ++ watched 0 5000) = some u ∧
      view u = ⟨[(1, [1])], some (.embedded, some "v3"), some (some 5000, true)⟩ := by
  have ho : (exec (step id) (fresh oneEmbedded) (started :: swept 0 6000000)).map view =
      some ⟨[(1, [1])], some (.pending, none), some (some 6000000, false)⟩ := by decide +kernel
  have hot : (exec (step id) (fresh oneEmbedded)
      (started :: embeds "v3" ++ watched 0 5000)).map view =
      some ⟨[(1, [1])], some (.embedded, some "v3"), some (some 5000, true)⟩ := by decide +kernel
  exact ⟨Option.map_eq_some_iff.mp ho, Option.map_eq_some_iff.mp hot⟩

end Codohue.Reembed
