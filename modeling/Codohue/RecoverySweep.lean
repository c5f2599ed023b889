import Codohue.CatalogRows
import Codohue.EmbedTruth
import Mathlib.Data.Finset.Card

/-!
The recovery sweep: what it publishes again, and what it leaves behind.

The sweep of a namespace whose embed stream owes nothing publishes the oldest pending rows and
the oldest rows in flight, a batch of each. The workers then take what was published, and the
next sweep takes the next batch. A row that is neither pending nor in flight is in no batch, so a
failed row whose entry was acknowledged stays as it is.
-/

namespace Codohue.RecoverySweep

open CatalogRows Embedder EmbedAck Transition
open Coordinator (Outcome)
open Catalog (State Item)

/-! ### The sweeper -/

/-- `RecoverySweeperConfig`; the durations are milliseconds. -/
structure SweeperConfig where
  pendingStaleAfter : ℤ
  inFlightStaleAfter : ℤ
  batchSize : ℤ

/-- A sweeper as it is constructed. -/
structure Sweeper where
  pendingStaleAfter : ℤ
  inFlightStaleAfter : ℤ
  batchSize : ℕ
  batch_pos : 0 < batchSize

def newRecoverySweeper (cfg : SweeperConfig) : Sweeper where
  pendingStaleAfter :=
    if cfg.pendingStaleAfter ≤ 0 then 5 * 60 * 1000 else cfg.pendingStaleAfter
  inFlightStaleAfter :=
    if cfg.inFlightStaleAfter ≤ 0 then 15 * 60 * 1000 else cfg.inFlightStaleAfter
  batchSize := if cfg.batchSize ≤ 0 then 500 else cfg.batchSize.toNat
  batch_pos := by split_ifs <;> omega

/-- An entry of the embed stream. -/
structure Entry where
  catalogItemID : ℕ
  ns : String
  generation : ℤ
  objectID : String
  strategyID : String
  strategyVersion : String
  enqueuedAt : ℤ
  deriving DecidableEq, Repr

/-- The embed stream of a namespace and the embedder group on it. -/
inductive EmbedStream where
  | missing
  /-- The stream is there and the group is not, so the group will start at the first entry. -/
  | ungrouped (entries : List Entry)
  | grouped (undelivered pending : List Entry)
  deriving DecidableEq

variable {s : EmbedStream}

namespace EmbedStream

def xAdd (e : Entry) : EmbedStream → EmbedStream
  | .missing => .ungrouped [e]
  | .ungrouped entries => .ungrouped (entries ++ [e])
  | .grouped undelivered pending => .grouped (undelivered ++ [e]) pending

/-- The entries that the group has still to deliver or to see acknowledged. -/
def entries : EmbedStream → List Entry
  | .missing => []
  | .ungrouped entries => entries
  | .grouped undelivered pending => undelivered ++ pending

lemma mem_entries_xAdd : e' ∈ (s.xAdd e).entries ↔ e' ∈ s.entries ∨ e' = e := by
  cases s with
  | missing | ungrouped es => simp [xAdd, entries]
  | grouped undelivered pending =>
    simp only [xAdd, entries, List.mem_append, List.mem_singleton]
    exact or_right_comm

lemma mem_entries_foldl_xAdd {es : List Entry} :
    e ∈ (es.foldl (fun s e => s.xAdd e) s).entries ↔ e ∈ s.entries ∨ e ∈ es := by
  induction es generalizing s with
  | nil => simp
  | cons e' es ih =>
    rw [List.foldl_cons, ih, mem_entries_xAdd, List.mem_cons, or_assoc]

end EmbedStream

/-- `streamDrained`, from what `XINFO GROUPS` answers. -/
def streamDrained : EmbedStream → Bool
  | .missing | .ungrouped _ => true
  | .grouped undelivered pending => undelivered.length = 0 && pending.length = 0

lemma streamDrained_of_entries (h : s.entries = []) : streamDrained s = true := by
  cases s with
  | missing | ungrouped es => rfl
  | grouped undelivered pending =>
    obtain ⟨rfl, rfl⟩ := List.append_eq_nil_iff.mp h
    rfl

structure World (η : Type) where
  items : Items η
  stream : EmbedStream

structure SweepReply where
  xInfoGroups : Outcome
  listStrandedPending : Outcome
  resetStrandedInFlight : Outcome
  /-- The answer to the `XADD` of a row. -/
  xAdd : ℕ → Outcome
  now : ℤ
  dbNow : ℤ

/-- Every call succeeds. -/
structure SweepReply.Healthy (r : SweepReply) : Prop where
  xInfoGroups : r.xInfoGroups = .ok
  listStrandedPending : r.listStrandedPending = .ok
  resetStrandedInFlight : r.resetStrandedInFlight = .ok
  xAdd : ∀ id, r.xAdd id = .ok

section Sweep

variable {η : Type} (sw : Sweeper) (ns : String) (generation : ℤ)
  (strategyID strategyVersion : String)

def entry (now : ℤ) (x : ℕ × Row η) : Entry :=
  ⟨x.1, ns, generation, x.2.objectID, strategyID, strategyVersion, now⟩

/-- The rows are published one by one; a failed publish is skipped. Returned are the entries that
reached the stream. -/
def republish (r : SweepReply) (rows : List (ℕ × Row η)) (w : World η) : World η × List Entry :=
  let es := (rows.filter fun x =>
    match r.xAdd x.1 with
    | .fail _ => false
    | .ok | .lost _ => true).map (entry ns generation strategyID strategyVersion r.now)
  ({ w with stream := es.foldl (fun s e => s.xAdd e) w.stream }, es)

def sweepNamespace (r : SweepReply) (w : World η) : World η × List Entry :=
  if r.xInfoGroups.error.isSome || !streamDrained w.stream ||
      r.listStrandedPending.error.isSome then (w, [])
  else
    let stranded := listStrandedPending ns (r.now - sw.pendingStaleAfter) sw.batchSize w.items
    let cutoff := r.now - sw.inFlightStaleAfter
    let reset := strandedInFlight ns cutoff sw.batchSize w.items
    let items := resetStrandedInFlight ns cutoff sw.batchSize r.dbNow w.items
    match r.resetStrandedInFlight with
    | .ok => republish ns generation strategyID strategyVersion r (stranded ++ reset)
        { w with items := items }
    -- the pending rows can still be published
    | .fail _ => republish ns generation strategyID strategyVersion r stranded w
    | .lost _ => republish ns generation strategyID strategyVersion r stranded
        { w with items := items }

end Sweep

/-! ### The workers -/

section Workers

variable {V η : Type} {R : Registry V} [DecidableEq η]

/-- The item is embedded under the strategy that the namespace has active. -/
def Current (cfg : Config) (item : Item η) : Prop :=
  item.state = .embedded ∧ item.strategyID = cfg.catalogStrategyID ∧
    item.strategyVersion = cfg.catalogStrategyVersion

instance (cfg : Config) (item : Item η) : Decidable (Current cfg item) :=
  inferInstanceAs (Decidable (_ ∧ _ ∧ _))

variable (R) (dim : V → ℕ) (defaultMaxAttempts : ℤ) (cfg : Config) (lifecycle : Lifecycle.Store)

/-- What the calls of `ProcessItem` on one entry, made until one of them acknowledges it, make of
its item. The lease of the call that acknowledges was granted. -/
inductive Handled : Item η → Item η → Prop where
  | acked {item item' : Item η} {point : Option (Point V)} {rs : List (Reply R)} {c : Call V η}
      {outcome : ProcessOutcome} {err : Option String}
      (hrun : exec (callStep dim defaultMaxAttempts)
        (start ⟨some item, some cfg, lifecycle, point⟩) rs = some c)
      (hdone : c.pc = .done outcome err) (hack : outcome.shouldAck)
      (hgranted : ¬ LeaseRefused ⟨some item, some cfg, lifecycle, point⟩ rs)
      (hrow : c.world.row = some item') : Handled item item'
  | retried {item mid item' : Item η} {point : Option (Point V)} {rs : List (Reply R)}
      {c : Call V η} {outcome : ProcessOutcome} {err : Option String}
      (hrun : exec (callStep dim defaultMaxAttempts)
        (start ⟨some item, some cfg, lifecycle, point⟩) rs = some c)
      (hdone : c.pc = .done outcome err) (hack : ¬ outcome.shouldAck)
      (hrow : c.world.row = some mid) (hnext : Handled mid item') : Handled item item'

/-- The workers take every entry of the stream until it is acknowledged; the other rows of the
namespace stay as they are. -/
structure Drains (ns : String) (w w' : World η) : Prop where
  stream : w'.stream = .grouped [] []
  kept : ∀ {id row}, w.items.lookup id = some row → row.ns = ns →
    ∃ row', w'.items.lookup id = some row' ∧ row'.ns = ns ∧
      if id ∈ w.stream.entries.map Entry.catalogItemID then
        Handled R dim defaultMaxAttempts cfg lifecycle row.item row'.item
      else row' = row
  old : ∀ {id row'}, w'.items.lookup id = some row' → row'.ns = ns →
    ∃ row, w.items.lookup id = some row ∧ row.ns = ns

/-- `n` sweeps of a namespace from `t` on, with healthy stores, each after the workers have
drained the stream; `es` are the entries that the sweeps published. -/
inductive Rounds (sw : Sweeper) (ns : String) (generation t : ℤ) :
    ℕ → World η → List Entry → World η → Prop where
  | zero (w : World η) : Rounds sw ns generation t 0 w [] w
  | succ {n : ℕ} {w w₁ w₂ w' : World η} {es es' : List Entry} {r : SweepReply}
      (hr : r.Healthy) (hnow : t ≤ r.now)
      (hsweep : sweepNamespace sw ns generation cfg.catalogStrategyID cfg.catalogStrategyVersion
        r w = (w₁, es))
      (hdrains : Drains R dim defaultMaxAttempts cfg lifecycle ns w₁ w₂)
      (hrest : Rounds sw ns generation t n w₂ es' w') :
      Rounds sw ns generation t (n + 1) w (es ++ es') w'

variable {R dim defaultMaxAttempts cfg lifecycle}

lemma config_step {w w' : Embedder.World V η}
    (h : Embedder.step dim defaultMaxAttempts w r pc = some (w', pc')) : w'.config = w.config := by
  cases pc <;> simp only [Embedder.step, inFlightStep, upsertStep, markEmbeddedStep, failedStep,
      deadLetterStep] at h <;> (repeat' split at h) <;> cases h <;> rfl

lemma config_exec {c c' : Call V η} (h : exec (callStep dim defaultMaxAttempts) c rs = some c') :
    c'.world.config = c.world.config := by
  refine exec_invariant (I := fun d : Call V η => d.world.config = c.world.config) ?_ h rfl
  intro d r d' hd hc
  obtain ⟨⟨w', pc'⟩, hs, rfl⟩ := Option.map_eq_some_iff.mp hc
  exact (config_step hs).trans hd

lemma Handled.settled {item' : Item η} (hcatalog : cfg.denseSource = "catalog")
    (h : Handled R dim defaultMaxAttempts cfg lifecycle item item') :
    item'.state = .deadLetter ∨ Current cfg item' := by
  induction h with
  | @acked item item' point rs c outcome err hru hd ha hg hro =>
    have hc : c.world.config = some cfg := config_exec hru
    obtain hn | ⟨x, hx, hde⟩ | ⟨x, cfg', hx, hc', he⟩ | hn | ⟨cfg', hc', ho⟩ :=
      settled_of_ack hru hd ha hg
    · rw [hro] at hn
      cases hn
    · rw [hro] at hx
      cases hx
      exact .inl hde
    · rw [hro] at hx
      rw [hc] at hc'
      cases hx
      cases hc'
      exact .inr he
    · rw [hc] at hn
      cases hn
    · rw [hc] at hc'
      cases hc'
      exact absurd hcatalog ho
  | retried _ _ _ _ _ ih => exact ih

end Workers

/-! ### Stranded rows -/

section Stranded

variable {η : Type} {ns : String}

/-- A row that the sweep may publish. -/
def Stranded (ns : String) (row : Row η) : Prop :=
  row.ns = ns ∧ (row.state = .pending ∨ row.state = .inFlight)

/-- The ids of the rows that the sweep may publish. -/
def strandedIDs (ns : String) (t : Items η) : Finset ℕ :=
  ((t.selectWhere fun _ row =>
    row.ns = ns && (row.state = .pending || row.state = .inFlight)).map Prod.fst).toFinset

lemma mem_strandedIDs {t : Items η} {id : ℕ} :
    id ∈ strandedIDs ns t ↔ ∃ row, t.lookup id = some row ∧ Stranded ns row := by
  rw [strandedIDs, List.mem_toFinset, List.mem_map]
  constructor
  · rintro ⟨⟨id, row⟩, hm, rfl⟩
    obtain ⟨hro, hs⟩ := SerialTable.mem_selectWhere.mp hm
    exact ⟨row, hro, by simpa [Stranded] using hs⟩
  · rintro ⟨row, hro, hs⟩
    exact ⟨(id, row), SerialTable.mem_selectWhere.mpr ⟨hro, by simpa [Stranded] using hs⟩, rfl⟩

lemma mem_of_mem_oldest (h : x ∈ oldest lim rows) : x ∈ rows :=
  List.mem_mergeSort.mp (List.mem_of_mem_take h)

lemma exists_mem_oldest (hl : 0 < lim) (hx : x ∈ rows) : ∃ y, y ∈ oldest lim rows := by
  refine List.exists_mem_of_length_pos ?_
  rw [oldest, List.length_take, List.length_mergeSort]
  exact lt_min hl (List.length_pos_of_mem hx)

end Stranded

/-! ### One round -/

section Round

variable {V η : Type} {R : Registry V} {dim : V → ℕ} {defaultMaxAttempts : ℤ} {cfg : Config}
  {lifecycle : Lifecycle.Store} {sw : Sweeper} {ns : String} {generation t : ℤ}
  {w w₁ w₂ : World η} {r : SweepReply} {es : List Entry}

variable {now : ℤ} {items : Items η} {id : ℕ} {strategyID strategyVersion : String}

/-- The rows that a sweep selects. -/
def selected (sw : Sweeper) (ns : String) (now : ℤ) (items : Items η) : List (ℕ × Row η) :=
  listStrandedPending ns (now - sw.pendingStaleAfter) sw.batchSize items ++
    strandedInFlight ns (now - sw.inFlightStaleAfter) sw.batchSize items

/-- The stranded rows are older than both thresholds. -/
def Stale (sw : Sweeper) (ns : String) (t : ℤ) (items : Items η) : Prop :=
  ∀ id row, items.lookup id = some row → Stranded ns row →
    row.updatedAt < t - sw.pendingStaleAfter ∧ row.updatedAt < t - sw.inFlightStaleAfter

lemma mem_selected (h : x ∈ selected sw ns now items) :
    items.lookup x.1 = some x.2 ∧ Stranded ns x.2 := by
  obtain h | h := List.mem_append.mp h
  · obtain ⟨hro, hp⟩ := SerialTable.mem_selectWhere.mp (mem_of_mem_oldest h)
    simp only [Bool.and_eq_true, decide_eq_true_eq] at hp
    exact ⟨hro, hp.1.1, .inl hp.1.2⟩
  · obtain ⟨hro, hp⟩ := SerialTable.mem_selectWhere.mp (mem_of_mem_oldest h)
    simp only [Bool.and_eq_true, decide_eq_true_eq] at hp
    exact ⟨hro, hp.1.1, .inr hp.1.2⟩

variable {row : Row η}

lemma exists_selected (hsta : Stale sw ns t items) (hn : t ≤ now)
    (hro : items.lookup id = some row) (hst : Stranded ns row) :
    ∃ x, x ∈ selected sw ns now items := by
  obtain ⟨hp, hif⟩ := hsta id row hro hst
  obtain ⟨hns, hs | hs⟩ := hst
  · have hlt : row.updatedAt < now - sw.pendingStaleAfter := by omega
    have hm : (id, row) ∈ items.selectWhere fun _ row => row.ns = ns && row.state = .pending &&
        row.updatedAt < now - sw.pendingStaleAfter :=
      SerialTable.mem_selectWhere.mpr ⟨hro, by simp [hns, hs, hlt]⟩
    obtain ⟨x, hx⟩ := exists_mem_oldest sw.batch_pos hm
    exact ⟨x, List.mem_append_left _ hx⟩
  · have hlt : row.updatedAt < now - sw.inFlightStaleAfter := by omega
    have hm : (id, row) ∈ items.selectWhere fun _ row => row.ns = ns && row.state = .inFlight &&
        row.updatedAt < now - sw.inFlightStaleAfter :=
      SerialTable.mem_selectWhere.mpr ⟨hro, by simp [hns, hs, hlt]⟩
    obtain ⟨x, hx⟩ := exists_mem_oldest sw.batch_pos hm
    exact ⟨x, List.mem_append_right _ hx⟩

lemma sweep_healthy (hr : r.Healthy) (hempty : w.stream.entries = [])
    (h : sweepNamespace sw ns generation strategyID strategyVersion r w = (w₁, es)) :
    es = (selected sw ns r.now w.items).map (entry ns generation strategyID strategyVersion r.now) ∧
    w₁.items = resetStrandedInFlight ns (r.now - sw.inFlightStaleAfter) sw.batchSize r.dbNow
      w.items ∧
    ∀ e, e ∈ w₁.stream.entries ↔ e ∈ es := by
  have ho : (r.xInfoGroups.error.isSome || !streamDrained w.stream ||
      r.listStrandedPending.error.isSome) = false := by
    simp [hr.xInfoGroups, hr.listStrandedPending, streamDrained_of_entries hempty, Outcome.error]
  rw [sweepNamespace, ho] at h
  simp only [hr.resetStrandedInFlight, republish, hr.xAdd, List.filter_true, Bool.false_eq_true,
    if_false, Prod.mk.injEq] at h
  obtain ⟨rfl, rfl⟩ := h
  refine ⟨rfl, rfl, fun e => ?_⟩
  rw [EmbedStream.mem_entries_foldl_xAdd, hempty]
  simp

lemma lookup_reset_of_notMem (h : id ∉ (strandedInFlight ns cutoff lim items).map Prod.fst) :
    (resetStrandedInFlight ns cutoff lim now items).lookup id = items.lookup id := by
  rw [resetStrandedInFlight, SerialTable.lookup_updateWhere]
  simp only [h, decide_false, Bool.false_eq_true, if_false]
  exact Option.map_id'

lemma mem_selected_ids (h : x ∈ selected sw ns now items) :
    x.1 ∈ (selected sw ns now items).map Prod.fst :=
  List.mem_map_of_mem h

section

variable (hr : r.Healthy) (hempty : w.stream.entries = [])
  (h : sweepNamespace sw ns generation strategyID strategyVersion r w = (w₁, es))

include hr hempty h

lemma mem_entries_ids : id ∈ w₁.stream.entries.map Entry.catalogItemID ↔
      id ∈ (selected sw ns r.now w.items).map Prod.fst := by
  obtain ⟨rfl, -, he⟩ := sweep_healthy hr hempty h
  simp only [List.mem_map, he]
  constructor
  · rintro ⟨_, ⟨x, hx, rfl⟩, rfl⟩
    exact ⟨x, hx, rfl⟩
  · rintro ⟨x, hx, rfl⟩
    exact ⟨_, ⟨x, hx, rfl⟩, rfl⟩

lemma lookup_sweep (hid : id ∉ (selected sw ns r.now w.items).map Prod.fst) :
    w₁.items.lookup id = w.items.lookup id := by
  obtain ⟨-, hi, -⟩ := sweep_healthy hr hempty h
  rw [hi]
  refine lookup_reset_of_notMem fun hm => hid ?_
  rw [selected, List.map_append]
  exact List.mem_append_right _ hm

end

variable [DecidableEq η]

section Between

variable (hcatalog : cfg.denseSource = "catalog") (hr : r.Healthy) (hempty : w.stream.entries = [])
  (hsweep : sweepNamespace sw ns generation cfg.catalogStrategyID cfg.catalogStrategyVersion r w =
    (w₁, es))
  (hdrains : Drains R dim defaultMaxAttempts cfg lifecycle ns w₁ w₂)
include hr hempty hsweep hdrains

include hcatalog in
/-- **One round**: what is stranded after it was stranded before, unchanged and not selected. -/
lemma lookup_of_round (hro : w₂.items.lookup id = some row) (hs : Stranded ns row) :
    w.items.lookup id = some row ∧ id ∉ (selected sw ns r.now w.items).map Prod.fst := by
  obtain ⟨row₁, hro₁, hns₁⟩ := hdrains.old hro hs.1
  obtain ⟨row', hro', -, hk⟩ := hdrains.kept hro₁ hns₁
  obtain rfl : row' = row := Option.some.inj (hro'.symm.trans hro)
  have hi : id ∈ w₁.stream.entries.map Entry.catalogItemID ↔ _ :=
    mem_entries_ids hr hempty hsweep
  by_cases hid : id ∈ (selected sw ns r.now w.items).map Prod.fst
  · -- an entry that was acknowledged leaves no stranded row
    rw [if_pos (hi.mpr hid)] at hk
    have hst : row'.state = .deadLetter ∨ row'.state = .embedded :=
      (hk.settled hcatalog).imp_right And.left
    obtain ⟨-, hp | hif⟩ := hs
    · simp [hp] at hst
    · simp [hif] at hst
  · rw [if_neg (mt hi.mp hid)] at hk
    rw [lookup_sweep hr hempty hsweep hid] at hro₁
    exact ⟨hk ▸ hro₁, hid⟩

lemma lookup_round (hro : w.items.lookup id = some row) (hns : row.ns = ns)
    (hid : id ∉ (selected sw ns r.now w.items).map Prod.fst) : w₂.items.lookup id = some row := by
  rw [← lookup_sweep hr hempty hsweep hid] at hro
  obtain ⟨row', hro', -, hk⟩ := hdrains.kept hro hns
  rw [if_neg (mt (mem_entries_ids hr hempty hsweep).mp hid)] at hk
  exact hk ▸ hro'

include hcatalog in
lemma stale_round (hst : Stale sw ns t w.items) : Stale sw ns t w₂.items :=
  fun id row hro hs =>
    hst id row (lookup_of_round hcatalog hr hempty hsweep hdrains hro hs).1 hs

include hcatalog in
lemma strandedIDs_round (hst : Stale sw ns t w.items) (hn : t ≤ r.now)
    (hso : (strandedIDs ns w.items).Nonempty) :
    strandedIDs ns w₂.items ⊂ strandedIDs ns w.items := by
  obtain ⟨id, hid⟩ := hso
  obtain ⟨row, hro, hs⟩ := mem_strandedIDs.mp hid
  obtain ⟨x, hx⟩ := exists_selected hst hn hro hs
  refine (Finset.ssubset_iff_of_subset fun i hi => ?_).mpr ⟨x.1, ?_, fun hx₂ => ?_⟩
  · obtain ⟨row', hro', hs'⟩ := mem_strandedIDs.mp hi
    exact mem_strandedIDs.mpr ⟨row',
      (lookup_of_round hcatalog hr hempty hsweep hdrains hro' hs').1, hs'⟩
  · exact mem_strandedIDs.mpr ⟨x.2, mem_selected hx⟩
  · obtain ⟨row', hro', hs'⟩ := mem_strandedIDs.mp hx₂
    exact (lookup_of_round hcatalog hr hempty hsweep hdrains hro' hs').2 (mem_selected_ids hx)

end Between

/-! ### Repeated sweeps -/

variable {n : ℕ} {w' : World η}

lemma published_of_stranded (hcatalog : cfg.denseSource = "catalog")
    (hrou : Rounds R dim defaultMaxAttempts cfg lifecycle sw ns generation t n w es w')
    (hempty : w.stream.entries = []) (hst : Stale sw ns t w.items)
    (hn : (strandedIDs ns w.items).card ≤ n) (hro : w.items.lookup id = some row)
    (hs : Stranded ns row) :
    ∃ e ∈ es, e.catalogItemID = id ∧ e.ns = ns ∧ e.objectID = row.objectID := by
  have hm : id ∈ strandedIDs ns w.items := mem_strandedIDs.mpr ⟨row, hro, hs⟩
  induction hrou with
  | zero w =>
    have hp := Finset.card_pos.mpr ⟨id, hm⟩
    omega
  | @succ n w w₁ w₂ w' es es' r hr hno hsweep hdrains hre ih =>
    by_cases hid : id ∈ (selected sw ns r.now w.items).map Prod.fst
    · obtain ⟨x, hx, rfl⟩ := List.mem_map.mp hid
      obtain rfl : x.2 = row := Option.some.inj ((mem_selected hx).1.symm.trans hro)
      obtain ⟨rfl, -⟩ := sweep_healthy hr hempty hsweep
      exact ⟨_, List.mem_append_left _ (List.mem_map_of_mem hx), rfl, rfl, rfl⟩
    · have hro₂ := lookup_round hr hempty hsweep hdrains hro hs.1 hid
      have hempty₂ : w₂.stream.entries = [] := by rw [hdrains.stream]; rfl
      have hlt := Finset.card_lt_card
        (strandedIDs_round hcatalog hr hempty hsweep hdrains hst hno ⟨id, hm⟩)
      obtain ⟨e, he, hf⟩ := ih hempty₂
        (stale_round hcatalog hr hempty hsweep hdrains hst) (by omega) hro₂
        (mem_strandedIDs.mpr ⟨row, hro₂, hs⟩)
      exact ⟨e, List.mem_append_right _ he, hf⟩

/-- Only rows that are stranded at the beginning are published. -/
lemma stranded_of_published (hcatalog : cfg.denseSource = "catalog")
    (hrou : Rounds R dim defaultMaxAttempts cfg lifecycle sw ns generation t n w es w')
    (hempty : w.stream.entries = []) : ∀ e ∈ es, e.catalogItemID ∈ strandedIDs ns w.items := by
  induction hrou with
  | zero w => exact nofun
  | @succ n w w₁ w₂ w' es es' r hr hno hsweep hdrains hre ih =>
    intro e he
    rcases List.mem_append.mp he with he | he
    · obtain ⟨rfl, -⟩ := sweep_healthy hr hempty hsweep
      obtain ⟨x, hx, rfl⟩ := List.mem_map.mp he
      exact mem_strandedIDs.mpr ⟨x.2, mem_selected hx⟩
    · obtain ⟨row, hro, hs⟩ := mem_strandedIDs.mp (ih (by rw [hdrains.stream]; rfl) e he)
      exact mem_strandedIDs.mpr
        ⟨row, (lookup_of_round hcatalog hr hempty hsweep hdrains hro hs).1, hs⟩

omit [DecidableEq η] in
/-- Of the rows that are neither embedded under the active strategy nor dead-lettered, the stranded
ones are those that are not failed, and not embedded at all. -/
lemma stranded_iff (hns : row.ns = ns) (hcurrent : ¬ Current cfg row.item)
    (hdead : row.state ≠ .deadLetter) :
    Stranded ns row ↔ row.state ≠ .failed ∧ (row.state = .embedded → Current cfg row.item) := by
  cases hst : row.state <;> simp_all [Stranded]

omit [DecidableEq η] in
lemma card_strandedIDs_le {items : SerialTable (Row η)} :
    (strandedIDs ns items).card ≤ (items.selectWhere fun _ row => row.ns = ns).length := by
  rw [← List.length_map Prod.fst, ← List.toFinset_card_of_nodup SerialTable.nodup_selectWhere]
  refine Finset.card_le_card fun i hi => ?_
  obtain ⟨row, hrow, hs⟩ := mem_strandedIDs.mp hi
  exact List.mem_toFinset.mpr (List.mem_map.mpr ⟨(i, row),
    SerialTable.mem_selectWhere.mpr ⟨hrow, by simpa using hs.1⟩, rfl⟩)

/-- **The sweeps leave no stranded row behind**: if the stream owes nothing and every row of the
namespace is older than the thresholds, then as many sweeps as the namespace has rows publish an
entry for every row that is neither embedded under the active strategy nor dead-lettered iff no
row is failed or embedded under another strategy. -/
theorem sweep_republishes (hcatalog : cfg.denseSource = "catalog")
    (hdrained : w.stream.entries = [])
    (huntouched : ∀ id row, w.items.lookup id = some row → row.ns = ns →
      row.updatedAt < t - sw.pendingStaleAfter ∧ row.updatedAt < t - sw.inFlightStaleAfter)
    (hn : (w.items.selectWhere fun _ row => row.ns = ns).length ≤ n)
    (hrounds : Rounds R dim defaultMaxAttempts cfg lifecycle sw ns generation t n w es w') :
    (∀ id row, w.items.lookup id = some row → row.ns = ns → ¬ Current cfg row.item →
        row.state ≠ .deadLetter →
        ∃ e ∈ es, e.catalogItemID = id ∧ e.ns = ns ∧ e.objectID = row.objectID) ↔
      ∀ id row, w.items.lookup id = some row → row.ns = ns →
        row.state ≠ .failed ∧ (row.state = .embedded → Current cfg row.item) := by
  constructor
  · intro h id row hrow hns
    by_cases hcurrent : Current cfg row.item
    · exact ⟨fun hf => by simp [Current, Row.item, hf] at hcurrent, fun _ => hcurrent⟩
    by_cases hdead : row.state = .deadLetter
    · simp [hdead]
    obtain ⟨e, he, rfl, -⟩ := h id row hrow hns hcurrent hdead
    obtain ⟨row', hrow', hs⟩ := mem_strandedIDs.mp
      (stranded_of_published hcatalog hrounds hdrained e he)
    obtain rfl := Option.some.inj (hrow'.symm.trans hrow)
    exact (stranded_iff hns hcurrent hdead).mp hs
  · intro h id row hrow hns hcurrent hdead
    exact published_of_stranded hcatalog hrounds hdrained
      (fun id row hrow hs => huntouched id row hrow hs.1) (card_strandedIDs_le.trans hn) hrow
      ((stranded_iff hns hcurrent hdead).mpr (h id row hrow hns))

lemma rounds_idle (hst : w.stream = .grouped [] [])
    (hn : ∀ id row, w.items.lookup id = some row → ¬ Stranded ns row) (n : ℕ) :
    Rounds R dim defaultMaxAttempts cfg lifecycle sw ns generation t n w [] w := by
  induction n with
  | zero => exact .zero w
  | succ n ih =>
    have hr : (⟨.ok, .ok, .ok, fun _ => .ok, t, t⟩ : SweepReply).Healthy :=
      ⟨rfl, rfl, rfl, fun _ => rfl⟩
    have hempty : w.stream.entries = [] := by rw [hst]; rfl
    obtain ⟨w₁, es, hsweep⟩ : ∃ w₁ es, sweepNamespace sw ns generation cfg.catalogStrategyID
      cfg.catalogStrategyVersion ⟨.ok, .ok, .ok, fun _ => .ok, t, t⟩ w = (w₁, es) := ⟨_, _, rfl⟩
    have hs : selected sw ns t w.items = [] :=
      List.eq_nil_iff_forall_not_mem.mpr fun x hx =>
        hn x.1 x.2 (mem_selected hx).1 (mem_selected hx).2
    have hl : ∀ id, w₁.items.lookup id = w.items.lookup id :=
      fun id => lookup_sweep hr hempty hsweep (by simp [hs])
    have hi : ∀ id, id ∉ w₁.stream.entries.map Entry.catalogItemID :=
      fun id h => by simpa [hs] using (mem_entries_ids hr hempty hsweep).mp h
    obtain rfl : es = [] := by
      rw [(sweep_healthy hr hempty hsweep).1]
      simpa using hs
    refine .succ hr le_rfl hsweep ⟨hst, fun {id row} hro hns => ?_, fun {id row} hro hns => ?_⟩ ih
    · exact ⟨row, by rw [← hl]; exact hro, hns, by rw [if_neg (hi id)]⟩
    · exact ⟨row, by rw [hl]; exact hro, hns⟩

end Round

/-! ### Runs -/

open EmbedTruth (textFleet emptyFleet)

/-- The row of `EmbedAck.pendingItem`, last touched at the beginning of time. -/
def pendingRow : Row String := newRow id "n" "o" "text" 0

def embeddedRow : Row String :=
  { pendingRow with
    state := .embedded, strategyID := some "internal-hashing-ngrams", strategyVersion := some "v1"
    updatedAt := 2000000 }

def oneRow (row : Row String) : World String := ⟨SerialTable.empty.insert row, .grouped [] []⟩

lemma lookup_oneRow {row : Row String} {id : ℕ} (h : (oneRow row).items.lookup id = some row') :
    id = 1 ∧ row' = row := by
  have hl : (SerialTable.empty.insert row).lookup id = some row' := h
  rw [SerialTable.lookup_insert] at hl
  split_ifs at hl with hid
  · exact ⟨hid, (Option.some.inj hl).symm⟩
  · cases hl

def healthySweep : SweepReply := ⟨.ok, .ok, .ok, fun _ => .ok, 2000000, 2000000⟩

def defaultSweeper : Sweeper := newRecoverySweeper ⟨0, 0, 0⟩

lemma handled_pendingRow : Handled textRegistry (fun _ => 64) 0 catalogConfig
    pendingWorld.lifecycle pendingRow.item embeddedRow.item := by
  have hv : (exec textStep (start pendingWorld) (List.replicate 9 healthy)).map (fun c =>
      (ackedEmbedded c.pc, c.world.row)) = some (true, some embeddedRow.item) := by decide +kernel
  obtain ⟨c, hru, hc⟩ := Option.map_eq_some_iff.mp hv
  obtain ⟨hpc, hro⟩ := Prod.mk.inj hc
  have hd : c.pc = .done .embedded none := by
    unfold ackedEmbedded at hpc
    split at hpc
    · assumption
    · cases hpc
  exact .acked hru hd rfl (not_leaseRefused_healthy 9) hro

lemma rounds_oneRow : ∃ es, Rounds textRegistry (fun _ => 64) 0 catalogConfig
    pendingWorld.lifecycle defaultSweeper "n" 1 2000000 1 (oneRow pendingRow) es
    (oneRow embeddedRow) := by
  have hr : healthySweep.Healthy := ⟨rfl, rfl, rfl, fun _ => rfl⟩
  obtain ⟨w₁, es, hsweep⟩ : ∃ w₁ es, sweepNamespace defaultSweeper "n" 1
    catalogConfig.catalogStrategyID catalogConfig.catalogStrategyVersion healthySweep
    (oneRow pendingRow) = (w₁, es) := ⟨_, _, rfl⟩
  have hi := (sweep_healthy hr rfl hsweep).2.1
  have hl : ∀ id, w₁.items.lookup id = (oneRow pendingRow).items.lookup id := by
    intro id
    rw [hi]
    refine lookup_reset_of_notMem fun hm => ?_
    obtain ⟨x, hx, -⟩ := List.mem_map.mp hm
    obtain ⟨hro, hs⟩ := SerialTable.mem_selectWhere.mp (mem_of_mem_oldest hx)
    rw [(lookup_oneRow hro).2] at hs
    cases hs
  have hse : 1 ∈ w₁.stream.entries.map Entry.catalogItemID := by
    have hst : Stale defaultSweeper "n" 2000000 (oneRow pendingRow).items := by
      intro id row hro _
      rw [(lookup_oneRow hro).2]
      decide
    obtain ⟨x, hx⟩ := exists_selected hst le_rfl
      (show (oneRow pendingRow).items.lookup 1 = some pendingRow from rfl) ⟨rfl, .inl rfl⟩
    have hx1 := (lookup_oneRow (mem_selected hx).1).1
    exact (mem_entries_ids hr rfl hsweep).mpr (hx1 ▸ mem_selected_ids hx)
  refine ⟨es ++ [], .succ hr le_rfl hsweep ⟨rfl, fun hro hns => ?_, fun hro hns => ?_⟩ (.zero _)⟩
  · rw [hl] at hro
    obtain ⟨rfl, rfl⟩ := lookup_oneRow hro
    exact ⟨embeddedRow, rfl, rfl, by rw [if_pos hse]; exact handled_pendingRow⟩
  · obtain ⟨rfl, -⟩ := lookup_oneRow hro
    exact ⟨pendingRow, hl 1, rfl⟩

theorem sweep_republishes_oneRow : ∃ es, Rounds textRegistry (fun _ => 64) 0 catalogConfig
      pendingWorld.lifecycle defaultSweeper "n" 1 2000000 1 (oneRow pendingRow) es
      (oneRow embeddedRow) ∧
    ∃ e ∈ es, e.catalogItemID = 1 ∧ e.ns = "n" ∧ e.objectID = "o" := by
  obtain ⟨es, hrou⟩ := rounds_oneRow
  refine ⟨es, hrou, (sweep_republishes rfl rfl (fun id row hro _ => ?_) (by decide) hrou).mpr
    (fun id row hro _ => ?_) 1 pendingRow rfl rfl (by decide) (by decide)⟩
  · rw [(lookup_oneRow hro).2]
    decide
  · rw [(lookup_oneRow hro).2]
    decide

/-- The embedding fails once, and the redelivered entry is acknowledged over a refused lease. -/
def ackedOverFailed : List (EmbedTruth.Action textRegistry) :=
  .ingest "one" 0 true :: .deliver 0 0 :: List.replicate 4 (.advance 0 healthy) ++
    [.advance 0 { healthy with embed := some (.transient "timeout") }, .advance 0 healthy,
      .finish 0 true, .deliver 1 0, .advance 1 healthy, .advance 1 refused, .finish 1 true]

/-- **A failed row is left behind**: the embedder reaches a state where the row is failed, nothing
works on it and the stream owes nothing, and however often the namespace is then swept, with
whatever thresholds and from whatever time on, no entry is published. -/
theorem failed_row_left_behind :
    ∃ f, exec textFleet emptyFleet ackedOverFailed = some f ∧ f.execs.entries = [] ∧
      f.owed = [] ∧ ∃ item, f.world.row = some item ∧ item.state = .failed ∧
      ∀ (row : Row String), row.item = item → ∀ (sw : Sweeper) (generation t : ℤ) (n : ℕ),
        Rounds textRegistry (fun _ => 64) 0 catalogConfig f.world.lifecycle sw "n" generation t n
          (oneRow row) [] (oneRow row) ∧
        ∀ es w', Rounds textRegistry (fun _ => 64) 0 catalogConfig f.world.lifecycle sw "n"
          generation t n (oneRow row) es w' → es = [] := by
  have hv : (exec textFleet emptyFleet ackedOverFailed).map EmbedTruth.view =
      some (some (.failed, "one", ""), none, 0, []) := by decide +kernel
  obtain ⟨f, hru, hf⟩ := Option.map_eq_some_iff.mp hv
  simp only [EmbedTruth.view, Prod.mk.injEq] at hf
  obtain ⟨hro, -, he, ho⟩ := hf
  obtain ⟨item, hi, hfi⟩ := Option.map_eq_some_iff.mp hro
  have hs : item.state = .failed := congrArg Prod.fst hfi
  refine ⟨f, hru, List.eq_nil_of_length_eq_zero he, ho, item, hi, hs,
    fun row hro sw generation t n => ?_⟩
  have hn : ∀ id row', (oneRow row).items.lookup id = some row' → ¬ Stranded "n" row' := by
    intro id row' hro' hst
    obtain ⟨-, rfl⟩ := lookup_oneRow hro'
    have hfa : row'.state = .failed := by rw [← hs, ← hro]; rfl
    obtain ⟨-, hp | hif⟩ := hst
    · rw [hfa] at hp
      cases hp
    · rw [hfa] at hif
      cases hif
  refine ⟨rounds_idle rfl hn n, fun es w' hrou => List.eq_nil_iff_forall_not_mem.mpr fun e he => ?_⟩
  obtain ⟨row', hro', hst⟩ := mem_strandedIDs.mp (stranded_of_published rfl hrou rfl e he)
  exact hn _ _ hro' hst

end Codohue.RecoverySweep
