import Codohue.RepairGate

/-!
The run of an audit.

The audit reads both stores and writes only to its own tables, so its manifest is a function of
the points and the mappings it found, for any pattern of failures.
-/

namespace Codohue.Repair

open Script Prog

variable {V : Type} {w : World V} {env : Env V}

def mappingsOf (w : World V) (ns : String) : List ((EntityType × String) × ℤ) :=
  (w.mappings.rows.entries.filter fun e => e.1.ns = ns).map fun e =>
    ((e.1.entityType, e.1.stringID), e.2)

def pointsOf (env : Env V) (w : World V) (ns : String) (kind : CollectionKind) :
    List CollectionEvidence :=
  (w.points.entries.filter fun e => e.1.1 = env.collection ns kind).map fun e =>
    pointEvidence env ns kind e.1.2 e.2

/-- The evidence that an undisturbed audit collects. -/
def evidenceOf (env : Env V) (w : World V) (ns : String) : NamespaceEvidence where
  ns := ns
  mappings := mappingsOf w ns
  points := (collectionKinds.map (pointsOf env w ns)).flatten
  denseCollections := (collectionKinds.filter CollectionKind.dense).map (env.collection ns)

lemma wp_evidence (hG : G .ok) :
    Wp G (evidence env ns) (· = w) (fun ev w' => ev = evidenceOf env w ns ∧ w' = w) w := by
  refine wp_bind (wp_read hG rfl fun mappings hm => ?_)
  obtain rfl : mappingsOf w ns = mappings := Except.ok.inj hm
  refine wp_bind (wp_read hG rfl fun _ _ => ?_)
  have hk : ∀ kind ∈ collectionKinds, Wp G (do
      let found ← inventory (env.collection ns kind)
      pure (found.map fun e => pointEvidence env ns kind e.1 e.2)) (· = w)
        (fun found w' => found = pointsOf env w ns kind ∧ w' = w) w := fun kind _ =>
    wp_bind (wp_read hG rfl fun points hp =>
      wp_pure ⟨by rw [← Except.ok.inj hp, List.map_map]; rfl, rfl⟩)
  refine wp_bind (wp_mono (wp_mapEach hk) (fun _ => id) ?_)
  rintro points w' ⟨rfl, rfl⟩
  exact wp_pure ⟨rfl, rfl⟩

lemma wp_evidences (hG : G .ok) (nss : List String) :
    Wp G (mapEach (fun ns => mapErr (Error.wrap ("collect evidence for " ++ ns)) (evidence env ns))
      nss) (· = w) (fun found w' => found = nss.map (evidenceOf env w) ∧ w' = w) w :=
  wp_mapEach fun _ _ => wp_mapErr (wp_evidence hG)

/-- The item gets the fresh id `n` instead of its mapped one. -/
def Item.reassign (item : Item) (n : ℤ) : Item :=
  { item with
    targetNumericID := some n
    sources := { item.sources with targetReassignedFrom := item.targetNumericID } }

/-- The item has a target that another identity holds. -/
def Item.Contested (item : Item) : Prop :=
  item.state ≠ .quarantined ∧ item.targetNumericID.isSome ∧ item.sources.targetConflictWith ≠ ""

/-- The contested items take the ids from `lo` up to `hi`, one after the other. -/
inductive Reassigned : ℤ → ℤ → List Item → List Item → Prop
  | nil (n : ℤ) : Reassigned n n [] []
  | keep {lo hi : ℤ} {items items' : List Item} (item : Item) (hitem : ¬ item.Contested)
      (rest : Reassigned lo hi items items') : Reassigned lo hi (item :: items) (item :: items')
  | fresh {lo hi : ℤ} {items items' : List Item} (item : Item) (hitem : item.Contested)
      (rest : Reassigned (lo + 1) hi items items') :
      Reassigned lo hi (item :: items) (item.reassign lo :: items')

lemma wp_reassignContestedTarget (hG : G .ok) :
    Wp G (reassignContestedTarget item) (fun w' => ∃ n, w' = { w with nextID := n })
      (fun item' w' => (¬ item.Contested ∧ item' = item ∧ w' = w) ∨
        (item.Contested ∧ item' = item.reassign w.nextID ∧
          w' = { w with nextID := w.nextID + 1 })) w := by
  unfold reassignContestedTarget
  split
  · next target ht =>
    split_ifs with hk
    · refine wp_pure (.inl ⟨?_, rfl, rfl⟩)
      rintro ⟨hst, -, hc⟩
      exact hk.elim hst hc
    · refine wp_bind (wp_mapErr (wp_op hG ⟨w.nextID, rfl⟩ fun n w' h => ?_))
      cases h
      refine ⟨wp_pure (.inr ⟨?_, ?_, rfl⟩), w.nextID + 1, rfl⟩
      · rw [not_or] at hk
        exact ⟨hk.1, by rw [ht]; rfl, hk.2⟩
      · rw [Item.reassign, ht]
  · next ht =>
    refine wp_pure (.inl ⟨?_, rfl, rfl⟩)
    rintro ⟨-, hs, -⟩
    rw [ht] at hs
    cases hs

lemma wp_reassignAll (hG : G .ok) (items : List Item) : ∀ w : World V,
    Wp G (mapEach reassignContestedTarget items) (fun w' => ∃ n, w' = { w with nextID := n })
      (fun items' w' => ∃ n, w' = { w with nextID := n } ∧
        Reassigned w.nextID n items items') w := by
  induction items with
  | nil =>
    intro w
    exact wp_pure ⟨w.nextID, rfl, .nil _⟩
  | cons item items ih =>
    intro w
    refine wp_bind (wp_mono (wp_reassignContestedTarget hG) (fun _ => id) ?_)
    rintro item' w₁ (⟨hk, rfl, rfl⟩ | ⟨hf, rfl, rfl⟩)
    · refine wp_bind (wp_mono (ih w₁) (fun _ => id) ?_)
      rintro items' w₂ ⟨n, rfl, hr⟩
      exact wp_pure ⟨n, rfl, .keep _ hk hr⟩
    · refine wp_bind (wp_mono (ih _) (fun w₂ ⟨n, hn⟩ => ⟨n, hn⟩) ?_)
      rintro items' w₂ ⟨n, rfl, hr⟩
      exact wp_pure ⟨n, rfl, .fresh _ hf hr⟩

/-- The items of an audit before the contested targets are reassigned. -/
def manifestOf (env : Env V) (w : World V) : List Item :=
  (env.namespaces.map (evidenceOf env w)).flatMap auditNamespace

/-- No run is in flight any more. -/
inductive Cleared (w : World V) : World V → Prop
  | idle (h : ¬ w.runs.InFlight) : Cleared w w
  | superseded (id : ℕ) (row : Row) (runs : Runs) (hrow : w.runs.get id = some row)
      (hactive : row.run.state.active) (hstate : supersedable row.run.state)
      (hu : w.runs.Updated id (·.setState .failed "superseded by a later audit") runs) :
      Cleared w { w with runs := runs, log := [.superseded id] ++ w.log }

/-- A new run stands under `id`. -/
inductive Opened (env : Env V) (w : World V) (id : ℕ) (items : List Item) : World V → Prop
  | mk (w₁ : World V) (n : ℤ) (cleared : Cleared w w₁)
      (decided : Reassigned w.nextID n (manifestOf env w) items)
      (keys : ((ordered items).map Item.identity).Nodup) (idle : ¬ w₁.runs.InFlight)
      (hid : id = w₁.runs.next) :
      Opened env w id items { w₁ with
        nextID := n
        runs := w₁.runs.create
          ⟨⟨.audited, "", [], manifestHash env.sha256 items, [], ""⟩, ordered items, keys⟩ idle
        log := .opened id :: w₁.log }

/-- Where an audit stops. -/
inductive AuditLeft (env : Env V) (w : World V) : World V → Prop
  | start : AuditLeft env w w
  | cleared (w₁ : World V) (n : ℤ) (h : Cleared w w₁) : AuditLeft env w { w₁ with nextID := n }
  | opened (id : ℕ) (items : List Item) (w' : World V) (h : Opened env w id items w') :
      AuditLeft env w w'

lemma Cleared.left (h : Cleared w w₁) : AuditLeft env w w₁ :=
  .cleared w₁ w₁.nextID h

lemma Cleared.evidence (h : Cleared w w₁) (ns : String) :
    evidenceOf env w₁ ns = evidenceOf env w ns := by
  cases h <;> rfl

lemma Cleared.manifest (h : Cleared w w₁) :
    (env.namespaces.map (evidenceOf env w₁)).flatMap auditNamespace = manifestOf env w := by
  have hev : evidenceOf env w₁ = evidenceOf env w := funext h.evidence
  rw [hev]
  rfl

lemma Cleared.nextID (h : Cleared w w₁) : w₁.nextID = w.nextID := by
  cases h <;> rfl

lemma wp_makeWay (hG : G .ok) {D : Unit → World V → Prop} (hD : ∀ w₁, Cleared w w₁ → D () w₁) :
    Wp G (makeWay w.runs.activeRun) (AuditLeft env w) D w := by
  cases ha : w.runs.activeRun with
  | none => exact wp_pure (hD w (.idle (Runs.activeRun_eq_none.mp ha)))
  | some found =>
    obtain ⟨id, run⟩ := found
    obtain ⟨row, hr, rfl, hs⟩ := Runs.activeRun_some ha
    refine wp_bind (wp_require (fun hsu => ?_) fun _ => .start)
    refine wp_mapErr (wp_updateRun hG .start fun runs hu => ?_)
    have hc := Cleared.superseded id row runs hr hs hsu hu
    exact ⟨hD _ hc, hc.left⟩

/-- **The run of an audit.** -/
theorem wp_audit (hG : G .ok) : Wp G (audit env) (AuditLeft env w)
      (fun report w' => ∃ id items, Opened env w id items w' ∧
        report = auditReport id (manifestHash env.sha256 items) items) w := by
  refine wp_bind (wp_read hG .start fun active ha => ?_)
  obtain rfl : w.runs.activeRun = active := Except.ok.inj ha
  refine wp_bind (wp_makeWay hG fun w₁ hc => ?_)
  have hl : AuditLeft env w w₁ := hc.left
  refine wp_bind (wp_mapErr (wp_read hG hl fun namespaces hns => ?_))
  obtain rfl : env.namespaces = namespaces := Except.ok.inj hns
  refine wp_bind (wp_mono (wp_evidences hG _) (fun _ hw' => hw' ▸ hl) ?_)
  rintro found w' ⟨rfl, rfl⟩
  rw [hc.manifest]
  refine wp_bind (wp_mono (wp_reassignAll hG _ w') ?_ ?_)
  · rintro w₂ ⟨n, rfl⟩
    exact .cleared w' n hc
  · rintro items w₂ ⟨n, rfl, hd⟩
    rw [hc.nextID] at hd
    refine wp_bind (wp_op hG (.cleared w' n hc) fun created w₃ h => ?_)
    split_ifs at h with hi hk hs
    cases h
    have ho : Opened env w w'.runs.next items _ :=
      .mk w' n hc hd hk hi rfl
    exact ⟨wp_pure ⟨_, items, ho, rfl⟩, .opened _ items _ ho⟩

end Codohue.Repair
