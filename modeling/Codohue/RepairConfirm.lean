import Codohue.RepairComplete

/-!
Whether a repair that got through can be verified.

Verify compares the point at the target with the hashes that the audit recorded. The audit keeps
one hash for an identity, that of its dense point where there is one, and the recompute of the
sparse vectors comes in between. So a repair is confirmed if every identity that moves has a dense
point whose hash is the one on record.
-/

namespace Codohue.Repair

open Script Prog

variable {V : Type} {env : Env V} {w : World V} {items : List Item} {item : Item}

/-- The points of `x` are at its mapped id, and no other identity has one there. -/
def InPlace (env : Env V) (w : World V) (x : Identity) : Prop :=
  ∃ n, w.mappings.get x = some n ∧ Free env w x n ∧ ∀ kind m, At env w x kind m → m = n

/-- The dense point of `x` as verify needs it: in a collection that is read with the key it is
written with, and with a hash unless the sparse point has none either. -/
structure Confirms (env : Env V) (w : World V) (x : Identity) (d : ℤ) (p : Point V) : Prop where
  dense : At env w x x.entityType.denseKind d
  stored : w.points.lookup (env.collection x.ns x.entityType.denseKind, d) = some p
  field : payloadIDField (env.collection x.ns x.entityType.denseKind) = x.entityType.idField
  hash : env.hashVectors p.vector = "" → ∀ s q, At env w x x.entityType.sparseKind s →
    w.points.lookup (env.collection x.ns x.entityType.sparseKind, s) = some q →
      env.hashVectors q.vector = ""

/-- What verify needs: aligned points, and a dense point of every identity that moves. -/
structure Confirmable (env : Env V) (w : World V) : Prop where
  aligned : Aligned env w
  moved : ∀ x, x.ns ∈ env.namespaces → ¬ InPlace env w x → ∀ kind n, At env w x kind n →
    ∃ d p, Confirms env w x d p

/-! ### The hashes on record -/

lemma lastHash_eq_or_mem (hashes : List String) :
    lastHash hashes = "" ∨ lastHash hashes ∈ hashes := by
  induction hashes using List.reverseRecOn with
  | nil => exact .inl rfl
  | append_singleton hashes hash ih =>
    rw [lastHash_concat]
    split_ifs
    · exact ih.imp_right (List.mem_append_left _)
    · exact .inr (by simp)

lemma lastHash_append {before after : List CollectionEvidence} {f : CollectionEvidence → String}
    (hm : p ∈ after) (ha : ∀ q ∈ after, q = p) (hb : f p = "" → ∀ q ∈ before, f q = "")
    (hl : lastHash ((before ++ after).map f) ≠ "") :
    f p = lastHash ((before ++ after).map f) := by
  by_cases hp : f p = ""
  · obtain ⟨q, hq, he⟩ := List.mem_map.mp ((lastHash_eq_or_mem _).resolve_left hl)
    rcases List.mem_append.mp hq with hq | hq
    · exact absurd (he.symm.trans (hb hp q hq)) hl
    · rw [← he, ha q hq]
  · obtain ⟨init, last, rfl⟩ := (List.eq_nil_or_concat' after).resolve_left (List.ne_nil_of_mem hm)
    obtain rfl : last = p := ha last (by simp)
    rw [← List.append_assoc, List.map_append, List.map_singleton, lastHash_concat, if_neg hp]

lemma collectionKinds_split (type : EntityType) : ∃ l₁ l₂, collectionKinds = l₁ ++ l₂ ∧
    (∀ kind ∈ l₁, kind.entityType = type → kind = type.sparseKind) ∧
    ∀ kind ∈ l₂, kind.entityType = type → kind = type.denseKind := by
  cases type
  · exact ⟨[.subjects], [.subjectsDense, .objects, .objectsDense], by decide⟩
  · exact ⟨[.subjects, .subjectsDense, .objects], [.objectsDense], by decide⟩

/-- The sparse points of an identity are seen before its dense points. -/
lemma seen_split (env : Env V) (w : World V) (x : Identity) : ∃ before after,
    seen (evidenceOf env w x.ns) (x.entityType, x.stringID) = before ++ after ∧
    (∀ p ∈ before, p.collection = env.collection x.ns x.entityType.sparseKind) ∧
    ∀ p ∈ after, p.collection = env.collection x.ns x.entityType.denseKind := by
  obtain ⟨l₁, l₂, hl, h₁, h₂⟩ := collectionKinds_split x.entityType
  have hm : ∀ (l : List CollectionKind) (kind : CollectionKind),
      (∀ k ∈ l, k.entityType = x.entityType → k = kind) →
      ∀ p ∈ (l.map (pointsOf env w x.ns)).flatten.filter
        (fun p => p.key = (x.entityType, x.stringID)), p.collection = env.collection x.ns kind := by
    intro l kind h p hp
    obtain ⟨hp, hk⟩ := List.mem_filter.mp hp
    obtain ⟨ps, hps, hp⟩ := List.mem_flatten.mp hp
    obtain ⟨k, hki, rfl⟩ := List.mem_map.mp hps
    obtain ⟨e, -, rfl⟩ := List.mem_map.mp hp
    rw [← h k hki (congrArg Prod.fst (of_decide_eq_true hk))]
    rfl
  refine ⟨_, _, ?_, hm l₁ _ h₁, hm l₂ _ h₂⟩
  rw [← List.filter_append, ← List.flatten_append, ← List.map_append, ← hl]
  rfl

/-- The dense point of an identity is seen last. -/
lemma seen_of_confirms {x : Identity} (hlab : Labelled (evidenceOf env w x.ns))
    (h : Confirms env w x d p) (hsi : ∀ n, At env w x x.entityType.denseKind n → n = d) :
    ∃ before after, seen (evidenceOf env w x.ns) (x.entityType, x.stringID) = before ++ after ∧
      pointEvidence env x.ns x.entityType.denseKind d p ∈ after ∧
      (∀ e ∈ after, e = pointEvidence env x.ns x.entityType.denseKind d p) ∧
      ∀ e ∈ before, ∃ s q, At env w x x.entityType.sparseKind s ∧
        w.points.lookup (env.collection x.ns x.entityType.sparseKind, s) = some q ∧
        e = pointEvidence env x.ns x.entityType.sparseKind s q := by
  have hse := fun e => mem_seen hlab (p := e)
  obtain ⟨before, after, hs, hb, ha⟩ := seen_split env w x
  rw [hs] at hse
  refine ⟨before, after, hs, ?_, fun e he => ?_, fun e he => ?_⟩
  · rcases List.mem_append.mp ((hse _).mpr ⟨_, d, h.dense, p, h.stored, rfl⟩) with hm | hm
    · exact absurd (collectionName_injective _ _ (hb _ hm)).symm (sparseKind_ne_denseKind _)
    · exact hm
  · obtain ⟨kind, n, hn, q, hq, rfl⟩ := (hse e).mp (List.mem_append_right _ he)
    obtain rfl : kind = _ := collectionName_injective _ _ (ha _ he)
    obtain rfl := hsi n hn
    rw [Option.some.inj (hq.symm.trans h.stored)]
  · obtain ⟨kind, n, hn, q, hq, rfl⟩ := (hse e).mp (List.mem_append_left _ he)
    obtain rfl : kind = _ := collectionName_injective _ _ (hb _ he)
    exact ⟨n, q, hn, hq, rfl⟩

/-- The hashes of the item, where it has any, are those of the point. -/
structure Recorded (env : Env V) (item : Item) (p : Point V) : Prop where
  vector : item.vectorHash ≠ "" → env.hashVectors p.vector = item.vectorHash
  payload : item.payloadHash ≠ "" → env.hashPayload p.payload = item.payloadHash

lemma Opened.recorded {id : ℕ} (h : Opened env w id items w₁)
    (hc : ∀ item ∈ items, item.state ≠ .quarantined)
    (hpa : ∀ payload, env.hashPayload payload ≠ "") (hite : item ∈ items)
    (hco : Confirms env w item.identity d p) : Recorded env item p := by
  obtain ⟨-, _, -, hi, -, -, -⟩ := h
  have hd := decided_of_clean hi hc hite
  obtain ⟨old, ho, hca⟩ := hi.mem hite
  obtain ⟨ns, hns, ⟨type, text⟩, o, hl, ho⟩ := mem_manifestOf.mp ho
  have hlab := labelled_of_clean hi hc hns
  obtain ⟨rfl, -⟩ := (lookup_byIdentity hlab).mp hl
  -- a fresh target changes neither the identity nor the hashes
  have hsa : item.identity = old.identity ∧ item.vectorHash = old.vectorHash ∧
      item.payloadHash = old.payloadHash := by
    rcases hca with ⟨-, rfl⟩ | ⟨-, n, -, rfl⟩ <;> exact ⟨rfl, rfl, rfl⟩
  obtain ⟨hid, -, -, -, hh, -, hv⟩ := auditItem_fields (evidenceOf env w ns) (type, text)
    ⟨seen (evidenceOf env w ns) (type, text), false⟩
  rw [← ho, ← hsa.1] at hid
  have hsi := fun n hn => hd.single _ n d hn hco.dense
  rw [hid] at hco hsi
  obtain ⟨before, after, hs, hm, ha, hb⟩ :=
    seen_of_confirms (x := ⟨ns, type, text⟩) hlab hco hsi
  rw [← ho, ← hsa.2.1, hs] at hv
  rw [← ho, ← hsa.2.2, hs] at hh
  constructor
  · intro hne
    rw [hv] at hne ⊢
    refine lastHash_append hm ha (fun hn e he => ?_) hne
    obtain ⟨s, q, hat, hq, rfl⟩ := hb e he
    exact hco.hash hn s q hat hq
  · intro hne
    rw [hh] at hne ⊢
    exact lastHash_append hm ha (fun hn => absurd hn (hpa _)) hne

/-! ### Verify with healthy stores -/

section Verify

variable {run : ℕ}

/-- A check that finds nothing and changes nothing. -/
def Passes (w : World V) (m : RepairM V (List String)) : Prop :=
  Wp Healthy m (fun _ => False) (fun problems w' => problems = [] ∧ w' = w) w

lemma passes_mapEach {α : Type} {f : α → RepairM V (List String)} {xs : List α}
    (hf : ∀ x ∈ xs, Passes w (f x)) :
    Wp Healthy (mapEach f xs) (fun _ => False) (fun found w' => found.flatten = [] ∧ w' = w) w := by
  refine wp_mono (wp_mapEach hf) (fun _ => id) ?_
  rintro found w' ⟨rfl, rfl⟩
  exact ⟨by simp, rfl⟩

lemma passes_verifyOld {x : Identity} {c : String} {old : ℤ} (hp : 1 ≤ old)
    (hn : w.points.lookup (c, old) = none) : Passes w (verifyOld x c old) := by
  refine wp_bind (wp_attempt (T := fun _ => False) ?_ (fun _ _ => False.elim) fun _ => False.elim)
  refine wp_bind (wp_checkPointID (fun hlt => absurd hp (by omega)) fun _ => ?_)
  refine wp_bind (wp_read_healthy rfl (wp_pure (wp_pure ?_)))
  rw [hn]
  exact ⟨rfl, rfl⟩

lemma passes_verifyCollection {c : String} (hp : ∀ n ∈ item.goal :: item.stale item.goal, 1 ≤ n)
    (h : Landed env w item c) : Passes w (verifyCollection env item item.goal c) := by
  rw [List.forall_mem_cons] at hp
  obtain ⟨p, hpt, hl, hv, hpa⟩ := h.target
  refine wp_bind (wp_attempt (T := fun _ => False) ?_ (fun _ _ => False.elim) fun _ => False.elim)
  refine wp_bind (wp_checkPointID (fun hlt => absurd hp.1 (by omega)) fun _ => ?_)
  refine wp_bind (wp_read_healthy rfl (wp_pure ?_))
  rw [hpt]
  simp only [Option.map_some]
  rw [if_neg (not_not.mpr hl)]
  refine wp_bind (wp_mono (passes_mapEach fun old ho =>
    passes_verifyOld (hp.2 old ho) (h.olds old ho)) (fun _ => id) ?_)
  rintro found w' ⟨hf, rfl⟩
  refine wp_pure ⟨?_, rfl⟩
  have hh : hashProblems item c item.goal ⟨p.field (payloadIDField c),
      env.hashPayload p.payload, env.hashVectors p.vector⟩ = [] := by
    simpa [hashProblems] using ⟨hv, hpa⟩
  rw [hh, hf]
  rfl

/-- The item is confirmed, and the ids that verify asks for are valid. -/
structure Checkable (env : Env V) (w : World V) (item : Item) : Prop
    extends Confirmed env w item where
  positive : item.needsCopy → ∀ n ∈ item.goal :: item.stale item.goal, 1 ≤ n

lemma passes_verifyItem (h : Checkable env w item) : Passes w (verifyItem env item) := by
  unfold verifyItem
  cases ht : item.targetNumericID with
  | none => exact wp_pure ⟨rfl, rfl⟩
  | some target =>
    obtain rfl : item.goal = target := by simp [Item.goal, ht]
    by_cases hm : item.needsCopy
    · simp only [hm, if_true]
      refine wp_bind (wp_mono (passes_mapEach fun c hc => passes_verifyCollection (h.positive hm)
        (h.moved hm c hc)) (fun _ => id) ?_)
      rintro found w' ⟨hf, rfl⟩
      exact wp_pure ⟨hf, rfl⟩
    · simp only [hm, Bool.false_eq_true, if_false]
      exact wp_pure ⟨rfl, rfl⟩

lemma wp_checkItems_healthy (h : ∀ item ∈ items, Checkable env w item) :
    ∀ w₁ : World V, w₁.points = w.points → (w₁.runs.get run).isSome →
    Wp Healthy (mapEach (checkItem env run) items) (fun _ => False) (fun verdicts w' =>
      (∀ v ∈ verdicts, v = .verified) ∧ (w'.runs.get run).isSome) w₁ := by
  induction items with
  | nil => exact fun w₁ _ hr => wp_pure ⟨by simp, hr⟩
  | cons item items ih =>
    intro w₁ hp hr
    have hch := h item List.mem_cons_self
    have hco : Checkable env w₁ item := ⟨hch.toConfirmed.of_points hp.symm, hch.positive⟩
    refine wp_bind (wp_mono (D := fun verdict w' => verdict = .verified ∧ w'.points = w.points ∧
      (w'.runs.get run).isSome) ?_ (fun _ => id) ?_)
    · unfold checkItem
      simp only [hco.finished, if_true]
      refine wp_bind (wp_mono (passes_verifyItem hco) (fun _ => id) ?_)
      rintro problems w' ⟨rfl, rfl⟩
      refine wp_bind (wp_setItemState_healthy fun runs hu => wp_pure ⟨rfl, hp, ?_⟩)
      rwa [hu.own, Option.isSome_map]
    · rintro verdict w₂ ⟨rfl, hp₂, hr₂⟩
      refine wp_bind (wp_mono (ih (fun i hi => h i (List.mem_cons_of_mem _ hi)) w₂ hp₂ hr₂)
        (fun _ => id) ?_)
      rintro verdicts w₃ ⟨hve, hr₃⟩
      exact wp_pure ⟨List.forall_mem_cons.mpr ⟨rfl, hve⟩, hr₃⟩

/-- **A run whose items are all confirmed is completed.** -/
theorem wp_verify_healthy {row : Row} (hr : w.runs.get run = some row)
    (hb : unrebuiltNamespaces row.items row.run.rebuiltNamespaces = [])
    (h : ∀ item ∈ row.items, Checkable env w item) :
    Wp Healthy (verify env run) (fun _ => False) (fun report w' =>
      (report.remaining = 0 ∧ report.unmoved = 0 ∧ report.problems = []) ∧
      ∃ row', w'.runs.get run = some row' ∧ row'.run.state = .complete) w := by
  refine wp_bind (wp_read_healthy rfl ?_)
  refine wp_bind (wp_read_healthy (a := row.run) (by rw [hr]) ?_)
  rw [hr]
  dsimp only [Option.elim_some]
  rw [hb, List.map_nil]
  refine wp_bind (wp_mono (wp_checkItems_healthy h w rfl (by rw [hr]; rfl)) (fun _ => id) ?_)
  rintro verdicts w₁ ⟨hv, hs⟩
  obtain ⟨row₁, hr₁⟩ := Option.isSome_iff_exists.mp hs
  rw [if_pos (verifyReport_clean.mpr ⟨rfl, hv⟩)]
  refine wp_bind (wp_updateRun_healthy (fun _ _ ha => by cases ha) fun runs hu => ?_)
  exact wp_pure ⟨verifyReport_clean.mpr ⟨rfl, hv⟩, row₁.setState .complete "", hu.get hr₁, rfl⟩

end Verify

/-! ### A whole repair -/

lemma Decided.confirms_of_needsCopy (hd : Decided env w item) (hconf : Confirmable env w)
    (hm : item.needsCopy) : ∃ d p, Confirms env w item.identity d p := by
  obtain ⟨n, hn, hne⟩ := hd.needsCopy_iff.mp hm
  obtain ⟨kind, hat⟩ := (hd.olds n).mp hn
  refine hconf.moved _ hd.ns ?_ kind n hat
  rintro ⟨m, hma, hf, hall⟩
  exact hne ((hall kind n hat).trans (hd.goal_of_free hma hf).symm)

lemma checkable_of_rehomed {w₃ : World V} (hd : Decided env w item) (hconf : Confirmable env w)
    (hre : ∀ d p, Confirms env w item.identity d p → Recorded env item p)
    (hr : Rehomed env w w₃ item) (hs : state ≠ .quarantined)
    (hf : (item.withState state error).finished) :
    Checkable env w₃ (item.withState state error) := by
  have hnc : (item.withState state error).needsCopy = item.needsCopy := by
    simp [Item.needsCopy, Item.resolved, Item.withState, hd.pending, hs]
  refine ⟨⟨hf, fun hmo c hc => ?_⟩, fun hmo => ?_⟩ <;> rw [hnc] at hmo <;>
    obtain ⟨d, p, hco⟩ := hd.confirms_of_needsCopy hconf hmo
  · obtain ⟨target, ht, n, hn, q, hq, hca, hl⟩ := hr.settled d hco.dense
    obtain rfl : item.goal = target := Option.some.inj (hd.goal_eq.symm.trans ht)
    obtain rfl := hd.single _ n d ⟨hco.dense.1, q, hq, hca⟩ hco.dense
    obtain rfl : q = p := Option.some.inj (hq.symm.trans hco.stored)
    obtain rfl := (hd.mem_copyable_of_dense hco.dense).mp hc
    have hrec := hre n q hco
    refine ⟨⟨q, hl, ?_, hrec.vector, hrec.payload⟩, fun old ho => (hr.olds n hco.dense _ ?_).1⟩
    · rw [hco.field]
      exact hca
    · exact mem_moves.mpr ⟨hc, Item.mem_stale.mp ho⟩
  · obtain ⟨n, hn⟩ := hd.needsCopy_iff.mp hmo
    have hp := fun old ho => (hr.olds d hco.dense (_, old) (mem_moves.mpr
      ⟨(hd.mem_copyable_of_dense hco.dense).mpr rfl, Item.mem_stale.mp ho⟩)).2
    exact List.forall_mem_cons.mpr ⟨(hp n (Item.mem_stale.mpr hn)).2, fun old ho => (hp old ho).1⟩

/-- `x` is mapped to 7, and its sparse and its dense point are at 5. -/
def pairWorld : World String :=
  smallWorld xIDs [(("n_objects", 5), objectPoint "x" "old sparse x"),
    (("n_objects_dense", 5), objectPoint "x" "dense x")]

lemma at_pairWorld {x : Identity} (hns : x.ns ∈ plainEnv.namespaces)
    (h : At plainEnv pairWorld x kind n) : x = ⟨"n", .object, "x"⟩ ∧ n = 5 := by
  have he : ∀ e ∈ pairWorld.points.entries, e.1.2 = 5 ∧ e.2.field "object_id" = "x" ∧
      e.1.1 ≠ plainEnv.collection "n" .subjects ∧
      e.1.1 ≠ plainEnv.collection "n" .subjectsDense := by decide +kernel
  obtain ⟨ns, type, text⟩ := x
  obtain ⟨ht, p, hp, hc⟩ := h
  obtain rfl : ns = "n" := List.mem_singleton.mp hns
  obtain ⟨hn, hl, hs, hsd⟩ := he _ (AList.mem_lookup_iff.mp hp)
  cases type with
  | subject => rcases kind_cases ht with rfl | rfl <;> contradiction
  | object =>
    obtain rfl : text = "x" := hc.symm.trans hl
    exact ⟨rfl, hn⟩

lemma confirmable_pairWorld : Confirmable plainEnv pairWorld where
  aligned x hns s d hs hd := .inl ((at_pairWorld hns hs).2.trans (at_pairWorld hns hd).2.symm)
  moved x hns _ kind n hat := by
    obtain ⟨rfl, -⟩ := at_pairWorld hns hat
    have hp : pairWorld.points.lookup (plainEnv.collection "n" .objectsDense, 5) =
      some (objectPoint "x" "dense x") := by decide +kernel
    exact ⟨5, _, ⟨rfl, _, hp, rfl⟩, hp, by decide +kernel, fun hn => absurd hn (by decide)⟩

/-- `x` is mapped to 7 and has a sparse point only, at 5. -/
def sparseOnlyWorld : World String :=
  smallWorld xIDs [(("n_objects", 5), objectPoint "x" "old sparse x")]

end Codohue.Repair
