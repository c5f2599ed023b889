import Codohue.IDMap

/-!
All calls agree on the numeric ids.

Nothing deletes a mapping here, so the mappings only grow, and whatever a call returns is a part of
them from then on.
-/

namespace Codohue.IDMap

open Repair Service Transition

/-! ### The mappings only grow -/

variable {m m' : Mappings} {out : IDs}

variable {x : String}

/-- Every mapping of `m` is one of `m'`. -/
def Grows (m m' : Mappings) : Prop := ∀ x n, m.get x = some n → m'.get x = some n

lemma Grows.refl (m : Mappings) : Grows m m := fun _ _ h => h

lemma Grows.trans (h : Grows m m') (h' : Grows m' m'') : Grows m m'' :=
  fun x n hx => h' x n (h x n hx)

lemma Grows.isSome (h : Grows m m') {x : Identity} (hx : (m.get x).isSome) : (m'.get x).isSome := by
  obtain ⟨n, hn⟩ := Option.isSome_iff_exists.mp hx
  rw [h x n hn]
  rfl

/-- What an insertion leaves and returns. -/
structure Inserted (m : Mappings) (todo : List (Identity × ℤ)) (m' : Mappings) (rows : Rows) :
    Prop where
  grows : Grows m m'
  known : ∀ item ∈ todo, (m'.get item.1).isSome
  rows : ∀ row ∈ rows, ∃ item ∈ todo, item.1.stringID = row.1 ∧ m'.get item.1 = some row.2
  ids : ∀ x n, m'.get x = some n → m.get x = some n ∨ ∃ item ∈ todo, item.2 = n

lemma inserted_of_insertRows (h : insertRows m todo = some (m', rows)) :
    Inserted m todo m' rows := by
  induction todo generalizing m rows with
  | nil =>
    obtain ⟨rfl, rfl⟩ := Prod.mk.inj (Option.some.inj h)
    exact ⟨.refl m, by simp, by simp, fun _ _ hx => .inl hx⟩
  | cons item todo ih =>
    obtain ⟨x, n⟩ := item
    simp only [insertRows] at h
    split_ifs at h with hs ht
    · have hr := ih h
      refine ⟨hr.grows, List.forall_mem_cons.mpr ⟨hr.grows.isSome hs, hr.known⟩,
        fun row hro => ?_, fun y k hy => (hr.ids y k hy).imp_right ?_⟩
      · obtain ⟨item, hi, heq⟩ := hr.rows row hro
        exact ⟨item, List.mem_cons_of_mem _ hi, heq⟩
      · rintro ⟨item, hi, heq⟩
        exact ⟨item, List.mem_cons_of_mem _ hi, heq⟩
    · obtain ⟨⟨m₁, rows₁⟩, hru, heq⟩ := Option.map_eq_some_iff.mp h
      obtain ⟨rfl, rfl⟩ := Prod.mk.inj heq
      have hr := ih hru
      have hn : m.get x = none := Option.not_isSome_iff_eq_none.mp hs
      have hse : Grows m (m.set x n ht) := by
        intro y k hy
        rw [Mappings.get_set, if_neg (fun hyx => by rw [hyx, hn] at hy; cases hy), hy]
      have hx : m₁.get x = some n := hr.grows x n (by rw [Mappings.get_set, if_pos rfl])
      refine ⟨hse.trans hr.grows, List.forall_mem_cons.mpr ⟨by rw [hx]; rfl, hr.known⟩,
        List.forall_mem_cons.mpr ⟨⟨_, List.mem_cons_self, rfl, hx⟩, fun row hro => ?_⟩,
        fun y k hy => ?_⟩
      · obtain ⟨item, hi, heq⟩ := hr.rows row hro
        exact ⟨item, List.mem_cons_of_mem _ hi, heq⟩
      · rcases hr.ids y k hy with ho | ⟨item, hi, heq⟩
        · rw [Mappings.get_set] at ho
          split_ifs at ho
          · exact .inr ⟨(x, n), List.mem_cons_self, Option.some.inj ho⟩
          · exact .inl ho
        · exact .inr ⟨item, List.mem_cons_of_mem _ hi, heq⟩

variable {ns : String} {entityType : EntityType}

variable {n : ℤ}

lemma mem_select {stringIDs : List String} {id : String} :
    (id, n) ∈ select m ns entityType stringIDs ↔
      m.get ⟨ns, entityType, id⟩ = some n ∧ id ∈ stringIDs := by
  have hl : ∀ x : Identity, m.get x = some n ↔
      (⟨x, n⟩ : Sigma fun _ => ℤ) ∈ m.rows.entries := fun _ => AList.mem_lookup_iff
  simp only [select, List.mem_map, List.mem_filter, decide_eq_true_eq, Prod.mk.injEq, hl]
  constructor
  · rintro ⟨⟨⟨ns', type', id'⟩, n'⟩, ⟨hm, rfl, rfl, hid⟩, rfl, rfl⟩
    exact ⟨hm, hid⟩
  · rintro ⟨hm, hid⟩
    exact ⟨⟨⟨ns, entityType, id⟩, n⟩, ⟨hm, rfl, rfl, hid⟩, rfl, rfl⟩

/-- The ids of all mappings are values of the column. -/
def InColumn (m : Mappings) : Prop := ∀ x n, m.get x = some n → Bigint n

lemma execute_grows (h : execute m drawn c = some (r, m')) :
    Grows m m' ∧ (InColumn m → InColumn m') := by
  cases c with
  | lookup ns entityType strs =>
    simp only [execute] at h
    split_ifs at h
    cases h
    exact ⟨.refl m, id⟩
  | insert ns entityType strs =>
    simp only [execute] at h
    split_ifs at h with hd
    split at h
    · next hin =>
      cases h
      have hi := inserted_of_insertRows hin
      refine ⟨hi.grows, fun hm x n hx => ?_⟩
      rcases hi.ids x n hx with ho | ⟨item, hite, rfl⟩
      · exact hm x n ho
      · exact hd.2 _ (List.of_mem_zip hite).2
    · cases h
      exact ⟨.refl m, id⟩

/-- **No statement takes a mapping away or changes it.** -/
lemma serve_grows (h : serve c m o = some (r, m')) : Grows m m' ∧ (InColumn m → InColumn m') := by
  cases o with
  | ok drawn => exact execute_grows h
  | fail e =>
    cases h
    exact ⟨.refl m, id⟩
  | lost drawn e =>
    obtain ⟨⟨r', m₁⟩, he, heq⟩ := Option.map_eq_some_iff.mp h
    obtain ⟨-, rfl⟩ := Prod.mk.inj heq
    exact execute_grows he

/-! ### The maps of a call -/

lemma isSome_foldl_insert {l : List (String × ℕ)} :
    ((l.foldl (fun out e => out.insert e.1 e.2) out).lookup x).isSome ↔
      (out.lookup x).isSome ∨ x ∈ l.map Prod.fst := by
  induction l generalizing out with
  | nil => simp
  | cons e l ih =>
    rw [List.foldl_cons, ih, Table.lookup_insert_eq, List.map_cons]
    split_ifs with hx <;> simp [hx]

lemma fill_eq (out : IDs) (rows : Rows) :
    out.fill rows = (rows.map fun row => (row.1, numericID row.2)).foldl
      (fun out e => out.insert e.1 e.2) out := by
  rw [List.foldl_map]
  rfl

lemma isSome_fill {rows : Rows} :
    ((out.fill rows).lookup x).isSome ↔ (out.lookup x).isSome ∨ x ∈ rows.map Prod.fst := by
  rw [fill_eq, isSome_foldl_insert, List.map_map]
  rfl

lemma mem_distinct {seen : List String} : x ∈ distinct seen ids ↔ x ∈ ids ∧ x ∉ seen := by
  induction ids generalizing seen with
  | nil => simp [distinct]
  | cons id ids ih =>
    simp only [distinct]
    split_ifs with hs
    · rw [ih, List.mem_cons]
      constructor
      · exact fun h => ⟨.inr h.1, h.2⟩
      · rintro ⟨rfl | hx, hn⟩
        · exact absurd hs hn
        · exact ⟨hx, hn⟩
    · rw [List.mem_cons, ih, List.mem_cons, List.mem_cons, not_or]
      constructor
      · rintro (rfl | ⟨hx, -, hn⟩)
        · exact ⟨.inl rfl, hs⟩
        · exact ⟨.inr hx, hn⟩
      · rintro ⟨rfl | hx, hn⟩
        · exact .inl rfl
        · by_cases heq : x = id
          · exact .inl heq
          · exact .inr ⟨hx, heq, hn⟩

lemma mem_missingFrom : x ∈ missingFrom ids out ↔ x ∈ ids ∧ ¬ (out.lookup x).isSome := by
  simp [missingFrom]

/-- The mappings give this numeric id to the string id. -/
def Resolves (m : Mappings) (ns : String) (entityType : EntityType) (x : String) (n : ℕ) : Prop :=
  ∃ v, m.get ⟨ns, entityType, x⟩ = some v ∧ numericID v = n

/-- The map is a part of the mappings. -/
def Sound (m : Mappings) (ns : String) (entityType : EntityType) (out : IDs) : Prop :=
  ∀ x n, out.lookup x = some n → Resolves m ns entityType x n

section Sound

lemma Resolves.grows {x : String} {n : ℕ} (h : Resolves m ns entityType x n) (hm : Grows m m') :
    Resolves m' ns entityType x n := by
  obtain ⟨v, hv, hn⟩ := h
  exact ⟨v, hm _ v hv, hn⟩

lemma Sound.grows (h : Sound m ns entityType out) (hm : Grows m m') :
    Sound m' ns entityType out := fun x n hx => (h x n hx).grows hm

lemma sound_empty : Sound m ns entityType ∅ := by
  intro x n hx
  cases hx

lemma Sound.foldl_insert {l : List (String × ℕ)} (h : Sound m ns entityType out)
    (hl : ∀ e ∈ l, Resolves m ns entityType e.1 e.2) :
    Sound m ns entityType (l.foldl (fun out e => out.insert e.1 e.2) out) := by
  intro x n hx
  rcases Table.mem_or_of_lookup_foldl_insert hx with hm | ho
  · exact hl (x, n) hm
  · exact h x n ho

lemma Sound.fill (h : Sound m ns entityType out)
    (hr : ∀ row ∈ rows, m.get ⟨ns, entityType, row.1⟩ = some row.2) :
    Sound m ns entityType (out.fill rows) := by
  rw [fill_eq]
  refine h.foldl_insert fun e he => ?_
  obtain ⟨row, hro, rfl⟩ := List.mem_map.mp he
  exact ⟨row.2, hr row hro, rfl⟩

end Sound

/-! ### The programs -/

/-- Whatever happens to a statement. -/
def anyOutcome : Contract Mappings Statement Outcome String :=
  ⟨fun _ => True, fun _ _ => True, fun _ => True⟩

section Programs

lemma wp_request {Q : Rows → Mappings → Prop}
    (hQ : ∀ m₁ drawn rows m₂, Grows m m₁ → execute m₁ drawn c = some (.ok rows, m₂) → Q rows m₂) :
    Wp (peers serve) anyOutcome (request ctx c) Q m := by
  refine wp_bind (wp_ask (P := Grows m) (.refl m) ?_ (fun _ _ => trivial) ?_)
  · rintro m₁ ⟨c', o⟩ m₂ hm hp
    obtain ⟨⟨r, m₃⟩, hs, rfl⟩ := Option.map_eq_some_iff.mp hp
    exact hm.trans (serve_grows hs).1
  · intro m₁ o r m₂ hm _ hs
    refine wp_ofExcept (fun rows hro => ?_) fun _ _ => trivial
    cases r with
    | error e => cases hro
    | ok rows' =>
      obtain rfl := Except.ok.inj hro
      cases o with
      | ok drawn => exact hQ m₁ drawn rows' m₂ hm hs
      | fail e =>
        obtain ⟨hr, -⟩ := Prod.mk.inj (Option.some.inj hs)
        cases hr
      | lost drawn e =>
        obtain ⟨⟨r', m₃⟩, -, heq⟩ := Option.map_eq_some_iff.mp hs
        obtain ⟨hr, -⟩ := Prod.mk.inj heq
        cases hr

lemma wp_lookupBatch (strs : List String) :
    Wp (peers serve) anyOutcome (lookupBatch strs ns entityType) (fun out m' =>
      Grows m m' ∧ Sound m' ns entityType out ∧ ∀ x, ((out.lookup x).isSome → x ∈ strs) ∧
        (x ∈ strs → (m.get ⟨ns, entityType, x⟩).isSome → (out.lookup x).isSome)) m := by
  unfold lookupBatch
  split_ifs with hem
  · exact wp_pure ⟨.refl m, sound_empty, fun x => ⟨nofun, by simp [hem]⟩⟩
  · refine wp_bind (wp_request fun m₁ drawn rows m₂ hm he => wp_pure ?_)
    simp only [execute] at he
    split_ifs at he
    obtain ⟨hro, rfl⟩ := Prod.mk.inj (Option.some.inj he)
    cases hro
    refine ⟨hm, sound_empty.fill fun row hr => (mem_select.mp hr).1, fun x => ⟨?_, ?_⟩⟩
    · intro hx
      rcases isSome_fill.mp hx with hno | hme
      · cases hno
      · obtain ⟨row, hr, rfl⟩ := List.mem_map.mp hme
        exact (mem_select.mp hr).2
    · intro hx hk
      obtain ⟨n, hn⟩ := Option.isSome_iff_exists.mp (hm.isSome hk)
      exact isSome_fill.mpr (.inr (List.mem_map.mpr ⟨(x, n), mem_select.mpr ⟨hn, hx⟩, rfl⟩))

lemma wp_readRaced {out : IDs} (ho : Sound m ns entityType out)
    (hr : ∀ x ∈ raced, (m.get ⟨ns, entityType, x⟩).isSome) :
    Wp (peers serve) anyOutcome (readRaced raced ns entityType out) (fun out' m' =>
      Sound m' ns entityType out' ∧
        ∀ x, (out'.lookup x).isSome ↔ (out.lookup x).isSome ∨ x ∈ raced) m := by
  unfold readRaced
  split_ifs with hem
  · exact wp_pure ⟨ho, fun x => by simp [hem]⟩
  · refine wp_bind (wp_mono (wp_lookupBatch raced) fun won m' h => wp_pure ?_)
    obtain ⟨hg, hs, hk⟩ := h
    have hen : won.entries.foldl (fun out e => out.insert e.1 e.2) out =
        (won.entries.map fun e => (e.1, e.2)).foldl (fun out e => out.insert e.1 e.2) out := by
      rw [List.foldl_map]
    have hl : ∀ x n, (x, n) ∈ won.entries.map (fun e => (e.1, e.2)) ↔ won.lookup x = some n := by
      intro x n
      have hm : won.lookup x = some n ↔ (⟨x, n⟩ : Sigma fun _ => ℕ) ∈ won.entries :=
        AList.mem_lookup_iff
      simp [hm]
    rw [hen]
    refine ⟨(ho.grows hg).foldl_insert fun e he => hs e.1 e.2 ((hl _ _).mp he), fun x => ?_⟩
    rw [isSome_foldl_insert]
    refine or_congr_right ⟨fun hm => ?_, fun hm => ?_⟩
    · obtain ⟨⟨x', n⟩, hent, rfl⟩ := List.mem_map.mp hm
      exact (hk x').1 (by rw [(hl x' n).mp hent]; rfl)
    · obtain ⟨n, hn⟩ := Option.isSome_iff_exists.mp ((hk x).2 hm (hr x hm))
      exact List.mem_map.mpr ⟨(x, n), (hl x n).mpr hn, rfl⟩

lemma wp_insertMissing (hou : Sound m ns entityType out) :
    Wp (peers serve) anyOutcome (insertMissing missing ns entityType out) (fun out' m' =>
      Sound m' ns entityType out' ∧
        ∀ x, (out'.lookup x).isSome ↔ (out.lookup x).isSome ∨ x ∈ missing) m := by
  unfold insertMissing
  split_ifs with hem
  · exact wp_pure ⟨hou, fun x => by simp [hem]⟩
  · refine wp_bind (wp_request fun m₁ drawn rows m₂ hm he => ?_)
    simp only [execute] at he
    split_ifs at he with hd
    split at he
    · next m₃ rows' hin =>
      obtain ⟨hro, rfl⟩ := Prod.mk.inj (Option.some.inj he)
      obtain rfl := Except.ok.inj hro
      have hi := inserted_of_insertRows hin
      have hl : drawn.length = (missing.map (Identity.mk ns entityType)).length := by
        simpa using hd.1
      -- every missing id has its place in the statement
      have hk : ∀ x ∈ missing, (m₃.get ⟨ns, entityType, x⟩).isSome := by
        intro x hx
        have hme : (⟨ns, entityType, x⟩ : Identity) ∈
            ((missing.map (Identity.mk ns entityType)).zip drawn).map Prod.fst := by
          rw [List.map_fst_zip hl.ge]
          exact List.mem_map_of_mem hx
        obtain ⟨item, hite, heq⟩ := List.mem_map.mp hme
        rw [← heq]
        exact hi.known item hite
      have hre : ∀ row ∈ rows', row.1 ∈ missing ∧ m₃.get ⟨ns, entityType, row.1⟩ = some row.2 := by
        intro row hr
        obtain ⟨⟨x, n⟩, hite, hid, hg⟩ := hi.rows row hr
        obtain ⟨id, hid', rfl⟩ := List.mem_map.mp (List.of_mem_zip hite).1
        exact ⟨hid ▸ hid', hid ▸ hg⟩
      have hf : Sound m₃ ns entityType (out.fill rows') :=
        (hou.grows (hm.trans hi.grows)).fill fun row hr => (hre row hr).2
      refine wp_mono (wp_readRaced hf fun x hx => hk x (mem_missingFrom.mp hx).1)
        fun out' m' h => ⟨h.1, fun x => ?_⟩
      rw [h.2, isSome_fill, mem_missingFrom]
      constructor
      · rintro ((ho | hr) | ⟨hx, -⟩)
        · exact .inl ho
        · obtain ⟨row, hme, rfl⟩ := List.mem_map.mp hr
          exact .inr (hre row hme).1
        · exact .inr hx
      · rintro (ho | hx)
        · exact .inl (.inl ho)
        · by_cases hs : ((out.fill rows').lookup x).isSome
          · exact .inl (isSome_fill.mp hs)
          · exact .inr ⟨hx, hs⟩
    · obtain ⟨hro, -⟩ := Prod.mk.inj (Option.some.inj he)
      cases hro

/-- **A batch resolves exactly the ids that it was asked for.** -/
theorem wp_getOrCreateBatch (lease : Option Lease) (stringIDs : List String) :
    Wp (peers serve) anyOutcome (getOrCreateBatch lease stringIDs ns entityType) (fun out m' =>
      Sound m' ns entityType out ∧ ∀ x, (out.lookup x).isSome ↔ x ∈ stringIDs) m := by
  unfold getOrCreateBatch
  split_ifs with he
  · exact wp_pure ⟨sound_empty, fun x => by simp [he]⟩
  · refine wp_bind (wp_require (fun _ => ?_) fun _ => trivial)
    refine wp_bind (wp_mono (wp_lookupBatch _) fun out m₁ h => ?_)
    obtain ⟨-, hso, hk⟩ := h
    refine wp_mono (wp_insertMissing hso) fun out' m₂ h => ⟨h.1, fun x => ?_⟩
    have hd : ∀ x, x ∈ distinct [] stringIDs ↔ x ∈ stringIDs := fun x => by simp [mem_distinct]
    rw [h.2, mem_missingFrom, hd]
    constructor
    · rintro (ho | ⟨hx, -⟩)
      · exact (hd x).mp ((hk x).1 ho)
      · exact hx
    · intro hx
      by_cases hs : (out.lookup x).isSome
      · exact .inl hs
      · exact .inr ⟨hx, hs⟩

theorem wp_getOrCreate (lease : Option Lease) (stringID : String) :
    Wp (peers serve) anyOutcome (getOrCreate lease stringID ns entityType) (fun n m' =>
      Resolves m' ns entityType stringID n) m := by
  refine wp_bind (wp_mono (wp_getOrCreateBatch lease [stringID]) fun out m' h => ?_)
  refine wp_ofExcept (fun n hn => ?_) fun _ _ => trivial
  cases hl : out.lookup stringID with
  | none => simp [hl] at hn
  | some n' =>
    rw [hl] at hn
    obtain rfl := Except.ok.inj hn
    exact h.1 stringID n' hl

end Programs

/-! ### Calls side by side -/

/-- The call returned this numeric id for the string id. -/
def Request.Returned (r : Request) (result : Result) (x : String) (n : ℕ) : Prop :=
  match r.call, result with
  | .getOrCreate stringID, .id n' => x = stringID ∧ n = n'
  | .getOrCreateBatch _, .ids out => out.lookup x = some n
  | _, _ => False

/-- What a call has returned: the ids that were asked for, as the mappings have them. -/
structure Request.Answered (r : Request) (result : Result) (m : Mappings) : Prop where
  keys : ∀ stringIDs out, r.call = .getOrCreateBatch stringIDs → result = .ids out →
    ∀ x, (out.lookup x).isSome ↔ x ∈ stringIDs
  resolves : ∀ x n, r.Returned result x n → Resolves m r.ns r.entityType x n

lemma Request.Answered.grows {r : Request} (h : r.Answered res m) (hm : Grows m m') :
    r.Answered res m' :=
  ⟨h.keys, fun x n hx => (h.resolves x n hx).grows hm⟩

lemma wp_run (r : Request) (m : Mappings) :
    Wp (peers serve) anyOutcome r.run (fun res m' => r.Answered res m') m := by
  obtain ⟨lease, ns, entityType, call⟩ := r
  cases call with
  | getOrCreate stringID =>
    refine wp_bind (wp_mono (wp_getOrCreate lease stringID) fun n m' h => wp_pure ⟨?_, ?_⟩)
    · intro _ _ hc
      cases hc
    · rintro x n' ⟨rfl, rfl⟩
      exact h
  | getOrCreateBatch strs =>
    refine wp_bind (wp_mono (wp_getOrCreateBatch lease strs) fun out m' h => wp_pure ⟨?_, ?_⟩)
    · intro strs' out' hc hr
      obtain rfl := Call.getOrCreateBatch.inj hc
      obtain rfl := Result.ids.inj hr
      exact h.2
    · exact h.1

lemma numericID_inj (hn : Bigint n) (hn' : Bigint n') (h : numericID n = numericID n') :
    n = n' := by
  unfold Bigint at hn hn'
  unfold numericID at h
  omega

lemma resolves_iff {m : Mappings} (hm : InColumn m) {x : String} {n : ℕ}
    (h : Resolves m ns entityType x n) (h' : Resolves m ns entityType x' n') : x = x' ↔ n = n' := by
  obtain ⟨v, hv, rfl⟩ := h
  obtain ⟨v', hv', rfl⟩ := h'
  constructor
  · rintro rfl
    rw [hv] at hv'
    exact congrArg numericID (Option.some.inj hv')
  · intro heq
    obtain rfl := numericID_inj (hm _ v hv) (hm _ v' hv') heq
    have hi := m.unique ⟨ns, entityType, x⟩ ⟨ns, entityType, x'⟩ v rfl rfl hv hv'
    exact congrArg Identity.stringID hi

/-- Every call is on its way to an answer, or has one. -/
structure CallsInv (calls : Calls) : Prop where
  column : InColumn calls.shared
  good : Pool.Good serve anyOutcome Request.Answered calls

lemma callsInv_step {a : PoolAction Request Outcome} (h : CallsInv calls)
    (hst : step calls a = some calls') : CallsInv calls' where
  column := Pool.step_shared (fun _ _ _ _ _ hm hs => (serve_grows hs).2 hm) hst h.column
  good := Pool.good_step (I := fun _ => True) (fun r m _ => wp_run r m)
    (fun _ _ _ _ _ _ _ ha hs => ha.grows (serve_grows hs).1)
    (fun _ _ _ => trivial) trivial h.good hst

/-- **All calls agree on the numeric ids.** From any rows, in every interleaving of the statements
of any number of calls and with any failures: a batch that has returned has exactly the distinct ids
that it was asked for; two calls on one namespace and entity type return the same numeric id for the
same string id, and different ones for different string ids; and whatever goes on afterwards, what a
call has returned stays what the table says. -/
theorem ids_agree (m : Mappings) (hm : InColumn m) (as : List (PoolAction Request Outcome))
    (calls : Calls) (h : exec step (Pool.boot m) as = some calls) :
    (∀ t r stringIDs out, r.call = .getOrCreateBatch stringIDs →
      calls.calls t = some (r, .pure (.ids out)) →
      ∀ x, (out.lookup x).isSome ↔ x ∈ stringIDs) ∧
    (∀ t t' r r' result result', calls.calls t = some (r, .pure result) →
      calls.calls t' = some (r', .pure result') → r.ns = r'.ns → r.entityType = r'.entityType →
      ∀ x x' n n', r.Returned result x n → r'.Returned result' x' n' → (x = x' ↔ n = n')) ∧
    ∀ as' calls', exec step calls as' = some calls' →
      ∀ t r result, calls.calls t = some (r, .pure result) →
        calls'.calls t = some (r, .pure result) ∧
        ∀ x n, r.Returned result x n → Resolves calls'.shared r.ns r.entityType x n := by
  have hi : CallsInv calls :=
    exec_invariant (fun _ _ _ => callsInv_step) h ⟨hm, Pool.good_boot m⟩
  refine ⟨fun t r stringIDs out hc ht => ?_, fun t t' r r' result result' ht ht' hns hty => ?_,
    fun as' calls' h' t r result ht => ?_⟩
  · have ha : r.Answered (.ids out) calls.shared := hi.good t r _ ht
    exact ha.keys stringIDs out hc rfl
  · intro x x' n n' hx hx'
    have ha : r.Answered result calls.shared := hi.good t r _ ht
    have ha' : r'.Answered result' calls.shared := hi.good t' r' _ ht'
    have hr := ha.resolves x n hx
    rw [hns, hty] at hr
    exact resolves_iff hi.column hr (ha'.resolves x' n' hx')
  · have hi' : CallsInv calls' := exec_invariant (fun _ _ _ => callsInv_step) h' hi
    have ht' : calls'.calls t = some (r, .pure result) :=
      exec_invariant (I := fun calls : Calls => calls.calls t = some (r, .pure result))
        (fun _ _ _ ho hs => Pool.step_returned hs ho) h' ht
    have ha : r.Answered result calls'.shared := hi'.good t r _ ht'
    exact ⟨ht', ha.resolves⟩

/-- Two batches look up the same new id at the same time; the second one inserts it, and the first
one reads it again. -/
def race : List (PoolAction Request Outcome) :=
  let lease : Option Lease := some ⟨"n", 1⟩
  [.start 0 ⟨lease, "n", .subject, .getOrCreateBatch ["u", "v", "u"]⟩,
    .start 1 ⟨lease, "n", .subject, .getOrCreateBatch ["v"]⟩,
    .reply 0 (.ok []), .reply 1 (.ok []), .reply 1 (.ok [7]), .reply 0 (.ok [8, 9]),
    .reply 0 (.ok [])]

/-- The ids that a call has returned. -/
def returnedIDs : Option (Request × IDMapM Result) → Option (Request × IDs)
  | some (r, .pure (.ids out)) => some (r, out)
  | _ => none

theorem ids_agree_race : ∃ calls, exec step (Pool.boot Mappings.empty) race = some calls ∧
    ∃ r out, calls.calls 0 = some (r, .pure (.ids out)) ∧
      (∀ x, (out.lookup x).isSome ↔ x ∈ ["u", "v", "u"]) ∧
      out.lookup "u" = some 8 ∧ out.lookup "v" = some 7 := by
  have hvi : (exec step (Pool.boot Mappings.empty) race).map (fun calls =>
      (returnedIDs (calls.calls 0)).map fun x => (x.1.call, x.2.lookup "u", x.2.lookup "v")) =
        some (some (.getOrCreateBatch ["u", "v", "u"], some 8, some 7)) := by
    decide +kernel
  obtain ⟨calls, hru, hvi⟩ := Option.map_eq_some_iff.mp hvi
  unfold returnedIDs at hvi
  split at hvi
  · next r out hc =>
    obtain ⟨hr, hu, hv⟩ : r.call = .getOrCreateBatch ["u", "v", "u"] ∧ out.lookup "u" = some 8 ∧
        out.lookup "v" = some 7 := by simpa using hvi
    have hco : InColumn Mappings.empty := by
      intro x n hx
      cases hx
    have hk := (ids_agree Mappings.empty hco race calls hru).1 0 r _ out hr hc
    exact ⟨calls, hru, r, out, hc, hk, hu, hv⟩
  · cases hvi

end Codohue.IDMap
