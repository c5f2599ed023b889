import Codohue.NsConfigCatalog

/-!
The shape of dense collections: their dimension and their distance.

Whether collections exist is asked from a store that no lock of the configuration row covers. A
patch asks while it holds the row, for both fields; an upsert asks before it writes, and only for
the dimension.
-/

namespace Codohue.NsConfig

open Service Transition
open Sessions (boot)

variable {P : Type}

/-! ### The condition -/

/-- Collections that were absent are still. -/
def Exchange.stillAbsent (collections : List ℤ) : Exchange P → Bool
  | ⟨.denseCollectionsExist generation, .ok false⟩ => generation ∉ collections
  | _ => true

/-- The row that was read still has its generation and its dimension. -/
def Exchange.stillRead (config : Option (Row P)) : Exchange P → Bool
  | ⟨.get, .ok current⟩ => current.map (fun row => (row.generation, row.values .embeddingDim)) =
      config.map fun row => (row.generation, row.values .embeddingDim)
  | _ => true

/-- What a write was checked against still holds, and an upsert keeps the distance of collections
that exist. -/
def Call.keepsShape (s : Store P) (done : List (Exchange P)) : Call P → Bool
  | .upsertWithCatalog base _ => s.config.all fun row => row.generation ∉ s.collections ∨
      base.denseDistance.all (· = row.values .denseDistance) ∧
        done.all (·.stillRead s.config) ∧ done.all (·.stillAbsent s.collections)
  | .commitConfiguration _ _ => done.all (·.stillAbsent s.collections)
  | _ => true

def keepsShape (w : Scene P) : Action P → Bool
  | .start _ _ => true
  | .reply t _ => match w.session t with
    | some ⟨_, done, .call c _⟩ => c.keepsShape w.shared done
    | _ => true

/-! ### Writes -/

section Writes

variable [DecidableEq P] {S : ConfigService P} {done : List (Exchange P)}

variable {req : UpsertRequest P} {row : Row P} {f : ConfigurationField}
variable {cr : Option (UpdateCatalogRequest P)} {reply : Reply}

lemma writtenRow_shape (hf : f.isShape) :
    (writtenRow R req cr reply row).values f = (req.column R f).getD (row.values f) := by
  rw [writtenRow_values]
  rcases hf with rfl | rfl <;> cases cr <;> rfl

omit [DecidableEq P] in
lemma absent_of_stillAbsent (h : done.all (·.stillAbsent collections) = true)
    (hm : ⟨.denseCollectionsExist gen, .ok false⟩ ∈ done) : gen ∉ collections :=
  of_decide_eq_true (List.all_eq_true.mp h _ hm)

omit [DecidableEq P] in
/-- The guard of an upsert has seen the dimension that the row still has, or no collections. -/
lemma Guarded.dim {s : Store P} {dim : ℤ}
    (h : Guarded S req done) (hw : S.denseCollections = true) (hk : req.provisionAPIKey = "")
    (hd : req.embeddingDim = some dim) (hro : s.config = some row)
    (he : row.generation ∈ s.collections) (hr : done.all (·.stillRead s.config) = true)
    (ha : done.all (·.stillAbsent s.collections) = true) :
    dim = row.values .embeddingDim := by
  obtain ⟨cur, hm, hc⟩ := h dim hd hw hk
  have hs := of_decide_eq_true (List.all_eq_true.mp hr _ hm)
  rw [hro] at hs
  cases cur with
  | none => cases hs
  | some seen =>
    obtain ⟨hg, hse⟩ := Prod.mk.inj (Option.some.inj hs)
    rcases hc seen rfl with heq | hf
    · rw [← heq, hse]
    · refine absurd he ?_
      rw [← hg]
      exact absent_of_stillAbsent ha hf

lemma shape_written {base : UpsertRequest P} {s : Store P} {seed : Row P}
    (hw : S.denseCollections = true) (hsp : req.split = (base, cr))
    (hc : Checked S req done)
    (hke : (Call.upsertWithCatalog base cr).keepsShape s done = true)
    (hk : base.provisionAPIKey = "" ∨ s.config = none)
    (hse : Seeded S.runtime reply.now s.config seed) (hr : s.config = some row)
    (he : row.generation ∈ s.collections) (hf : f.isShape) :
    (writtenRow S.runtime base cr reply seed).values f = row.values f := by
  have hs : seed = row := by
    rcases hse with hs | ⟨hn, -⟩
    · exact Option.some.inj (hs.symm.trans hr)
    · cases hn.symm.trans hr
  have hk' : base.provisionAPIKey = "" := hk.resolve_right (by rw [hr]; exact nofun)
  subst hs
  rw [writtenRow_shape hf]
  have hb : base.embeddingDim = req.embeddingDim ∧ base.provisionAPIKey = req.provisionAPIKey := by
    cases cr with
    | none =>
      obtain ⟨-, rfl⟩ := split_none hsp
      exact ⟨rfl, rfl⟩
    | some c =>
      obtain ⟨-, rfl, -⟩ := split_some hsp
      exact ⟨rfl, rfl⟩
  simp only [Call.keepsShape, hr, Option.all_some, decide_eq_true_eq] at hke
  obtain ⟨hd, hre, ha⟩ := hke.resolve_left (not_not.mpr he)
  rcases hf with rfl | rfl
  · change base.embeddingDim.getD _ = _
    cases hdi : base.embeddingDim with
    | none => rfl
    | some dim =>
      exact hc.guarded.dim hw (hb.2 ▸ hk') (hb.1 ▸ hdi) hr he (hr ▸ hre) ha
  · change base.denseDistance.getD _ = _
    cases hg : base.denseDistance with
    | none => rfl
    | some dist =>
      rw [hg] at hd
      exact of_decide_eq_true hd

lemma shape_patchRow {req : ConfigurationPatch P} (now : ℤ) (hw : S.denseCollections = true)
    (hg : validateConfigurationPatch S.runtime req = .ok group)
    (hr : Reviewed S req group row.configuration done)
    (ha : done.all (·.stillAbsent collections) = true) (hex : row.generation ∈ collections)
    (hf : f.isShape) : (patchRow S.runtime req now row).values f = row.values f := by
  unfold patchRow
  split_ifs
  · rw [apply_eq_merge hg]
    by_cases he : group = .embeddings
    · rcases hr.shape hw he f hf with hs | hfa
      · exact hs
      · exact absurd hex (absent_of_stillAbsent ha hfa)
    · -- the patch names fields of another group
      refine merge_eq (Option.eq_none_iff_forall_ne_some.mpr fun v hv => he ?_)
      rw [← ((validateConfigurationPatch_ok hg).2 f v hv).1]
      rcases hf with rfl | rfl <;> rfl
  · rfl

end Writes

/-! ### Steps -/

section Steps

variable [DecidableEq P] {S : ConfigService P} {ns : String} {s₀ : Store P} {w w' : Scene P}
  {as : List (Action P)} {a : Action P} {t : ℕ}

lemma shape_serve (hwi : S.denseCollections = true) (hl : Locked w)
    (hw : Sessions.Faithful (Request.run S ns) w) {request : Request P}
    (hca : w.session t = some ⟨request, done, .call c k⟩)
    (hse : serve S.runtime ns t c w.shared o = some (r, s'))
    (hk : c.keepsShape w.shared done = true) (hr : w.shared.config = some row)
    (hr' : s'.config = some row') (he : row.generation ∈ w.shared.collections) (hf : f.isShape) :
    row'.values f = row.values f := by
  have hc := calls_of_session hw hca
  have hs : s'.config = w.shared.config → row'.values f = row.values f := by
    intro h
    rw [h, hr] at hr'
    rw [Option.some.inj hr']
  have hm : ∀ g : Row P → Row P, s'.config = w.shared.config.map g → row' = g row := by
    intro g h
    rw [h, hr, Option.map_some] at hr'
    exact (Option.some.inj hr').symm
  rcases serve_config hse with h | ⟨reply, hre⟩
  · exact hs h
  cases c with
  | upsertWithCatalog base cr =>
    rcases hre with h | ⟨hke, seed, hsee, hco⟩
    · exact hs h
    · obtain rfl := Option.some.inj (hr'.symm.trans hco)
      cases request with
      | upsert req =>
        exact shape_written hwi hc.1 hc.2 hk hke hsee hr he hf
      | rotateAPIKey => rcases hc with h | h | ⟨hash, h⟩ <;> cases h
      | _ => cases hc
  | commitConfiguration req vo =>
    cases vo with
    | true => exact hs hre
    | false =>
      obtain ⟨-, group, cur, hg, hcu, hrev⟩ :=
        commit_reviewed hl hw hca (serve_eq_some hse).1
      obtain rfl := Option.some.inj (hr.symm.trans hcu)
      rw [hm _ hre]
      exact shape_patchRow reply.now hwi hg hrev hk he hf
  | upsertCatalogConfig req =>
    rw [hm _ hre]
    rcases hf with rfl | rfl <;> rfl
  | setAPIKeyHash hash => rw [hm _ hre, keyRow_values]
  | replaceAPIKeyHash hash =>
    rw [hm _ hre]
    rfl
  | _ => exact hs hre

/-- **The shape of collections that exist is frozen**, if what a write was checked against still
holds when it commits, and no upsert gives another distance. -/
theorem shape_frozen (hwired : S.denseCollections = true) (hidle : s₀.lock = none)
    (hexec : exec (step S ns) (boot s₀) as = some w) (hkeeps : keepsShape w a = true)
    (hstep : step S ns w a = some w') {row row' : Row P} (hrow : w.shared.config = some row)
    (hexists : row.generation ∈ w.shared.collections) (hrow' : w'.shared.config = some row') :
    row'.values .embeddingDim = row.values .embeddingDim ∧
      row'.values .denseDistance = row.values .denseDistance := by
  cases a with
  | start t request =>
    obtain ⟨-, hsh, -⟩ := Sessions.step_start hstep
    rw [hsh, hrow] at hrow'
    rw [Option.some.inj hrow']
    exact ⟨rfl, rfl⟩
  | reply t o =>
    obtain ⟨request, done, c, k, r, hc, hse, -⟩ := Sessions.step_reply hstep
    rw [keepsShape, hc] at hkeeps
    have hs : ∀ f : ConfigurationField, f.isShape → row'.values f = row.values f :=
      fun f => shape_serve hwired (locked_of_exec hidle hexec) (Sessions.faithful_of_exec hexec)
        hc hse hkeeps hrow hrow' hexists
    exact ⟨hs _ (.inl rfl), hs _ (.inr rfl)⟩

end Steps

/-! ### An upsert over collections -/

/-- A namespace is made, its collections are created, and a request has come to its write. -/
def beforeWrite (req : UpsertRequest Unit) (replies : ℕ) : List (Action Unit) :=
  .start 0 (.upsert {}) :: List.replicate 5 (goes 0) ++
    [.start 1 (.createDenseCollections 1), goes 1] ++
    .start 2 (.upsert req) :: List.replicate replies (goes 2)

theorem shape_frozen_shop : ∃ w w' row row', exec (step shop "shop") (boot noRows)
      (beforeWrite { embeddingDim := some 64, maxResults := some 20 } 3) = some w ∧
    step shop "shop" w (goes 2) = some w' ∧ w.shared.config = some row ∧
    row.generation ∈ w.shared.collections ∧ w'.shared.config = some row' ∧
    row'.values .maxResults = 20 ∧ row'.values .embeddingDim = row.values .embeddingDim ∧
    row'.values .denseDistance = row.values .denseDistance := by
  have hru : (exec (step shop "shop") (boot noRows)
      (beforeWrite { embeddingDim := some 64, maxResults := some 20 } 3)).any (fun w =>
        (keepsShape w (goes 2) && w.shared.config.any fun row =>
          row.generation ∈ w.shared.collections) &&
        (step shop "shop" w (goes 2)).any fun w' => w'.shared.config.any fun row' =>
          row'.values .maxResults = 20) = true := by decide +kernel
  obtain ⟨w, hex, hw⟩ := (Option.any_eq_true _ _).mp hru
  obtain ⟨hb, ha⟩ := Bool.and_eq_true_iff.mp hw
  obtain ⟨hk, hc⟩ := Bool.and_eq_true_iff.mp hb
  obtain ⟨row, hr, he⟩ := (Option.any_eq_true _ _).mp hc
  obtain ⟨w', hs, hc'⟩ := (Option.any_eq_true _ _).mp ha
  obtain ⟨row', hr', hre⟩ := (Option.any_eq_true _ _).mp hc'
  exact ⟨w, w', row, row', hex, hs, hr, of_decide_eq_true he, hr', of_decide_eq_true hre,
    shape_frozen rfl rfl hex hk hs hr (of_decide_eq_true he) hr'⟩

/-- An upsert of the distance alone goes over collections that exist. -/
theorem distance_changes_under_collections : ∃ w w' row row',
    exec (step shop "shop") (boot noRows) (beforeWrite { denseDistance := some "dot" } 2) = some w ∧
    step shop "shop" w (goes 2) = some w' ∧ w'.endsWith 2 Except.isOk = true ∧
    w.shared.config = some row ∧ row.generation ∈ w.shared.collections ∧
    w'.shared.config = some row' ∧ row'.generation = row.generation ∧
    row.values .denseDistance = "cosine" ∧ row'.values .denseDistance = "dot" := by
  have hru : (exec (step shop "shop") (boot noRows)
      (beforeWrite { denseDistance := some "dot" } 2)).any (fun w =>
        (step shop "shop" w (goes 2)).any fun w' => w'.endsWith 2 Except.isOk &&
          w.shared.config.any fun row => w'.shared.config.any fun row' =>
            row.generation ∈ w.shared.collections ∧ row'.generation = row.generation ∧
            row.values .denseDistance = "cosine" ∧ row'.values .denseDistance = "dot") = true := by
    decide +kernel
  obtain ⟨w, hex, hw⟩ := (Option.any_eq_true _ _).mp hru
  obtain ⟨w', hs, hw'⟩ := (Option.any_eq_true _ _).mp hw
  obtain ⟨hen, hc⟩ := Bool.and_eq_true_iff.mp hw'
  obtain ⟨row, hr, hc'⟩ := (Option.any_eq_true _ _).mp hc
  obtain ⟨row', hr', hv⟩ := (Option.any_eq_true _ _).mp hc'
  obtain ⟨he, hg, hco, hd⟩ := of_decide_eq_true hv
  exact ⟨w, w', row, row', hex, hs, hen, hr, he, hr', hg, hco, hd⟩

end Codohue.NsConfig
