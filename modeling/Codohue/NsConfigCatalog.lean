import Codohue.NsConfigPatch

/-!
The strategy of a catalog namespace.

A patch is validated as a whole under the lock of the row. An upsert and an update of the catalog
check a strategy against a dimension that they have read before, and an upsert that only gives a
dimension does not look at the strategy. So the row keeps a usable strategy as long as the dimension
stays what it was when a write was checked.
-/

namespace Codohue.NsConfig

open Service Transition
open Sessions (boot)

variable {P : Type}

/-! ### The condition -/

/-- What a session has read of the dimension still holds. -/
def Exchange.agrees (config : Option (Row P)) : Exchange P → Bool
  | ⟨.get, .ok current⟩ => dimOf current = dimOf config
  | _ => true

/-- The write keeps the dimension of a catalog row, or was checked against the one it meets. -/
def Call.keepsDim (config : Option (Row P)) (done : List (Exchange P)) : Call P → Bool
  | .upsertWithCatalog base none => config.all fun row =>
      row.values .denseSource ≠ catalog ∨ base.embeddingDim.all (· = row.values .embeddingDim)
  | .upsertWithCatalog base (some _) => base.embeddingDim.isSome ∨ done.all (·.agrees config)
  | .upsertCatalogConfig _ => done.all (·.agrees config)
  | _ => true

def keepsDim (w : Scene P) : Action P → Bool
  | .start _ _ => true
  | .reply t _ => match w.session t with
    | some ⟨_, done, .call c _⟩ => c.keepsDim w.shared.config done
    | _ => true

/-! ### Rows with a strategy -/

/-- The row is fit for use: its dimension is one, and the catalog has a strategy for it. -/
structure Fit (S : ConfigService P) (values : Values P) : Prop where
  positive : 0 < values .embeddingDim
  strategy : values .denseSource = catalog → HasStrategy S values

variable {req : UpsertRequest P}

section Values

variable {S : ConfigService P} {values : Values P}

lemma fit_defaults : Fit S (defaults S.runtime) where
  positive := show (0 : ℤ) < 64 by decide
  strategy h := absurd (show "disabled" = catalog from h) (by decide)

lemma positive_upsert (hp : 0 < values .embeddingDim)
    (hg : ∀ dim, req.embeddingDim = some dim → 0 < dim) :
    0 < req.apply S.runtime values .embeddingDim := by
  change 0 < req.embeddingDim.getD (values .embeddingDim)
  cases hd : req.embeddingDim with
  | none => exact hp
  | some dim => exact hg dim hd

/-- An upsert that does not select the catalog leaves the strategy, so the dimension must stay. -/
lemma fit_upsert (hs : req.denseSource ≠ some catalog)
    (hp : ∀ dim, req.embeddingDim = some dim → 0 < dim) (hf : Fit S values)
    (hd : values .denseSource = catalog → ∀ dim, req.embeddingDim = some dim →
      dim = values .embeddingDim) : Fit S (req.apply S.runtime values) := by
  refine ⟨positive_upsert hf.positive hp, fun hc => ?_⟩
  · have ho : values .denseSource = catalog := by
      by_contra hne
      change (if values .denseSource = catalog then catalog
        else (req.denseSource.filter (· ≠ "")).getD (values .denseSource)) = catalog at hc
      rw [if_neg hne] at hc
      cases hg : req.denseSource.filter (· ≠ "") with
      | none =>
        rw [hg] at hc
        exact hne hc
      | some source =>
        rw [hg] at hc
        obtain rfl : source = catalog := hc
        exact hs (Option.filter_eq_some_iff.mp hg).1
    obtain ⟨id, version, hid, hv, hb⟩ := hf.strategy ho
    refine ⟨id, version, hid, hv, ?_⟩
    change S.registry.build id version (values .catalogStrategyParams) =
      .ok (req.embeddingDim.getD (values .embeddingDim))
    cases hg : req.embeddingDim with
    | none => exact hb
    | some dim => rw [hd ho dim hg, Option.getD_some, hb]

lemma fit_catalog {req : UpdateCatalogRequest P} (hp : 0 < values .embeddingDim)
    (hb : req.enabled = true → S.registry.build req.strategyID req.strategyVersion
      (req.params.getD S.runtime.empty) = .ok (values .embeddingDim)) :
    Fit S (req.apply S.runtime values) := by
  refine ⟨hp, fun hc => ?_⟩
  have he : req.enabled = true := by
    by_contra hd
    change (if req.enabled = true then catalog
      else if values .denseSource = catalog then "disabled" else values .denseSource) = catalog
      at hc
    split_ifs at hc with ho
    · exact absurd hc (by decide)
    · exact ho hc
  refine ⟨req.strategyID, req.strategyVersion, ?_, ?_, hb he⟩
  · exact if_pos he
  · exact if_pos he

end Values

/-! ### Steps -/

section Steps

variable [DecidableEq P] {S : ConfigService P} {ns : String}
variable {row : Row P} {cr : Option (UpdateCatalogRequest P)} {reply : Reply}

lemma writtenRow_values :
    (writtenRow R req cr reply row).values = match cr with
      | none => req.apply R row.values
      | some c => c.apply R (req.apply R row.values) := by
  have hb : (provisioned R req reply.salt (upsertRow R req reply.now row)).values =
      req.apply R row.values := by
    unfold provisioned keyRow
    split_ifs <;> rfl
  cases cr with
  | none => exact hb
  | some c =>
    change c.apply R (provisioned R req reply.salt (upsertRow R req reply.now row)).values = _
    rw [hb]

lemma keyRow_values {hash : String} : (keyRow hash row).values = row.values := by
  unfold keyRow
  split_ifs <;> rfl

omit [DecidableEq P] in
lemma dimOf_some (h : 0 < row.values .embeddingDim) :
    dimOf (some row) = row.values .embeddingDim := if_pos h

variable {done : List (Exchange P)} {config : Option (Row P)}

omit [DecidableEq P] in
/-- A strategy that was checked against a dimension has the dimension that the row now has. -/
lemma Measured.eq_dimOf (h : Measured none done dim) (ha : done.all (·.agrees config) = true) :
    dim = dimOf config := by
  obtain ⟨cur, hm, rfl⟩ := h
  exact of_decide_eq_true (List.all_eq_true.mp ha _ hm)

lemma fit_written (hs : req.split = (base, cr)) (hc : Checked S req done)
    (hk : (Call.upsertWithCatalog base cr).keepsDim config done = true)
    (hke : base.provisionAPIKey = "" ∨ config = none)
    (hf : ∀ row, config = some row → Fit S row.values) (hse : Seeded S.runtime reply.now config row)
    :
    Fit S (writtenRow S.runtime base cr reply row).values := by
  obtain ⟨hr, hsee⟩ : Fit S row.values ∧ dimOf config = row.values .embeddingDim := by
    rcases hse with hr | ⟨hn, gen, rfl⟩
    · exact ⟨hf row hr, by rw [hr, dimOf_some (hf row hr).positive]⟩
    · exact ⟨fit_defaults, by rw [hn]; rfl⟩
  rw [writtenRow_values]
  cases cr with
  | none =>
    obtain ⟨hso, rfl⟩ := split_none hs
    refine fit_upsert hso (fun dim => validateUpsert_ok hc.valid) hr fun ho dim hd => ?_
    rcases hse with hco | ⟨-, gen, rfl⟩
    · simp only [Call.keepsDim, hco, Option.all_some, hd, decide_eq_true_eq] at hk
      exact hk.resolve_left (not_not.mpr ho)
    · exact absurd (show "disabled" = catalog from ho) (by decide)
  | some c =>
    obtain ⟨hso, rfl, -⟩ := split_some hs
    obtain ⟨-, dim, hb, hd⟩ := hc.usable c (by rw [hs])
    rw [hs] at hd
    refine fit_catalog (positive_upsert hr.positive fun _ hd => validateUpsert_ok hc.valid hd)
      fun _ => ?_
    rw [hb]
    refine congrArg Except.ok (?_ : dim = req.embeddingDim.getD (row.values .embeddingDim))
    cases hg : req.embeddingDim with
    | some d =>
      rw [requestedDim, if_neg (by simp [hg])] at hd
      exact (hg ▸ hd).eq (validateUpsert_ok hc.valid hg)
    | none =>
      rw [Option.getD_none, ← hsee]
      by_cases hp : req.provisionAPIKey = ""
      · rw [requestedDim, if_neg (by simp [hp])] at hd
        simp only [Call.keepsDim, hg, Option.isSome_none, Bool.false_eq_true, false_or,
          decide_eq_true_eq] at hk
        exact (hg ▸ hd).eq_dimOf hk
      · -- a provisioning request describes the creation
        rw [requestedDim, if_pos ⟨hp, hg⟩] at hd
        rw [hke.resolve_left hp]
        exact hd.eq (by decide)

variable {s₀ : Store P} {w w' : Scene P} {as : List (Action P)} {a : Action P} {t : ℕ}

lemma fit_serve (hl : Locked w) (hw : Sessions.Faithful (Request.run S ns) w) {request : Request P}
    (hca : w.session t = some ⟨request, done, .call c k⟩)
    (hse : serve S.runtime ns t c w.shared o = some (r, s'))
    (hk : c.keepsDim w.shared.config done = true)
    (hf : ∀ row, w.shared.config = some row → Fit S row.values) :
    ∀ row, s'.config = some row → Fit S row.values := by
  intro row' hr'
  have hc := calls_of_session hw hca
  rcases serve_config hse with hs | ⟨reply, hre⟩
  · exact hf row' (hs ▸ hr')
  cases c with
  | upsertWithCatalog base cr =>
    rcases hre with hs | ⟨hke, row, hsee, hco⟩
    · exact hf row' (hs ▸ hr')
    · obtain rfl := Option.some.inj (hr'.symm.trans hco)
      cases request with
      | upsert req => exact fit_written hc.1 hc.2 hk hke hf hsee
      | rotateAPIKey => rcases hc with h | h | ⟨hash, h⟩ <;> cases h
      | _ => cases hc
  | upsertCatalogConfig req =>
    obtain ⟨row, hr, rfl⟩ := Option.map_eq_some_iff.mp (hre.symm.trans hr')
    refine fit_catalog (hf row hr).positive fun he => ?_
    have hu : Usable S req none done := by
      cases request with
      | updateCatalogConfig req' =>
        obtain ⟨rfl, hu⟩ := hc
        exact hu he
      | rotateAPIKey => rcases hc with h | h | ⟨hash, h⟩ <;> cases h
      | _ => cases hc
    obtain ⟨-, dim, hb, hd⟩ := hu
    rw [hb, hd.eq_dimOf hk, hr, dimOf_some (hf row hr).positive]
  | commitConfiguration req vo =>
    cases vo with
    | true => exact hf row' (Eq.trans hre.symm hr')
    | false =>
      obtain ⟨row, hr, rfl⟩ := Option.map_eq_some_iff.mp (hre.symm.trans hr')
      obtain ⟨-, group, cur, hg, hcu, hrev⟩ :=
        commit_reviewed hl hw hca (serve_eq_some hse).1
      obtain rfl := Option.some.inj (hr.symm.trans hcu)
      unfold patchRow
      split_ifs
      · rw [apply_eq_merge hg]
        exact ⟨hrev.positive, hrev.strategy⟩
      · exact hf row hr
  | setAPIKeyHash hash =>
    obtain ⟨row, hr, rfl⟩ := Option.map_eq_some_iff.mp (hre.symm.trans hr')
    rw [keyRow_values]
    exact hf row hr
  | replaceAPIKeyHash hash =>
    obtain ⟨row, hr, rfl⟩ := Option.map_eq_some_iff.mp (hre.symm.trans hr')
    exact hf row hr
  | _ => exact hf row' (Eq.trans hre.symm hr')

/-- What holds along a run. -/
structure Sound (S : ConfigService P) (ns : String) (w : Scene P) : Prop where
  faithful : Sessions.Faithful (Request.run S ns) w
  locked : Locked w
  fit : ∀ row, w.shared.config = some row → Fit S row.values

lemma sound_step (hw : Sound S ns w) (hk : keepsDim w a = true)
    (h : step S ns w a = some w') : Sound S ns w' := by
  refine ⟨Sessions.faithful_step hw.faithful h, locked_step hw.locked h, ?_⟩
  cases a with
  | start t request =>
    obtain ⟨-, hs, -⟩ := Sessions.step_start h
    rw [hs]
    exact hw.fit
  | reply t o =>
    obtain ⟨request, done, c, k, r, hc, hse, -⟩ := Sessions.step_reply h
    rw [keepsDim, hc] at hk
    exact fit_serve hw.locked hw.faithful hc hse hk hw.fit

/-- **A catalog namespace has a usable strategy**, if an upsert gives a dimension to a catalog row
only together with the strategy, and no dimension changes between a check and its write. -/
theorem catalog_strategy_usable (hidle : s₀.lock = none) (hfresh : s₀.config = none)
    (hexec : exec (step S ns) (boot s₀) as = some w)
    (hkeeps : Along (step S ns) (fun w a => keepsDim w a = true) (boot s₀) as) {row : Row P}
    (hrow : w.shared.config = some row) (hcatalog : row.values .denseSource = catalog) :
    ∃ id version, row.values .catalogStrategyID = some id ∧
      row.values .catalogStrategyVersion = some version ∧
      S.registry.build id version (row.values .catalogStrategyParams) =
        .ok (row.values .embeddingDim) := by
  have hi : Sound S ns (boot s₀) := by
    have hn : exec (step S ns) (boot s₀) [] = some (boot s₀) := rfl
    refine ⟨Sessions.faithful_of_exec hn, locked_of_exec hidle hn, fun row hrow => ?_⟩
    cases hfresh.symm.trans hrow
  have hs : Sound S ns w := exec_guarded (fun _ _ _ => sound_step) hkeeps hexec hi
  exact (hs.fit row hrow).strategy hcatalog

end Steps

/-! ### Two upserts of one namespace -/

/-- A catalog namespace is made, and the request then goes through alone. -/
def afterCatalog (req : UpsertRequest Unit) (replies : ℕ) : List (Action Unit) :=
  .start 0 (.upsert
    { denseSource := some "catalog"
      catalogStrategyID := some "hash"
      catalogStrategyVersion := some "small" }) :: List.replicate 6 (goes 0) ++
    .start 1 (.upsert req) :: List.replicate replies (goes 1)

theorem catalog_strategy_usable_shop : ∃ w row,
    exec (step shop "shop") (boot noRows) (afterCatalog
      { denseSource := some "catalog"
        catalogStrategyID := some "hash"
        catalogStrategyVersion := some "large"
        embeddingDim := some 128 } 5) = some w ∧
    w.shared.config = some row ∧ row.values .denseSource = catalog ∧
    ∃ id version, row.values .catalogStrategyID = some id ∧
      row.values .catalogStrategyVersion = some version ∧
      shop.registry.build id version (row.values .catalogStrategyParams) =
        .ok (row.values .embeddingDim) := by
  have hru : (exec (step shop "shop") (boot noRows) (afterCatalog
      { denseSource := some "catalog"
        catalogStrategyID := some "hash"
        catalogStrategyVersion := some "large"
        embeddingDim := some 128 } 5)).any (fun w => w.shared.config.any fun row =>
          row.values .denseSource = catalog) = true := by decide +kernel
  obtain ⟨w, he, hco⟩ := (Option.any_eq_true _ _).mp hru
  obtain ⟨row, hr, hc⟩ := (Option.any_eq_true _ _).mp hco
  exact ⟨w, row, he, hr, of_decide_eq_true hc,
    catalog_strategy_usable rfl rfl he (by decide +kernel) hr (of_decide_eq_true hc)⟩

/-- The dimension of a catalog row is changed alone, and the strategy keeps its own. -/
theorem dimension_changes_under_strategy : ∃ w row,
    exec (step shop "shop") (boot noRows) (afterCatalog { embeddingDim := some 128 } 5) = some w ∧
    w.endsWith 0 Except.isOk = true ∧ w.endsWith 1 Except.isOk = true ∧
    w.shared.config = some row ∧ row.values .denseSource = catalog ∧
    row.values .embeddingDim = 128 ∧ row.values .catalogStrategyID = some "hash" ∧
    row.values .catalogStrategyVersion = some "small" ∧
    shop.registry.build "hash" "small" (row.values .catalogStrategyParams) = .ok 64 := by
  have hr : (exec (step shop "shop") (boot noRows)
      (afterCatalog { embeddingDim := some 128 } 5)).any (fun w =>
        (w.endsWith 0 Except.isOk && w.endsWith 1 Except.isOk) && w.shared.config.any fun row =>
        row.values .denseSource = catalog ∧
          row.values .embeddingDim = 128 ∧ row.values .catalogStrategyID = some "hash" ∧
          row.values .catalogStrategyVersion = some "small") = true := by decide +kernel
  obtain ⟨w, hex, hw⟩ := (Option.any_eq_true _ _).mp hr
  obtain ⟨he, hco⟩ := Bool.and_eq_true_iff.mp hw
  obtain ⟨row, hro, hva⟩ := (Option.any_eq_true _ _).mp hco
  obtain ⟨hc, hd, hid, hv⟩ := of_decide_eq_true hva
  obtain ⟨hf, hs⟩ := Bool.and_eq_true_iff.mp he
  exact ⟨w, row, hex, hf, hs, hro, hc, hd, hid, hv, rfl⟩

end Codohue.NsConfig
