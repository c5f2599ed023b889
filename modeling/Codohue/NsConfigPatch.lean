import Codohue.NsConfigPrograms

/-!
Patches of the configuration, next to all other writes.

A patch reads the row under its lock, and while it holds the lock nobody else writes. So the row
that it commits over is the row that it has read, and by the trigger a row with the revision that
the caller has seen has the values that the caller has seen.
-/

namespace Codohue.NsConfig

open Service Transition
open Sessions (Makes boot)

variable {P : Type}

/-! ### Stores that keep their rows -/

/-- The stores but for the lock. -/
structure Unchanged (s s' : Store P) : Prop where
  lifecycles : s'.lifecycles = s.lifecycles
  config : s'.config = s.config
  provision : s'.provision = s.provision
  collections : s'.collections = s.collections

lemma Unchanged.refl (s : Store P) : Unchanged s s := ⟨rfl, rfl, rfl, rfl⟩

lemma unchanged_abandoned (s : Store P) (c : Call P) : Unchanged s (abandoned s c) := by
  cases c <;> exact ⟨rfl, rfl, rfl, rfl⟩

section Serve

variable [DecidableEq P] {ns : String} {c : Call P}

lemma serve_unchanged (h : serve R ns u c s o = some (r, s'))
    (hw : Exchange.writes ⟨c, r⟩ = false) (ha : c ≠ .activate)
    (hc : ∀ gen, c ≠ .createDenseCollections gen) : Unchanged s s' := by
  obtain ⟨-, ⟨reply, v, hp, rfl⟩ | ⟨e, -, rfl⟩⟩ := serve_eq_some h
  · cases c with
    | get | denseCollectionsExist gen | generateAPIKey | rollback =>
      cases hp
      exact ⟨rfl, rfl, rfl, rfl⟩
    | readConfiguration | withWriter =>
      obtain ⟨a, -, heq⟩ := ok_of_map hp
      obtain ⟨-, rfl⟩ := Prod.mk.inj heq
      exact .refl s
    | lockConfiguration =>
      rw [(perform_lockConfiguration hp).2]
      exact ⟨rfl, rfl, rfl, rfl⟩
    | activate => exact absurd rfl ha
    | createDenseCollections gen => exact absurd rfl (hc gen)
    | _ => cases hw
  · exact unchanged_abandoned s c

lemma serve_lock (h : serve R ns u c s o = some (r, s')) (hl : s'.lock = some t) :
    (s.lock = some t ∧ s'.config = s.config) ∨
      (u = t ∧ ∃ row, s'.config = some row ∧
        (⟨c, r⟩ : Exchange P) = ⟨.lockConfiguration, .ok row.configuration⟩) := by
  obtain ⟨ha, ⟨reply, v, hp, rfl⟩ | ⟨e, -, rfl⟩⟩ := serve_eq_some h
  · cases c with
    | get | denseCollectionsExist gen | generateAPIKey | createDenseCollections gen =>
      cases hp
      exact .inl ⟨hl, rfl⟩
    | readConfiguration | withWriter =>
      obtain ⟨a, -, heq⟩ := ok_of_map hp
      obtain ⟨-, rfl⟩ := Prod.mk.inj heq
      exact .inl ⟨hl, rfl⟩
    | activate =>
      obtain ⟨m, hm, heq⟩ := ok_of_map hp
      obtain ⟨-, rfl⟩ := Prod.mk.inj heq
      obtain ⟨lcs, l, -, rfl⟩ := activate_ok hm
      exact .inl ⟨hl, rfl⟩
    | lockConfiguration =>
      obtain ⟨⟨row, hr, rfl⟩, rfl⟩ := perform_lockConfiguration hp
      exact .inr ⟨Option.some.inj hl, row, hr, rfl⟩
    -- the writes of others are not admitted
    | setAPIKeyHash hash | replaceAPIKeyHash hash | upsertCatalogConfig req =>
      cases hp
      cases (of_decide_eq_true ha).symm.trans hl
    | upsertWithCatalog req cr =>
      have hf : s.lock = none := of_decide_eq_true ha
      rcases upsertWithCatalog_ok (ok_of_mapError hp) with ⟨hw, -⟩ | ⟨rfl, -⟩
      · cases (hw.lock.trans hf).symm.trans hl
      · cases hf.symm.trans hl
    | commitConfiguration patch validateOnly =>
      rw [commitConfiguration_ok hp] at hl
      cases hl
    | rollback =>
      cases hp
      cases hl
  · cases c with
    | commitConfiguration patch validateOnly | rollback => cases hl
    | _ => exact .inl ⟨hl, rfl⟩

end Serve

/-! ### Runs -/

variable {req : ConfigurationPatch P} {done : List (Exchange P)} {f : ConfigurationField}
  {c : Call P} {validateOnly : Bool}

section Runs

variable [DecidableEq P] {S : ConfigService P} {ns : String} {s₀ : Store P} {w : Scene P}
  {as : List (Action P)} {t : ℕ}

/-- The row under a lock is the one that its holder has read. -/
def Locked (w : Scene P) : Prop :=
  ∀ t, w.shared.lock = some t → ∃ x row, w.session t = some x ∧ w.shared.config = some row ∧
    ⟨.lockConfiguration, .ok row.configuration⟩ ∈ x.done

lemma locked_step (hw : Locked w) (h : step S ns w a = some w') : Locked w' := by
  intro t hl
  cases a with
  | start u request =>
    obtain ⟨-, hs, -⟩ := Sessions.step_start h
    rw [hs] at hl
    obtain ⟨x, row, hx, hr, hm⟩ := hw t hl
    obtain ⟨x', hx', -, hp⟩ := Sessions.step_record hx h
    exact ⟨x', row, hx', by rw [hs, hr], hp.subset hm⟩
  | reply u o =>
    obtain ⟨request, done, c, k, r, hca, hser, hse⟩ := Sessions.step_reply h
    rcases serve_lock hser hl with ⟨hh, hc⟩ | ⟨rfl, row, hr, heq⟩
    · obtain ⟨x, row, hx, hr, hm⟩ := hw t hh
      obtain ⟨x', hx', -, hp⟩ := Sessions.step_record hx h
      exact ⟨x', row, hx', by rw [hc, hr], hp.subset hm⟩
    · refine ⟨⟨request, done ++ [⟨c, r⟩], k r⟩, row, ?_, hr, ?_⟩
      · rw [hse, Function.update_self]
      · rw [heq]
        exact List.mem_append_right _ List.mem_cons_self

lemma locked_of_exec (hi : s₀.lock = none) (h : exec (step S ns) (boot s₀) as = some w) :
    Locked w := by
  refine exec_invariant (fun _ _ _ => locked_step) h ?_
  intro t hl
  cases hi.symm.trans hl

lemma Evolves.trans (h : Evolves s s') (h' : Evolves s' s'') : Evolves s s'' := by
  intro row hr
  obtain ⟨row', hr', hl⟩ := h row hr
  obtain ⟨row'', hr'', hl'⟩ := h' row' hr'
  exact ⟨row'', hr'', hl.trans hl'⟩

lemma evolves_step (h : step S ns w a = some w') : Evolves w.shared w'.shared := by
  cases a with
  | start u request =>
    obtain ⟨-, hs, -⟩ := Sessions.step_start h
    exact evolves_of_eq (by rw [hs])
  | reply u o =>
    obtain ⟨request, done, c, k, r, -, hse, -⟩ := Sessions.step_reply h
    exact serve_evolves hse

lemma evolves_of_exec (h : exec (step S ns) w as = some w') : Evolves w.shared w'.shared :=
  exec_invariant (I := fun m => Evolves w.shared m.shared)
    (fun _ _ _ hm hs => hm.trans (evolves_step hs)) h (evolves_of_eq rfl)

lemma values_eq_of_revision_eq (h₁ : as₁ <+: as) (h₂ : as₂ <+: as)
    (hm₁ : exec (step S ns) (boot s₀) as₁ = some m₁)
    (hm₂ : exec (step S ns) (boot s₀) as₂ = some m₂) (hr₁ : m₁.shared.config = some row₁)
    (hr₂ : m₂.shared.config = some row₂) (hg : row₁.revision g = row₂.revision g)
    (hf : f.group = g) : row₁.values f = row₂.values f := by
  -- one of the two comes first
  have hl : row₁.Later row₂ ∨ row₂.Later row₁ := by
    rcases List.prefix_or_prefix_of_prefix h₁ h₂ with ⟨rest, rfl⟩ | ⟨rest, rfl⟩
    · obtain ⟨m, hm, hre⟩ := (exec_append _).mp hm₂
      obtain rfl := Option.some.inj (hm₁.symm.trans hm)
      obtain ⟨row, hr, hl⟩ := evolves_of_exec hre row₁ hr₁
      obtain rfl := Option.some.inj (hr₂.symm.trans hr)
      exact .inl hl
    · obtain ⟨m, hm, hre⟩ := (exec_append _).mp hm₁
      obtain rfl := Option.some.inj (hm₂.symm.trans hm)
      obtain ⟨row, hr, hl⟩ := evolves_of_exec hre row₂ hr₂
      obtain rfl := Option.some.inj (hr₁.symm.trans hr)
      exact .inr hl
  rcases hl with hl | hl
  · exact (hl.values g hg.symm f hf).symm
  · exact hl.values g hg f hf

lemma calls_of_session (hw : Sessions.Faithful (Request.run S ns) w) {request : Request P}
    (hc : w.session t = some ⟨request, done, .call c k⟩) : request.Calls S done c :=
  (follows_run request).call (hw t _ hc)

lemma commit_reviewed (hl : Locked w) (hw : Sessions.Faithful (Request.run S ns) w)
    {request : Request P}
    (hca : w.session t = some ⟨request, done, .call (.commitConfiguration req validateOnly) k⟩)
    (ha : admits t w.shared (.commitConfiguration req validateOnly) = true) :
    request = .patchConfiguration req validateOnly ∧ ∃ group row,
      validateConfigurationPatch S.runtime req = .ok group ∧ w.shared.config = some row ∧
      Reviewed S req group row.configuration done := by
  have hc := calls_of_session hw hca
  obtain ⟨x, row, hx, hro, hm⟩ := hl t (of_decide_eq_true ha)
  obtain rfl := Option.some.inj (hca.symm.trans hx)
  cases request with
  | patchConfiguration req' vo' =>
    obtain ⟨rfl, rfl, group, hg, hr⟩ := hc
    exact ⟨rfl, group, row, hg, hro, hr _ hm⟩
  | rotateAPIKey => rcases hc with h | h | ⟨hash, h⟩ <;> cases h
  | upsert req' | updateCatalogConfig req' | createDenseCollections gen => cases hc

end Runs

/-! ### No lost update -/

section Commit

variable [DecidableEq P] {S : ConfigService P} {ns : String}

/-- The patch replaces what its caller has seen, by what it says and nothing else. The time of the
last update apart, these are all columns. -/
structure Replaces (R : Runtime P) (req : ConfigurationPatch P) (group : Group)
    (row row' : Row P) : Prop where
  generation : row.generation = req.generation
  revision : row.revision group = req.baseRevision
  changed : ∀ (f : ConfigurationField) v, req.changes.lookup f.name = some v →
    f.group = group ∧ decode R f v = some (row'.values f)
  kept : ∀ f : ConfigurationField, req.changes.lookup f.name = none → row'.values f = row.values f
  columns : row'.generation = row.generation ∧ row'.apiKeyHash = row.apiKeyHash ∧
    row'.pausedAt = row.pausedAt ∧ row'.createdAt = row.createdAt
  counted : (∃ f : ConfigurationField, f.group = group ∧ row'.values f ≠ row.values f) →
    row'.revision group = row.revision group + 1
  uncounted : (∀ f : ConfigurationField, f.group = group → row'.values f = row.values f) →
    row'.revision group = row.revision group
  others : ∀ g, g ≠ group → row'.revision g = row.revision g

omit [DecidableEq P] in
lemma merge_eq (h : req.changes.lookup f.name = none) : req.merge R values f = values f := by
  rw [ConfigurationPatch.merge, ConfigurationPatch.change, h]
  rfl

lemma patchRow_replaces (now : ℤ) (hgr : validateConfigurationPatch R req = .ok group)
    (hge : row.generation = req.generation) (hr : row.revision group = req.baseRevision) :
    Replaces R req group row (patchRow R req now row) := by
  obtain ⟨hna, hfi⟩ := validateConfigurationPatch_ok hgr
  have hm : ∀ (f : ConfigurationField) v, req.changes.lookup f.name = some v →
      ∃ f, f ∈ (Group.ofName req.group).elim [] configurationFields ∧
        (req.changes.lookup f.name).isSome := by
    intro f v hv
    refine ⟨f, ?_, by rw [hv]; rfl⟩
    rw [hna]
    exact mem_configurationFields.mpr (hfi f v hv).1
  unfold patchRow
  split_ifs with hn
  · rw [apply_eq_merge hgr]
    refine
      { generation := hge
        revision := hr
        changed := fun f v hv => ⟨(hfi f v hv).1, ?_⟩
        kept := fun f hf => merge_eq hf
        columns := ⟨rfl, rfl, rfl, rfl⟩
        counted := fun ⟨f, hf, hne⟩ => ?_
        uncounted := fun hs => ?_
        others := fun g hg => ?_ }
    · obtain ⟨value, hva⟩ := Option.isSome_iff_exists.mp (hfi f v hv).2
      change decode R f v = some (((req.changes.lookup f.name).bind (decode R f)).getD _)
      rw [hv, Option.bind_some, hva, Option.getD_some]
    · rw [advance_revision, if_pos ⟨f, mem_configurationFields.mpr hf, hne⟩]
    · rw [advance_revision, if_neg, add_zero]
      rintro ⟨f, hf, hne⟩
      exact hne (hs f (mem_configurationFields.mp hf))
    · rw [advance_revision, if_neg, add_zero]
      rintro ⟨f, hf, hne⟩
      refine hne (merge_eq (Option.eq_none_iff_forall_ne_some.mpr fun v hv => hg ?_))
      rw [← mem_configurationFields.mp hf, (hfi f v hv).1]
  · exact
      { generation := hge
        revision := hr
        changed := fun f v hv => absurd (hm f v hv) hn
        kept := fun _ _ => rfl
        columns := ⟨rfl, rfl, rfl, rfl⟩
        counted := fun ⟨f, _, hne⟩ => absurd rfl hne
        uncounted := fun _ => rfl
        others := fun _ _ => rfl }

variable {s₀ : Store P} {as : List (Action P)} {w : Scene P} {t : ℕ}

lemma patch_step (h : Makes (serve S.runtime ns) (Request.run S ns) s₀ as t
      (.patchConfiguration req validateOnly) done c r w w') :
    Unchanged w.shared w'.shared ∨ validateOnly = false ∧ Exchange.writes ⟨c, r⟩ = true := by
  have hc := h.follows (follows_run _)
  obtain ⟨as₁, o, as₂, k, -, -, -, -, hse⟩ := h
  by_cases hw : Exchange.writes ⟨c, r⟩ = true
  · cases c with
    | commitConfiguration req' vo' =>
      obtain ⟨rfl, rfl, -⟩ := hc
      cases vo' with
      | false => exact .inr ⟨rfl, hw⟩
      | true =>
        obtain ⟨-, ⟨reply, v, hp, -⟩ | ⟨e, -, hs⟩⟩ := serve_eq_some hse
        · rw [commitConfiguration_ok hp]
          exact .inl ⟨rfl, rfl, rfl, rfl⟩
        · rw [hs]
          exact .inl (unchanged_abandoned _ _)
    | upsertWithCatalog base catalogReq | setAPIKeyHash hash | replaceAPIKeyHash hash
    | upsertCatalogConfig req' => cases hc
    | _ => cases hw
  · refine .inl (serve_unchanged hse (eq_false_of_ne_true hw) ?_ ?_)
    · rintro rfl
      cases hc
    · rintro gen rfl
      cases hc

/-- **No lost update.** The commit of a patch goes over a row with the generation and the revision
that the patch names, hence over the values that the row has had at that revision all along; and a
patch that is refused or only validated leaves everything. -/
theorem patch_replaces_what_was_read (hidle : s₀.lock = none)
    (hexec : exec (step S ns) (boot s₀) as = some w) {req : ConfigurationPatch P}
    {validateOnly : Bool} {done : List (Exchange P)} {rest : ConfigM P (Result P)}
    (hsession : w.session t = some ⟨.patchConfiguration req validateOnly, done, rest⟩) :
    (validateOnly = false → (∃ result, rest = .pure result) →
      ∃ done before after result group row row',
        Makes (serve S.runtime ns) (Request.run S ns) s₀ as t (.patchConfiguration req false) done
          (.commitConfiguration req false) (.ok result) before after ∧
        Group.ofName req.group = some group ∧ before.shared.config = some row ∧
        after.shared = { before.shared with config := some row', lock := none } ∧
        Replaces S.runtime req group row row' ∧
        ∀ as₁ m seen, as₁ <+: as → exec (step S ns) (boot s₀) as₁ = some m →
          m.shared.config = some seen → seen.generation = req.generation →
          seen.revision group = req.baseRevision →
          ∀ f : ConfigurationField, f.group = group → row.values f = seen.values f) ∧
    (validateOnly = true ∨ (∃ e, rest = .throw e) → ∀ done c r before after,
      Makes (serve S.runtime ns) (Request.run S ns) s₀ as t
        (.patchConfiguration req validateOnly) done c r before after →
      Unchanged before.shared after.shared) := by
  have hre := Sessions.faithful_of_exec hexec t _ hsession
  refine ⟨fun hw ⟨result, hres⟩ => ?_, fun href done c r before after hma => ?_⟩
  · subst hw hres
    obtain ⟨result, hme⟩ := (follows_run (.patchConfiguration req false)).returned hre
    obtain ⟨done', before, after, hma⟩ := Sessions.makes_of_mem_done hexec hsession hme
    obtain ⟨as₁, o, as₂, k, has, hb, hst, hc, hs⟩ := id hma
    obtain ⟨ha, ⟨reply, v, hp, -⟩ | ⟨e, he, -⟩⟩ := serve_eq_some hs
    obtain ⟨-, group, row, hg, hro, hr⟩ := commit_reviewed
      (locked_of_exec hidle hb) (Sessions.faithful_of_exec hb) hc ha
    · refine ⟨done', before, after, result, group, row, patchRow S.runtime req reply.now row, hma,
        (validateConfigurationPatch_ok hg).1, hro, ?_, patchRow_replaces reply.now hg
        hr.generation hr.revision, ?_⟩
      · rw [commitConfiguration_ok hp, hro]
        rfl
      · intro as₁' m seen hpr hm hse _ hrev f hf
        exact values_eq_of_revision_eq ⟨.reply t o :: as₂, has.symm⟩ hpr hb hm hro hse
          (hr.revision.trans hrev.symm) hf
    · cases he
  · rcases patch_step hma with hsa | ⟨hw, hwr⟩
    · exact hsa
    · -- the write would be on record
      rcases href with hv | ⟨e, rfl⟩
      · cases hw.symm.trans hv
      · obtain ⟨x, hx, -, hme⟩ := hma.recorded hexec
        obtain rfl := Option.some.inj (hsession.symm.trans hx)
        have hca := (follows_run (.patchConfiguration req validateOnly)).thrown hre _ hme
        cases hwr.symm.trans hca

end Commit

/-! ### A shop -/

/-- A service with one strategy, `hash` of any dimension that its version says. -/
def shop : ConfigService Unit where
  runtime :=
    { empty := ()
      weights := fun _ => some []
      ofWeights := fun _ => ()
      format := fun x => toString x.num ++ "/" ++ toString x.den
      digest := fun desired => toString (desired.1.maxResults.getD 0)
      hash := fun key _ => "$" ++ key
      compareHashAndPassword := fun hash key => hash = "$" ++ key }
  registry := ⟨fun id version =>
    if id = "hash" then some fun _ => .ok (if version = "small" then 64 else 128) else none⟩
  denseCollections := true

/-- Stores without a row. -/
def noRows : Store Unit := ⟨⟨⟨.active, none, none⟩, ∅⟩, none, none, [], none⟩

/-- The next call of session `t` goes through. -/
def goes (t : ℕ) : Action Unit := .reply t (.ok ⟨0, "key", 0⟩)

def morePatch : ConfigurationPatch Unit :=
  ⟨"recommendations", 1, 1, AList.singleton "max_results" (.integer 20)⟩

/-- A namespace is made, and a patch of `max_results` meets an update of `lambda`. -/
def patchMeetsUpsert : List (Action Unit) :=
  .start 0 (.upsert {}) :: List.replicate 5 (goes 0) ++
    [.start 1 (.patchConfiguration morePatch false), goes 1, goes 1,
      .start 2 (.upsert { lambda := some (1 / 2) }), goes 2, goes 2, goes 2, goes 1, goes 1, goes 1]

theorem patch_replaces_what_was_read_shop : ∃ w done result,
    exec (step shop "shop") (boot noRows) patchMeetsUpsert = some w ∧
    w.session 1 = some ⟨.patchConfiguration morePatch false, done, .pure result⟩ ∧
    ∃ group row row', Group.ofName "recommendations" = some group ∧
      Replaces shop.runtime morePatch group row row' := by
  have hst : .start 1 (.patchConfiguration morePatch false) ∈ patchMeetsUpsert := by
    simp [patchMeetsUpsert]
  have hru : (exec (step shop "shop") (boot noRows) patchMeetsUpsert).any
      (fun w => w.endsWith 1 Except.isOk) = true := by decide +kernel
  obtain ⟨w, done, rest, x, he, hs, ho, hok⟩ :=
    Sessions.ended_of_check hst hru
  cases x with
  | error e => cases hok
  | ok result =>
    obtain rfl := Program.eq_pure_of_outcome ho
    refine ⟨w, done, result, he, hs, ?_⟩
    obtain ⟨-, -, -, -, group, row, row', -, hg, -, -, hr, -⟩ :=
      (patch_replaces_what_was_read rfl he hs).1 rfl ⟨result, rfl⟩
    exact ⟨group, row, row', hg, hr⟩

end Codohue.NsConfig
