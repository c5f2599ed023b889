import Codohue.NsConfigService

/-!
What the calls of `internal/nsconfig` do to the stores.

No call removes the configuration row, and every change of it goes through the trigger. So rows of
one generation with the same revision of a group have the same values of that group.
-/

namespace Codohue.NsConfig

open Service
open Program (Follows)

variable {P : Type}

/-! ### Calls in a program -/

section Requests

variable {β : Type} {B : List (Σ c : Call P, Answer c) → Call P → Prop}
  {Q : List (Σ c : Call P, Answer c) → Except (Error P) β → Prop} {c : Call P}
  {f : Value c → ConfigM P β}

lemma follows_request_bind (hB : B [] c)
    (hok : ∀ v, (f v).Follows (fun t => B (⟨c, .ok v⟩ :: t)) fun t => Q (⟨c, .ok v⟩ :: t))
    (he : ∀ e, Q [⟨c, .error e⟩] (.error e)) : (request c >>= f).Follows B Q := by
  refine ⟨hB, fun r => ?_⟩
  cases r with
  | ok v => exact hok v
  | error e => exact he e

lemma follows_requestIn_bind (hB : B [] c)
    (hok : ∀ v, (f v).Follows (fun t => B (⟨c, .ok v⟩ :: t)) fun t => Q (⟨c, .ok v⟩ :: t))
    (he : ∀ e, Q [⟨c, .error e⟩] (.error (.wrap ctx e))) : (requestIn ctx c >>= f).Follows B Q := by
  refine ⟨hB, fun r => ?_⟩
  cases r with
  | ok v => exact hok v
  | error e => exact he e

end Requests

/-! ### Later rows -/

/-- The same row at a later time. -/
structure Row.Later (row row' : Row P) : Prop where
  generation : row'.generation = row.generation
  revision : ∀ g, row.revision g ≤ row'.revision g
  values : ∀ g, row'.revision g = row.revision g → ∀ f : ConfigurationField, f.group = g →
    row'.values f = row.values f

lemma Row.Later.refl (row : Row P) : row.Later row := ⟨rfl, fun _ => le_rfl, fun _ _ _ _ => rfl⟩

lemma Row.Later.trans {row : Row P} (h : row.Later row') (h' : row'.Later row'') :
    row.Later row'' where
  generation := h'.generation.trans h.generation
  revision g := (h.revision g).trans (h'.revision g)
  values g heq f hf := by
    have hle := h.revision g
    have hle' := h'.revision g
    rw [h'.values g (by omega) f hf, h.values g (by omega) f hf]

section Rows

variable [DecidableEq P] {R : Runtime P} {row : Row P}

lemma advance_revision (old new : Row P) (g : Group) :
    (advance old new).revision g = old.revision g +
      if ∃ f ∈ configurationFields g, new.values f ≠ old.values f then 1 else 0 := rfl

lemma later_advance (h : new.generation = row.generation) :
    row.Later (advance row new) where
  generation := h
  revision g := by
    rw [advance_revision]
    split_ifs <;> omega
  values g heq f hf := by
    by_contra hne
    have hc : ∃ f ∈ configurationFields g, new.values f ≠ row.values f :=
      ⟨f, mem_configurationFields.mpr hf, hne⟩
    rw [advance_revision, if_pos hc] at heq
    omega

lemma later_upsertRow (req : UpsertRequest P) (now : ℤ) : row.Later (upsertRow R req now row) :=
  later_advance rfl

lemma later_catalogRow (req : UpdateCatalogRequest P) (now : ℤ) :
    row.Later (catalogRow R req now row) := later_advance rfl

lemma later_keyRow (hash : String) : row.Later (keyRow hash row) := by
  unfold keyRow
  split_ifs
  · exact later_advance rfl
  · exact .refl row

lemma later_patchRow (req : ConfigurationPatch P) (now : ℤ) :
    row.Later (patchRow R req now row) := by
  unfold patchRow
  split_ifs
  · exact later_advance rfl
  · exact .refl row

lemma later_writtenRow (req : UpsertRequest P) (catalogReq : Option (UpdateCatalogRequest P))
    (reply : Reply) : row.Later (writtenRow R req catalogReq reply row) := by
  have hk : (upsertRow R req reply.now row).Later
      (provisioned R req reply.salt (upsertRow R req reply.now row)) := by
    unfold provisioned
    split_ifs
    · exact .refl _
    · exact later_keyRow _
  have hb : row.Later (provisioned R req reply.salt (upsertRow R req reply.now row)) :=
    (later_upsertRow req reply.now).trans hk
  cases catalogReq with
  | none => exact hb
  | some c => exact hb.trans (later_catalogRow c reply.now)

end Rows

/-! ### What a call does -/

section Calls

variable [DecidableEq P] {R : Runtime P} {ns : String} {t : ℕ} {c : Call P} {s s' : Store P}
  {o : Outcome} {r : Answer c}

lemma serve_eq_some (h : serve R ns t c s o = some (r, s')) :
    admits t s c = true ∧ ((∃ reply v, perform R ns t c reply s = .ok (v, s') ∧ r = .ok v) ∨
      ∃ e, r = .error e ∧ s' = abandoned s c) := by
  unfold serve at h
  split_ifs at h with ha
  refine ⟨ha, ?_⟩
  cases o with
  | ok reply =>
    dsimp only at h
    cases hp : perform R ns t c reply s with
    | ok x =>
      obtain ⟨v, s''⟩ := x
      rw [hp] at h
      cases h
      exact .inl ⟨reply, v, hp, rfl⟩
    | error e =>
      rw [hp] at h
      cases h
      exact .inr ⟨e, rfl, rfl⟩
  | fails text =>
    cases h
    exact .inr ⟨.external text, rfl, rfl⟩

/-- The row that a new namespace starts with, or the one that is there. -/
def Seeded (R : Runtime P) (now : ℤ) (config : Option (Row P)) (row : Row P) : Prop :=
  config = some row ∨ config = none ∧ ∃ generation, row = freshRow R generation now

omit [DecidableEq P] in
lemma seed_ok (h : seed R ns now s = .ok s') :
    s'.provision = s.provision ∧ s'.collections = s.collections ∧ s'.lock = s.lock ∧
      (∀ row, s'.config = some row → Seeded R now s.config row) ∧
      (s'.lifecycles = s.lifecycles ∨
        ∃ l, Lifecycle.activate s.lifecycles ns = .ok (s'.lifecycles, l)) := by
  unfold seed at h
  split_ifs at h
  · cases h
    exact ⟨rfl, rfl, rfl, fun row hr => .inl hr, .inl rfl⟩
  · split at h
    · next lifecycles l ha =>
      cases h
      refine ⟨rfl, rfl, rfl, fun row hr => ?_, .inr ⟨l, ha⟩⟩
      cases hr
      cases hc : s.config with
      | none => exact .inr ⟨rfl, l.generation, rfl⟩
      | some row => exact .inl rfl
    · cases h
      exact ⟨rfl, rfl, rfl, fun row hr => .inl hr, .inl rfl⟩
    · cases h

variable {req : UpsertRequest P} {catalogReq : Option (UpdateCatalogRequest P)} {reply : Reply}
  {row' : Row P}

/-- What the writes of an upsert leave. -/
structure Written (R : Runtime P) (ns : String) (req : UpsertRequest P)
    (catalogReq : Option (UpdateCatalogRequest P)) (reply : Reply) (s : Store P) (row' : Row P)
    (s' : Store P) : Prop where
  config : s'.config = some row'
  row : ∃ row, Seeded R reply.now s.config row ∧ row' = writtenRow R req catalogReq reply row
  provision : s'.provision = if req.provisionAPIKey = "" then s.provision
    else some (desiredHash R req catalogReq)
  lifecycles : s'.lifecycles = s.lifecycles ∨
    ∃ l, Lifecycle.activate s.lifecycles ns = .ok (s'.lifecycles, l)
  collections : s'.collections = s.collections
  lock : s'.lock = s.lock

lemma applyUpsert_ok (h : applyUpsert R ns req catalogReq reply s = .ok (row', s')) :
    Written R ns req catalogReq reply s row' s' := by
  unfold applyUpsert at h
  cases hs : seed R ns reply.now s with
  | error e =>
    rw [hs] at h
    cases h
  | ok m =>
    rw [hs] at h
    obtain ⟨hp, hc, hlo, hco, hl⟩ := seed_ok hs
    cases hr : m.config with
    | none =>
      simp only [bind, Except.bind, hr] at h
      cases h
    | some row =>
      simp only [bind, Except.bind, hr] at h
      split_ifs at h with hk hh
      · cases h
        exact ⟨rfl, ⟨row, hco row hr, rfl⟩, by rw [if_pos hk, ← hp], hl,
          hc, hlo⟩
      · cases h
        exact ⟨rfl, ⟨row, hco row hr, rfl⟩, (if_neg hk).symm, hl, hc, hlo⟩

lemma upsertWithCatalog_ok (h : upsertWithCatalog R ns req catalogReq reply s = .ok (row', s')) :
    (Written R ns req catalogReq reply s row' s' ∧ (req.provisionAPIKey = "" ∨ s.config = none)) ∨
      (s' = s ∧ s.config = some row' ∧ req.provisionAPIKey ≠ "" ∧
        s.provision = some (desiredHash R req catalogReq) ∧
        R.compareHashAndPassword (row'.apiKeyHash.getD "") req.provisionAPIKey = true) := by
  unfold upsertWithCatalog at h
  split_ifs at h with hk
  · exact .inl ⟨applyUpsert_ok h, .inl hk⟩
  · cases hc : s.config with
    | none =>
      simp only [hc] at h
      exact .inl ⟨applyUpsert_ok h, .inr rfl⟩
    | some existing =>
      simp only [hc] at h
      split_ifs at h with hs
      cases h
      exact .inr ⟨rfl, rfl, hk, hs⟩

omit [DecidableEq P] in
@[simp] lemma abandoned_config : (abandoned s c).config = s.config := by cases c <;> rfl

/-- What a call makes of the configuration row. -/
def Rewrites (R : Runtime P) (reply : Reply) (s s' : Store P) : Call P → Prop
  | .upsertWithCatalog req catalogReq => s'.config = s.config ∨
      (req.provisionAPIKey = "" ∨ s.config = none) ∧ ∃ row, Seeded R reply.now s.config row ∧
        s'.config = some (writtenRow R req catalogReq reply row)
  | .setAPIKeyHash hash => s'.config = s.config.map (keyRow hash)
  | .replaceAPIKeyHash hash => s'.config = s.config.map (rotatedRow hash reply.now)
  | .upsertCatalogConfig req => s'.config = s.config.map (catalogRow R req reply.now)
  | .commitConfiguration req validateOnly =>
      s'.config = if validateOnly then s.config else s.config.map (patchRow R req reply.now)
  | _ => s'.config = s.config

lemma commitConfiguration_ok (h : commitConfiguration R ns patch vo now s = .ok (res, s')) :
    s' = { s with
      config := if vo then s.config else s.config.map (patchRow R patch now)
      lock := none } := by
  unfold commitConfiguration at h
  cases vo with
  | true =>
    cases hr : readConfiguration ns s with
    | error e =>
      simp only [if_true, hr] at h
      cases h
    | ok cur =>
      simp only [if_true, hr] at h
      exact (Prod.mk.inj (Except.ok.inj h)).2.symm
  | false =>
    cases hr : readConfiguration ns { s with config := s.config.map (patchRow R patch now) } with
    | error e =>
      simp only [Bool.false_eq_true, if_false, hr] at h
      cases h
    | ok cur =>
      simp only [Bool.false_eq_true, if_false, hr] at h
      exact (Prod.mk.inj (Except.ok.inj h)).2.symm

omit [DecidableEq P] in
lemma activate_ok (h : activate ns s = .ok s') :
    ∃ lifecycles l, Lifecycle.activate s.lifecycles ns = .ok (lifecycles, l) ∧
      s' = { s with lifecycles := lifecycles } := by
  unfold activate at h
  split_ifs at h
  split at h
  · next lifecycles l ha =>
    cases h
    exact ⟨lifecycles, l, ha, rfl⟩
  · cases h

omit [DecidableEq P] in
lemma readConfiguration_ok (h : readConfiguration ns s = .ok cur) :
    ∃ row, s.config = some row ∧ cur = row.configuration := by
  unfold readConfiguration at h
  split at h
  · next row lifecycle hc hl =>
    split_ifs at h
    exact ⟨row, hc, (Except.ok.inj h).symm⟩
  · cases h

lemma perform_lockConfiguration (h : perform R ns t .lockConfiguration reply s = .ok (cur, s')) :
    (∃ row, s.config = some row ∧ cur = row.configuration) ∧
      s' = { s with lock := some t } := by
  simp only [perform] at h
  split_ifs at h
  obtain ⟨a, ha, heq⟩ := ok_of_map h
  obtain ⟨rfl, rfl⟩ := Prod.mk.inj heq
  exact ⟨readConfiguration_ok ha, rfl⟩

lemma perform_rewrites (h : perform R ns t c reply s = .ok (v, s')) : Rewrites R reply s s' c := by
  cases c with
  | upsertWithCatalog req catalogReq =>
    rcases upsertWithCatalog_ok (ok_of_mapError h) with ⟨hw, hk⟩ | ⟨rfl, -⟩
    · obtain ⟨row, hs, rfl⟩ := hw.row
      exact .inr ⟨hk, row, hs, hw.config⟩
    · exact .inl rfl
  | commitConfiguration patch vo =>
    rw [commitConfiguration_ok h]
    rfl
  | setAPIKeyHash hash | replaceAPIKeyHash hash | upsertCatalogConfig req | get
  | denseCollectionsExist gen | generateAPIKey | rollback
  | createDenseCollections gen =>
    cases h
    rfl
  | readConfiguration | withWriter =>
    obtain ⟨a, -, heq⟩ := ok_of_map h
    obtain ⟨-, rfl⟩ := Prod.mk.inj heq
    rfl
  | activate =>
    obtain ⟨m, hm, heq⟩ := ok_of_map h
    obtain ⟨-, rfl⟩ := Prod.mk.inj heq
    obtain ⟨lcs, l, -, rfl⟩ := activate_ok hm
    rfl
  | lockConfiguration =>
    rw [(perform_lockConfiguration h).2]
    rfl

lemma serve_config (h : serve R ns t c s o = some (r, s')) :
    s'.config = s.config ∨ ∃ reply, Rewrites R reply s s' c := by
  obtain ⟨-, ⟨reply, v, hp, -⟩ | ⟨e, -, rfl⟩⟩ := serve_eq_some h
  · exact .inr ⟨reply, perform_rewrites hp⟩
  · exact .inl abandoned_config

/-- A row stays, and is only rewritten. -/
def Evolves (s s' : Store P) : Prop :=
  ∀ row, s.config = some row → ∃ row', s'.config = some row' ∧ row.Later row'

omit [DecidableEq P] in
lemma evolves_of_map (h : s'.config = s.config.map f) (hf : ∀ row : Row P, row.Later (f row)) :
    Evolves s s' := by
  intro row hr
  exact ⟨f row, by rw [h, hr, Option.map_some], hf row⟩

omit [DecidableEq P] in
lemma evolves_of_eq (h : s'.config = s.config) : Evolves s s' :=
  fun row hr => ⟨row, h.trans hr, .refl row⟩

lemma serve_evolves (h : serve R ns t c s o = some (r, s')) : Evolves s s' := by
  rcases serve_config h with hs | ⟨reply, hr⟩
  · exact evolves_of_eq hs
  cases c with
  | upsertWithCatalog req catalogReq =>
    rcases hr with hs | ⟨-, row, hse, hc⟩
    · exact evolves_of_eq hs
    · intro old ho
      rcases hse with hro | ⟨hn, -⟩
      · obtain rfl := Option.some.inj (ho.symm.trans hro)
        exact ⟨_, hc, later_writtenRow req catalogReq reply⟩
      · cases ho.symm.trans hn
  | setAPIKeyHash hash => exact evolves_of_map hr fun _ => later_keyRow hash
  | replaceAPIKeyHash hash => exact evolves_of_map hr fun _ => later_advance rfl
  | upsertCatalogConfig req =>
    exact evolves_of_map hr fun _ => later_catalogRow req reply.now
  | commitConfiguration req vo =>
    cases vo with
    | true => exact evolves_of_eq hr
    | false => exact evolves_of_map hr fun _ => later_patchRow req reply.now
  | _ => exact evolves_of_eq hr

end Calls

end Codohue.NsConfig
