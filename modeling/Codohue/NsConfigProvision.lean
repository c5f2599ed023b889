import Codohue.NsConfigRejection

/-!
Provisioning, next to ordinary upserts, within one incarnation of the namespace.

Whoever finds no configuration row makes it, and nothing removes it. If the one that makes it is a
provisioning request, the row has the hash of its key and the record has the digest of what it
desires, and no upsert changes either. So every other provisioning request is compared with that
one.
-/

namespace Codohue.NsConfig

open Service Transition
open Sessions (Makes boot)
open Program (Follows Ends)

variable {P : Type}

/-! ### One incarnation -/

def Active (ns : String) (s : Store P) : Prop :=
  (s.lifecycles.row ns).any (·.state = .active) = true

/-- The namespace is active or can be made so, and there is a row only while it is active. -/
structure Living (ns : String) (s : Store P) : Prop where
  idle : s.lock = none
  system : s.lifecycles.system.state = .active
  openable : ∃ p, Lifecycle.activate s.lifecycles ns = .ok p
  seeded : s.config ≠ none → Active ns s
  unprovisioned : s.config = none → s.provision = none

/-- What holds along a run of upserts. -/
structure Incarnation (S : ConfigService P) (ns : String) [DecidableEq P] (w : Scene P) : Prop where
  faithful : Sessions.Faithful (Request.run S ns) w
  upserts : ∀ t x, w.session t = some x → ∃ req, x.request = .upsert req
  living : Living ns w.shared
  opened : ∀ t x, w.session t = some x → ⟨.activate, .ok ()⟩ ∈ x.done → Active ns w.shared

variable {R : Runtime P} {ns : String} {t : ℕ} {c : Call P} {s : Store P} {o : Outcome}
  {r : Answer c}

section Calls

lemma Evolves.none (h : Evolves s s') (hn : s'.config = none) : s.config = none := by
  refine Option.eq_none_iff_forall_ne_some.mpr fun row hr => ?_
  obtain ⟨row', hr', -⟩ := h row hr
  cases hn.symm.trans hr'

lemma active_of_activate (h : Lifecycle.activate s.lifecycles ns = .ok (s'.lifecycles, l)) :
    Active ns s' := by
  obtain ⟨hse, hs, -⟩ := Lifecycle.activate_ok h
  rw [Active, hse, Lifecycle.setRow_row]
  simpa using hs

lemma activate_of_active (h : Active ns s) : ∃ l, s.lifecycles.row ns = some l ∧
    Lifecycle.activate s.lifecycles ns = .ok (s.lifecycles.setRow ns l, l) := by
  obtain ⟨l, hl, hs⟩ := (Option.any_eq_true _ _).mp h
  exact ⟨l, hl, by simp only [Lifecycle.activate, hl, of_decide_eq_true hs]⟩

variable [DecidableEq P]

/-- No call touches the lifecycles but to activate the namespace, and the record of a provisioning
is written together with the row. -/
lemma serve_rows (h : serve R ns t c s o = some (r, s')) : (s'.lifecycles = s.lifecycles ∨
      ∃ l, Lifecycle.activate s.lifecycles ns = .ok (s'.lifecycles, l)) ∧
    (s'.provision = s.provision ∨ s'.config ≠ none) := by
  obtain ⟨-, ⟨reply, v, hp, rfl⟩ | ⟨e, -, rfl⟩⟩ := serve_eq_some h
  · cases c with
    | activate =>
      obtain ⟨m, hm, heq⟩ := ok_of_map hp
      obtain ⟨-, rfl⟩ := Prod.mk.inj heq
      obtain ⟨lcs, l, ha, rfl⟩ := activate_ok hm
      exact ⟨.inr ⟨l, ha⟩, .inl rfl⟩
    | upsertWithCatalog base catalogReq =>
      rcases upsertWithCatalog_ok (ok_of_mapError hp) with ⟨hw, -⟩ | ⟨rfl, -⟩
      · exact ⟨hw.lifecycles, .inr (by rw [hw.config]; exact nofun)⟩
      · exact ⟨.inl rfl, .inl rfl⟩
    | commitConfiguration patch vo =>
      rw [commitConfiguration_ok hp]
      exact ⟨.inl rfl, .inl rfl⟩
    | setAPIKeyHash hash | replaceAPIKeyHash hash | upsertCatalogConfig req
    | createDenseCollections gen =>
      cases hp
      exact ⟨.inl rfl, .inl rfl⟩
    | _ =>
      have hs : Unchanged s s' := serve_unchanged h rfl nofun nofun
      exact ⟨.inl hs.lifecycles, .inl hs.provision⟩
  · have hs := unchanged_abandoned s c
    exact ⟨.inl hs.lifecycles, .inl hs.provision⟩

lemma activate_keeps {r : Answer (.activate : Call P)}
    (h : serve R ns t .activate s o = some (r, s')) :
    s'.config = s.config ∧ s'.provision = s.provision := by
  obtain ⟨-, ⟨reply, v, hp, -⟩ | ⟨e, -, rfl⟩⟩ := serve_eq_some h
  · obtain ⟨m, hm, heq⟩ := ok_of_map hp
    obtain ⟨-, rfl⟩ := Prod.mk.inj heq
    obtain ⟨lcs, l, -, rfl⟩ := activate_ok hm
    exact ⟨rfl, rfl⟩
  · exact ⟨rfl, rfl⟩

lemma active_serve (h : serve R ns t c s o = some (r, s')) (ha : Active ns s) : Active ns s' := by
  rcases (serve_rows h).1 with hs | ⟨l, hl⟩
  · rw [Active, hs]
    exact ha
  · exact active_of_activate hl

lemma serve_creates (h : serve R ns t c s o = some (r, s')) (hn : s.config = none)
    (hs : s'.config ≠ none) : ∃ base catalogReq, c = .upsertWithCatalog base catalogReq := by
  rcases serve_config h with hsa | ⟨reply, hr⟩
  · exact absurd (hsa.trans hn) hs
  cases c with
  | upsertWithCatalog base catalogReq => exact ⟨base, catalogReq, rfl⟩
  | setAPIKeyHash hash | replaceAPIKeyHash hash | upsertCatalogConfig req =>
    rw [Rewrites, hn] at hr
    exact absurd hr hs
  | commitConfiguration patch vo =>
    rw [Rewrites, hn] at hr
    cases vo <;> exact absurd hr hs
  | _ => exact absurd (Eq.trans hr hn) hs

end Calls

variable {req : UpsertRequest P} {done : List (Exchange P)}

variable {S : ConfigService P} {s₀ : Store P} {w : Scene P} {as : List (Action P)} {u : ℕ}

section Runs

variable [DecidableEq P]

lemma Incarnation.calls (hw : Incarnation S ns w) {request : Request P}
    (hc : w.session t = some ⟨request, done, .call c k⟩) :
    ∃ req, request = .upsert req ∧ UpsertCalls S req done c := by
  obtain ⟨req, rfl⟩ := hw.upserts t _ hc
  exact ⟨req, rfl, calls_of_session hw.faithful hc⟩

lemma incarnation_start {request : Request P} (hw : Incarnation S ns w)
    (hup : ∃ req, request = .upsert req) (h : step S ns w (.start t request) = some w') :
    Incarnation S ns w' := by
  have hf := Sessions.faithful_step hw.faithful h
  obtain ⟨hfr, hs, hse⟩ := Sessions.step_start h
  -- a session of the new state is an old one, or has done nothing
  have hc : ∀ v x, w'.session v = some x →
      w.session v = some x ∨ x = ⟨request, [], request.run S ns⟩ := by
    intro v x hx
    rw [hse] at hx
    rcases Sessions.update_eq_some hx with ⟨-, rfl⟩ | ⟨-, hx⟩
    · exact .inr rfl
    · exact .inl hx
  refine ⟨hf, fun v x hx => ?_, hs ▸ hw.living, fun v x hx hm => ?_⟩
  · rcases hc v x hx with ho | rfl
    · exact hw.upserts v x ho
    · exact hup
  · rw [hs]
    rcases hc v x hx with ho | rfl
    · exact hw.opened v x ho hm
    · cases hm

lemma living_serve (hs : Living ns s) (hc : UpsertCalls S req done c)
    (hop : ⟨.activate, .ok ()⟩ ∈ done → Active ns s)
    (h : serve S.runtime ns t c s o = some (r, s')) : Living ns s' := by
  refine ⟨?_, ?_, ?_, fun hso => ?_, fun hn => ?_⟩
  · refine Option.eq_none_iff_forall_ne_some.mpr fun v hlo => ?_
    rcases serve_lock h hlo with ⟨hh, -⟩ | ⟨-, row, -, heq⟩
    · cases hs.idle.symm.trans hh
    · obtain ⟨rfl, -⟩ := Sigma.mk.inj heq
      exact hc
  · rcases (serve_rows h).1 with hsa | ⟨l, hl⟩
    · rw [hsa, hs.system]
    · rw [(Lifecycle.activate_ok hl).1, Lifecycle.setRow_system, hs.system]
  · rcases (serve_rows h).1 with hsa | ⟨l, hl⟩
    · rw [hsa]
      exact hs.openable
    · obtain ⟨l', -, hl'⟩ := activate_of_active (active_of_activate hl)
      exact ⟨_, hl'⟩
  · refine active_serve h ?_
    by_cases ho : s.config = none
    · obtain ⟨base, catalogReq, rfl⟩ := serve_creates h ho hso
      exact hop hc.2.opened
    · exact hs.seeded ho
  · rw [(serve_rows h).2.resolve_right (not_not.mpr hn),
      hs.unprovisioned ((serve_evolves h).none hn)]

lemma incarnation_reply (hw : Incarnation S ns w) (h : step S ns w (.reply t o) = some w') :
    Incarnation S ns w' := by
  have hf := Sessions.faithful_step hw.faithful h
  obtain ⟨request, done, c, k, r, hc, hs, hse⟩ := Sessions.step_reply h
  obtain ⟨req, rfl, hca⟩ := hw.calls hc
  refine ⟨hf, fun v x hx => ?_, living_serve hw.living hca (hw.opened t _ hc) hs,
    fun v x hx hme => ?_⟩
  · rw [hse] at hx
    rcases Sessions.update_eq_some hx with ⟨-, rfl⟩ | ⟨-, hx⟩
    · exact ⟨req, rfl⟩
    · exact hw.upserts v x hx
  · rw [hse] at hx
    rcases Sessions.update_eq_some hx with ⟨rfl, rfl⟩ | ⟨-, hx⟩
    · rcases List.mem_append.mp hme with ho | hn
      · exact active_serve hs (hw.opened v _ hc ho)
      · -- the activation itself
        obtain ⟨rfl, hr⟩ := Sigma.mk.inj (List.mem_singleton.mp hn)
        obtain rfl := eq_of_heq hr
        obtain ⟨-, ⟨reply, _, hp, -⟩ | ⟨e, he, -⟩⟩ := serve_eq_some hs
        · obtain ⟨m, hm, heq⟩ := ok_of_map hp
          obtain ⟨lcs, l, hl, rfl⟩ := activate_ok hm
          obtain ⟨-, hsh⟩ := Prod.mk.inj heq
          rw [← hsh]
          exact active_of_activate hl
        · cases he
    · exact active_serve hs (hw.opened v x hx hme)

def OnlyUpserts (as : List (Action P)) : Prop :=
  ∀ t request, .start t request ∈ as → ∃ req, request = .upsert req

lemma exec_upserts {I : Scene P → Prop} (hs : ∀ w a w', Incarnation S ns w → I w →
      step S ns w a = some w' → I w') (ho : OnlyUpserts as)
    (he : exec (step S ns) w as = some w') (hw : Incarnation S ns w) (hI : I w) :
    Incarnation S ns w' ∧ I w' := by
  refine exec_guarded (I := fun w => Incarnation S ns w ∧ I w)
    (G := fun _ a => ∀ t request, a = .start t request → ∃ req, request = .upsert req)
    (fun w a w' hw ha h => ⟨?_, hs w a w' hw.1 hw.2 h⟩) (along_of_forall ?_ w) he ⟨hw, hI⟩
  · cases a with
    | start t request => exact incarnation_start hw.1 (ha t request rfl) h
    | reply t o => exact incarnation_reply hw.1 h
  · rintro a ha - t request rfl
    exact ho t request ha

lemma incarnation_of_exec (hs₀ : Living ns s₀) (ho : OnlyUpserts as)
    (he : exec (step S ns) (boot s₀) as = some w) : Incarnation S ns w := by
  have hn : exec (step S ns) (boot s₀) [] = some (boot s₀) := rfl
  have hb : Incarnation S ns (boot s₀) :=
    ⟨Sessions.faithful_of_exec hn, fun _ _ h => (by cases h), hs₀, fun _ _ h => (by cases h)⟩
  exact (exec_upserts (I := fun _ => True) (fun _ _ _ _ h _ => h) ho he hb trivial).1

end Runs

/-! ### The key and the record -/

/-- What the digest is taken of. -/
def UpsertRequest.desired (req : UpsertRequest P) :
    UpsertRequest P × Option (UpdateCatalogRequest P) :=
  ({ req.split.1 with provisionAPIKey := "" }, req.split.2)

/-- The row and the record are those that the request has made. -/
def ProvisionedBy (R : Runtime P) (req : UpsertRequest P) (s : Store P) : Prop :=
  ∃ row salt, s.config = some row ∧ row.apiKeyHash = some (R.hash req.provisionAPIKey salt) ∧
    s.provision = some (R.digest req.desired)

section Keys

lemma split_key (h : req.split = (base, catalogReq)) :
    base.provisionAPIKey = req.provisionAPIKey := by
  cases catalogReq with
  | none => rw [(split_none h).2]
  | some c => rw [(split_some h).2.1]

variable [DecidableEq P]

lemma writtenRow_apiKeyHash :
    (writtenRow R base catalogReq reply row).apiKeyHash =
      if base.provisionAPIKey = "" then row.apiKeyHash
      else row.apiKeyHash.or (some (R.hash base.provisionAPIKey reply.salt)) := by
  have hk : (provisioned R base reply.salt (upsertRow R base reply.now row)).apiKeyHash =
      if base.provisionAPIKey = "" then row.apiKeyHash
      else row.apiKeyHash.or (some (R.hash base.provisionAPIKey reply.salt)) := by
    unfold provisioned
    split_ifs
    · rfl
    · cases hr : row.apiKeyHash with
      | none =>
        have hf : (upsertRow R base reply.now row).apiKeyHash = none := hr
        rw [keyRow, if_pos hf]
        rfl
      | some hash =>
        have hh : (upsertRow R base reply.now row).apiKeyHash = some hash := hr
        rw [keyRow, if_neg (by rw [hh]; exact nofun), hh]
        rfl
  cases catalogReq with
  | none | some c => exact hk

lemma provisionedBy_serve (h : serve S.runtime ns t c s o = some (r, s'))
    (hca : UpsertCalls S req' done c) (hs : ProvisionedBy S.runtime req s) :
    ProvisionedBy S.runtime req s' := by
  obtain ⟨row, salt, hr, hk, hp⟩ := hs
  obtain ⟨-, ⟨reply, v, hpe, rfl⟩ | ⟨e, -, rfl⟩⟩ := serve_eq_some h
  · cases c with
    | upsertWithCatalog base catalogReq =>
      rcases upsertWithCatalog_ok (ok_of_mapError hpe) with ⟨hw, hb⟩ | ⟨rfl, -⟩
      · have ho : base.provisionAPIKey = "" := hb.resolve_right (by rw [hr]; exact nofun)
        obtain ⟨seed, hse, hv⟩ := hw.row
        obtain rfl : seed = row := by
          rcases hse with hsee | ⟨hn, -⟩
          · exact Option.some.inj (hsee.symm.trans hr)
          · cases hn.symm.trans hr
        refine ⟨v, salt, hw.config, ?_, ?_⟩
        · rw [hv, writtenRow_apiKeyHash, if_pos ho, hk]
        · rw [hw.provision, if_pos ho, hp]
      · exact ⟨row, salt, hr, hk, hp⟩
    | setAPIKeyHash hash =>
      cases hpe
      refine ⟨row, salt, ?_, hk, hp⟩
      rw [hr, Option.map_some, keyRow, if_neg (by rw [hk]; exact nofun)]
    | activate =>
      obtain ⟨hc, hre⟩ := activate_keeps h
      exact ⟨row, salt, hc.trans hr, hk, hre.trans hp⟩
    | get | denseCollectionsExist generation | withWriter | generateAPIKey =>
      have hsa : Unchanged s s' := serve_unchanged h rfl nofun nofun
      exact ⟨row, salt, hsa.config.trans hr, hk, hsa.provision.trans hp⟩
    | _ => cases hca
  · have hsa := unchanged_abandoned s c
    exact ⟨row, salt, hsa.config.trans hr, hk, hsa.provision.trans hp⟩

lemma provisionedBy_exec (hw : Incarnation S ns w) (ho : OnlyUpserts as)
    (he : exec (step S ns) w as = some w') (hs : ProvisionedBy S.runtime req w.shared) :
    ProvisionedBy S.runtime req w'.shared := by
  refine (exec_upserts (I := fun w => ProvisionedBy S.runtime req w.shared)
    (fun w a w' hw hs h => ?_) ho he hw hs).2
  cases a with
  | start t request => rwa [(Sessions.step_start h).2.1]
  | reply t o =>
    obtain ⟨request, done, c, k, r, hca, hse, -⟩ := Sessions.step_reply h
    obtain ⟨req', -, hc⟩ := hw.calls hca
    exact provisionedBy_serve hse hc hs

lemma provisionedBy_created {r : Answer (.upsertWithCatalog base catalogReq)}
    (h : serve S.runtime ns t (.upsertWithCatalog base catalogReq) s o = some (r, s'))
    (hs : req.split = (base, catalogReq)) (hk : req.provisionAPIKey ≠ "")
    (hn : s.config = none) (hso : s'.config ≠ none) : ProvisionedBy S.runtime req s' := by
  have hb : base.provisionAPIKey ≠ "" := by rwa [split_key hs]
  obtain ⟨-, ⟨reply, v, hp, rfl⟩ | ⟨e, -, rfl⟩⟩ := serve_eq_some h
  · rcases upsertWithCatalog_ok (ok_of_mapError hp) with ⟨hw, -⟩ | ⟨rfl, hh, -⟩
    · obtain ⟨seed, hse, hv⟩ := hw.row
      rcases hse with hh | ⟨-, gen, rfl⟩
      · cases hn.symm.trans hh
      · refine ⟨v, reply.salt, hw.config, ?_, ?_⟩
        · rw [hv, writtenRow_apiKeyHash, if_neg hb, split_key hs]
          rfl
        · rw [hw.provision, if_neg hb, UpsertRequest.desired, hs]
          rfl
    · cases hn.symm.trans hh
  · exact absurd hn hso

end Keys

/-! ### The creation -/

variable {before after : Scene P}

section Creation

variable [DecidableEq P]

/-- In the run session `u` makes the configuration row. -/
def Creates (S : ConfigService P) (ns : String) (s₀ : Store P) (as : List (Action P)) (u : ℕ)
    (request : Request P) : Prop :=
  ∃ done c r before after, Makes (serve S.runtime ns) (Request.run S ns) s₀ as u request done c r
    before after ∧ before.shared.config = none ∧ after.shared.config ≠ none

lemma creates_unique {request : Request P} (hu : Creates S ns s₀ as u request)
    (ht : Creates S ns s₀ as t rq') : t = u := by
  obtain ⟨-, -, -, m, m', ⟨as₁, o, as₂, -, has, hm, hm', -, -⟩, hno, hs⟩ := hu
  obtain ⟨-, -, -, n, n', ⟨bs₁, o', bs₂, -, hbs, hn, hn', -, -⟩, hno', hs'⟩ := ht
  rcases steps_ordered _ (has.symm.trans hbs) hm hm' hn hn' with
    ⟨-, heq⟩ | ⟨rest, hbs₁, hr⟩ | ⟨rest, -, hr⟩
  · exact (PoolAction.reply.inj heq).1.symm
  · exact absurd ((evolves_of_exec hr).none hno') hs
  · exact absurd ((evolves_of_exec hr).none hno) hs'

/-- In a run of upserts session `u` makes the row, with a provisioning request. -/
structure Provisions (S : ConfigService P) (ns : String) (s₀ : Store P) (as : List (Action P))
    (u : ℕ)     (req : UpsertRequest P) : Prop where
  living : Living ns s₀
  upserts : OnlyUpserts as
  creates : Creates S ns s₀ as u (.upsert req)
  key : req.provisionAPIKey ≠ ""

variable (hu : Provisions S ns s₀ as u req) {request : Request P}
  (hmakes : Makes (serve S.runtime ns) (Request.run S ns) s₀ as t request done c r before after)
include hu hmakes

lemma Provisions.incarnation : Incarnation S ns before := by
  obtain ⟨as₁, o, as₂, k, has, hb, -, -, -⟩ := hmakes
  exact incarnation_of_exec hu.living (fun v request hm =>
    hu.upserts v request (has ▸ List.mem_append_left _ hm)) hb

/-- Another session meets no row and leaves none, or meets the row of the one that made it. -/
lemma meets_creation (htu : t ≠ u) : (before.shared.config = none ∧ after.shared.config = none) ∨
    ProvisionedBy S.runtime req before.shared := by
  obtain ⟨done', c', r', m, m', hmakes', hno, hso⟩ := hu.creates
  have hm₁ : Incarnation S ns m := hu.incarnation hmakes'
  obtain ⟨as₁, o, as₂, k', has, hm, hm', hc', hs'⟩ := hmakes'
  obtain ⟨bs₁, o', bs₂, k, hbs, hn, hn', hc, hs⟩ := hmakes
  rcases steps_ordered _ (has.symm.trans hbs) hm hm' hn hn' with
    ⟨-, heq⟩ | ⟨rest, hbs₁, hr⟩ | ⟨rest, -, hr⟩
  · exact absurd (PoolAction.reply.inj heq).1.symm htu
  · right
    have ho₂ : OnlyUpserts rest := fun v request hme =>
      hu.upserts v request (by simp [hbs, hbs₁, hme])
    have hm₂ : Incarnation S ns m' := incarnation_reply hm₁ hm'
    have hp : ProvisionedBy S.runtime req m'.shared := by
      obtain ⟨base, catalogReq, rfl⟩ := serve_creates hs' hno hso
      obtain ⟨req', heq, hca⟩ := hm₁.calls hc'
      obtain rfl := Request.upsert.inj heq
      exact provisionedBy_created hs' hca.1 hu.key hno hso
    exact provisionedBy_exec hm₂ ho₂ hr hp
  · have ha := (evolves_of_exec hr).none hno
    exact .inl ⟨(serve_evolves hs).none ha, ha⟩

end Creation

/-! ### The other provisioning requests -/

/-- `bcrypt` accepts exactly the key that was hashed. -/
structure Bcrypt (R : Runtime P) : Prop where
  accepts : ∀ key salt key', R.compareHashAndPassword (R.hash key salt) key' = true ↔ key' = key
  nonempty : ∀ key salt, R.hash key salt ≠ ""

variable {req' : UpsertRequest P}

section Others

variable [DecidableEq P]

lemma confirms (hu : Provisions S ns s₀ as u req) (htu : t ≠ u) (hk' : req'.provisionAPIKey ≠ "")
    (hmakes : Makes (serve S.runtime ns) (Request.run S ns) s₀ as t (.upsert req') done
      (.upsertWithCatalog base catalogReq) (.ok cfg) before after) :
    after.shared = before.shared ∧ ∃ salt,
      cfg.apiKeyHash = some (S.runtime.hash req.provisionAPIKey salt) ∧
      S.runtime.digest req'.desired = S.runtime.digest req.desired ∧
      S.runtime.compareHashAndPassword (S.runtime.hash req.provisionAPIKey salt)
        req'.provisionAPIKey = true := by
  have hm := meets_creation hu hmakes htu
  obtain ⟨hs, -⟩ := hmakes.follows (follows_run (.upsert req'))
  obtain ⟨as₁, o, as₂, k, -, -, -, -, hse⟩ := hmakes
  obtain ⟨-, ⟨reply, v, hpe, hv⟩ | ⟨e, he, -⟩⟩ := serve_eq_some hse
  · cases hv
    rcases upsertWithCatalog_ok (ok_of_mapError hpe) with
      ⟨hw, hf⟩ | ⟨hsa, hco, -, hp, hc⟩
    · -- it would be the one that makes the row
      have hn := hf.resolve_left (by rwa [split_key hs])
      rcases hm with ⟨-, hn'⟩ | ⟨row, -, hr, -⟩
      · cases hn'.symm.trans hw.config
      · cases hn.symm.trans hr
    · refine ⟨hsa, ?_⟩
      rcases hm with ⟨hn, -⟩ | ⟨row, salt, hr, hh, hre⟩
      · cases hn.symm.trans hco
      · obtain rfl := Option.some.inj (hco.symm.trans hr)
        refine ⟨salt, hh, ?_, ?_⟩
        · have hd := Option.some.inj (hp.symm.trans hre)
          rw [← hd, UpsertRequest.desired, hs]
          rfl
        · rw [hh, split_key hs] at hc
          exact hc
  · cases he

lemma other_step (hb : Bcrypt S.runtime) (hu : Provisions S ns s₀ as u req) (htu : t ≠ u)
    (hk' : req'.provisionAPIKey ≠ "")
    (hmakes : Makes (serve S.runtime ns) (Request.run S ns) s₀ as t (.upsert req') done c r before
      after) :
    after.shared.config = before.shared.config ∧ after.shared.provision = before.shared.provision ∧
      (before.shared.config ≠ none → SameRows before.shared after.shared) := by
  have hr : SameRows before.shared after.shared → after.shared.config = before.shared.config ∧
      after.shared.provision = before.shared.provision ∧
      (before.shared.config ≠ none → SameRows before.shared after.shared) :=
    fun h => ⟨h.config, h.provision, fun _ => h⟩
  have hca := hmakes.follows (follows_run (.upsert req'))
  obtain ⟨as₁, o, as₂, k, has, hbe, -, hcal, hs⟩ := id hmakes
  cases c with
  | get | denseCollectionsExist generation | withWriter | generateAPIKey =>
    exact hr (serve_unchanged hs rfl nofun nofun).sameRows
  | upsertWithCatalog base catalogReq =>
    cases r with
    | ok cfg =>
      have hsa := (confirms hu htu hk' hmakes).1
      exact hr (by rw [hsa]; exact .refl _)
    | error e => exact hr (serve_unchanged hs rfl nofun nofun).sameRows
  | setAPIKeyHash hash =>
    -- the row that it has confirmed has a key
    exfalso
    obtain ⟨cfg, hm, he⟩ := hca
    obtain ⟨done', n, n', hc⟩ := Sessions.makes_of_mem_done hbe hcal hm
    have hc' := hc.append (.reply t o :: as₂)
    rw [← has] at hc'
    obtain ⟨-, salt, hh, -⟩ := confirms hu htu hk' hc'
    rw [hh] at he
    exact hb.nonempty _ _ he
  | activate =>
    obtain ⟨hco, hp⟩ := activate_keeps hs
    refine ⟨hco, hp, fun hso => (serve_activate hs).resolve_right fun h => ?_⟩
    cases h.1.symm.trans ((hu.incarnation hmakes).living.seeded hso)
  | _ => cases hca

end Others

/-! ### A repeated request -/

section Repeated

lemma guard_provision (hk : req.provisionAPIKey ≠ "") :
    guardEmbeddingDimChange S req = pure () := by
  unfold guardEmbeddingDimChange
  cases req.embeddingDim with
  | none => rfl
  | some dim => exact if_pos (.inr hk)

/-- A provisioning request is checked against a dimension that it says, or the default. -/
lemma requestedDim_provision (hk : req.provisionAPIKey ≠ "")
    (hv : validateUpsert S.runtime req = .ok ()) :
    ∃ dim, requestedDim req.split.1 = some dim ∧ 0 < dim := by
  have hs : requestedDim req.split.1 = requestedDim req := by
    unfold UpsertRequest.split
    split_ifs <;> rfl
  rw [hs, requestedDim]
  cases hd : req.embeddingDim with
  | none => exact ⟨schemaEmbeddingDim, if_pos ⟨hk, rfl⟩, by decide⟩
  | some dim => exact ⟨dim, if_neg (by simp), validateUpsert_ok hv hd⟩

lemma validateCatalogStrategy_usable {c : UpdateCatalogRequest P} {dim : ℤ} (hp : 0 < dim)
    {t : List (Exchange P)} (h : Usable S c (some dim) t) :
    validateCatalogStrategy S c (some dim) = pure () := by
  obtain ⟨hn, strategyDim, hb, hm⟩ := h
  have he : (effectiveDim (some dim) : ConfigM P ℤ) = pure dim := by
    rw [effectiveDim, Option.filter_some, if_pos (decide_eq_true hp)]
  unfold validateCatalogStrategy
  split_ifs with hd hmi
  · rfl
  · exact absurd hmi (not_or.mpr hn)
  · rw [hb, he, hm.eq hp]
    exact if_neg (not_not.mpr rfl)

lemma upsertActive_eq {dim : ℤ} (hd : requestedDim req.split.1 = some dim) (hp : 0 < dim)
    {t : List (Exchange P)} (hus : ∀ c, req.split.2 = some c → Usable S c (some dim) t) :
    upsertActive S ns req = do
      let cfg ← requestIn "upsert namespace config" (.upsertWithCatalog req.split.1 req.split.2)
      if cfg.apiKeyHash.getD "" = "" then
        let (plaintext, hash) ← requestIn "generate api key" .generateAPIKey
        let won ← requestIn "store api key hash" (.setAPIKeyHash hash)
        return ⟨ns, cfg.generation, cfg.updatedAt, if won then plaintext else ""⟩
      else return ⟨ns, cfg.generation, cfg.updatedAt, ""⟩ := by
  unfold upsertActive
  rcases hs : req.split with ⟨base, catalogReq⟩
  rw [hs] at hd hus
  cases catalogReq with
  | none => rfl
  | some c =>
    dsimp only at hd ⊢
    rw [hd, validateCatalogStrategy_usable hp (hus c rfl)]
    rfl

/-- The answer that a repeated request gets. -/
def Exchange.Welcomes : Exchange P → Prop
  | ⟨.activate, r⟩ => r = .ok ()
  | ⟨.withWriter, r⟩ => r = .ok ()
  | ⟨.upsertWithCatalog _ _, r⟩ => ∃ cfg : Row P, r = .ok cfg ∧ cfg.apiKeyHash.getD "" ≠ ""
  | _ => True

/-- A provisioning request makes three calls, and if they are welcome it has no new key. -/
lemma follows_provision (hk : req.provisionAPIKey ≠ "") (hv : validateUpsert S.runtime req = .ok ())
    (hus : ∀ c, req.split.2 = some c → Usable S c (requestedDim req.split.1) t₀) :
    (upsert S ns req).Follows (fun t c => (∀ e ∈ t, Exchange.Welcomes e) → t.length < 3 ∧
        (c = .activate ∨ c = .withWriter ∨
          ∃ base catalogReq, c = .upsertWithCatalog base catalogReq))
      (fun t x => (∀ e ∈ t, Exchange.Welcomes e) → t.length = 3 ∧
        ∃ resp, x = .ok resp ∧ resp.apiKey = "") := by
  obtain ⟨dim, hd, hp⟩ := requestedDim_provision hk hv
  unfold upsert
  rw [hv, guard_provision hk, upsertActive_eq hd hp (hd ▸ hus)]
  refine follows_request_bind (fun _ => ⟨by simp, .inl rfl⟩) (fun _ => ?_) fun e hw => ?_
  swap
  · cases hw _ List.mem_cons_self
  refine follows_request_bind (fun _ => ⟨by simp, .inr (.inl rfl)⟩) (fun _ => ?_) fun e hw => ?_
  swap
  · cases hw ⟨.withWriter, .error e⟩ (by simp)
  refine follows_requestIn_bind (fun _ => ⟨by simp, .inr (.inr ⟨_, _, rfl⟩)⟩) (fun cfg => ?_)
    fun e hw => ?_
  swap
  · obtain ⟨cfg, hc, -⟩ := hw ⟨.upsertWithCatalog req.split.1 req.split.2, .error e⟩ (by simp)
    cases hc
  split_ifs with he
  · have hno : ∀ t : List (Exchange P), ¬ ∀ e ∈ ⟨.activate, .ok ()⟩ :: ⟨.withWriter, .ok ()⟩ ::
        ⟨.upsertWithCatalog req.split.1 req.split.2, .ok cfg⟩ :: t, Exchange.Welcomes e := by
      intro t hw
      obtain ⟨cfg', hc, hh⟩ := hw ⟨.upsertWithCatalog req.split.1 req.split.2, .ok cfg⟩ (by simp)
      cases hc
      exact hh he
    exact Program.follows_of_forall _ (fun t _ h => absurd h (hno t)) fun t _ h => absurd h (hno t)
  · exact fun _ => ⟨rfl, _, rfl, rfl⟩

end Repeated

/-! ### Calls that go through -/

section Healthy

variable [DecidableEq P]

lemma serve_ok (hp : perform R ns t c reply s = .ok (v, m))
    (h : serve R ns t c s (.ok reply) = some (r, s')) : r = .ok v ∧ s' = m := by
  unfold serve at h
  split_ifs at h
  dsimp only at h
  rw [hp] at h
  cases h
  exact ⟨rfl, rfl⟩

lemma serve_isSome (ha : admits t s c = true) : (serve R ns t c s (.ok reply)).isSome = true := by
  unfold serve
  rw [if_pos ha]
  dsimp only
  split <;> rfl

lemma perform_activate (hs : Living ns s) :
    ∃ m, perform R ns t .activate reply s = .ok ((), m) := by
  obtain ⟨⟨lifecycles, l⟩, hl⟩ := hs.openable
  refine ⟨{ s with lifecycles := lifecycles }, ?_⟩
  simp only [perform, activate, hs.system, ne_eq, not_true_eq_false, if_false, hl]
  rfl

lemma perform_withWriter (hs : Living ns s) (ha : Active ns s) :
    perform R ns t .withWriter reply s = .ok ((), s) := by
  obtain ⟨l, hl, hst⟩ := (Option.any_eq_true _ _).mp ha
  simp only [perform, withWriter, hs.system, ne_eq, not_true_eq_false, if_false,
    Lifecycle.getNamespace, hl, of_decide_eq_true hst, if_true]
  rfl

lemma perform_creates (hs : Living ns s) (hac : Active ns s) (hn : s.config = none) :
    ∃ row m, perform R ns t (.upsertWithCatalog base catalogReq) reply s = .ok (row, m) ∧
      m.config = some row := by
  obtain ⟨l, -, hl⟩ := activate_of_active hac
  have hse : seed R ns reply.now s = .ok { s with
      lifecycles := s.lifecycles.setRow ns l
      config := some (freshRow R l.generation reply.now) } := by
    simp only [seed, hs.system, ne_eq, not_true_eq_false, if_false, hl, hn, Option.getD_none]
  have ha : ∃ row m, applyUpsert R ns base catalogReq reply s = .ok (row, m) ∧
      m.config = some row := by
    simp only [applyUpsert, hse, bind, Except.bind, hs.unprovisioned hn, Option.isSome_none,
      Bool.false_eq_true, if_false]
    split_ifs <;> exact ⟨_, _, rfl, rfl⟩
  obtain ⟨row, m, ha, hr⟩ := ha
  refine ⟨row, m, ?_, hr⟩
  simp only [perform, upsertWithCatalog, hn, ite_self, ha]
  rfl

lemma perform_confirms (hb : Bcrypt R) (hsp : req.split = (base, catalogReq))
    (hk : req.provisionAPIKey ≠ "") (hs : ProvisionedBy R req s) :
    ∃ row, perform R ns t (.upsertWithCatalog base catalogReq) reply s = .ok (row, s) ∧
      row.apiKeyHash.getD "" ≠ "" := by
  obtain ⟨row, salt, hr, hh, hp⟩ := hs
  have hba : base.provisionAPIKey = req.provisionAPIKey := split_key hsp
  have hsa : s.provision = some (desiredHash R base catalogReq) ∧
      R.compareHashAndPassword (row.apiKeyHash.getD "") base.provisionAPIKey = true := by
    refine ⟨?_, ?_⟩
    · rw [hp, UpsertRequest.desired, hsp]
      rfl
    · rw [hh, Option.getD_some, hb.accepts, hba]
  refine ⟨row, ?_, ?_⟩
  · simp only [perform, upsertWithCatalog, hba, if_neg hk, hr]
    rw [← hba, if_pos hsa]
    rfl
  · rw [hh]
    exact hb.nonempty _ _

end Healthy

/-! ### Idempotent and exclusive -/

section Provisioning

variable [DecidableEq P] {S : ConfigService P} {ns : String} {s₀ : Store P} {w : Scene P}
  {as : List (Action P)} {u : ℕ} {req : UpsertRequest P}

/-- No two requests of the run that desire different things have one digest. -/
def CollisionFree (R : Runtime P) (as : List (Action P)) : Prop :=
  ∀ t t' req req', .start t (.upsert req) ∈ as → .start t' (.upsert req') ∈ as →
    R.digest req.desired = R.digest req'.desired → req.desired = req'.desired

/-- No call of the session fails. -/
def Healthy (t : ℕ) (as : List (Action P)) : Prop :=
  ∀ o, .reply t o ∈ as → ∃ reply, o = .ok reply

omit [DecidableEq P] in
lemma eq_of_desired (hk : req'.provisionAPIKey = req.provisionAPIKey)
    (h : req'.desired = req.desired) : req' = req := by
  rcases hs : req.split with ⟨base, catalogReq⟩
  rcases hs' : req'.split with ⟨base', cr'⟩
  have hb : base'.provisionAPIKey = base.provisionAPIKey := by
    rw [split_key hs, split_key hs', hk]
  rw [UpsertRequest.desired, UpsertRequest.desired, hs, hs'] at h
  obtain ⟨hc, rfl⟩ := Prod.mk.inj h
  obtain rfl : base' = base := by
    cases base
    cases base'
    simp only [UpsertRequest.mk.injEq] at hc hb ⊢
    exact ⟨hb, hc.2⟩
  cases cr' with
  | none => rw [← (split_none hs).2, ← (split_none hs').2]
  | some c =>
    obtain ⟨hso, hr, -⟩ := split_some hs
    obtain ⟨hso', hr', -⟩ := split_some hs'
    rw [hr'] at hr
    cases req
    cases req'
    simp only [UpsertRequest.mk.injEq] at hr hso hso' ⊢
    simp only [hso, hso', hr, and_self]

lemma welcomed (hb : Bcrypt S.runtime) (hu : Provisions S ns s₀ as u req) (htu : t ≠ u)
    (hh : Healthy t as)
    (hmakes : Makes (serve S.runtime ns) (Request.run S ns) s₀ as t (.upsert req) done c r before
      after) : Exchange.Welcomes ⟨c, r⟩ := by
  have hm := meets_creation hu hmakes htu
  have hc := hmakes.follows (follows_run (.upsert req))
  have hi := hu.incarnation hmakes
  obtain ⟨as₁, o, as₂, k, has, -, -, hca, hs⟩ := hmakes
  obtain ⟨reply, rfl⟩ := hh o (has ▸ List.mem_append_right _ List.mem_cons_self)
  have hl := hi.living
  cases c with
  | activate =>
    obtain ⟨m, hp⟩ := perform_activate hl
    exact (serve_ok hp hs).1
  | withWriter =>
    exact (serve_ok (perform_withWriter hl (hi.opened t _ hca hc)) hs).1
  | upsertWithCatalog base catalogReq =>
    obtain ⟨hsp, hch⟩ := hc
    rcases hm with ⟨hn, hn'⟩ | hpr
    · -- without a row it would have made one
      obtain ⟨row, m, hp, hr⟩ := perform_creates hl (hi.opened t _ hca hch.opened) hn
      rw [(serve_ok hp hs).2, hr] at hn'
      cases hn'
    · obtain ⟨row, hp, hhe⟩ := perform_confirms hb hsp hu.key hpr
      exact ⟨row, (serve_ok hp hs).1, hhe⟩
  | _ => trivial

lemma creator_checked (hu : Creates S ns s₀ as u (.upsert req)) :
    validateUpsert S.runtime req = .ok () ∧ ∃ t₀ : List (Exchange P), ∀ c, req.split.2 = some c →
      Usable S c (requestedDim req.split.1) t₀ := by
  obtain ⟨done, c, r, before, after, hmakes, hn, hso⟩ := hu
  have hc := hmakes.follows (follows_run (.upsert req))
  obtain ⟨as₁, o, as₂, k, -, -, -, -, hs⟩ := hmakes
  obtain ⟨base, catalogReq, rfl⟩ := serve_creates hs hn hso
  exact ⟨hc.2.valid, done, hc.2.usable⟩

/-- A repeated request is never held up, and after three calls it has succeeded without a key. -/
lemma repeated_succeeds (hb : Bcrypt S.runtime) (hu : Provisions S ns s₀ as u req)
    (hex : exec (step S ns) (boot s₀) as = some w) (htu : t ≠ u) (hh : Healthy t as)
    (hs : w.session t = some ⟨.upsert req, done, rest⟩) :
    (∃ c k, rest = .call c k ∧ done.length < 3 ∧
      ∀ reply, (step S ns w (.reply t (.ok reply))).isSome = true) ∨
    ∃ resp, rest = .pure (.upserted resp) ∧ resp.apiKey = "" := by
  have hw : ∀ e ∈ done, Exchange.Welcomes e := by
    intro e he
    obtain ⟨_, _, _, hmakes⟩ := Sessions.makes_of_mem_done hex hs he
    exact welcomed hb hu htu hh hmakes
  obtain ⟨hv, t₀, hus⟩ := creator_checked hu.creates
  have hp : ((Request.upsert req).run S ns).Follows
      (fun t c => (∀ e ∈ t, Exchange.Welcomes e) → t.length < 3 ∧
        (c = .activate ∨ c = .withWriter ∨
          ∃ base catalogReq, c = .upsertWithCatalog base catalogReq))
      (fun t x => (∀ e ∈ t, Exchange.Welcomes e) →
        ∃ resp, x = .ok (.upserted resp) ∧ resp.apiKey = "") := by
    refine Follows.bind (follows_provision hu.key hv hus) (fun t resp h => ?_)
      fun t e h hw => ?_
    · rw [Program.follows_pure, List.append_nil]
      intro hw
      obtain ⟨-, resp', heq, hem⟩ := h hw
      cases heq
      exact ⟨resp, rfl, hem⟩
    · obtain ⟨-, resp, heq, -⟩ := h hw
      cases heq
  have hr := Sessions.faithful_of_exec hex t _ hs
  cases rest with
  | pure res =>
    obtain ⟨resp, heq, hem⟩ := hp.returned hr hw
    cases heq
    exact .inr ⟨resp, rfl, hem⟩
  | throw e =>
    obtain ⟨resp, heq, -⟩ := hp.thrown hr hw
    cases heq
  | call c k =>
    obtain ⟨hl, hc⟩ := hp.call hr hw
    refine .inl ⟨c, k, rfl, hl, fun reply => ?_⟩
    have hi := (incarnation_of_exec hu.living hu.upserts hex).living.idle
    have ha : admits t w.shared c = true := by
      rcases hc with rfl | rfl | ⟨base, catalogReq, rfl⟩
      · rfl
      · rfl
      · exact decide_eq_true hi
    unfold step
    rw [Sessions.step, hs]
    exact Option.isSome_map.trans (serve_isSome ha)

/-- **Provisioning is idempotent and exclusive.** Once a provisioning request has made the row of
the namespace, no other request makes it, and no other provisioning request changes anything: one
with the same key and desires succeeds without a new key, and any other fails. -/
theorem provisioning_idempotent_exclusive (hb : Bcrypt S.runtime)
    (hfree : CollisionFree S.runtime as) (hs₀ : Living ns s₀) (honly : OnlyUpserts as)
    (hexec : exec (step S ns) (boot s₀) as = some w) (hu : Creates S ns s₀ as u (.upsert req))
    (hkey : req.provisionAPIKey ≠ "") :
    (∀ t request, Creates S ns s₀ as t request → t = u) ∧
    ∀ t req' done rest, t ≠ u → w.session t = some ⟨.upsert req', done, rest⟩ →
      req'.provisionAPIKey ≠ "" →
      (∀ done' c r before after, Makes (serve S.runtime ns) (Request.run S ns) s₀ as t
          (.upsert req') done' c r before after →
        after.shared.config = before.shared.config ∧
        after.shared.provision = before.shared.provision ∧
        (before.shared.config ≠ none → SameRows before.shared after.shared)) ∧
      (req'.provisionAPIKey = req.provisionAPIKey ∧ req'.desired = req.desired → Healthy t as →
        (∃ c k, rest = .call c k ∧ done.length < 3 ∧
          ∀ reply, (step S ns w (.reply t (.ok reply))).isSome = true) ∨
        ∃ response, rest = .pure (.upserted response) ∧ response.apiKey = "") ∧
      (req'.provisionAPIKey ≠ req.provisionAPIKey ∨ req'.desired ≠ req.desired →
        ∀ result, rest ≠ .pure result) := by
  have hp : Provisions S ns s₀ as u req := ⟨hs₀, honly, hu, hkey⟩
  refine ⟨fun t request => creates_unique hu, fun t req' done rest htu hse hkey' =>
    ⟨fun _ _ _ _ _ => other_step hb hp htu hkey', ?_, ?_⟩⟩
  · rintro ⟨hsa, hd⟩ hh
    obtain rfl := eq_of_desired hsa hd
    exact repeated_succeeds hb hp hexec htu hh hse
  · rintro hdi result rfl
    have hr := Sessions.faithful_of_exec hexec t _ hse
    obtain ⟨response, -, cfg, hme, -⟩ := (follows_run (.upsert req')).returned hr
    obtain ⟨_, before, after, hmakes⟩ := Sessions.makes_of_mem_done hexec hse hme
    obtain ⟨-, salt, -, hdig, hc⟩ := confirms hp htu hkey' hmakes
    obtain ⟨_, _, _, m, _, ⟨as₁, o, as₂, k, has, hm, -, hca, -⟩, -, -⟩ := hu
    have hst : .start u (.upsert req) ∈ as :=
      has ▸ List.mem_append_left _ (Sessions.start_of_session hm hca)
    have hst' : .start t (.upsert req') ∈ as := Sessions.start_of_session hexec hse
    rcases hdi with hne | hne
    · exact hne ((hb.accepts _ _ _).mp hc)
    · exact hne (hfree t u req' req hst' hst hdig)

lemma creates_of_check {request : Request P} (hs : .start u request ∈ as₁)
    (h : (exec (step S ns) (boot s₀) as₁).any (fun m => m.shared.config.isNone &&
      (step S ns m (.reply u o)).any fun m' => m'.shared.config.isSome) = true) :
    Creates S ns s₀ (as₁ ++ .reply u o :: as₂) u request := by
  obtain ⟨m, hm, hw⟩ := (Option.any_eq_true _ _).mp h
  obtain ⟨hn, hst⟩ := Bool.and_eq_true_iff.mp hw
  obtain ⟨m', hm', hso⟩ := (Option.any_eq_true _ _).mp hst
  obtain ⟨rq', done, c, k, r, hc, hse, -⟩ := Sessions.step_reply hm'
  obtain ⟨x, hx, rfl⟩ := Sessions.started hs hm
  obtain rfl := Option.some.inj (hx.symm.trans hc)
  exact ⟨done, c, r, m, m', ⟨as₁, o, as₂, k, rfl, hm, hm', hc, hse⟩,
    Option.isNone_iff_eq_none.mp hn, Option.isSome_iff_ne_none.mp hso⟩

end Provisioning

/-! ### A key that comes twice -/

def provisioning (maxResults : ℤ) : UpsertRequest Unit :=
  { provisionAPIKey := "aaaaaaaaaaaaaaaaaaaaaaaaaaaaaaaaaaaaaaaaaaaaaaaaaaaaaaaaaaaaaaaa"
    maxResults := some maxResults }

/-- A namespace is provisioned, updated, provisioned again, and asked for something else. -/
def provisionedTwice : List (Action Unit) :=
  [.start 0 (.upsert (provisioning 20)), goes 0, goes 0] ++ goes 0 ::
    (.start 1 (.upsert { lambda := some (1 / 2) }) :: List.replicate 3 (goes 1) ++
    .start 2 (.upsert (provisioning 20)) :: List.replicate 3 (goes 2) ++
    .start 3 (.upsert (provisioning 30)) :: List.replicate 3 (goes 3))

lemma bcrypt_shop : Bcrypt shop.runtime where
  accepts key salt key' := by
    simp [shop, eq_comm]
  nonempty key salt := by
    simp [shop]

lemma living_noRows : Living "shop" noRows :=
  ⟨rfl, rfl, ⟨_, rfl⟩, fun h => absurd rfl h, fun _ => rfl⟩

lemma start_provisionedTwice {request : Request Unit} (h : .start t request ∈ provisionedTwice) :
    request = .upsert (provisioning 20) ∨
      request = .upsert { lambda := some (1 / 2) } ∨ request = .upsert (provisioning 30) := by
  simp only [provisionedTwice, goes, List.replicate, List.cons_append, List.nil_append,
    List.mem_cons, List.not_mem_nil, PoolAction.start.injEq, reduceCtorEq, or_false,
    false_or] at h
  rcases h with ⟨-, rfl⟩ | ⟨-, rfl⟩ | ⟨-, rfl⟩ | ⟨-, rfl⟩
  · exact .inl rfl
  · exact .inr (.inl rfl)
  · exact .inl rfl
  · exact .inr (.inr rfl)

theorem provisioning_idempotent_exclusive_shop : ∃ w done response,
    exec (step shop "shop") (boot noRows) provisionedTwice = some w ∧
    w.session 2 = some ⟨.upsert (provisioning 20), done, .pure (.upserted response)⟩ ∧
    response.apiKey = "" := by
  have hon : OnlyUpserts provisionedTwice := by
    intro t request h
    rcases start_provisionedTwice h with rfl | rfl | rfl <;> exact ⟨_, rfl⟩
  have hf : CollisionFree shop.runtime provisionedTwice := by
    intro t t' req req' h h' hd
    rcases start_provisionedTwice h with heq | heq | heq <;>
      obtain rfl := Request.upsert.inj heq <;>
      rcases start_provisionedTwice h' with heq' | heq' | heq' <;>
      obtain rfl := Request.upsert.inj heq' <;>
      first | rfl | exact absurd hd (by decide +kernel)
  have hch : (exec (step shop "shop") (boot noRows)
      [.start 0 (.upsert (provisioning 20)), goes 0, goes 0]).any (fun m =>
        m.shared.config.isNone && (step shop "shop" m (goes 0)).any fun m' =>
          m'.shared.config.isSome) = true := by decide +kernel
  have hc : Creates shop "shop" noRows provisionedTwice 0 (.upsert (provisioning 20)) :=
    creates_of_check List.mem_cons_self hch
  have hh : Healthy 2 provisionedTwice := by
    intro o h
    have hok : o = .ok ⟨0, "key", 0⟩ := by
      simpa [provisionedTwice, goes, List.replicate] using h
    exact ⟨_, hok⟩
  have hst : .start 2 (.upsert (provisioning 20)) ∈ provisionedTwice := by
    simp [provisionedTwice]
  have hr : (exec (step shop "shop") (boot noRows) provisionedTwice).any
      (fun w => w.endsWith 2 Except.isOk) = true := by decide +kernel
  obtain ⟨w, done, rest, x, he, hs, ho, hok⟩ :=
    Sessions.ended_of_check hst hr
  obtain ⟨-, hsa, -⟩ := (provisioning_idempotent_exclusive bcrypt_shop hf living_noRows hon
    he hc (by decide)).2 2 _ done rest (by decide) hs (by decide)
  rcases hsa ⟨rfl, rfl⟩ hh with ⟨c, k, rfl, -⟩ | ⟨response, rfl, hem⟩
  · cases ho
  · exact ⟨w, done, response, he, hs, hem⟩

end Codohue.NsConfig
