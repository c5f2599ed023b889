import Codohue.NsConfigPatch

/-!
What a rejected upsert leaves behind.

Every check comes before the write of the configuration. But the strategy and the provisioning are
checked after `Activate`, which makes a lifecycle row, or takes one that is deleted to its next
generation; so an upsert that gets this far leaves no trace exactly if the namespace was active.
-/

namespace Codohue.NsConfig

open Service Transition
open Sessions (Makes boot)

variable {P : Type}

/-- The errors by which an upsert rejects its request. -/
def Error.isValidation : Error P → Bool
  | .invalidConfig _ | .catalogViaUpsert | .embeddingDimLocked | .unknownStrategy _ _
  | .strategyRequired | .dimensionMismatch _ _ | .provisionConflict => true
  | .wrap _ err => err.isValidation
  | _ => false

/-- All rows are the same; the key hash is a column of the configuration. -/
structure SameRows (s s' : Store P) : Prop where
  lifecycle : ∀ ns, s'.lifecycles.row ns = s.lifecycles.row ns
  config : s'.config = s.config
  provision : s'.provision = s.provision

lemma SameRows.refl (s : Store P) : SameRows s s := ⟨fun _ => rfl, rfl, rfl⟩

lemma SameRows.trans (h : SameRows s s') (h' : SameRows s' s'') : SameRows s s'' :=
  ⟨fun ns => (h'.lifecycle ns).trans (h.lifecycle ns), h'.config.trans h.config,
    h'.provision.trans h.provision⟩

def active (ns : String) (s : Store P) : Bool := (s.lifecycles.row ns).any (·.state = .active)

lemma SameRows.active_eq {ns : String} (h : SameRows s s') : active ns s' = active ns s := by
  rw [active, h.lifecycle, active]

lemma Unchanged.sameRows (h : Unchanged s s') : SameRows s s' :=
  ⟨fun ns => by rw [h.lifecycles], h.config, h.provision⟩

variable {e : Error P} {c : Call P} {r : Answer c}

section Calls

variable [DecidableEq P]

lemma serve_key_error (h : serve R ns t c s o = some (r, s'))
    (hc : c = .generateAPIKey ∨ ∃ hash, c = .setAPIKeyHash hash) (hr : r = .error e) :
    ∃ text, e = .external text := by
  subst hr
  unfold serve at h
  split_ifs at h
  cases o with
  | ok reply => rcases hc with rfl | ⟨hash, rfl⟩ <;> cases h
  | fails text =>
    have heq := (Prod.mk.inj (Option.some.inj h)).1
    exact ⟨text, (Except.error.inj heq).symm⟩

lemma active_of_serve
    (h : serve R ns t .activate s o = some ((.ok () : Answer (P := P) .activate), s')) :
    active ns s' = true ∧ (active ns s = true → SameRows s s') := by
  obtain ⟨-, ⟨reply, v, hp, -⟩ | ⟨e, he, -⟩⟩ := serve_eq_some h
  swap
  · cases he
  obtain ⟨m, hm, heq⟩ := ok_of_map hp
  obtain ⟨-, rfl⟩ := Prod.mk.inj heq
  obtain ⟨lcs, l, ha, rfl⟩ := activate_ok hm
  obtain ⟨rfl, hl, hk⟩ : lcs = s.lifecycles.setRow ns l ∧ l.state = .active ∧
      (active ns s = true → s.lifecycles.row ns = some l) := by
    unfold active
    cases hr : s.lifecycles.row ns with
    | none =>
      simp only [Lifecycle.activate, hr] at ha
      cases ha
      exact ⟨rfl, rfl, by simp⟩
    | some row =>
      cases hs : row.state <;> simp only [Lifecycle.activate, hr, hs] at ha
      · cases ha
        exact ⟨rfl, hs, fun _ => rfl⟩
      · cases ha
      · split_ifs at ha
        cases ha
        exact ⟨rfl, rfl, by simp [hs]⟩
  refine ⟨?_, fun h => ⟨fun ns' => ?_, rfl, rfl⟩⟩
  · simp [active, Lifecycle.setRow_row, hl]
  · rw [Lifecycle.setRow_row]
    split_ifs with hns
    · rw [hns, hk h]
    · rfl

lemma serve_activate {r : Answer (.activate : Call P)}
    (h : serve R ns t .activate s o = some (r, s')) :
    SameRows s s' ∨ active ns s = false ∧ active ns s' = true ∧ r = .ok () := by
  cases r with
  | ok v =>
    obtain ⟨ha, hk⟩ := active_of_serve h
    cases hac : active ns s with
    | true => exact .inl (hk hac)
    | false => exact .inr ⟨rfl, ha, rfl⟩
  | error e =>
    obtain ⟨-, ⟨_, _, -, hv⟩ | ⟨_, -, hab⟩⟩ := serve_eq_some h
    · cases hv
    · exact .inl (hab ▸ (unchanged_abandoned _ .activate).sameRows)

end Calls

section Runs

variable [DecidableEq P] {S : ConfigService P} {ns : String} {s₀ : Store P} {w : Scene P}
  {as : List (Action P)} {t : ℕ}
variable {req : UpsertRequest P} {done : List (Exchange P)}

lemma calm_of_rejected (he : exec (step S ns) (boot s₀) as = some w)
    (hs : w.session t = some ⟨.upsert req, done, .throw e⟩)
    (hr : e.isValidation = true) : ∀ x ∈ done, Exchange.writes x = false := by
  have hre := Sessions.faithful_of_exec he t _ hs
  rcases (follows_run (.upsert req)).thrown hre with hc | ⟨ctx, e', rfl, hk⟩
  · exact hc
  · -- the error of the key is one of the driver
    have hex : ∃ text, e' = .external text := by
      rcases hk with hm | ⟨hash, hm⟩
      · obtain ⟨_, _, _, _, _, _, _, -, -, -, -, hse⟩ :=
          Sessions.makes_of_mem_done he hs hm
        exact serve_key_error hse (.inl rfl) rfl
      · obtain ⟨_, _, _, _, _, _, _, -, -, -, -, hse⟩ :=
          Sessions.makes_of_mem_done he hs hm
        exact serve_key_error hse (.inr ⟨hash, rfl⟩) rfl
    obtain ⟨text, rfl⟩ := hex
    cases hr

/-- A step of a rejected upsert changes a row only if it opens a namespace that was not active. -/
lemma rejected_step (he : exec (step S ns) (boot s₀) as = some w)
    (hs : w.session t = some ⟨.upsert req, done, .throw e⟩) (hr : e.isValidation = true)
    {request : Request P}
    (hm : Makes (serve S.runtime ns) (Request.run S ns) s₀ as t request done' c r before
      after) : SameRows before.shared after.shared ∨ active ns before.shared = false ∧
        active ns after.shared = true ∧ (⟨c, r⟩ : Exchange P) = ⟨.activate, .ok ()⟩ := by
  have hca := hm.follows (follows_run request)
  obtain ⟨x, hx, rfl, hme⟩ := hm.recorded he
  obtain rfl := Option.some.inj (hs.symm.trans hx)
  have hcal : Exchange.writes ⟨c, r⟩ = false := calm_of_rejected he hs hr _ hme
  obtain ⟨as₁, o, as₂, k, rfl, hb, hst, hcall, hse⟩ := hm
  by_cases hc : c = .activate
  · subst hc
    exact (serve_activate hse).imp_right fun ⟨hf, ht, hr⟩ => ⟨hf, ht, by rw [hr]⟩
  · refine .inl (serve_unchanged hse hcal hc ?_).sameRows
    rintro gen rfl
    cases hca

/-- Steps of one session alone keep the rows, if each of them does. -/
lemma sameRows_alone {I : Store P → Prop} (hI : ∀ s s', SameRows s s' → I s → I s')
    (hk : ∀ {request done' c r before after}, Makes (serve S.runtime ns) (Request.run S ns) s₀ as t
      request done' c r before after → I before.shared → SameRows before.shared after.shared)
    (has : as = as₁ ++ as₂ ++ as₃) (hm : exec (step S ns) (boot s₀) as₁ = some m)
    (hm' : exec (step S ns) m as₂ = some m') (hal : ∀ a ∈ as₂, ∃ o, a = .reply t o)
    (hi : I m.shared) : SameRows m.shared m'.shared := by
  induction as₂ generalizing as₁ m with
  | nil =>
    obtain rfl := Option.some.inj hm'
    exact .refl _
  | cons a as₂ ih =>
    obtain ⟨o, rfl⟩ := hal a List.mem_cons_self
    obtain ⟨m₁, hst, hr⟩ := (exec_cons _).mp hm'
    obtain ⟨request, done', c, k, r, hc, hse, -⟩ := Sessions.step_reply hst
    have hf : SameRows m.shared m₁.shared :=
      hk ⟨as₁, o, as₂ ++ as₃, k, by simp [has], hm, hst, hc, hse⟩ hi
    have hap : as = as₁ ++ [.reply t o] ++ as₂ ++ as₃ := by simp [has]
    refine hf.trans (ih hap ?_ hr
      (fun a ha => hal a (List.mem_cons_of_mem _ ha)) (hI _ _ hf hi))
    exact (exec_append _).mpr ⟨m, hm, (exec_cons _).mpr ⟨m₁, hst, rfl⟩⟩

/-- The activations of session `t` that succeed find the namespace active. -/
def OpensActive (S : ConfigService P) (ns : String) (s₀ : Store P) (as : List (Action P))
    (t : ℕ) : Prop :=
  ∀ request done before after, Makes (serve S.runtime ns) (Request.run S ns) s₀ as t request done
    .activate (.ok ()) before after → active ns before.shared = true

/-- **A rejected upsert leaves no trace** exactly if the namespace was active when it was
activated: next to other requests no step of it changes a row, and if it runs alone all rows are as
before. -/
theorem rejected_upsert_keeps_rows (hexec : exec (step S ns) (boot s₀) as = some w)
    {req : UpsertRequest P} {done : List (Exchange P)} {e : Error P}
    (hsession : w.session t = some ⟨.upsert req, done, .throw e⟩)
    (hrejected : e.isValidation = true) :
    ((∀ request done' c r before after, Makes (serve S.runtime ns) (Request.run S ns) s₀ as t
      request done' c r before after → SameRows before.shared after.shared) ↔
        OpensActive S ns s₀ as t) ∧
    ∀ as₁ as₂ m rest, as = as₁ ++ as₂ → exec (step S ns) (boot s₀) as₁ = some m →
      m.session t = some ⟨.upsert req, [], rest⟩ → (∀ a ∈ as₂, ∃ o, a = .reply t o) →
        (SameRows m.shared w.shared ↔ OpensActive S ns s₀ as t) := by
  have hst : ∀ {request done' c r before after}, Makes (serve S.runtime ns) (Request.run S ns) s₀
      as t request done' c r before after → _ := rejected_step hexec hsession hrejected
  have hop : OpensActive S ns s₀ as t → ∀ request done' c r before after,
      Makes (serve S.runtime ns) (Request.run S ns) s₀ as t request done' c r before after →
        SameRows before.shared after.shared := by
    intro h request done' c r before after hm
    refine (hst hm).resolve_right ?_
    rintro ⟨hf, -, heq⟩
    cases heq
    cases hf.symm.trans (h _ _ _ _ hm)
  refine ⟨⟨fun h request done' before after hm => ?_, hop⟩,
    fun as₁ as₂ m rest has hm hses hal => ?_⟩
  · have hsa := h _ _ _ _ _ _ hm
    obtain ⟨_, _, _, _, -, -, -, -, hse⟩ := hm
    exact hsa.active_eq ▸ (active_of_serve hse).1
  obtain ⟨_, hm₁, hw⟩ := (exec_append _).mp (has ▸ hexec)
  obtain rfl := Option.some.inj (hm.symm.trans hm₁)
  constructor
  · rintro h request done' before after ⟨bs₁, o, bs₂, k, hbs, hb, hre, hc, hse⟩
    -- the activation is a step of the part in which the upsert runs alone
    obtain ⟨cs, rfl, hcs⟩ : ∃ cs, bs₁ = as₁ ++ cs ∧ as₂ = cs ++ .reply t o :: bs₂ := by
      rcases List.append_eq_append_iff.mp (has.symm.trans hbs) with ⟨cs, rfl, hcs⟩ | ⟨cs, hcs, h⟩
      · exact ⟨cs, rfl, hcs⟩
      · cases cs with
        | nil => exact ⟨[], by simpa using hcs.symm, h.symm⟩
        | cons a cs =>
          obtain ⟨rfl, rfl⟩ := List.cons.inj h
          obtain ⟨x, hx, -, hme⟩ := Makes.recorded ⟨bs₁, o, cs, k, hcs, hb, hre, hc, hse⟩ hm
          obtain rfl := Option.some.inj (hses.symm.trans hx)
          cases hme
    have hact : ∀ {as₁ as₂ as₃ m m'}, as = as₁ ++ as₂ ++ as₃ →
        exec (step S ns) (boot s₀) as₁ = some m → exec (step S ns) m as₂ = some m' →
        (∀ a ∈ as₂, ∃ o, a = .reply t o) → active ns m.shared = true →
        active ns m'.shared = true := by
      intro as₁ as₂ as₃ m m' has hm hm' hal ha
      rw [← ha]
      refine (sameRows_alone (I := fun s => active ns s = true) (fun s s' h => h.active_eq.trans)
        (fun hm ha => (hst hm).resolve_right fun h => ?_) has hm hm' hal ha).active_eq
      cases h.1.symm.trans ha
    obtain ⟨_, hm₂, hbe⟩ := (exec_append _).mp hb
    obtain rfl := Option.some.inj (hm.symm.trans hm₂)
    rw [hcs] at hal hw
    obtain ⟨_, hbe', hw⟩ := (exec_append _).mp hw
    obtain rfl := Option.some.inj (hbe.symm.trans hbe')
    obtain ⟨_, hre', hw⟩ := (exec_cons _).mp hw
    obtain rfl := Option.some.inj (hre.symm.trans hre')
    have haf : exec (step S ns) (boot s₀) (as₁ ++ cs ++ [.reply t o]) = some after :=
      (exec_append _).mpr ⟨before, hb, (exec_cons _).mpr ⟨after, hre, rfl⟩⟩
    have hap : as = as₁ ++ cs ++ [.reply t o] ++ bs₂ ++ [] := by simp [has, hcs]
    have hend : active ns w.shared = true := hact hap haf hw
      (fun a ha => hal a (by simp [ha])) (active_of_serve hse).1
    have hap' : as = as₁ ++ cs ++ .reply t o :: bs₂ := by simp [has, hcs]
    exact hact hap' hm hbe
      (fun a ha => hal a (by simp [ha])) (h.active_eq.symm.trans hend)
  · have hap : as = as₁ ++ as₂ ++ [] := by simp [has]
    exact fun h => sameRows_alone (I := fun _ => True) (fun _ _ _ => id)
      (fun hm _ => hop h _ _ _ _ _ _ hm) hap hm hw hal trivial

/-- As far as it can be computed: whatever becomes of an activation by session `t`, it finds the
namespace active. -/
def opensActive (ns : String) (t : ℕ) (w : Scene P) : Action P → Bool
  | .start _ _ => true
  | .reply u _ => match w.session u with
    | some ⟨_, _, .call .activate _⟩ => u ≠ t ∨ active ns w.shared
    | _ => true

lemma opensActive_of_along
    (h : Along (step S ns) (fun w a => opensActive ns t w a = true) (boot s₀) as) :
    OpensActive S ns s₀ as t := by
  rintro request done before after ⟨as₁, o, as₂, k, rfl, hb, -, hc, -⟩
  have ho := h.at hb
  rw [opensActive, hc] at ho
  exact (of_decide_eq_true ho).resolve_left (not_not.mpr rfl)

end Runs

/-! ### An unknown strategy -/

def isRejected {α : Type} : Except (Error P) α → Bool
  | .ok _ => false
  | .error e => e.isValidation

def unknownStrategy : UpsertRequest Unit :=
  { denseSource := some "catalog"
    catalogStrategyID := some "none"
    catalogStrategyVersion := some "1" }

/-- A namespace that is made, and the start of a request for a strategy that nobody has. -/
def beforeRejection : List (Action Unit) :=
  .start 0 (.upsert {}) :: List.replicate 5 (goes 0) ++ [.start 1 (.upsert unknownStrategy)]

theorem rejected_upsert_keeps_rows_shop : ∃ w m done e,
    exec (step shop "shop") (boot noRows) (beforeRejection ++ [goes 1, goes 1]) = some w ∧
    w.session 1 = some ⟨.upsert unknownStrategy, done, .throw e⟩ ∧ e.isValidation = true ∧
    exec (step shop "shop") (boot noRows) beforeRejection = some m ∧
    SameRows m.shared w.shared := by
  have hst : .start 1 (.upsert unknownStrategy) ∈ beforeRejection ++ [goes 1, goes 1] := by
    simp [beforeRejection]
  have hru : (exec (step shop "shop") (boot noRows) (beforeRejection ++ [goes 1, goes 1])).any
      (fun w => w.endsWith 1 isRejected) = true := by decide +kernel
  obtain ⟨w, done, rest, x, he, hs, ho, hr⟩ :=
    Sessions.ended_of_check hst hru
  obtain ⟨m, hm, -⟩ := (exec_append _).mp he
  obtain ⟨m₀, -, hm₀⟩ := (exec_append _).mp hm
  obtain ⟨m₁, hm₁, hend⟩ := (exec_cons _).mp hm₀
  obtain rfl : m₁ = m := Option.some.inj hend
  obtain ⟨-, -, hses⟩ := Sessions.step_start hm₁
  cases x with
  | ok result => cases hr
  | error e =>
    obtain rfl := Program.eq_throw_of_outcome ho
    refine ⟨w, m₁, done, e, he, hs, hr, hm, ?_⟩
    refine ((rejected_upsert_keeps_rows he hs hr).2 beforeRejection _ m₁ _ rfl hm
      (by rw [hses, Function.update_self]) (by simp [goes])).mpr
        (opensActive_of_along (by decide +kernel))

/-- The namespace was deleted at generation 1. -/
def deletedRows : Store Unit :=
  { noRows with lifecycles := noRows.lifecycles.setRow "shop" ⟨1, .deleted, false, none⟩ }

/-- A request that is rejected makes a lifecycle row, and brings a deleted one back. -/
theorem rejected_upsert_activates :
    (∃ w, exec (step shop "shop") (boot noRows) [.start 0 (.upsert unknownStrategy), goes 0, goes 0]
        = some w ∧ w.endsWith 0 isRejected = true ∧ noRows.lifecycles.row "shop" = none ∧
      w.shared.lifecycles.row "shop" = some ⟨1, .active, true, none⟩) ∧
    ∃ w, exec (step shop "shop") (boot deletedRows)
        [.start 0 (.upsert unknownStrategy), goes 0, goes 0] = some w ∧
      w.endsWith 0 isRejected = true ∧
      deletedRows.lifecycles.row "shop" = some ⟨1, .deleted, false, none⟩ ∧
      w.shared.lifecycles.row "shop" = some ⟨2, .active, false, none⟩ := by
  have hf : (exec (step shop "shop") (boot noRows)
      [.start 0 (.upsert unknownStrategy), goes 0, goes 0]).any (fun w =>
        w.endsWith 0 isRejected &&
          decide (w.shared.lifecycles.row "shop" = some ⟨1, .active, true, none⟩)) = true := by
    decide +kernel
  have hs : (exec (step shop "shop") (boot deletedRows)
      [.start 0 (.upsert unknownStrategy), goes 0, goes 0]).any (fun w =>
        w.endsWith 0 isRejected &&
          decide (w.shared.lifecycles.row "shop" = some ⟨2, .active, false, none⟩)) = true := by
    decide +kernel
  obtain ⟨w, hex, hw⟩ := (Option.any_eq_true _ _).mp hf
  obtain ⟨w', hex', hw'⟩ := (Option.any_eq_true _ _).mp hs
  obtain ⟨he, hr⟩ := Bool.and_eq_true_iff.mp hw
  obtain ⟨he', hr'⟩ := Bool.and_eq_true_iff.mp hw'
  exact ⟨⟨w, hex, he, rfl, of_decide_eq_true hr⟩,
    ⟨w', hex', he', by decide +kernel, of_decide_eq_true hr'⟩⟩

end Codohue.NsConfig
