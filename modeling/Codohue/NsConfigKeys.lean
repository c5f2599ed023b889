import Codohue.NsConfigProvision

/-!
The key of a namespace, next to any number of upserts and rotations.

A hash comes into an empty column once, and no call empties it. So the upsert that finds it empty is
the one whose write is the first of all, and the column holds the hash of the last write.
-/

namespace Codohue.NsConfig

open Service Transition
open Sessions (boot)
open Program (Follows)

variable {P : Type}

/-! ### The column -/

def keyHash (s : Store P) : Option String := s.config.bind (·.apiKeyHash)

/-- The hash that a call puts into the column, by its answer. -/
def stored (s : Store P) : (c : Call P) → Answer c → Option String
  | .setAPIKeyHash hash, .ok true | .replaceAPIKeyHash hash, .ok true => some hash
  | .upsertWithCatalog base _, .ok cfg =>
    -- a provisioning request writes its key together with a new row
    if base.provisionAPIKey ≠ "" ∧ s.config = none then cfg.apiKeyHash else none
  | _, _ => none

variable {c : Call P} {ns : String} {t : ℕ} {o : Outcome} {r : Answer c}

section Calls

variable {s s' : Store P}

lemma keyHash_of_map (h : s'.config = s.config.map f)
    (hf : ∀ row, (f row).apiKeyHash = row.apiKeyHash) : keyHash s' = keyHash s := by
  rw [keyHash, keyHash, h]
  cases s.config with
  | none => rfl
  | some row => exact hf row

variable [DecidableEq P] {R : Runtime P}

/-- The transaction returns the row that it leaves. Its key is new only if the row is. -/
lemma upserted_row (h : upsertWithCatalog R ns base cr reply s = .ok (cfg, s')) :
    s'.config = some cfg ∧ cfg.apiKeyHash = if base.provisionAPIKey ≠ "" ∧ s.config = none then
      some (R.hash base.provisionAPIKey reply.salt) else keyHash s := by
  rcases upsertWithCatalog_ok h with ⟨hw, hk⟩ | ⟨rfl, hc, -⟩
  · obtain ⟨row, hs, rfl⟩ := hw.row
    refine ⟨hw.config, ?_⟩
    rw [writtenRow_apiKeyHash, keyHash]
    by_cases hb : base.provisionAPIKey = ""
    · rcases hs with hc | ⟨hc, gen, rfl⟩ <;> simp [hb, hc, freshRow]
    · obtain ⟨hc, gen, rfl⟩ := hs.resolve_left (by simp [hk.resolve_left hb])
      simp [hb, hc, freshRow]
  · simp [hc, keyHash]

lemma keyHash_serve (h : serve R ns t c s o = some (r, s')) :
    keyHash s' = (stored s c r).or (keyHash s) := by
  obtain ⟨-, ⟨reply, v, hp, rfl⟩ | ⟨e, rfl, rfl⟩⟩ := serve_eq_some h
  · cases c with
    | setAPIKeyHash hash =>
      cases hp
      rcases s with ⟨-, _ | ⟨-, -, -, _ | old, -⟩, -, -, -⟩ <;> rfl
    | replaceAPIKeyHash hash =>
      cases hp
      rcases s with ⟨-, _ | row, -, -, -⟩ <;> rfl
    | upsertWithCatalog base cr =>
      obtain ⟨hc, hh⟩ := upserted_row (ok_of_mapError hp)
      rw [keyHash, hc, Option.bind_some, stored, hh]
      split_ifs <;> rfl
    | upsertCatalogConfig req => exact keyHash_of_map (perform_rewrites hp) fun _ => rfl
    | commitConfiguration patch vo =>
      have hr := perform_rewrites hp
      cases vo with
      | true => exact congrArg (Option.bind · Row.apiKeyHash) hr
      | false =>
        refine keyHash_of_map hr fun row => ?_
        unfold patchRow
        split_ifs <;> rfl
    | _ => exact congrArg (Option.bind · Row.apiKeyHash) (perform_rewrites hp)
  · cases c <;> rfl

end Calls

/-! ### What a caller is told -/

/-- A hash is stored after it was made, and a first one after the row. -/
def KeyCalls (t : List (Exchange P)) : Call P → Prop
  | .setAPIKeyHash hash => (∃ p, ⟨.generateAPIKey, .ok (p, hash)⟩ ∈ t) ∧
      ∃ base catalogReq cfg, ⟨.upsertWithCatalog base catalogReq, .ok cfg⟩ ∈ t
  | .replaceAPIKeyHash hash => ∃ p, ⟨.generateAPIKey, .ok (p, hash)⟩ ∈ t
  | _ => True

/-- Who is told a plaintext has stored its hash, and a successful upsert has found or stored one. -/
def KeyEnds (t : List (Exchange P)) : Except (Error P) (Result P) → Prop
  | .ok (.upserted response) => (response.apiKey ≠ "" → ∃ hash,
      ⟨.generateAPIKey, .ok (response.apiKey, hash)⟩ ∈ t ∧ ⟨.setAPIKeyHash hash, .ok true⟩ ∈ t) ∧
    ((∃ base catalogReq cfg, ⟨.upsertWithCatalog base catalogReq, .ok cfg⟩ ∈ t ∧
      cfg.apiKeyHash ≠ none) ∨ ∃ hash won, ⟨.setAPIKeyHash hash, .ok won⟩ ∈ t)
  | .ok (.rotated p) => ∃ hash, ⟨.generateAPIKey, .ok (p, hash)⟩ ∈ t ∧
      ⟨.replaceAPIKeyHash hash, .ok true⟩ ∈ t
  | _ => True

variable {S : ConfigService P}

section Programs

variable {req : UpsertRequest P}

lemma keyCalls_of_looks {t : List (Exchange P)} (h : c.looks = true) : KeyCalls t c := by
  cases c <;> trivial

lemma keys_upsertActive (t : List (Exchange P)) :
    (upsertActive S ns req).Follows (fun t' => KeyCalls (t ++ t')) fun t' x =>
      KeyEnds (t ++ t') (x.map .upserted) := by
  unfold upsertActive
  rcases req.split with ⟨base, _ | c⟩
  on_goal 2 => refine Follows.bind ((follows_validateCatalogStrategy S c (requestedDim base)).mono
    (fun _ _ => keyCalls_of_looks) fun _ _ h => h) (fun t₁ _ _ => ?_) fun _ _ _ => trivial
  all_goals
    refine follows_requestIn_bind trivial (fun cfg => ?_) fun e => trivial
    split_ifs with hn
    · refine follows_requestIn_bind trivial (fun key => ?_) fun e => trivial
      refine follows_requestIn_bind ⟨⟨key.1, by simp⟩, base, _, cfg, by simp⟩ (fun won => ?_)
        fun e => trivial
      refine ⟨fun hp => ⟨key.2, ?_⟩, .inr ⟨key.2, won, by simp⟩⟩
      cases won with
      | true => simp
      | false => exact absurd rfl hp
    · refine ⟨fun hp => absurd rfl hp, .inl ⟨base, _, cfg, by simp, fun h => hn ?_⟩⟩
      rw [h]
      rfl

lemma keys_upsert : (upsert S ns req).Follows KeyCalls fun t x => KeyEnds t (x.map .upserted) := by
  unfold upsert
  cases validateUpsert S.runtime req with
  | error e => trivial
  | ok u =>
    change Follows _ _ (guardEmbeddingDimChange S req >>= _)
    refine Follows.bind ((follows_guard S req).mono (fun _ _ => keyCalls_of_looks)
      fun _ _ h => h) (fun t _ _ => ?_) fun _ _ _ => trivial
    refine follows_request_bind trivial (fun _ => ?_) fun _ => trivial
    refine follows_request_bind trivial (fun _ => ?_) fun _ => trivial
    refine (keys_upsertActive (t ++ [⟨.activate, .ok ()⟩, ⟨.withWriter, .ok ()⟩])).mono
      (fun t' c h => ?_) fun t' x h => ?_ <;> rwa [List.append_assoc] at h

/-- **What the programs do with keys.** -/
theorem keys_run [DecidableEq P] (request : Request P) :
    (request.run S ns).Follows KeyCalls KeyEnds := by
  cases request with
  | upsert req =>
    refine Follows.bind keys_upsert (fun t resp h => ?_) fun _ _ _ => trivial
    rw [Program.follows_pure, List.append_nil]
    exact h
  | updateCatalogConfig req =>
    refine Follows.bind
      ((follows_updateCatalogConfig (S := S)).mono (fun _ c hc => ?_) fun _ _ h => h)
      (fun _ _ _ => trivial) fun _ _ _ => trivial
    cases c <;> trivial
  | patchConfiguration req vo =>
    refine Follows.bind
      ((follows_patchConfiguration (S := S)).mono (fun _ c hc => ?_) fun _ _ h => h)
      (fun _ _ _ => trivial) fun _ _ _ => trivial
    cases c <;> trivial
  | rotateAPIKey =>
    refine Follows.bind (Q := fun t x => KeyEnds t (x.map .rotated)) ?_ (fun t p h => ?_)
      fun _ _ _ => trivial
    · refine follows_request_bind trivial (fun _ => ?_) fun _ => trivial
      refine follows_requestIn_bind trivial (fun key => ?_) fun _ => trivial
      refine follows_requestIn_bind ⟨key.1, by simp⟩ (fun found => ?_) fun _ => trivial
      cases found with
      | true => exact ⟨key.2, by simp⟩
      | false => trivial
    · rw [Program.follows_pure, List.append_nil]
      exact h
  | createDenseCollections gen =>
    exact follows_request_bind trivial (fun _ => trivial) fun _ => trivial

end Programs

/-! ### Runs -/

/-- The write of the key that an action commits: by which session, and the hash. -/
def keyWrite [DecidableEq P] (S : ConfigService P) (ns : String) (w : Scene P) :
    Action P → Option (ℕ × String)
  | .start _ _ => none
  | .reply t o =>
    match w.session t with
    | some ⟨_, _, .call c _⟩ => (serve S.runtime ns t c w.shared o).bind fun r =>
      (stored w.shared c r.1).map fun hash => (t, hash)
    | _ => none

/-- The writes of the key that a run commits, the last one last. -/
def keyWrites [DecidableEq P] (S : ConfigService P) (ns : String) (s₀ : Store P)
    (as : List (Action P)) : List (ℕ × String) :=
  observed (step S ns) (keyWrite S ns) (boot s₀) as

abbrev KeySession (P : Type) := Session (Call P) Answer (Error P) (Result P) (Request P)

/-- The session has told its caller, after an upsert, a plaintext. -/
def UpsertTells (x : KeySession P) (p : String) : Prop :=
  p ≠ "" ∧ ∃ response, x.rest = .pure (.upserted response) ∧ response.apiKey = p

/-- The session has made the plaintext of the hash, or was given it. -/
def Produced (R : Runtime P) (x : KeySession P)
    (hash : String) : Prop :=
  ∃ p salt, hash = R.hash p salt ∧ (⟨.generateAPIKey, .ok (p, hash)⟩ ∈ x.done ∨
    ∃ req, x.request = .upsert req ∧ req.provisionAPIKey = p)

section Runs

variable [DecidableEq P] {s₀ : Store P} {w w' : Scene P} {as : List (Action P)}
  {request : Request P} {done : List (Exchange P)} {before after : Scene P} {hash : String}

lemma keyWrite_reply (hx : w.session t = some ⟨request, done, .call c k⟩)
    (hs : serve S.runtime ns t c w.shared o = some (r, w'.shared)) :
    keyWrite S ns w (.reply t o) = (stored w.shared c r).map fun hash => (t, hash) := by
  simp [keyWrite, hx, hs]

lemma keyHash_step (h : step S ns w a = some w') :
    keyHash w'.shared = ((keyWrite S ns w a).map Prod.snd).or (keyHash w.shared) := by
  cases a with
  | start t request =>
    rw [(Sessions.step_start h).2.1]
    rfl
  | reply t o =>
    obtain ⟨request, done, c, k, r, hx, hs, -⟩ := Sessions.step_reply h
    rw [keyHash_serve hs, keyWrite_reply hx hs, Option.map_map]
    exact congrArg (Option.or · _) Option.map_id'.symm

/-- **The column holds the hash of the last write.** -/
theorem keyHash_exec (h : exec (step S ns) w as = some w') : keyHash w'.shared =
    ((observed (step S ns) (keyWrite S ns) w as).getLast?.map Prod.snd).or (keyHash w.shared) := by
  refine observed_invariant (I := fun m writes => keyHash m.shared =
    (writes.getLast?.map Prod.snd).or (keyHash w.shared)) (fun m writes a m' hm hs => ?_) h rfl
  rw [keyHash_step hs, hm]
  cases keyWrite S ns m a <;> simp

lemma keyHash_stays (h : exec (step S ns) w as = some w') (hk : keyHash w.shared ≠ none) :
    keyHash w'.shared ≠ none := by
  rw [keyHash_exec h]
  simp [hk]

lemma written_of_makes (hw : exec (step S ns) (boot s₀) as = some w)
    (hm : Sessions.Makes (serve S.runtime ns) (Request.run S ns) s₀ as t request done c r
      before after)
    (hs : stored before.shared c r = some hash) :
    keyHash w.shared ≠ none ∧
      (t, hash) ∈ keyWrites S ns s₀ as ∧
      (keyHash before.shared = none →
        (keyWrites S ns s₀ as).head? = some (t, hash)) := by
  obtain ⟨as₁, o, as₂, k, rfl, hb, -, hx, hse, hr⟩ := hm.cut hw
  rw [keyWrites, observed_append (step S ns) hb, observed, keyWrite_reply hx hse, hs]
  refine ⟨keyHash_stays hr ?_, by simp, fun hn => ?_⟩
  · rw [keyHash_serve hse, hs]
    rintro ⟨⟩
  · rw [keyHash_exec hb] at hn
    have hp := (Option.or_eq_none_iff.mp hn).1
    rw [List.getLast?_eq_none_iff.mp (Option.map_eq_none_iff.mp hp)]
    rfl

lemma won_eq (h : serve S.runtime ns t (.setAPIKeyHash hash) s o = some (.ok won, s')) :
    won = s.config.any fun row => row.apiKeyHash = none := by
  obtain ⟨-, ⟨reply, v, hp, hv⟩ | ⟨e, he, -⟩⟩ := serve_eq_some h
  · cases hv
    exact (Prod.mk.inj (Except.ok.inj hp)).1.symm
  · cases he

section Ends

variable (hw : exec (step S ns) (boot s₀) as = some w) {x : KeySession P}
  (hx : w.session t = some x)

include hw hx

lemma hash_of_generated (h : ⟨.generateAPIKey, .ok (p, hash)⟩ ∈ x.done) :
    ∃ salt, hash = S.runtime.hash p salt := by
  obtain ⟨done, before, after, -, o, -, -, -, -, -, -, hs⟩ := Sessions.makes_of_mem_done hw hx h
  obtain ⟨-, ⟨reply, v, hp, hv⟩ | ⟨e, he, -⟩⟩ := serve_eq_some hs
  · cases hv
    obtain ⟨hk, -⟩ := Prod.mk.inj (Except.ok.inj hp)
    cases hk
    exact ⟨reply.salt, rfl⟩
  · cases he

lemma upserted_config (h : ⟨.upsertWithCatalog base cr, .ok cfg⟩ ∈ x.done) :
    w.shared.config ≠ none ∧ (cfg.apiKeyHash ≠ none → keyHash w.shared ≠ none) := by
  obtain ⟨done, m, m', hm⟩ := Sessions.makes_of_mem_done hw hx h
  obtain ⟨_, o, _, k, -, -, -, -, hs, hr⟩ := hm.cut hw
  have hc : m'.shared.config = some cfg := by
    obtain ⟨-, ⟨reply, v, hp, hv⟩ | ⟨e, he, -⟩⟩ := serve_eq_some hs
    · cases hv
      exact (upserted_row (ok_of_mapError hp)).1
    · cases he
  refine ⟨fun hn => ?_, fun hk => keyHash_stays hr ?_⟩
  · cases hc.symm.trans ((evolves_of_exec hr).none hn)
  · rwa [keyHash, hc]

lemma ends_of_result (hr : x.rest = .pure res) : KeyEnds x.done (.ok res) := by
  have hf := Sessions.faithful_of_exec hw t x hx
  rw [hr] at hf
  exact (keys_run x.request).returned hf

lemma first_of_upserted (hr : x.rest = .pure (.upserted resp)) (hk : resp.apiKey ≠ "") :
    ∃ salt, (keyWrites S ns s₀ as).head? = some (t, S.runtime.hash resp.apiKey salt) := by
  obtain ⟨hash, hg, hs⟩ := (ends_of_result hw hx hr).1 hk
  obtain ⟨salt, rfl⟩ := hash_of_generated hw hx hg
  obtain ⟨done, before, after, hm⟩ := Sessions.makes_of_mem_done hw hx hs
  refine ⟨salt, (written_of_makes hw hm rfl).2.2 ?_⟩
  obtain ⟨-, o, -, -, -, -, -, -, hse⟩ := hm
  obtain ⟨row, hc, hn⟩ := (Option.any_eq_true _ _).mp (won_eq hse).symm
  rw [keyHash, hc]
  exact of_decide_eq_true hn

/-- The row was there when the upsert tried to store its hash, so it has one since then. -/
lemma key_of_upserted (hr : x.rest = .pure (.upserted resp)) : keyHash w.shared ≠ none := by
  rcases (ends_of_result hw hx hr).2 with ⟨base, cr, cfg, hm, hn⟩ | ⟨hash, won, hm⟩
  · exact (upserted_config hw hx hm).2 hn
  · obtain ⟨done, before, after, hma⟩ := Sessions.makes_of_mem_done hw hx hm
    obtain ⟨-, base, cr, cfg, hc⟩ := hma.follows (keys_run x.request)
    obtain ⟨_, o, _, k, -, hb, -, hxb, hse, hr⟩ := hma.cut hw
    obtain ⟨row, hro⟩ := Option.ne_none_iff_exists'.mp (upserted_config hb hxb hc).1
    have hwo := won_eq hse
    refine keyHash_stays hr ?_
    rw [keyHash_serve hse, keyHash]
    by_cases hn : row.apiKeyHash = none <;> simp [hwo, hro, hn, stored]

end Ends

lemma produced_of_mem (hw : exec (step S ns) (boot s₀) as = some w)
    (he : e ∈ keyWrites S ns s₀ as) : ∃ x, w.session e.1 = some x ∧ Produced S.runtime x e.2 := by
  obtain ⟨pre, post, ho⟩ := List.append_of_mem he
  obtain ⟨as₁, a, as₂, m, m', -, hm, hst, hr, ha, -⟩ := observed_split hw ho
  cases a with
  | start t request => cases ha
  | reply t o =>
    obtain ⟨request, done, c, k, r, hx, hs, hse⟩ := Sessions.step_reply hst
    rw [keyWrite_reply hx hs] at ha
    obtain ⟨hash, hh, rfl⟩ := Option.map_eq_some_iff.mp ha
    have hn : m'.session t = some ⟨request, done ++ [⟨c, r⟩], k r⟩ := by
      rw [hse, Function.update_self]
    obtain ⟨x, hx', hq, hd⟩ := Sessions.exec_record hn hr
    refine ⟨x, hx', ?_⟩
    have hf := Sessions.faithful_of_exec hm
    have hg : ∀ p, ⟨.generateAPIKey, .ok (p, hash)⟩ ∈ done → Produced S.runtime x hash := by
      intro p hp
      obtain ⟨salt, hsa⟩ := hash_of_generated hm hx hp
      exact ⟨p, salt, hsa, .inl (hd.subset (List.mem_append_left _ hp))⟩
    have hk : KeyCalls done c := (keys_run request).call (hf t _ hx)
    obtain ⟨-, ⟨reply, v, hp, rfl⟩ | ⟨e, rfl, -⟩⟩ := serve_eq_some hs
    · cases c with
      | upsertWithCatalog base cr =>
        have hc := calls_of_session hf hx
        rw [stored, (upserted_row (ok_of_mapError hp)).2] at hh
        split_ifs at hh
        cases request with
        | upsert req =>
          exact ⟨_, _, (Option.some.inj hh).symm, .inr ⟨req, hq, (split_key hc.1).symm⟩⟩
        | rotateAPIKey => rcases hc with h | h | ⟨hash, h⟩ <;> cases h
        | _ => cases hc
      | setAPIKeyHash hash' =>
        cases v <;> cases hh
        exact hk.1.elim hg
      | replaceAPIKeyHash hash' =>
        cases v <;> cases hh
        exact hk.elim hg
      | _ => cases hh
    · cases c <;> cases hh

/-- **A key that is handed out works.** Whoever is told a plaintext has stored its hash, and after a
successful upsert there is one. The upsert that tells a plaintext has made the first write of all,
and the column has the hash of what the session of the last one has produced. -/
theorem keys_handed_out (hw : exec (step S ns) (boot s₀) as = some w) :
    (∀ t x p, w.session t = some x → UpsertTells x p ∨ x.rest = .pure (.rotated p) →
      ∃ salt, (t, S.runtime.hash p salt) ∈ keyWrites S ns s₀ as) ∧
    (∀ t x p t' x' p', w.session t = some x → UpsertTells x p → w.session t' = some x' →
      UpsertTells x' p' → t = t') ∧
    (∀ t x response, w.session t = some x → x.rest = .pure (.upserted response) →
      ∃ hash, keyHash w.shared = some hash) ∧
    keyHash w.shared = ((keyWrites S ns s₀ as).getLast?.map Prod.snd).or (keyHash s₀) ∧
    ∀ e ∈ keyWrites S ns s₀ as, ∃ x, w.session e.1 = some x ∧ Produced S.runtime x e.2 := by
  refine ⟨?_, ?_, fun t x response hx hr => ?_, keyHash_exec hw, fun e => produced_of_mem hw⟩
  · rintro t x p hx (⟨hp, response, hr, rfl⟩ | hr)
    · obtain ⟨salt, hh⟩ := first_of_upserted hw hx hr hp
      exact ⟨salt, List.mem_of_mem_head? hh⟩
    · obtain ⟨hash, hg, hs⟩ : ∃ hash, _ := ends_of_result hw hx hr
      obtain ⟨salt, rfl⟩ := hash_of_generated hw hx hg
      obtain ⟨done, before, after, hm⟩ := Sessions.makes_of_mem_done hw hx hs
      exact ⟨salt, (written_of_makes hw hm rfl).2.1⟩
  · rintro t x - t' x' - hx ⟨hp, response, hr, rfl⟩ hx' ⟨hp', response', hr', rfl⟩
    obtain ⟨salt, hh⟩ := first_of_upserted hw hx hr hp
    obtain ⟨salt', hh'⟩ := first_of_upserted hw hx' hr' hp'
    exact (Prod.mk.inj (Option.some.inj (hh.symm.trans hh'))).1
  · exact Option.ne_none_iff_exists'.mp (key_of_upserted hw hx hr)

end Runs

/-- Two first upserts at the same time, and a rotation. -/
def keyRace : List (Action Unit) :=
  .start 0 (.upsert {}) :: .start 1 (.upsert {}) :: List.replicate 4 (goes 0) ++
    List.replicate 5 (goes 1) ++ goes 0 :: .start 2 .rotateAPIKey :: List.replicate 3 (goes 2)

theorem keys_handed_out_race :
    (keyWrites shop "shop" noRows keyRace).map Prod.fst = [1, 2] ∧
    ∃ w, exec (step shop "shop") (boot noRows) keyRace = some w ∧
      (∀ t x p, w.session t = some x → UpsertTells x p ∨ x.rest = .pure (.rotated p) →
        ∃ salt, (t, shop.runtime.hash p salt) ∈ keyWrites shop "shop" noRows keyRace) ∧
      (∀ t x p t' x' p', w.session t = some x → UpsertTells x p → w.session t' = some x' →
        UpsertTells x' p' → t = t') ∧
      (∀ t x response, w.session t = some x → x.rest = .pure (.upserted response) →
        ∃ hash, keyHash w.shared = some hash) ∧
      keyHash w.shared =
        ((keyWrites shop "shop" noRows keyRace).getLast?.map Prod.snd).or none ∧
      ∀ e ∈ keyWrites shop "shop" noRows keyRace,
        ∃ x, w.session e.1 = some x ∧ Produced shop.runtime x e.2 := by
  obtain ⟨w, hw⟩ := Option.isSome_iff_exists.mp
    (by decide +kernel : (exec (step shop "shop") (boot noRows) keyRace).isSome = true)
  exact ⟨by decide +kernel, w, hw, keys_handed_out hw⟩

end Codohue.NsConfig
