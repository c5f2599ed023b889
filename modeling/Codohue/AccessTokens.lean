import Codohue.AccessSessions

/-!
Service tokens: a name keeps its grant, a grant keeps its name, and a revocation is for good.

A transaction that inserts a token holds the name and the digest against the other transactions, so
both stay unique; a row that is there changes only by being revoked.
-/

namespace Codohue.Access

open Service Transition ReadCommitted

/-! ### Rows of tokens -/

/-- The same grant, revoked at most since. -/
structure TokenRow.Later (row row' : TokenRow) : Prop where
  tokenHash : row'.tokenHash = row.tokenHash
  permissions : row'.permissions = row.permissions
  namespaces : row'.namespaces = row.namespaces
  revoked : row.revoked = true → row'.revoked = true

namespace TokenRow.Later

lemma refl (row : TokenRow) : row.Later row := ⟨rfl, rfl, rfl, id⟩

lemma trans {row : TokenRow} (h : row.Later row') (h' : row'.Later row'') : row.Later row'' :=
  ⟨h'.tokenHash.trans h.tokenHash, h'.permissions.trans h.permissions,
    h'.namespaces.trans h.namespaces, fun hr => h'.revoked (h.revoked hr)⟩

end TokenRow.Later

/-- Neither the name nor the token is there. -/
def Fresh (d : Tables) (name : String) (row : TokenRow) : Prop :=
  d.serviceTokens.lookup name = none ∧
    ∀ name' row', d.serviceTokens.lookup name' = some row' → row'.tokenHash ≠ row.tokenHash

/-- The row that is there, revoked. -/
def Revokes (d : Tables) (name : String) (row : TokenRow) : Prop :=
  ∃ old, d.serviceTokens.lookup name = some old ∧ row = { old with revoked := true }

lemma Revokes.later (h : Revokes d name row) (ho : d.serviceTokens.lookup name = some old) :
    old.Later row := by
  obtain ⟨old', ho', rfl⟩ := h
  obtain rfl := Option.some.inj (ho.symm.trans ho')
  exact ⟨rfl, rfl, rfl, fun _ => rfl⟩

section Lookup

variable {d : Tables} {h : String}

lemma tokenOf_eq_none (he : tokenOf d h = none) (hr : d.serviceTokens.lookup name = some row) :
    row.tokenHash ≠ h := by
  intro hh
  have hm : (name, row) ∈ d.serviceTokens.selectWhere fun _ row => row.tokenHash = h :=
    Table.mem_selectWhere.mpr ⟨hr, decide_eq_true hh⟩
  rw [List.head?_eq_none_iff.mp he] at hm
  cases hm

lemma run_token {st : Statement} {v : st.Value} (hr : st.run now d = .ok (v, ws)) (hwr : wr ∈ ws)
    (hk : wr.kind = .token) :
    ∃ name row, ws = [.putToken name row] ∧ (Fresh d name row ∨ Revokes d name row) := by
  have hst := (Statement.kind_of_run hr hwr).trans (congrArg some hk)
  cases st with
  | insertToken name tokenHash perms nss =>
    simp only [Statement.run] at hr
    split_ifs at hr with hn ht
    · cases hr
      cases hwr
    · cases hr
      refine ⟨name, _, rfl, .inl ⟨Option.not_isSome_iff_eq_none.mp hn, fun name' row' hro' => ?_⟩⟩
      exact tokenOf_eq_none (Option.not_isSome_iff_eq_none.mp ht) hro'
  | revokeToken name =>
    simp only [Statement.run] at hr
    split at hr
    · cases hr
      cases hwr
    · next old ho =>
      cases hr
      exact ⟨name, _, rfl, .inr ⟨old, ho, rfl⟩⟩
  | _ => cases hst

lemma lookup_put_token (name name' : String) (row : TokenRow) (d : Tables) :
    (rows.apply (.putToken name' row) d).serviceTokens.lookup name =
      if name = name' then some row else d.serviceTokens.lookup name :=
  Table.lookup_insert_eq ..

lemma lookup_applyAll_token (name : String) (ws : List Write) (d : Tables) :
    ((rows.applyAll ws d).serviceTokens.lookup name = d.serviceTokens.lookup name ∧
        ∀ row, Write.putToken name row ∉ ws) ∨
      ∃ row, Write.putToken name row ∈ ws ∧
        (rows.applyAll ws d).serviceTokens.lookup name = some row := by
  refine Rows.applyAll_put (R := rows) (T := Tables.serviceTokens) (fun _ _ _ => rfl)
    (fun wr d hne => ?_) name ws d
  cases wr with
  | putToken name' row => exact absurd rfl (hne name' row)
  | _ => rfl

end Lookup

/-! ### Stores -/

/-- Names and tokens are unique, and the open transactions keep it so. -/
structure TokensSound (s : Store) : Prop where
  unique : ∀ {name name' row row'}, s.committed.serviceTokens.lookup name = some row →
    s.committed.serviceTokens.lookup name' = some row' →
      row.tokenHash = row'.tokenHash → name = name'
  pending : ∀ {t ws name row}, s.pending.lookup t = some ws → Write.putToken name row ∈ ws →
    Fresh s.committed name row ∨ Revokes s.committed name row
  single : ∀ {t ws name name' row row'}, s.pending.lookup t = some ws →
    Write.putToken name row ∈ ws → Write.putToken name' row' ∈ ws → name = name' ∧ row = row'

variable {t : ℕ} {ws : List Write} {name : String} {row : TokenRow}

section Stores

variable {u : ℕ}

lemma TokensSound.guarded (h : TokensSound s) (hmo : Database.Moves t s s') (hne : u ≠ t)
    (hws : s.pending.lookup u = some ws) (hm : Write.putToken name row ∈ ws) :
    Fresh s'.committed name row ∨ Revokes s'.committed name row := by
  have hn : s.Holds u (.token name) := ⟨ws, _, hws, hm, List.mem_cons_self⟩
  have hh : s.Holds u (.tokenHash row.tokenHash) :=
    ⟨ws, _, hws, hm, List.mem_cons_of_mem _ List.mem_cons_self⟩
  have hl : s'.committed.serviceTokens.lookup name = s.committed.serviceTokens.lookup name := by
    refine hmo.guarded (I := fun d => d.serviceTokens.lookup name =
      s.committed.serviceTokens.lookup name) (fun wr d hk hd => ?_) hne hn rfl
    cases wr with
    | putToken name' row' =>
      have hne' : name ≠ name' := by
        rintro rfl
        exact hk List.mem_cons_self
      rwa [lookup_put_token, if_neg hne']
    | _ => exact hd
  rcases h.pending hws hm with ⟨hf, ht⟩ | ⟨old, ho, hr⟩
  · refine .inl ⟨hl.trans hf, ?_⟩
    refine hmo.guarded (I := fun d => ∀ name' row', d.serviceTokens.lookup name' = some row' →
      row'.tokenHash ≠ row.tokenHash) (fun wr d hk hd name' row' hr' => ?_) hne hh ht
    cases wr with
    | putToken name'' row'' =>
      rw [lookup_put_token] at hr'
      split_ifs at hr'
      · cases hr'
        intro heq
        exact hk (List.mem_cons_of_mem _ (by rw [heq]; exact List.mem_cons_self))
      · exact hd name' row' hr'
    | _ => exact hd name' row' hr'
  · exact .inr ⟨old, hl.trans ho, hr⟩

lemma TokensSound.lookup_commit (h : TokensSound s) (t : ℕ) :
    (∀ name, (s.commit t).committed.serviceTokens.lookup name =
        s.committed.serviceTokens.lookup name) ∨
      ∃ ws name row, s.pending.lookup t = some ws ∧ Write.putToken name row ∈ ws ∧
        ∀ name', (s.commit t).committed.serviceTokens.lookup name' =
          if name' = name then some row else s.committed.serviceTokens.lookup name' := by
  simp only [Database.commit]
  cases hws : s.pending.lookup t with
  | none => exact .inl fun name => by rw [Database.view_of_none hws]
  | some ws =>
    rw [Database.view_of_some hws]
    by_cases hp : ∃ name row, Write.putToken name row ∈ ws
    · obtain ⟨name, row, hm⟩ := hp
      refine .inr ⟨ws, name, row, rfl, hm, fun name' => ?_⟩
      rcases lookup_applyAll_token name' ws s.committed with ⟨hs, hn⟩ | ⟨row', hm', hr'⟩
      · have hne : name' ≠ name := by
          rintro rfl
          exact hn row hm
        rw [hs, if_neg hne]
      · obtain ⟨rfl, rfl⟩ := h.single hws hm hm'
        rw [hr', if_pos rfl]
    · refine .inl fun name => ?_
      rcases lookup_applyAll_token name ws s.committed with ⟨hs, -⟩ | ⟨row, hm, -⟩
      · exact hs
      · exact absurd ⟨name, row, hm⟩ hp

lemma TokensSound.unique_commit (h : TokensSound s) (t : ℕ)
    (hro : (s.commit t).committed.serviceTokens.lookup name = some row)
    (hro' : (s.commit t).committed.serviceTokens.lookup name' = some row')
    (hh : row.tokenHash = row'.tokenHash) : name = name' := by
  rcases h.lookup_commit t with hs | ⟨ws, n, r, hws, hm, hl⟩
  · rw [hs] at hro hro'
    exact h.unique hro hro' hh
  · -- the row that is written has a token of its own, or that of the row before it
    have ho : ∀ {n' r'}, n' ≠ n → s.committed.serviceTokens.lookup n' = some r' →
        r'.tokenHash ≠ r.tokenHash := by
      intro n' r' hne hr' heq
      rcases h.pending hws hm with ⟨-, ht⟩ | ⟨old, hol, rfl⟩
      · exact ht n' r' hr' heq
      · exact hne (h.unique hr' hol heq)
    rw [hl] at hro hro'
    split_ifs at hro hro' with hn hn' hn'
    · rw [hn, hn']
    · cases hro
      exact absurd hh.symm (ho hn' hro')
    · cases hro'
      exact absurd hh (ho hn hro)
    · exact h.unique hro hro' hh

end Stores

/-! ### Runs -/

section Runs

variable {R : Runtime} {w w' : Scene} {a : Action} {request : Request} {done : List Exchange}
  {c : Call} {k : Answer c → AccessM Response} {r : Answer c} {o : Outcome}
variable {st : Statement} {token : String} {actor : Actor} {as : List Action}

lemma placed_token (h : st.kind? = some .token) (hp : Placed done st) :
    inTransaction done = true ∧ done.any Exchange.writesToken = false := by
  cases st with
  | insertToken | revokeToken => exact hp
  | _ => cases h

lemma writesToken_of_kind {r : Answer (.sql st)} (h : st.kind? = some .token) :
    Exchange.writesToken ⟨.sql st, r⟩ = true := by
  cases st with
  | insertToken | revokeToken => rfl
  | _ => cases h

variable {x : Session Call Answer Error Response Request}

section

variable (ht : Transactional R w) (hx : w.session t = some x)
  (hn : x.done.any Exchange.writesToken = false)

include ht hx hn

lemma Transactional.no_token (hws : w.shared.pending.lookup t = some ws) :
    ∀ wr ∈ ws, wr.kind ≠ .token := by
  intro wr hwr hk
  obtain ⟨st, r, hm, hst⟩ := (ht.agrees hx).sent hws hwr
  exact List.any_eq_false.mp hn _ hm (writesToken_of_kind (hst.trans (congrArg some hk)))

lemma Transactional.view_tokens :
    (w.shared.view t).serviceTokens = w.shared.committed.serviceTokens := by
  cases hws : w.shared.pending.lookup t with
  | none => rw [Database.view_of_none hws]
  | some ws =>
    rw [Database.view_of_some hws]
    exact applyAll_serviceTokens (ht.no_token hx hn hws)

end

lemma serve_tokens (ht : Transactional R w) (hx : w.session t = some ⟨request, done, .call c k⟩)
    (hse : serve t c w.shared o = some (r, s')) :
    s'.committed.serviceTokens = w.shared.committed.serviceTokens ∨
      c = .commit ∧ s' = w.shared.commit t := by
  rcases serve_committed hse with hs | hc | ⟨st, now, v, ws, rfl, hn, hr, hs⟩
  · exact .inl (by rw [hs])
  · exact .inr hc
  · rw [hs]
    refine .inl (applyAll_serviceTokens fun wr hwr hk => ?_)
    have hst := (Statement.kind_of_run hr hwr).trans (congrArg some hk)
    have hso := (ht.agrees hx).isSome.trans (placed_token hst (ht.calls hx).1).1
    rw [hn] at hso
    cases hso

/-- What the transaction of a session is to write to tokens after a call of the session: what it was
to write before, or one row that fits the rows that are there. -/
lemma pending_token (ht : Transactional R w) (hx : w.session t = some ⟨request, done, .call c k⟩)
    (hs : serve t c w.shared o = some (r, s'))
    (hws : s'.pending.lookup t = some ws) :
    (∀ name row, Write.putToken name row ∈ ws →
      ∃ ws₀, w.shared.pending.lookup t = some ws₀ ∧ Write.putToken name row ∈ ws₀) ∨
    ∃ name row, (∀ name' row', Write.putToken name' row' ∈ ws → name' = name ∧ row' = row) ∧
      (Fresh w.shared.committed name row ∨ Revokes w.shared.committed name row) := by
  rcases (serve_pending hs hws).2 with rfl | hws₀ | ⟨st, now, v, ws₀, l, rfl, hws₀, hr, rfl⟩
  · exact .inl nofun
  · exact .inl fun _ _ h => ⟨ws, hws₀, h⟩
  by_cases hne : ∃ wr ∈ l, wr.kind = .token
  · obtain ⟨wr, hwr, hk⟩ := hne
    have hst := (Statement.kind_of_run hr hwr).trans (congrArg some hk)
    obtain ⟨-, hn⟩ := placed_token hst (ht.calls hx).1
    obtain ⟨name, row, rfl, hf⟩ := run_token hr hwr hk
    refine .inr ⟨name, row, fun name' row' hm => ?_, ?_⟩
    · rcases List.mem_append.mp hm with ho | hm
      · exact absurd rfl (ht.no_token hx hn hws₀ _ ho)
      · exact Write.putToken.inj (List.mem_singleton.mp hm)
    · simp only [Fresh, Revokes, ht.view_tokens hx hn] at hf
      exact hf
  · refine .inl fun name row hm => ⟨ws₀, hws₀, ?_⟩
    exact (List.mem_append.mp hm).resolve_right fun hm => hne ⟨_, hm, rfl⟩

lemma tokensSound_step (h : TokensSound w.shared) (ht : Transactional R w)
    (hst : step R w a = some w') : TokensSound w'.shared := by
  cases a with
  | start t request =>
    rw [(Sessions.step_start hst).2.1]
    exact h
  | reply t o =>
    obtain ⟨request, done, c, k, r, hx, hs, -⟩ := Sessions.step_reply hst
    refine ⟨?_, ?_, ?_⟩
    · rcases serve_tokens ht hx hs with hsa | ⟨-, hc⟩
      · rw [hsa]
        exact h.unique
      · rw [hc]
        exact h.unique_commit t
    · intro u ws name row hws hm
      by_cases hut : u = t
      · subst hut
        rw [(serve_pending hs hws).1]
        rcases pending_token ht hx hs hws with ho | ⟨name', row', ha, hf⟩
        · obtain ⟨ws₀, hws₀, hm₀⟩ := ho name row hm
          exact h.pending hws₀ hm₀
        · obtain ⟨rfl, rfl⟩ := ha name row hm
          exact hf
      · rw [(serve_moves hs).pending_of_ne hut] at hws
        exact h.guarded (serve_moves hs) hut hws hm
    · intro u ws name name' row row' hws hm hm'
      by_cases hut : u = t
      · subst hut
        rcases pending_token ht hx hs hws with ho | ⟨n, r', ha, -⟩
        · obtain ⟨ws₀, hws₀, hm₀⟩ := ho name row hm
          obtain ⟨ws₁, hws₁, hm₁⟩ := ho name' row' hm'
          obtain rfl := Option.some.inj (hws₀.symm.trans hws₁)
          exact h.single hws₀ hm₀ hm₁
        · obtain ⟨rfl, rfl⟩ := ha name row hm
          obtain ⟨rfl, rfl⟩ := ha name' row' hm'
          exact ⟨rfl, rfl⟩
      · rw [(serve_moves hs).pending_of_ne hut] at hws
        exact h.single hws hm hm'

lemma token_step (h : TokensSound w.shared) (ht : Transactional R w) (hst : step R w a = some w')
    (hr : w.shared.committed.serviceTokens.lookup name = some row) :
    ∃ row', w'.shared.committed.serviceTokens.lookup name = some row' ∧ row.Later row' := by
  cases a with
  | start t request =>
    rw [(Sessions.step_start hst).2.1]
    exact ⟨row, hr, .refl row⟩
  | reply t o =>
    obtain ⟨request, done, c, k, r, hx, hse, -⟩ := Sessions.step_reply hst
    rcases serve_tokens ht hx hse with hs | ⟨-, hc⟩
    · exact ⟨row, by rw [hs, hr], .refl row⟩
    rw [hc]
    rcases h.lookup_commit t with hs | ⟨ws, name', row', hws, hm, hl⟩
    · exact ⟨row, (hs name).trans hr, .refl row⟩
    · rw [hl]
      split_ifs with hn
      · subst hn
        rcases h.pending hws hm with ⟨hno, -⟩ | hre
        · cases hno.symm.trans hr
        · exact ⟨row', rfl, hre.later hr⟩
      · exact ⟨row, hr, .refl row⟩

/-! ### What a transaction has read -/

/-- A token that a session has read in its open transaction is there, revoked at most since. -/
def ReadsHold (w : Scene) : Prop :=
  ∀ {t x name row}, w.session t = some x → inTransaction x.done = true →
    (⟨.sql (.selectToken name), .ok (some row)⟩ : Exchange) ∈ x.done →
      ∃ row', (w.shared.view t).serviceTokens.lookup name = some row' ∧ row.Later row'

lemma run_later {now : ℤ} {d : Tables} {v : st.Value} (hru : st.run now d = .ok (v, ws))
    (hr : d.serviceTokens.lookup name = some row) :
    ∃ row', (rows.applyAll ws d).serviceTokens.lookup name = some row' ∧ row.Later row' := by
  rcases lookup_applyAll_token name ws d with ⟨hs, -⟩ | ⟨row', hm, hl⟩
  · exact ⟨row, hs.trans hr, .refl row⟩
  · obtain ⟨name', row'', rfl, hf⟩ := run_token hru hm rfl
    obtain ⟨rfl, rfl⟩ := Write.putToken.inj (List.mem_singleton.mp hm)
    rcases hf with ⟨hn, -⟩ | hre
    · cases hn.symm.trans hr
    · exact ⟨row', hl, hre.later hr⟩

lemma view_later (h : TokensSound w.shared) (ht : Transactional R w) (hst : step R w a = some w')
    (hp : w'.shared.pending.lookup u = w.shared.pending.lookup u)
    (hro : (w.shared.view u).serviceTokens.lookup name = some row) :
    ∃ row', (w'.shared.view u).serviceTokens.lookup name = some row' ∧ row.Later row' := by
  cases hws : w.shared.pending.lookup u with
  | none =>
    rw [Database.view_of_none hws] at hro
    rw [Database.view_of_none (hp.trans hws)]
    exact token_step h ht hst hro
  | some ws =>
    rw [Database.view_of_some hws] at hro
    rw [Database.view_of_some (hp.trans hws)]
    rcases lookup_applyAll_token name ws w.shared.committed with ⟨hs, hn⟩ | ⟨r, hm, hr⟩
    · rw [hs] at hro
      rcases lookup_applyAll_token name ws w'.shared.committed with ⟨hs', -⟩ | ⟨r', hm', -⟩
      · rw [hs']
        exact token_step h ht hst hro
      · exact absurd hm' (hn r')
    · -- its own write stays on top
      obtain rfl := Option.some.inj (hr.symm.trans hro)
      rcases lookup_applyAll_token name ws w'.shared.committed with ⟨-, hn'⟩ | ⟨r', hm', hr'⟩
      · exact absurd hm (hn' r)
      · obtain ⟨-, rfl⟩ := h.single hws hm hm'
        exact ⟨r, hr', .refl r⟩

lemma readsHold_step (hr : ReadsHold w) (h : TokensSound w.shared) (ht : Transactional R w)
    (hst : step R w a = some w') : ReadsHold w' := by
  intro u x name row hx' hin hm
  cases a with
  | start t request =>
    obtain ⟨hf, hsh, hses⟩ := Sessions.step_start hst
    rw [hses] at hx'
    rw [hsh]
    rcases Sessions.update_eq_some hx' with ⟨rfl, rfl⟩ | ⟨-, hx'⟩
    · cases hm
    · exact hr hx' hin hm
  | reply t o =>
    obtain ⟨request, done, c, k, r, hx, hse, hses⟩ := Sessions.step_reply hst
    rw [hses] at hx'
    rcases Sessions.update_eq_some hx' with ⟨rfl, rfl⟩ | ⟨hne, hx'⟩
    swap
    · obtain ⟨row', hro', hl⟩ := hr hx' hin hm
      obtain ⟨row'', hro'', hl'⟩ := view_later h ht hst ((serve_moves hse).pending_of_ne hne) hro'
      exact ⟨row'', hro'', hl.trans hl'⟩
    rcases List.mem_append.mp hm with ho | hn
    · cases c with
      | begin => exact absurd rfl (List.any_eq_false.mp (ht.calls hx).1 _ ho)
      | sql st =>
        rw [inTransaction_snoc rfl rfl] at hin
        obtain ⟨row', hro', hl⟩ := hr hx hin ho
        rcases serve_sql hse with ⟨-, hs⟩ | ⟨now, v, ws, hru, hw, -⟩
        · rw [hs]
          exact ⟨row', hro', hl⟩
        · rw [Database.view_write hw ((ht.agrees hx).isSome.trans hin)]
          obtain ⟨row'', hro'', hl'⟩ := run_later hru hro'
          exact ⟨row'', hro'', hl.trans hl'⟩
      | commit | rollback => cases (inTransaction_snoc_ends rfl).symm.trans hin
      | draw =>
        rw [inTransaction_snoc rfl rfl] at hin
        rw [serve_draw hse]
        exact hr hx hin ho
    · obtain ⟨rfl, hr'⟩ := Sigma.mk.inj (List.mem_singleton.mp hn)
      obtain rfl := eq_of_heq hr'
      have hop := (ht.agrees hx).isSome.trans (ht.calls hx).1
      rcases serve_sql hse with ⟨⟨e, he⟩, -⟩ | ⟨now, v, ws, hru, hw, hv⟩
      · cases he
      rcases hv with hv | ⟨e, he⟩
      · rw [Database.view_write hw hop]
        cases hv
        exact run_later hru (Prod.mk.inj (Except.ok.inj hru)).1
      · cases he

lemma resolved_step (ht : Transactional R w) (hst : step R w a = some w')
    (hev : event w a = some (.resolved token actor)) :
    ∃ row, w.shared.committed.serviceTokens.lookup actor.name = some row ∧
      row.tokenHash = R.digest token ∧ row.revoked = false ∧
      actor.permissions = row.permissions ∧ actor.namespaces = row.namespaces := by
  obtain ⟨t, o, request, done, c, k, r, reply, -, hx, -, hp, hs⟩ :=
    event_eq_some hev hst
  cases hs with
  | resolved hto =>
    obtain ⟨hpl, token', hr, rfl⟩ := ht.calls hx
    obtain rfl := Request.serviceToken.inj hr
    obtain ⟨ws, hru, -⟩ := ht.autocommit hx hpl hp
    obtain ⟨e, he, hf⟩ :=
      Option.bind_eq_some_iff.mp (Prod.mk.inj (Except.ok.inj hru)).1
    split_ifs at hf with hre
    cases hf
    obtain ⟨hl, hh⟩ := Table.mem_selectWhere.mp (List.mem_of_head? he)
    exact ⟨e.2, hl, of_decide_eq_true hh, Bool.not_eq_true _ ▸ hre, rfl, rfl⟩

/-- All of it along a run. -/
structure TokensKept (R : Runtime) (w : Scene) : Prop where
  transactional : Transactional R w
  sound : TokensSound w.shared
  reads : ReadsHold w

lemma tokensKept_step (h : TokensKept R w) (hs : step R w a = some w') : TokensKept R w' :=
  ⟨transactional_step h.1 hs, tokensSound_step h.2 h.1 hs, readsHold_step h.3 h.2 h.1 hs⟩

theorem tokensKept_of_exec (h : exec (step R) init as = some w) : TokensKept R w :=
  exec_invariant (fun _ _ _ => tokensKept_step) h ⟨transactional_init, ⟨nofun, nofun, nofun⟩, nofun⟩

lemma token_of_exec (hru : exec (step R) w as = some w') (h : TokensKept R w)
    (hr : w.shared.committed.serviceTokens.lookup name = some row) :
    TokensKept R w' ∧
      ∃ row', w'.shared.committed.serviceTokens.lookup name = some row' ∧ row.Later row' := by
  refine exec_invariant (I := fun w => TokensKept R w ∧
    ∃ row', w.shared.committed.serviceTokens.lookup name = some row' ∧ row.Later row') ?_ hru
    ⟨h, row, hr, .refl row⟩
  rintro m a m' ⟨h, row', hr', hl⟩ hs
  obtain ⟨row'', hr'', hl'⟩ := token_step h.sound h.transactional hs hr'
  exact ⟨tokensKept_step h hs, row'', hr'', hl.trans hl'⟩

lemma provisioned_step (h : TokensKept R w) (hst : step R w a = some w')
    (hev : event w a = some (.provisioned name token perms namespaces)) :
    ∃ row, w'.shared.committed.serviceTokens.lookup name = some row ∧
      row.tokenHash = R.digest token ∧ row.permissions.Perm perms ∧
        row.namespaces.Perm namespaces := by
  obtain ⟨t, o, request, done, c, k, r, reply, -, hx, -, hpe, hs⟩ :=
    event_eq_some hev hst
  cases hs with
  | provisioned ht =>
    obtain ⟨-, hc⟩ := Prod.mk.inj (Option.some.inj hpe)
    obtain ⟨hin, row, hm, hd⟩ := h.transactional.calls hx
    obtain ⟨row', hr', hl⟩ := h.reads hx hin hm
    simp only [describes, Bool.and_eq_true, decide_eq_true_eq] at hd
    obtain ⟨⟨⟨hh, -⟩, hp⟩, hn⟩ := hd
    rw [← hc]
    refine ⟨row', hr', hl.tokenHash.trans hh, ?_, ?_⟩
    · rw [hl.permissions]
      exact (List.perm_insertionSort _ _).symm.trans
        ((List.Perm.of_eq hp).trans (List.perm_insertionSort _ _))
    · rw [hl.namespaces]
      exact (List.perm_insertionSort _ _).symm.trans
        ((List.Perm.of_eq hn).trans (List.perm_insertionSort _ _))

lemma revoke_answer (ht : Transactional R w) {actor : String}
    {k : Answer (.sql (.revokeToken name)) → AccessM Response}
    {r : Answer (.sql (.revokeToken name))}
    (hx : w.session t = some ⟨.revokeToken actor name, done, .call (.sql (.revokeToken name)) k⟩)
    (hs : serve t (.sql (.revokeToken name)) w.shared o = some (r, s'))
    (hro : w.shared.committed.serviceTokens.lookup name = some row) :
    r = .ok 1 ∨ ∃ e, r = .error e := by
  rcases serve_sql hs with ⟨he, -⟩ | ⟨now, v, ws, hru, -, hr | he⟩
  · exact .inr he
  · left
    rw [← ht.view_tokens hx (ht.calls hx).1.2] at hro
    simp only [Statement.run, hro] at hru
    rw [hr, (Prod.mk.inj (Except.ok.inj hru)).1]
  · exact .inr he

lemma revokedToken_step (h : TokensKept R w) (hst : step R w a = some w')
    (hev : event w a = some (.revokedToken t name))
    (hf : ∀ x, w.session t = some x → ∃ r, (r = .ok 1 ∨ ∃ e, r = .error e) ∧
      (⟨.sql (.revokeToken name), r⟩ : Exchange) ∈ x.done)
    (hro : w.shared.committed.serviceTokens.lookup name = some row) :
    ∃ row', w'.shared.committed.serviceTokens.lookup name = some row' ∧ row.Later row' ∧
      row'.revoked = true := by
  obtain ⟨t', o, request, done, c, k, r, reply, -, hx, -, hpe, hs⟩ :=
    event_eq_some hev hst
  cases hs with
  | revokedToken =>
    obtain ⟨-, hc⟩ := Prod.mk.inj (Option.some.inj hpe)
    obtain ⟨hin, n, rfl⟩ := h.transactional.calls hx
    obtain ⟨r', hr', hm⟩ := hf _ hx
    obtain rfl : n = 1 := by
      simp only [List.mem_cons, Sigma.mk.injEq, reduceCtorEq, Call.sql.injEq, false_and, false_or,
        true_and, heq_eq_eq, List.not_mem_nil, or_false] at hm
      subst hm
      rcases hr' with hr' | ⟨e, hr'⟩
      · exact Except.ok.inj hr'
      · cases hr'
    obtain ⟨ws, hws⟩ :=
      Option.isSome_iff_exists.mp ((h.transactional.agrees hx).isSome.trans hin)
    obtain ⟨now, d, l, hru, hsu⟩ :=
      @Agrees.kept _ _ (h.transactional.agrees hx) (.revokeToken name) 1 _ (by simp) hws
    obtain ⟨old, hp⟩ : ∃ old : TokenRow, Write.putToken name { old with revoked := true } ∈ ws := by
      simp only [Statement.run] at hru
      split at hru
      · cases (Prod.mk.inj (Except.ok.inj hru)).1
      · next old _ =>
        cases hru
        exact ⟨old, hsu _ List.mem_cons_self⟩
    rw [← hc, Database.commit, Database.view_of_some hws]
    rcases lookup_applyAll_token name ws w.shared.committed with ⟨-, hn⟩ | ⟨row', hm', hro'⟩
    · exact absurd hp (hn _)
    · obtain ⟨-, rfl⟩ := h.sound.single hws hp hm'
      refine ⟨_, hro', ?_, rfl⟩
      rcases h.sound.pending hws hm' with ⟨hn, -⟩ | hre
      · cases hn.symm.trans hro
      · exact hre.later hro

lemma resolved_of_held (h : TokensKept R w) (hs : step R w a = some w')
    (hev : event w a = some (.resolved token actor))
    (hr : w.shared.committed.serviceTokens.lookup name = some row)
    (hh : row.tokenHash = R.digest token) :
    actor.name = name ∧ row.revoked = false ∧ actor.permissions = row.permissions ∧
      actor.namespaces = row.namespaces := by
  obtain ⟨row', hr', hh', hre, hp, hna⟩ :=
    resolved_step h.transactional hs hev
  have hn := h.sound.unique hr' hr (hh'.trans hh.symm)
  rw [hn] at hr'
  obtain rfl := Option.some.inj (hr.symm.trans hr')
  exact ⟨hn, hre, hp, hna⟩

variable {pre post : List Event}

lemma resolved_later (hru : exec (step R) init as = some w)
    (hsp : events R as = pre ++ .resolved token actor :: post)
    (hme : .resolved token actor' ∈ post) : actor'.name = actor.name ∧
      actor'.permissions = actor.permissions ∧ actor'.namespaces = actor.namespaces := by
  obtain ⟨as₁, act, as₂, m, m', rfl, hm, hs, hre, hev, -, rfl⟩ := observed_split hru hsp
  have h := tokensKept_of_exec hm
  obtain ⟨row, hr, hh, -, hp, hna⟩ :=
    resolved_step h.transactional hs hev
  obtain ⟨row', hr', hl⟩ := token_step h.sound h.transactional hs hr
  obtain ⟨p, q, hsp'⟩ := List.append_of_mem hme
  obtain ⟨bs₁, b, bs₂, n, n', rfl, hn, hs', -, hev', -, -⟩ := observed_split hre hsp'
  obtain ⟨h', row'', hr'', hl'⟩ := token_of_exec hn (tokensKept_step h hs) hr'
  have ha := hl.trans hl'
  obtain ⟨hnam, -, hp', hna'⟩ :=
    resolved_of_held h' hs' hev' hr'' (ha.tokenHash.trans hh)
  exact ⟨hnam, by rw [hp', ha.permissions, hp],
    by rw [hna', ha.namespaces, hna]⟩

/-- After the statement of a revocation that finds the token, and its commit, the token is dead. -/
lemma not_resolved_of_revoked {as₁ as₂ : List Action} {v : ℕ} {m m' : Scene}
    (hm : exec (step R) init as₁ = some m) (hs : step R m (.reply v o) = some m')
    (hre : exec (step R) m' as₂ = some w) {actor : String}
    {k : Answer (.sql (.revokeToken name)) → AccessM Response}
    (hx : m.session v = some ⟨.revokeToken actor name, done, .call (.sql (.revokeToken name)) k⟩)
    (hr : m.shared.committed.serviceTokens.lookup name = some row)
    (hh : row.tokenHash = R.digest token)
    (hsp : observed (step R) event m' as₂ = pre ++ .revokedToken v name :: post) (b : Actor) :
    .resolved token b ∉ post := by
  intro hme
  have h := tokensKept_of_exec hm
  -- the answer to the statement is on the record of the session when it commits
  obtain ⟨request, done', c, k', r, hx', hser, hse⟩ := Sessions.step_reply hs
  have hsa := hx.symm.trans hx'
  simp only [Option.some.injEq, Session.mk.injEq, Program.call.injEq] at hsa
  obtain ⟨rfl, rfl, rfl, -⟩ := hsa
  have ha := revoke_answer h.transactional hx hser hr
  obtain ⟨bs₁, act, bs₂, n, n', rfl, hn, hs', hre', hev, -, rfl⟩ := observed_split hre hsp
  have hrec : ∀ x, n.session v = some x → ∃ r, (r = .ok 1 ∨ ∃ e, r = .error e) ∧
      (⟨.sql (.revokeToken name), r⟩ : Exchange) ∈ x.done := by
    intro x hxn
    have hne : m'.session v =
        some ⟨.revokeToken actor name, done ++ [⟨.sql (.revokeToken name), r⟩], k' r⟩ := by
      rw [hse, Function.update_self]
    obtain ⟨x', hx'', -, hp⟩ := Sessions.exec_record hne hn
    obtain rfl := Option.some.inj (hxn.symm.trans hx'')
    exact ⟨r, ha, hp.subset (List.mem_append_right _ List.mem_cons_self)⟩
  -- so the commit revokes the row, and it stays revoked
  obtain ⟨row₁, hr₁, hla₁⟩ := token_step h.sound h.transactional hs hr
  obtain ⟨hk, row₂, hr₂, hla₂⟩ := token_of_exec hn (tokensKept_step h hs) hr₁
  obtain ⟨row₃, hr₃, hla₃, hrev⟩ := revokedToken_step hk hs' hev hrec hr₂
  obtain ⟨p, q, hsp'⟩ := List.append_of_mem hme
  obtain ⟨ds₁, d, ds₂, l, l', rfl, hl, hs'', -, hev', -, -⟩ := observed_split hre' hsp'
  obtain ⟨hk', row₄, hr₄, hla₄⟩ := token_of_exec hl (tokensKept_step hk hs') hr₃
  have hal := ((hla₁.trans hla₂).trans hla₃).trans hla₄
  obtain ⟨-, hli, -⟩ := resolved_of_held hk' hs'' hev' hr₄ (hal.tokenHash.trans hh)
  cases hli.symm.trans (hla₄.revoked hrev)

/-- **Grants do not change, and a revocation is for good.** A token whose name is revoked while it
holds the token is not resolved after the commit of the revocation; a token is always resolved to
the same name and grant; and a provision that succeeds describes the grant that is stored. -/
theorem service_tokens_kept (R : Runtime) {as : List Action} {w : Scene}
    (hrun : exec (step R) init as = some w) :
    (∀ as₁ v o as₂ m m' actor name done k row token, as = as₁ ++ .reply v o :: as₂ →
      exec (step R) init as₁ = some m → step R m (.reply v o) = some m' →
      m.session v = some ⟨.revokeToken actor name, done, .call (.sql (.revokeToken name)) k⟩ →
      m.shared.committed.serviceTokens.lookup name = some row → row.tokenHash = R.digest token →
      ∀ pre post a, observed (step R) event m' as₂ = pre ++ .revokedToken v name :: post →
        .resolved token a ∉ post) ∧
    (∀ token a a', .resolved token a ∈ events R as → .resolved token a' ∈ events R as →
      a'.name = a.name ∧ a'.permissions = a.permissions ∧ a'.namespaces = a.namespaces) ∧
    ∀ as₁ act as₂ m m' name token permissions namespaces, as = as₁ ++ act :: as₂ →
      exec (step R) init as₁ = some m → step R m act = some m' →
      event m act = some (.provisioned name token permissions namespaces) →
      ∃ row, m'.shared.committed.serviceTokens.lookup name = some row ∧
        row.tokenHash = R.digest token ∧ row.permissions.Perm permissions ∧
          row.namespaces.Perm namespaces := by
  refine ⟨?_, ?_, ?_⟩
  · rintro as₁ v o as₂ m m' actor name done k row token rfl hm hst hx hro hh pre post a hs
    obtain ⟨m₁, hm₁, hr⟩ := (exec_append _).mp hrun
    obtain rfl := Option.some.inj (hm.symm.trans hm₁)
    obtain ⟨m₂, hm₂, hr⟩ := (exec_cons _).mp hr
    obtain rfl := Option.some.inj (hst.symm.trans hm₂)
    exact not_resolved_of_revoked hm hst hr hx hro hh hs a
  · intro token a a' hme hme'
    obtain ⟨pre, post, hs⟩ := List.append_of_mem hme
    rw [hs, List.mem_append, List.mem_cons] at hme'
    rcases hme' with hpr | heq | hpo
    · obtain ⟨p, q, rfl⟩ := List.append_of_mem hpr
      have hs' : events R as =
          p ++ .resolved token a' :: (q ++ .resolved token a :: post) := by simp [hs]
      obtain ⟨hna, hp, hn⟩ :=
        resolved_later hrun hs' (List.mem_append_right _ List.mem_cons_self)
      exact ⟨hna.symm, hp.symm, hn.symm⟩
    · obtain ⟨-, rfl⟩ := Event.resolved.inj heq
      exact ⟨rfl, rfl, rfl⟩
    · exact resolved_later hrun hs hpo
  · rintro as₁ act as₂ m m' name token permissions namespaces - hm hst hev
    exact provisioned_step (tokensKept_of_exec hm) hst hev

end Runs

/-! ### A token from its provision to its end -/

namespace Sample

def ciToken : String := "0123456789abcdef0123456789abcdef0123456789abcdef0123456789abcdef"

/-- Two replicas provision the token, it is used, it is revoked, and it is tried again. -/
def ciRun : List Action :=
  .start 0 (.provisionToken "local-operator" "ci" ciToken ["data:write", "data:read"] ["shop"]) ::
  .start 1 (.provisionToken "local-operator" "ci" ciToken ["data:read", "data:write"] ["shop"]) ::
  replies 0 5 ++ replies 1 5 ++
  .start 2 (.serviceToken ciToken) :: replies 2 1 ++
  .start 3 (.revokeToken "operator:root" "ci") :: replies 3 2 ++
  .start 4 (.serviceToken ciToken) :: replies 4 1 ++ replies 3 2 ++
  .start 5 (.serviceToken ciToken) :: replies 5 1

def ciActor : Actor := ⟨"ci", .service, ["data:write", "data:read"], ["shop"], 0⟩

/-- The provision commits after the statement of a revocation that does not see its row, and before
the commit of the revocation. -/
def lateRun : List Action :=
  .start 0 (.provisionToken "local-operator" "ci" ciToken ["data:write", "data:read"] ["shop"]) ::
  replies 0 4 ++ .start 1 (.revokeToken "operator:root" "ci") :: replies 1 2 ++ replies 0 1 ++
  replies 1 2 ++ .start 2 (.serviceToken ciToken) :: replies 2 1

end Sample

open Sample in
theorem service_tokens_kept_ci : events plain ciRun =
      [.provisioned "ci" ciToken ["data:write", "data:read"] ["shop"],
        .provisioned "ci" ciToken ["data:read", "data:write"] ["shop"],
        .resolved ciToken ciActor, .resolved ciToken ciActor, .revokedToken 3 "ci"] ∧
    ∀ a, .resolved ciToken a ∈ events plain ciRun → a.name = "ci" ∧
      a.permissions = ciActor.permissions ∧ a.namespaces = ciActor.namespaces := by
  have hen : (exec (step plain) init ciRun).isSome = true := by decide +kernel
  obtain ⟨w, hw⟩ := Option.isSome_iff_exists.mp hen
  have he : events plain ciRun = [.provisioned "ci" ciToken ["data:write", "data:read"] ["shop"],
        .provisioned "ci" ciToken ["data:read", "data:write"] ["shop"],
        .resolved ciToken ciActor, .resolved ciToken ciActor, .revokedToken 3 "ci"] := by
    decide +kernel
  exact ⟨he, fun a ha => (service_tokens_kept plain hw).2.1 ciToken ciActor a (by simp [he]) ha⟩

open Sample in
/-- The name holds the token when its revocation commits, and the token is accepted after it. -/
theorem revoked_token_accepted : events plain lateRun =
    [.provisioned "ci" ciToken ["data:write", "data:read"] ["shop"], .revokedToken 1 "ci",
      .resolved ciToken ciActor] := by
  decide +kernel

end Codohue.Access
