import Codohue.AccessAccounts
import Codohue.AccessEvents

/-!
A session is as good as the login behind it.

Every row of a session goes back to a login that has read the account in the version that the row
names. A change of the account makes a later version, and no version comes back; so a session that
is accepted goes back to a login that has seen every change of its account.
-/

namespace Codohue.Access

open Service Transition ReadCommitted

variable {R : Runtime} {w : Scene} {t : ℕ}

section Serve

variable {request : Request} {c : Call}
variable {x : Session Call Answer Error Response Request}

section

variable (ht : Transactional R w) (hx : w.session t = some x)
  (hb : x.done.any Exchange.begins = false)

include ht hx hb

lemma Transactional.view_eq : w.shared.pending.lookup t = none ∧
      w.shared.view t = w.shared.committed := by
  have hn : w.shared.pending.lookup t = none := by
    have hs := (ht.agrees hx).isSome
    rw [inTransaction, hb] at hs
    exact Option.not_isSome_iff_eq_none.mp (by simp [hs])
  exact ⟨hn, Database.view_of_none hn⟩

lemma Transactional.autocommit (hp : perform t w.shared reply (.sql st) = some (.ok v, s')) :
    ∃ ws, st.run reply.now w.shared.committed = .ok (v, ws) ∧
      s'.committed = rows.applyAll ws w.shared.committed := by
  obtain ⟨hn, hvi⟩ := ht.view_eq hx hb
  rcases perform_sql hp with ⟨⟨e, he⟩, -⟩ | ⟨v', ws, hr, hw, hv⟩
  · cases he
  cases hv
  rw [hvi] at hr
  obtain ⟨-, ⟨-, hc, -⟩ | ⟨ws₀, hs, -, -⟩⟩ := Database.write_eq_some hw
  · exact ⟨ws, hr, hc⟩
  · cases hn.symm.trans hs

end

end Serve

/-! ### The rows of sessions -/

variable {now : ℤ} {tokenHash u : String}

section Rows

/-- No transaction issues sessions. -/
def NoneIssued (s : Store) : Prop :=
  ∀ {t ws wr}, s.pending.lookup t = some ws → wr ∈ ws → Write.kind wr ≠ .newSession

lemma placed_insertSession (h : st.kind? = some .newSession) (hp : Placed done st) :
    done.any Exchange.begins = false := by
  cases st with
  | insertSession => exact hp
  | _ => cases h

lemma noneIssued_step (h : NoneIssued w.shared) (ht : Transactional R w)
    (hste : step R w a = some w') : NoneIssued w'.shared := by
  intro u ws wr hws hm
  cases a with
  | start t request =>
    rw [(Sessions.step_start hste).2.1] at hws
    exact h hws hm
  | reply t o =>
    obtain ⟨request, done, c, k, r, hx, hs, -⟩ := Sessions.step_reply hste
    by_cases hut : u = t
    swap
    · rw [(serve_moves hs).pending_of_ne hut] at hws
      exact h hws hm
    subst hut
    rcases (serve_pending hs hws).2 with rfl | hws₀ | ⟨st, now, v, ws₀, l, rfl, hws₀, hr, rfl⟩
    · cases hm
    · exact h hws₀ hm
    rcases List.mem_append.mp hm with hm | hm
    · exact h hws₀ hm
    · -- a session is issued outside a transaction
      intro hk
      have hst := (Statement.kind_of_run hr hm).trans (congrArg some hk)
      have hb := placed_insertSession hst (ht.calls hx).1
      cases hws₀.symm.trans (ht.view_eq hx hb).1

lemma lookup_applyAll_session (hws : ∀ wr ∈ ws, wr.kind ≠ .newSession)
    (hl : (rows.applyAll ws d).sessions.lookup h = some row) : d.sessions.lookup h = some row := by
  revert hl
  refine Rows.applyAll_invariant (R := rows)
    (I := fun d' => d'.sessions.lookup h = some row → d.sessions.lookup h = some row)
    (fun wr hwr d' hd' hl => hd' ?_) id
  cases wr with
  | putSession h' row' => exact absurd rfl (hws _ hwr)
  | deleteSession h' => exact Table.lookup_of_erase hl
  | _ => exact hl

/-- What `INSERT … SELECT` inserts: a row for the account in the version that was given. -/
lemma run_insertSession
    (h : Statement.run now d (.insertSession tokenHash u version expires) = .ok (v, ws))
    (hwr : wr ∈ ws) : v = 1 ∧ ws = [.putSession tokenHash ⟨u, version, expires⟩] := by
  simp only [Statement.run] at h
  split at h
  · cases h
    cases hwr
  · split_ifs at h with hm
    · cases h
      exact ⟨rfl, by rw [hm.1]⟩
    · cases h
      cases hwr

lemma session_row (h : NoneIssued w.shared) (ht : Transactional R w) (hste : step R w a = some w')
    (hr : w'.shared.committed.sessions.lookup tokenHash = some row) :
    w.shared.committed.sessions.lookup tokenHash = some row ∨
      ∃ t token, tokenHash = R.digest token ∧
        event w a = some (.issued t token row.username row.expiresAt) ∧
        ∃ x acct, w.session t = some x ∧
          ⟨.sql (.selectAccount row.username), .ok (some acct)⟩ ∈ x.done ∧
            acct.version = row.accountVersion := by
  cases a with
  | start t request =>
    rw [(Sessions.step_start hste).2.1] at hr
    exact .inl hr
  | reply t o =>
    obtain ⟨request, done, c, k, r, hx, hse, -⟩ := Sessions.step_reply hste
    rcases serve_effect hx hse with hsa | ⟨reply, r', hef, hp, he⟩
    · rw [hsa] at hr
      exact .inl hr
    cases c with
    | begin | rollback | draw =>
      obtain ⟨-, hs⟩ := Prod.mk.inj (Option.some.inj hp)
      rw [← hs] at hr
      exact .inl hr
    | commit =>
      obtain ⟨-, hs⟩ := Prod.mk.inj (Option.some.inj hp)
      rw [← hs, Database.commit] at hr
      cases hws : w.shared.pending.lookup t with
      | none =>
        rw [Database.view_of_none hws] at hr
        exact .inl hr
      | some ws =>
        rw [Database.view_of_some hws] at hr
        exact .inl (lookup_applyAll_session (fun wr hwr => h hws hwr) hr)
    | sql st =>
      rcases perform_sql hp with ⟨-, hs⟩ | ⟨v, ws, hru, hw, rfl⟩
      · rw [hs] at hr
        exact .inl hr
      obtain ⟨-, ⟨-, hc, -⟩ | ⟨ws₀, -, hc, -⟩⟩ := Database.write_eq_some hw
      swap
      · rw [hc] at hr
        exact .inl hr
      rw [hc] at hr
      by_cases hn : ∃ wr ∈ ws, wr.kind = .newSession
      swap
      · exact .inl (lookup_applyAll_session (fun wr hwr hk => hn ⟨wr, hwr, hk⟩) hr)
      obtain ⟨wr, hwr, hk⟩ := hn
      have hst := (Statement.kind_of_run hru hwr).trans (congrArg some hk)
      cases st with
      | insertSession tokenHash' u version expires =>
        obtain ⟨rfl, rfl⟩ := run_insertSession hru hwr
        rcases Table.eq_or_of_lookup_insert hr with ⟨rfl, rfl⟩ | ho
        · obtain ⟨-, ⟨ip, password, rfl⟩, token, hd, hh, acct, ha, hv⟩ :=
            ht.calls hx
          refine .inr ⟨t, token, hh, ?_, _, acct, hx, ha, hv⟩
          rw [he]
          simp [shown, hd]
        · exact .inl ho
      | _ => cases hst

end Rows

/-! ### Runs and their events -/

section Runs

variable {tr : List Event}

/-- A login that has read an account has shown it. -/
def LoginsShown (w : Scene) (tr : List Event) : Prop :=
  ∀ {t x u row}, w.session t = some x →
    (⟨.sql (.selectAccount u), .ok (some row)⟩ : Exchange) ∈ x.done → .checked t u row.version ∈ tr

/-- The version that a login has read is not later than the one that is there, and it is older if
the account was changed since. -/
def VersionsGrow (w : Scene) (tr : List Event) : Prop :=
  ∀ {pre t u n post}, tr = pre ++ .checked t u n :: post →
    ∃ row, w.shared.committed.accounts.lookup u = some row ∧ n ≤ row.version ∧
      (.changedAccount u ∈ post → n < row.version)

/-- Every session goes back to a login, and was not revoked since it was issued. -/
def SessionsBacked (R : Runtime) (w : Scene) (tr : List Event) : Prop :=
  ∀ {tokenHash row}, w.shared.committed.sessions.lookup tokenHash = some row →
    ∃ t token p q r, tokenHash = R.digest token ∧
      tr = p ++ .checked t row.username row.accountVersion :: q ++
        .issued t token row.username row.expiresAt :: r ∧
      .revokedSession token ∉ r

lemma loginsShown_step (h : LoginsShown w tr) (ht : Transactional R w)
    (hst : step R w a = some w') : LoginsShown w' (tr ++ (event w a).toList) := by
  intro u x v row hx' hm
  cases a with
  | start t request =>
    rw [(Sessions.step_start hst).2.2] at hx'
    rcases Sessions.update_eq_some hx' with ⟨rfl, rfl⟩ | ⟨-, hx'⟩
    · cases hm
    · exact List.mem_append_left _ (h hx' hm)
  | reply t o =>
    obtain ⟨request, done, c, k, r, hx, hs, hse⟩ := Sessions.step_reply hst
    rw [hse] at hx'
    rcases Sessions.update_eq_some hx' with ⟨rfl, rfl⟩ | ⟨-, hx'⟩
    swap
    · exact List.mem_append_left _ (h hx' hm)
    rcases List.mem_append.mp hm with ho | hn
    · exact List.mem_append_left _ (h hx ho)
    · obtain ⟨rfl, hr⟩ := Sigma.mk.inj (List.mem_singleton.mp hn)
      obtain rfl := eq_of_heq hr
      obtain ⟨-, ip, pw, rfl⟩ := ht.calls hx
      -- the login gets its answer
      cases o with
      | ok reply =>
        have hp : perform u w.shared reply (.sql (.selectAccount v)) =
          some (.ok (some row), w'.shared) := hs
        simp [event, hx, Outcome.effect, hp, shown, Outcome.told]
      | fails text => cases hs
      | lost reply text =>
        obtain ⟨_, _, heq⟩ := Option.map_eq_some_iff.mp hs
        cases heq

lemma changedAccount_step (h : Serialized w) (ht : Transactional R w) (hst : step R w a = some w')
    (hev : event w a = some (.changedAccount u))
    (hr : w.shared.committed.accounts.lookup u = some row) :
    ∃ row', w'.shared.committed.accounts.lookup u = some row' ∧ row.version < row'.version := by
  obtain ⟨t, o, request, done, c, k, r, reply, -, hx, -, hp, hs⟩ :=
    event_eq_some hev hst
  cases hs with
  | changedAccount =>
    obtain ⟨-, hc⟩ := Prod.mk.inj (Option.some.inj hp)
    obtain ⟨hin, hash, role, dis, hm⟩ := ht.calls hx
    obtain ⟨ws, hws⟩ := Option.isSome_iff_exists.mp ((ht.agrees hx).isSome.trans hin)
    obtain ⟨now, d, l, hru, hsu⟩ := (ht.agrees hx).kept hm hws
    cases hru
    have hpu := hsu _ List.mem_cons_self
    rw [← hc]
    rcases lookup_commit_account w.shared t u with ⟨-, hn⟩ | ⟨ws', row', hws', hm', hl⟩
    · exact absurd hpu (hn ws _ hws)
    · exact ⟨row', hl, h.version_lt hws' hm' hr⟩

lemma checked_step (ht : Transactional R w) (hst : step R w a = some w')
    (hev : event w a = some (.checked t u n)) :
    ∃ row, w.shared.committed.accounts.lookup u = some row ∧ row.version = n := by
  obtain ⟨t', o, request, done, c, k, r, reply, -, hx, -, hp, hs⟩ :=
    event_eq_some hev hst
  cases hs with
  | @checked ip username password v row hto =>
    obtain ⟨hpl, ip', pw', hr⟩ := ht.calls hx
    obtain ⟨rfl, rfl, rfl⟩ := Request.createOperatorSession.inj hr
    obtain ⟨ws, hru, -⟩ := ht.autocommit hx hpl hp
    exact ⟨row, (Prod.mk.inj (Except.ok.inj hru)).1, rfl⟩

lemma versionsGrow_step (hv : VersionsGrow w tr) (h : Serialized w) (ht : Transactional R w)
    (hs : step R w a = some w') : VersionsGrow w' (tr ++ (event w a).toList) := by
  intro pre t u n post hsp
  rcases append_toList_split hsp with ⟨post', rfl, rfl⟩ | ⟨hev, -, rfl⟩
  · obtain ⟨row, hr, hle, hlt⟩ := hv rfl
    obtain ⟨row', hr', hg⟩ := step_account h ht hs hr
    have hve : row.version ≤ row'.version := by
      rcases hg with rfl | hg
      · exact Nat.le_refl _
      · exact Nat.le_of_lt hg
    refine ⟨row', hr', Nat.le_trans hle hve, fun hm => ?_⟩
    rcases List.mem_append.mp hm with hm | hm
    · exact Nat.lt_of_lt_of_le (hlt hm) hve
    · obtain ⟨row'', hr'', hgr⟩ :=
        changedAccount_step h ht hs (Option.mem_toList.mp hm) hr
      obtain rfl := Option.some.inj (hr'.symm.trans hr'')
      exact Nat.lt_of_le_of_lt hle hgr
  · obtain ⟨row, hr, rfl⟩ := checked_step ht hs hev
    obtain ⟨row', hr', hg⟩ := step_account h ht hs hr
    refine ⟨row', hr', ?_, nofun⟩
    rcases hg with rfl | hg
    · exact Nat.le_refl _
    · exact Nat.le_of_lt hg

lemma revokedSession_step (ht : Transactional R w) (hst : step R w a = some w')
    (hev : event w a = some (.revokedSession token)) :
    w'.shared.committed.sessions.lookup (R.digest token) = none := by
  obtain ⟨t, o, request, done, c, k, r, reply, -, hx, -, hp, hs⟩ :=
    event_eq_some hev hst
  cases hs with
  | revokedSession =>
    obtain ⟨hpl, token', hr, rfl⟩ := ht.calls hx
    obtain rfl := Request.revokeSession.inj hr
    obtain ⟨ws, hru, hc⟩ := ht.autocommit hx hpl hp
    cases hru
    rw [hc]
    exact AList.lookup_erase _ _

lemma sessionsBacked_step (hb : SessionsBacked R w tr) (hl : LoginsShown w tr)
    (hn : NoneIssued w.shared) (ht : Transactional R w) (hs : step R w a = some w') :
    SessionsBacked R w' (tr ++ (event w a).toList) := by
  intro tokenHash row hr
  rcases session_row hn ht hs hr with ho |
    ⟨t, token, rfl, hev, x, account, hx, ha, hv⟩
  · obtain ⟨t, token, p, q, r, rfl, rfl, hre⟩ := hb ho
    refine ⟨t, token, p, q, r ++ (event w a).toList, rfl, by simp, fun hm => ?_⟩
    rcases List.mem_append.mp hm with hm | hm
    · exact hre hm
    · cases hr.symm.trans (revokedSession_step ht hs (Option.mem_toList.mp hm))
  · obtain ⟨p, q, hsp⟩ := List.append_of_mem (hl hx ha)
    refine ⟨t, token, p, q, [], rfl, ?_, List.not_mem_nil⟩
    rw [hev, hsp, hv]
    rfl

/-- All of it along a run. -/
structure Tracked (R : Runtime) (w : Scene) (tr : List Event) : Prop where
  transactional : Transactional R w
  serialized : Serialized w
  none : NoneIssued w.shared
  logins : LoginsShown w tr
  versions : VersionsGrow w tr
  sessions : SessionsBacked R w tr

theorem tracked_of_exec (h : exec (step R) init as = some w) : Tracked R w (events R as) := by
  refine observed_invariant (I := Tracked R) ?_ h
    ⟨transactional_init, serialized_init, nofun, nofun,
    fun hsp => by simp at hsp, nofun⟩
  rintro w tr a w' ⟨ht, h, hn, hl, hv, hb⟩ hs
  exact ⟨transactional_step ht hs, serialized_step h ht hs, noneIssued_step hn ht hs,
    loginsShown_step hl ht hs, versionsGrow_step hv h ht hs,
    sessionsBacked_step hb hl hn ht hs⟩

lemma liveSession_eq_some (h : liveSession d tokenHash now = some actor) :
    ∃ session acct, d.sessions.lookup tokenHash = some session ∧
      d.accounts.lookup session.username = some acct ∧ now < session.expiresAt ∧
      acct.disabled = false ∧ acct.version = session.accountVersion ∧
      actor = ⟨session.username, acct.role, [], [], acct.version⟩ := by
  obtain ⟨session, hs, h⟩ := Option.bind_eq_some_iff.mp h
  obtain ⟨acct, ha, h⟩ := Option.bind_eq_some_iff.mp h
  split_ifs at h with hl
  exact ⟨session, acct, hs, ha, hl.1, hl.2.1, hl.2.2, (Option.some.inj h).symm⟩

lemma accepted_step (ht : Transactional R w) (hst : step R w a = some w')
    (hev : event w a = some (.accepted token actor now)) :
    liveSession w.shared.committed (R.digest token) now = some actor := by
  obtain ⟨t, o, request, done, c, k, r, reply, -, hx, -, hp, hs⟩ :=
    event_eq_some hev hst
  cases hs with
  | accepted hto =>
    obtain ⟨hpl, token', hr, rfl⟩ := ht.calls hx
    obtain rfl := Request.session.inj hr
    obtain ⟨ws, hru, -⟩ := ht.autocommit hx hpl hp
    exact (Prod.mk.inj (Except.ok.inj hru)).1

/-- **A change of an account ends its sessions.** Whenever a token is accepted, it was issued for
the account, by a login that has read the account after every change of it that was committed before
the token is accepted; it has not expired, was not revoked since, and the account is enabled. -/
theorem accepted_session_backed (R : Runtime) (hdigest : Function.Injective R.digest)
    {as : List Action} {w : Scene} (hrun : exec (step R) init as = some w) {pre post : List Event}
    {token : String} {actor : Actor} {now : ℤ}
    (hsplit : events R as = pre ++ .accepted token actor now :: post) :
    (∃ t p q r expires, pre = p ++ .checked t actor.name actor.version :: q ++
        .issued t token actor.name expires :: r ∧
      .changedAccount actor.name ∉ q ∧ .changedAccount actor.name ∉ r ∧
      .revokedSession token ∉ r ∧ now < expires) ∧
    ∃ as₁ act as₂ m account, as = as₁ ++ act :: as₂ ∧ exec (step R) init as₁ = some m ∧
      event m act = some (.accepted token actor now) ∧ events R as₁ = pre ∧
      m.shared.committed.accounts.lookup actor.name = some account ∧
      account.disabled = false ∧ account.role = actor.role := by
  obtain ⟨as₁, act, as₂, m, m', rfl, hm, hst, -, hev, hp, -⟩ := observed_split hrun hsplit
  obtain ⟨ht, -, -, -, hv, hs⟩ := tracked_of_exec hm
  change events R as₁ = pre at hp
  rw [hp] at hv hs
  obtain ⟨session, account, hse, ha, he, hen, hve, rfl⟩ :=
    liveSession_eq_some (accepted_step ht hst hev)
  obtain ⟨t, token', p, q, r, hh, rfl, hr⟩ := hs hse
  obtain rfl := hdigest hh
  -- the version that the login has read is still there, so nothing was changed since
  have hsa : .changedAccount session.username ∉
      q ++ .issued t token session.username session.expiresAt :: r := by
    intro hme
    obtain ⟨row, hro, -, hlt⟩ := hv (List.append_assoc _ _ _)
    obtain rfl := Option.some.inj (ha.symm.trans hro)
    exact absurd hve.symm (Nat.ne_of_lt (hlt hme))
  refine ⟨⟨t, p, q, r, session.expiresAt, by simp only [hve], ?_, ?_, hr, he⟩,
    as₁, act, as₂, m, account, rfl, hm, hev, hp, ha, hen, rfl⟩
  · exact fun hme => hsa (List.mem_append_left _ hme)
  · exact fun hme => hsa (List.mem_append_right _ (List.mem_cons_of_mem _ hme))

end Runs

/-- The first owner gets a new password, logs in with it and uses the session. -/
def Sample.ownerReturns : List Action :=
  .start 1 (.setAccount "operator:root" "root" "battery staple" "owner" false false) ::
    Sample.replies 1 8 ++
  .start 2 (.createOperatorSession "10.0.0.1" "root" "battery staple") :: Sample.replies 2 5 ++
  .start 3 (.session "token") :: Sample.replies 3 1

/-- What happens before the session is used. -/
def Sample.ownerEvents : List Event :=
  [.createdOwner "root", .changedAccount "root", .checked 2 "root" 2,
    .issued 2 "token" "root" (8 * hour)]

open Sample in
theorem accepted_session_backed_root : ∃ (t : ℕ) (p q r : List Event) (expires : ℤ), ownerEvents =
        p ++ .checked t "root" 2 :: q ++ .issued t "token" "root" expires :: r ∧
      .changedAccount "root" ∉ q ∧ .changedAccount "root" ∉ r ∧ .revokedSession "token" ∉ r ∧
      0 < expires := by
  have hen : (exec (step plain) init (firstStart ++ ownerReturns)).isSome = true := by
    decide +kernel
  obtain ⟨w, hw⟩ := Option.isSome_iff_exists.mp hen
  have he : events plain (firstStart ++ ownerReturns) =
      ownerEvents ++ .accepted "token" ⟨"root", .owner, [], [], 2⟩ 0 :: [] := by decide +kernel
  exact (accepted_session_backed plain Function.injective_id hw he).1

end Codohue.Access
