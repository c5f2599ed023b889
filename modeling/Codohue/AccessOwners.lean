import Codohue.AccessAccounts
import Codohue.AccessEvents

/-!
There is always an owner.

An owner is disabled or demoted only by a session that has counted two of them under the lock, and
the count is still right when the session commits.
-/

namespace Codohue.Access

open Service Transition ReadCommitted

/-- Some account is an enabled owner. -/
def HasOwner (d : Tables) : Prop := ∃ u row, d.accounts.lookup u = some row ∧ row.isOwner = true

/-- The callers of the local recovery have the authority of the database. -/
def Request.isRecovery : Request → Bool
  | .setAccount _ _ _ _ _ recovery => recovery
  | _ => false

lemma exists_other_owner {d : Tables} (u : String)
    (h : 1 < (d.accounts.selectWhere fun _ row => row.isOwner).length) :
    ∃ v row, v ≠ u ∧ d.accounts.lookup v = some row ∧ row.isOwner = true := by
  have hn := Table.nodup_selectWhere (fun _ row => row.isOwner) d.accounts
  by_contra hno
  have ha : ∀ v ∈ (d.accounts.selectWhere fun _ row => row.isOwner).map Prod.fst, v = u := by
    intro v hv
    obtain ⟨⟨v', row⟩, hm, rfl⟩ := List.mem_map.mp hv
    obtain ⟨hlo, hr⟩ := Table.mem_selectWhere.mp hm
    by_contra hne
    exact hno ⟨v', row, hne, hlo, hr⟩
  have hs : (d.accounts.selectWhere fun _ row => row.isOwner).map Prod.fst ⊆ [u] :=
    fun v hv => by simp [ha v hv]
  have hl := hn.length_le_of_subset hs
  rw [List.length_map, List.length_singleton] at hl
  exact absurd h (Nat.not_lt.mpr hl)

section Runs

variable {R : Runtime} {w : Scene} {a : Action} {t : ℕ}

/-- Who writes the row of an account, and what it knows of the rows that are committed. -/
inductive Writer (d : Tables) (u : String) (row : Account) : Request → Prop
  | bootstrap {password : String} (hempty : d.accounts.entries.length = 0)
    (hrow : row.isOwner = true) : Writer d u row (.bootstrap u password)
  | setAccount {actor password role disabled recovery}
    (hspared : recovery = false → row.isOwner = false →
      ∀ old, d.accounts.lookup u = some old → old.isOwner = true →
        1 < (d.accounts.selectWhere fun _ row => row.isOwner).length) :
    Writer d u row (.setAccount actor u password role disabled recovery)

variable {u : String} {row : Account}

section

variable (h : Serialized w) (ht : Transactional R w)

include h ht

lemma Serialized.writer (hws : w.shared.pending.lookup t = some ws)
    (hm : Write.putAccount u row ∈ ws) :
    ∃ x, w.session t = some x ∧ Writer w.shared.committed u row x.request := by
  obtain ⟨x, st, r, hx, hl, hd, hru⟩ := h.wrote hws hm
  refine ⟨x, hx, ?_⟩
  obtain ⟨before, rest, hsp, hp, hba⟩ := ht.made hx hd
  have hb : ∀ e ∈ before, e ∈ x.done := fun e he => by
    rw [hsp]
    exact List.mem_append_left _ he
  obtain ⟨v, hv⟩ := hru 0
  have hki := Statement.kind_of_run hv List.mem_cons_self
  cases st with
  | insertOwner user hash =>
    obtain ⟨⟨pw, hr⟩, hco⟩ := hba
    simp only [Statement.run] at hv
    split_ifs at hv
    obtain ⟨rfl, rfl⟩ := Write.putAccount.inj (List.singleton_inj.mp
      (Prod.mk.inj (Except.ok.inj hv)).2)
    obtain ⟨ws', hc⟩ := h.current hx hl rfl (hb _ hco)
    rw [hr]
    exact .bootstrap (Prod.mk.inj (Except.ok.inj (hc 0))).1 rfl
  | upsertAccount user hash role dis =>
    obtain ⟨actor, pw, roleName, rec, hr, old, hol, hs⟩ := hba
    obtain ⟨rfl, rfl⟩ := Write.putAccount.inj (List.singleton_inj.mp
      (Prod.mk.inj (Except.ok.inj hv)).2)
    rw [hr]
    refine .setAccount fun hrec hro acct ha ho => ?_
    -- what the session has read is what is there
    obtain ⟨ws', hc⟩ := h.current hx hl rfl (hb _ hol)
    have hre := (Prod.mk.inj (Except.ok.inj (hc 0))).1
    rw [ha] at hre hro
    simp only [Account.isOwner, Bool.and_eq_true, decide_eq_true_eq, Bool.not_eq_true'] at ho
    have hol' : old = some (.owner, false) := by
      rw [← hre, Option.map_some, ho.1, ho.2]
    have hlo : dis = true ∨ role ≠ .owner := by
      by_contra hk
      rw [not_or, Bool.not_eq_true, not_not] at hk
      simp [upsertedAccount, Account.isOwner, hk.1, hk.2] at hro
    obtain ⟨n, hn, hon⟩ := hs hrec hol' hlo
    obtain ⟨ws'', hc'⟩ := h.current hx hl rfl (hb _ hn)
    rwa [(Prod.mk.inj (Except.ok.inj (hc' 0))).1]
  | _ => cases hki

/-- **No step takes the last owner away.** -/
lemma hasOwner_step (hst : step R w a = some w')
    (hca : ∀ t x, w.session t = some x → x.request.isRecovery = false)
    (ho : HasOwner w.shared.committed) : HasOwner w'.shared.committed := by
  obtain ⟨u, row, hr, hio⟩ := ho
  cases a with
  | start t request =>
    obtain ⟨-, hsh, -⟩ := Sessions.step_start hst
    exact ⟨u, row, by rw [hsh, hr], hio⟩
  | reply t o =>
    obtain ⟨request, done, c, k, r, hx, hse, -⟩ := Sessions.step_reply hst
    rcases serve_accounts h ht hx hse with hs | ⟨-, -, hc⟩
    · exact ⟨u, row, by rw [hs, hr], hio⟩
    rw [hc]
    rcases lookup_commit_account w.shared t u with ⟨hs, -⟩ | ⟨ws, row', hws, hm, hl⟩
    · exact ⟨u, row, hs.trans hr, hio⟩
    cases hn : row'.isOwner with
    | true => exact ⟨u, row', hl, hn⟩
    | false =>
      -- the owner is given up, so another one was counted
      obtain ⟨x, hx', hw⟩ := h.writer ht hws hm
      have hre := hca t x hx'
      generalize hreq : x.request = request' at hw hre
      cases hw with
      | bootstrap he ho => cases ho.symm.trans hn
      | setAccount hsp =>
        obtain ⟨v, rowv, hne, hro, how⟩ :=
          exists_other_owner u (hsp hre hn row hr hio)
        rcases lookup_commit_account w.shared t v with ⟨hs, -⟩ | ⟨ws', row'', hws', hm', -⟩
        · exact ⟨v, rowv, hs.trans hro, how⟩
        · -- a session writes one account
          obtain ⟨x', hx'', hw'⟩ := h.writer ht hws' hm'
          obtain rfl := Option.some.inj (hx'.symm.trans hx'')
          rw [hreq] at hw'
          cases hw'
          exact absurd rfl hne

/-! ### Bootstraps -/

lemma createdOwner_step (hst : step R w a = some w') (hev : event w a = some (.createdOwner u)) :
    w.shared.committed.accounts = ∅ ∧
      ∃ v row, w'.shared.committed.accounts.lookup v = some row := by
  obtain ⟨t, o, request, done, c, k, r, reply, -, hx, -, hpe, hs⟩ :=
    event_eq_some hev hst
  cases hs with
  | createdOwner hc =>
    obtain ⟨-, hco⟩ := Prod.mk.inj (Option.some.inj hpe)
    obtain ⟨⟨c', r'⟩, hm, hc⟩ := List.any_eq_true.mp hc
    obtain ⟨v, hash, he⟩ : ∃ v hash,
        (⟨c', r'⟩ : Exchange) = ⟨.sql (.insertOwner v hash), .ok ()⟩ := by
      unfold Exchange.createsOwner at hc
      split at hc
      · next heq => exact ⟨_, _, heq⟩
      · cases hc
    rw [he] at hm
    -- the row is in the open transaction
    have hin := (ht.calls hx).1
    obtain ⟨ws, hws⟩ := Option.isSome_iff_exists.mp ((ht.agrees hx).isSome.trans hin)
    obtain ⟨now, d, l, hr, hsu⟩ := (ht.agrees hx).kept hm hws
    simp only [Statement.run] at hr
    split_ifs at hr
    cases hr
    have hp := hsu _ List.mem_cons_self
    obtain ⟨x, hx', hw⟩ := h.writer ht hws hp
    obtain rfl := Option.some.inj (hx.symm.trans hx')
    constructor
    · cases hw with
      | bootstrap hem ho => exact AList.ext (List.length_eq_zero_iff.mp hem)
    · rw [← hco]
      rcases lookup_commit_account w.shared t v with ⟨-, hn⟩ | ⟨ws', row, -, -, hl⟩
      · exact absurd hp (hn ws _ hws)
      · exact ⟨v, row, hl⟩

lemma bootstrap_step (hst : step R w (.reply t o) = some w')
    (hx : w.session t = some ⟨.bootstrap user pw, done, rest⟩)
    (hc : w'.shared.committed.accounts ≠ w.shared.committed.accounts) :
    event w (.reply t o) = some (.createdOwner user) := by
  obtain ⟨request, done', c, k, r, hx', hs, -⟩ := Sessions.step_reply hst
  have hse := Option.some.inj (hx.symm.trans hx')
  obtain ⟨rfl, rfl, rfl⟩ := Session.mk.inj hse
  rcases serve_accounts h ht hx hs with hsa | ⟨-, rfl, hco⟩
  · exact absurd hsa hc
  -- without a write of its own the session leaves the accounts as they are
  have hcr : done.any Exchange.createsOwner = true := by
    by_contra hn
    rw [Bool.not_eq_true] at hn
    refine hc ?_
    rw [hco]
    refine h.view_accounts hx (List.any_eq_false.mpr fun e he hw => ?_)
    exact List.any_eq_false.mp hn e he ((ht.calls hx).2 e he hw)
  cases o with
  | ok reply | lost reply text => simp [event, hx, Outcome.effect, perform, shown, hcr]
  | fails text =>
    obtain ⟨-, hr⟩ := Prod.mk.inj (Option.some.inj hs)
    refine absurd ?_ hc
    rw [← hr]
    rfl

end

lemma account_of_exec (hru : exec (step R) w as = some w') (h : Serialized w)
    (ht : Transactional R w) (hr : w.shared.committed.accounts.lookup u = some row) :
    ∃ row', w'.shared.committed.accounts.lookup u = some row' := by
  refine (exec_invariant (I := fun w => (Transactional R w ∧ Serialized w) ∧
    ∃ row', w.shared.committed.accounts.lookup u = some row') ?_ hru ⟨⟨ht, h⟩, row, hr⟩).2
  rintro m a m' ⟨⟨ht, h⟩, row', hr'⟩ hs
  obtain ⟨row'', hr'', -⟩ := step_account h ht hs hr'
  exact ⟨⟨transactional_step ht hs, serialized_step h ht hs⟩, row'', hr''⟩

/-- An action that asks for a recovery. -/
def startsRecovery : Action → Bool
  | .start _ request => request.isRecovery
  | .reply _ _ => false

/-- **There is always an owner.** A bootstrap changes accounts only where there are none, at most
one bootstrap of a run does, and an enabled owner that is there once is followed by one in every
later state. -/
theorem always_an_owner (R : Runtime) {as : List Action} {w : Scene}
    (hrun : exec (step R) init as = some w) (hcalls : ∀ a ∈ as, startsRecovery a = false) :
    (∀ as₁ t o as₂ m m' username password done rest, as = as₁ ++ .reply t o :: as₂ →
      exec (step R) init as₁ = some m → step R m (.reply t o) = some m' →
      m.session t = some ⟨.bootstrap username password, done, rest⟩ →
      m'.shared.committed.accounts ≠ m.shared.committed.accounts →
        m.shared.committed.accounts = ∅ ∧ event m (.reply t o) = some (.createdOwner username)) ∧
    (∀ pre post u v, events R as = pre ++ .createdOwner u :: post → .createdOwner v ∉ post) ∧
    ∀ as₁ as₂ m, as = as₁ ++ as₂ → exec (step R) init as₁ = some m →
      HasOwner m.shared.committed → HasOwner w.shared.committed := by
  refine ⟨?_, ?_, ?_⟩
  · intro as₁ t o as₂ m m' username password done rest _ hm hs hx hc
    obtain ⟨ht, h⟩ := serialized_of_exec hm
    have hev := bootstrap_step h ht hs hx hc
    exact ⟨(createdOwner_step h ht hs hev).1, hev⟩
  · intro pre post u v hsp hme
    obtain ⟨as₁, a, as₂, m, m', rfl, hm, hs, hr, hev, -, rfl⟩ := observed_split hrun hsp
    obtain ⟨ht, h⟩ := serialized_of_exec hm
    obtain ⟨-, u', row, hro⟩ := createdOwner_step h ht hs hev
    obtain ⟨pre', post', hsp'⟩ := List.append_of_mem hme
    obtain ⟨bs₁, b, bs₂, n, n', rfl, hn, hs', -, hev', -, -⟩ := observed_split hr hsp'
    have ht' := transactional_step ht hs
    have h' := serialized_step h ht hs
    obtain ⟨row', hro'⟩ := account_of_exec hn h' ht' hro
    have hrun' : exec (step R) init (as₁ ++ a :: bs₁) = some n :=
      (exec_append _).mpr ⟨m, hm, (exec_cons _).mpr ⟨m', hs, hn⟩⟩
    obtain ⟨ht'', h''⟩ := serialized_of_exec hrun'
    rw [(createdOwner_step h'' ht'' hs' hev').1] at hro'
    cases hro'
  · rintro as₁ as₂ m rfl hm ho
    obtain ⟨m₀, hm₀, hr⟩ := (exec_append _).mp hrun
    obtain rfl := Option.some.inj (hm.symm.trans hm₀)
    induction as₂ using List.reverseRecOn generalizing w with
    | nil =>
      cases hr
      exact ho
    | append_singleton as₂ a ih =>
      obtain ⟨n, hn, hl⟩ := (exec_append _).mp hr
      obtain ⟨n', hs, he⟩ := (exec_cons _).mp hl
      cases he
      have hrun' : exec (step R) init (as₁ ++ as₂) = some n := (exec_append _).mpr ⟨m, hm, hn⟩
      have hcalls' : ∀ b ∈ as₁ ++ as₂, startsRecovery b = false := fun b hb => hcalls b (by
        rw [← List.append_assoc]
        exact List.mem_append_left _ hb)
      obtain ⟨ht, h⟩ := serialized_of_exec hrun'
      refine hasOwner_step h ht hs (fun t x hx => ?_) (ih hrun' hcalls' hn)
      exact hcalls' _ (Sessions.start_of_session hrun' hx)

end Runs

/-- The first owner asks to be disabled. -/
def Sample.lastOwnerLeaves : List Action :=
  .start 1 (.setAccount "operator:root" "root" "" "owner" true false) :: Sample.replies 1 5

open Sample in
theorem always_an_owner_root :
    ∃ w, exec (step plain) init (firstStart ++ lastOwnerLeaves) = some w ∧
    w.endsWith 1 (fun x => x.toOption.isNone) = true ∧ HasOwner w.shared.committed := by
  have hs : (exec (step plain) init firstStart).any (fun m =>
      (m.shared.committed.accounts.lookup "root").any Account.isOwner) = true := by decide +kernel
  have hen : (exec (step plain) init (firstStart ++ lastOwnerLeaves)).any (fun w =>
      w.endsWith 1 fun x => x.toOption.isNone) = true := by decide +kernel
  obtain ⟨m, hm, ho⟩ := (Option.any_eq_true _ _).mp hs
  obtain ⟨row, hr, hio⟩ := (Option.any_eq_true _ _).mp ho
  obtain ⟨w, hw, he⟩ := (Option.any_eq_true _ _).mp hen
  exact ⟨w, hw, he, (always_an_owner plain hw (by decide +kernel)).2.2 _ _ m rfl hm
    ⟨"root", row, hr, hio⟩⟩

/-- **No account write is out of date.** What a transaction is about to write to an account is what
the statement that its session has sent under the lock would write over the rows of this moment, and
no other one has such a write. -/
theorem account_writes_current (R : Runtime) {w : Scene} (h : exec (step R) init as = some w)
    (hws : w.shared.pending.lookup t = some ws) (hput : Write.putAccount u row ∈ ws) :
    (∃ x st r, w.session t = some x ∧ locked x.done = true ∧ ⟨.sql st, r⟩ ∈ x.done ∧
      ∀ now, ∃ v, st.run now w.shared.committed = .ok (v, [.putAccount u row])) ∧
    ∀ t' ws' u' row', w.shared.pending.lookup t' = some ws' → Write.putAccount u' row' ∈ ws' →
      t' = t := by
  obtain ⟨ht, hs⟩ := serialized_of_exec h
  refine ⟨hs.wrote hws hput, fun t' ws' u' row' hws' hput' => ?_⟩
  exact (hs.holds ht hws' hput' rfl).unique (hs.holds ht hws hput rfl)

open Sample in
/-- The first start of a deployment, before it commits. -/
theorem account_writes_current_root : ∃ w row, exec (step plain) init (firstStart.take 6) = some w ∧
    ∃ x st r, w.session 0 = some x ∧ locked x.done = true ∧ ⟨.sql st, r⟩ ∈ x.done ∧
      ∀ now, ∃ v, st.run now w.shared.committed = .ok (v, [.putAccount "root" row]) := by
  have hv : (exec (step plain) init (firstStart.take 6)).map (·.shared.pending.lookup 0) =
      some (some [.hold .advisory, .putAccount "root" ⟨"correct horse", .owner, false, 1⟩]) := rfl
  obtain ⟨w, hw, hws⟩ := Option.map_eq_some_iff.mp hv
  have hput := (account_writes_current plain hw hws (List.mem_cons_of_mem _ List.mem_cons_self)).1
  exact ⟨w, _, hw, hput⟩

end Codohue.Access
