import Codohue.AccessTransactions

/-!
Accounts are read and written under the advisory lock alone.

So what a session has read of them is still so when it commits, and what it writes follows from the
rows that it commits over.
-/

namespace Codohue.Access

open Service Transition ReadCommitted

/-! ### Statements on accounts -/

variable {u : String} {row : Account}

variable {ws : List Write}

namespace Statement

def onAccounts : Statement → Bool
  | .countAccounts | .insertOwner _ _ | .selectForUpdate _ | .countOwners
  | .upsertAccount _ _ _ _ => true
  | _ => false

variable {st : Statement}

lemma onAccounts_of_kind (h : st.kind? = some .account) : st.onAccounts = true := by
  cases st with
  | insertOwner | upsertAccount => rfl
  | _ => cases h

lemma run_eq_of_accounts (hst : st.onAccounts = true) (h : d.accounts = d'.accounts) :
    st.run now d = st.run now' d' := by
  cases st with
  | countAccounts | insertOwner | selectForUpdate | countOwners | upsertAccount =>
    simp only [run, h]
  | _ => cases hst

lemma run_putAccount (h : st.run now d = .ok (v, ws)) (hm : .putAccount u row ∈ ws) :
    ws = [.putAccount u row] := by
  have hst := kind_of_run h hm
  cases st with
  | insertOwner =>
    simp only [run] at h
    split_ifs at h
    cases h
    rw [List.mem_singleton.mp hm]
  | upsertAccount =>
    cases h
    rw [List.mem_singleton.mp hm]
  | _ => cases hst

end Statement

lemma writesAccount_of_kind (h : st.kind? = some .account) :
    Exchange.writesAccount ⟨.sql st, r⟩ = true := by
  cases st with
  | insertOwner | upsertAccount => rfl
  | _ => cases h

lemma placed_onAccounts (h : st.onAccounts = true) (hp : Placed done st) :
    locked done = true ∧ done.any Exchange.writesAccount = false := by
  cases st with
  | countAccounts | insertOwner | selectForUpdate | countOwners | upsertAccount => exact hp
  | _ => cases h

variable {done : List Exchange}

section Locked

lemma locked_snoc (h : locked done = true) (he : e.ends = false) : locked (done ++ [e]) = true := by
  simp only [locked, inTransaction, Bool.and_eq_true, Bool.not_eq_true', List.any_append,
    Bool.or_eq_true, Bool.or_eq_false_iff] at h ⊢
  exact ⟨⟨.inl h.1.1, h.1.2, by simp [he]⟩, .inl h.2⟩

lemma not_locked_snoc (he : e.ends = true) : locked (done ++ [e]) = false := by
  rw [locked, inTransaction_snoc_ends he, Bool.false_and]

lemma locked_of_append (h : locked done = true) (hin : inTransaction (done ++ rest) = true) :
    locked (done ++ rest) = true := by
  rw [locked, hin, Bool.true_and, List.any_append, (Bool.and_eq_true_iff.mp h).2, Bool.true_or]

end Locked

/-! ### Runs -/

section Runs

variable {R : Runtime} {w : Scene} {t : ℕ}

/-- What was read of the accounts is so, and what is to be written follows from it. -/
structure Serialized (w : Scene) : Prop where
  current : ∀ {t x} {st : Statement} {v : st.Value}, w.session t = some x → locked x.done = true →
    st.onAccounts = true → ⟨.sql st, .ok v⟩ ∈ x.done →
      ∃ ws, ∀ now, st.run now w.shared.committed = .ok (v, ws)
  wrote : ∀ {t ws u row}, w.shared.pending.lookup t = some ws → Write.putAccount u row ∈ ws →
    ∃ x st r, w.session t = some x ∧ locked x.done = true ∧ ⟨.sql st, r⟩ ∈ x.done ∧
      ∀ now, ∃ v, st.run now w.shared.committed = .ok (v, [.putAccount u row])

lemma serialized_init : Serialized init := ⟨nofun, nofun⟩

lemma Serialized.holds (h : Serialized w) (ht : Transactional R w)
    (hws : w.shared.pending.lookup t = some ws) (hwr : wr ∈ ws) (hk : wr.kind = .account) :
    w.shared.Holds t .advisory := by
  cases wr with
  | putAccount u row =>
    obtain ⟨x, st, r, hx, hl, -⟩ := h.wrote hws hwr
    exact ht.holds hx hl
  | _ => cases hk

lemma Serialized.view_accounts (h : Serialized w) (hx : w.session t = some x)
    (hn : x.done.any Exchange.writesAccount = false) :
    (w.shared.view t).accounts = w.shared.committed.accounts := by
  cases hws : w.shared.pending.lookup t with
  | none => rw [Database.view_of_none hws]
  | some ws =>
    rw [Database.view_of_some hws]
    refine applyAll_accounts fun wr hwr hk => ?_
    cases wr with
    | putAccount u row =>
      obtain ⟨x', st, r, hx', -, hm, hr⟩ := h.wrote hws hwr
      obtain rfl := Option.some.inj (hx.symm.trans hx')
      obtain ⟨v, hv⟩ := hr 0
      have hk := Statement.kind_of_run hv List.mem_cons_self
      exact List.any_eq_false.mp hn _ hm (writesAccount_of_kind hk)
    | _ => cases hk

section Reply

variable {request : Request} {c : Call} {k : Answer c → AccessM Response}

section

variable (h : Serialized w) (ht : Transactional R w)
  (hx : w.session t = some ⟨request, done, .call c k⟩)

include h ht hx

lemma serve_accounts (hse : serve t c w.shared o = some (r, s')) :
    s'.committed.accounts = w.shared.committed.accounts ∨
      w.shared.Holds t .advisory ∧ c = .commit ∧ s' = w.shared.commit t := by
  rcases serve_committed hse with hs | ⟨rfl, rfl⟩ | ⟨st, now, v, ws, rfl, hn, hr, hs⟩
  · exact .inl (by rw [hs])
  · by_cases hh : w.shared.Holds t .advisory
    · exact .inr ⟨hh, rfl, rfl⟩
    · refine .inl ?_
      change (w.shared.view t).accounts = _
      cases hws : w.shared.pending.lookup t with
      | none => rw [Database.view_of_none hws]
      | some ws =>
        rw [Database.view_of_some hws]
        exact applyAll_accounts fun wr hwr hk => hh (h.holds ht hws hwr hk)
  · -- a statement on accounts is sent in a transaction
    rw [hs]
    refine .inl (applyAll_accounts fun wr hwr hk => ?_)
    have hst := (Statement.kind_of_run hr hwr).trans (congrArg some hk)
    obtain ⟨hl, -⟩ := placed_onAccounts (Statement.onAccounts_of_kind hst) (ht.calls hx).1
    have hso := (ht.agrees hx).isSome.trans (Bool.and_eq_true_iff.mp hl).1
    rw [hn] at hso
    cases hso

lemma serve_accounts_of_ne (hs : serve t c w.shared o = some (r, s')) {u : ℕ} (hne : u ≠ t)
    (hh : w.shared.Holds u .advisory) :
    s'.committed.accounts = w.shared.committed.accounts := by
  rcases serve_accounts h ht hx hs with hsa | ⟨hh', -, -⟩
  · exact hsa
  · exact absurd (hh.unique hh') hne

lemma current_reply (hse : serve t c w.shared o = some (r, s'))
    (hl : locked (done ++ [⟨c, r⟩]) = true) (hst : st.onAccounts = true)
    (hm : ⟨.sql st, .ok v⟩ ∈ done ++ [⟨c, r⟩]) :
    ∃ ws, ∀ now, st.run now s'.committed = .ok (v, ws) := by
  have hen : Exchange.ends ⟨c, r⟩ = false := by
    by_contra hen
    rw [Bool.not_eq_false] at hen
    rw [not_locked_snoc hen] at hl
    cases hl
  have hs : s'.committed.accounts = w.shared.committed.accounts := by
    rcases serve_accounts h ht hx hse with hs | ⟨-, rfl, -⟩
    · exact hs
    · cases hen
  rcases List.mem_append.mp hm with ho | hn
  · -- the session had the lock when it sent the statement
    obtain ⟨before, rest, rfl, hc⟩ := ht.made hx ho
    have hb := (placed_onAccounts hst hc.1).1
    have hin : inTransaction (before ++ ⟨.sql st, .ok v⟩ :: rest) = true := by
      have hin := (Bool.and_eq_true_iff.mp hl).1
      simp only [inTransaction, List.any_append, Bool.and_eq_true, Bool.not_eq_true',
        Bool.or_eq_false_iff] at hin ⊢
      have hbe := (Bool.and_eq_true_iff.mp (Bool.and_eq_true_iff.mp hb).1).1
      exact ⟨by rw [hbe, Bool.true_or], hin.2.1⟩
    obtain ⟨ws, hru⟩ := h.current hx (locked_of_append hb hin) hst ho
    exact ⟨ws, fun now => (Statement.run_eq_of_accounts hst hs).trans (hru now)⟩
  · obtain ⟨rfl, hr⟩ := Sigma.mk.inj (List.mem_singleton.mp hn)
    obtain rfl := eq_of_heq hr
    have hvi := h.view_accounts hx (placed_onAccounts hst (ht.calls hx).1).2
    rcases serve_sql hse with ⟨⟨e, he⟩, -⟩ | ⟨now, v', ws, hru, -, hv⟩
    · cases he
    · obtain rfl : v = v' := by
        rcases hv with hv | ⟨e, hv⟩
        · exact Except.ok.inj hv
        · cases hv
      exact ⟨ws, fun now' =>
        (Statement.run_eq_of_accounts hst (hs.trans hvi.symm)).trans hru⟩

lemma wrote_reply (hs : serve t c w.shared o = some (r, s')) (hws : s'.pending.lookup t = some ws)
    (hm : Write.putAccount u row ∈ ws) :
    ∃ st r', locked (done ++ [⟨c, r⟩]) = true ∧ ⟨.sql st, r'⟩ ∈ done ++ [⟨c, r⟩] ∧
      ∀ now, ∃ v, st.run now s'.committed = .ok (v, [.putAccount u row]) := by
  have he : Exchange.ends ⟨c, r⟩ = false := by
    have ha := (agrees_call (ht.agrees hx) (ht.calls hx) hs).isSome
    rw [hws] at ha
    by_contra he
    rw [Bool.not_eq_false] at he
    rw [inTransaction_snoc_ends he] at ha
    cases ha
  obtain ⟨hc, hca⟩ := serve_pending hs hws
  rw [hc]
  -- a write that was there before
  have ho : ∀ ws₀, w.shared.pending.lookup t = some ws₀ → Write.putAccount u row ∈ ws₀ →
      ∃ st r', locked (done ++ [⟨c, r⟩]) = true ∧ ⟨.sql st, r'⟩ ∈ done ++ [⟨c, r⟩] ∧
        ∀ now, ∃ v, st.run now w.shared.committed = .ok (v, [.putAccount u row]) := by
    intro ws₀ hws₀ hm₀
    obtain ⟨x, st, r', hx', hl, hd, hr⟩ := h.wrote hws₀ hm₀
    obtain rfl := Option.some.inj (hx.symm.trans hx')
    exact ⟨st, r', locked_snoc hl he, List.mem_append_left _ hd, hr⟩
  rcases hca with rfl | hws₀ | ⟨st, now, v, ws₀, l, rfl, hws₀, hr, rfl⟩
  · cases hm
  · exact ho ws hws₀ hm
  rcases List.mem_append.mp hm with hm | hm
  · exact ho ws₀ hws₀ hm
  · have hst := Statement.onAccounts_of_kind (Statement.kind_of_run hr hm)
    obtain ⟨hl, hn⟩ := placed_onAccounts hst (ht.calls hx).1
    have hv := h.view_accounts hx hn
    obtain rfl := Statement.run_putAccount hr hm
    exact ⟨st, r, locked_snoc hl rfl, List.mem_append_right _ List.mem_cons_self,
      fun now' => ⟨v, (Statement.run_eq_of_accounts hst hv.symm).trans hr⟩⟩

end

end Reply

lemma serialized_step (h : Serialized w) (ht : Transactional R w) (hste : step R w a = some w') :
    Serialized w' := by
  cases a with
  | start t request =>
    obtain ⟨hf, hsh, hs⟩ := Sessions.step_start hste
    constructor
    · intro u x st v hx hl hst hm
      rw [hs] at hx
      rw [hsh]
      rcases Sessions.update_eq_some hx with ⟨rfl, rfl⟩ | ⟨-, hx⟩
      · cases hm
      · exact h.current hx hl hst hm
    · intro u ws v row hws hm
      rw [hsh] at hws ⊢
      obtain ⟨x, st, r, hx, hre⟩ := h.wrote hws hm
      refine ⟨x, st, r, ?_, hre⟩
      have hne : u ≠ t := by
        rintro rfl
        cases hf.symm.trans hx
      rw [hs, Function.update_of_ne hne, hx]
  | reply t o =>
    obtain ⟨request, done, c, k, r, hx, hse, hs⟩ := Sessions.step_reply hste
    constructor
    · intro u x st v hx' hl hst hm
      rw [hs] at hx'
      rcases Sessions.update_eq_some hx' with ⟨rfl, rfl⟩ | ⟨hne, hx'⟩
      · exact current_reply h ht hx hse hl hst hm
      · have hsa := serve_accounts_of_ne h ht hx hse hne (ht.holds hx' hl)
        obtain ⟨ws, hr⟩ := h.current hx' hl hst hm
        exact ⟨ws, fun now => (Statement.run_eq_of_accounts hst hsa).trans (hr now)⟩
    · intro u ws v row hws hm
      by_cases hne : u = t
      · subst hne
        obtain ⟨st, r', hl, hd, hr⟩ := wrote_reply h ht hx hse hws hm
        exact ⟨_, st, r', by rw [hs, Function.update_self], hl, hd, hr⟩
      · rw [(serve_moves hse).pending_of_ne hne] at hws
        obtain ⟨x, st, r', hx', hl, hd, hr⟩ := h.wrote hws hm
        refine ⟨x, st, r', by rw [hs, Function.update_of_ne hne, hx'], hl, hd,
          fun now => ?_⟩
        obtain ⟨v, hv⟩ := hr now
        have hst := Statement.onAccounts_of_kind (Statement.kind_of_run hv List.mem_cons_self)
        have hsa := serve_accounts_of_ne h ht hx hse hne (ht.holds hx' hl)
        exact ⟨v, (Statement.run_eq_of_accounts hst hsa).trans hv⟩

theorem serialized_of_exec (h : exec (step R) init as = some w) :
    Transactional R w ∧ Serialized w :=
  exec_invariant (I := fun w => Transactional R w ∧ Serialized w)
    (fun _ _ _ hw hs => ⟨transactional_step hw.1 hs, serialized_step hw.2 hw.1 hs⟩) h
    ⟨transactional_init, serialized_init⟩

/-! ### The versions of an account -/

lemma lookup_commit_account (s : Store) (t : ℕ) (u : String) :
    ((s.commit t).committed.accounts.lookup u = s.committed.accounts.lookup u ∧
        ∀ ws row, s.pending.lookup t = some ws → Write.putAccount u row ∉ ws) ∨
      ∃ ws row, s.pending.lookup t = some ws ∧ Write.putAccount u row ∈ ws ∧
        (s.commit t).committed.accounts.lookup u = some row := by
  simp only [Database.commit]
  cases hws : s.pending.lookup t with
  | none => exact .inl ⟨by rw [Database.view_of_none hws], by rintro _ _ ⟨⟩⟩
  | some ws =>
    rw [Database.view_of_some hws]
    have ho : ∀ wr d, (∀ v row, wr ≠ Write.putAccount v row) →
        (rows.apply wr d).accounts = d.accounts := by
      intro wr d hne
      cases wr with
      | putAccount v row => exact absurd rfl (hne v row)
      | _ => rfl
    rcases Rows.applyAll_put (R := rows) (T := Tables.accounts) (fun _ _ _ => rfl) ho u ws
      s.committed with ⟨hs, hn⟩ | ⟨row, hwr, hl⟩
    · refine .inl ⟨hs, fun ws' row hws' => ?_⟩
      cases hws'
      exact hn row
    · exact .inr ⟨ws, row, rfl, hwr, hl⟩

lemma Serialized.version_lt (h : Serialized w) (hws : w.shared.pending.lookup t = some ws)
    (hm : Write.putAccount u row ∈ ws) (ho : w.shared.committed.accounts.lookup u = some old) :
    old.version < row.version := by
  obtain ⟨x, st, r, -, -, -, hr⟩ := h.wrote hws hm
  obtain ⟨v, hv⟩ := hr 0
  have hst := Statement.kind_of_run hv List.mem_cons_self
  cases st with
  | insertOwner v hash =>
    simp only [Statement.run] at hv
    split_ifs at hv with hf
    obtain ⟨rfl, -⟩ := Write.putAccount.inj (List.singleton_inj.mp
      (Prod.mk.inj (Except.ok.inj hv)).2)
    rw [ho] at hf
    exact absurd rfl hf
  | upsertAccount v hash role dis =>
    obtain ⟨rfl, rfl⟩ := Write.putAccount.inj (List.singleton_inj.mp
      (Prod.mk.inj (Except.ok.inj hv)).2)
    rw [ho]
    exact Nat.lt_succ_self _
  | _ => cases hst

lemma step_account (h : Serialized w) (ht : Transactional R w) (hst : step R w a = some w')
    (hr : w.shared.committed.accounts.lookup u = some row) :
    ∃ row', w'.shared.committed.accounts.lookup u = some row' ∧
      (row' = row ∨ row.version < row'.version) := by
  cases a with
  | start t request =>
    obtain ⟨-, hsh, -⟩ := Sessions.step_start hst
    exact ⟨row, by rw [hsh, hr], .inl rfl⟩
  | reply t o =>
    obtain ⟨request, done, c, k, r, hx, hse, -⟩ := Sessions.step_reply hst
    rcases serve_accounts h ht hx hse with hs | ⟨-, -, hc⟩
    · exact ⟨row, by rw [hs, hr], .inl rfl⟩
    · rw [hc]
      rcases lookup_commit_account w.shared t u with ⟨hs, -⟩ | ⟨ws, row', hws, hm, hl⟩
      · exact ⟨row, hs.trans hr, .inl rfl⟩
      · exact ⟨row', hl, .inr (h.version_lt hws hm hr)⟩

end Runs

end Codohue.Access
