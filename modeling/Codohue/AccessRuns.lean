import Codohue.AccessPrograms

/-!
What the methods of the identity store call and when, the transactions that their sessions have
open, and the events of a run.
-/

namespace Codohue.Access

open Service Transition ReadCommitted
open Sessions (Faithful)

/-! ### What a session has done -/

namespace Exchange

def begins : Exchange → Bool
  | ⟨.begin, .ok _⟩ => true
  | _ => false

def ends : Exchange → Bool
  | ⟨.commit, _⟩ => true
  | ⟨.rollback, _⟩ => true
  | _ => false

def locks : Exchange → Bool
  | ⟨.sql .advisoryLock, .ok _⟩ => true
  | _ => false

def isStatement : Exchange → Bool
  | ⟨.sql _, _⟩ => true
  | _ => false

/-- A write of an account was sent. -/
def writesAccount : Exchange → Bool
  | ⟨.sql (.insertOwner _ _), _⟩ => true
  | ⟨.sql (.upsertAccount _ _ _ _), _⟩ => true
  | _ => false

/-- A write of a service token was sent. -/
def writesToken : Exchange → Bool
  | ⟨.sql (.insertToken _ _ _ _), _⟩ => true
  | ⟨.sql (.revokeToken _), _⟩ => true
  | _ => false

/-- The owner of `Bootstrap` was inserted. -/
def createsOwner : Exchange → Bool
  | ⟨.sql (.insertOwner _ _), .ok _⟩ => true
  | _ => false

def token? : Exchange → Option String
  | ⟨.draw, .ok reply⟩ => some reply.token
  | _ => none

end Exchange

/-- The session has a transaction open. -/
def inTransaction (done : List Exchange) : Bool :=
  done.any Exchange.begins && !done.any Exchange.ends

/-- The session holds the advisory lock. -/
def locked (done : List Exchange) : Bool := inTransaction done && done.any Exchange.locks

/-- The token that the session has drawn. -/
def drawn (done : List Exchange) : Option String := done.findSome? Exchange.token?

/-! ### What a session may call -/

section Calls

variable (R : Runtime)

/-- The last owner that is enabled is neither disabled nor demoted. -/
def Spared (done : List Exchange) (username : String) (role : Role) (disabled recovery : Bool) :
    Prop :=
  ∃ old : Option (Role × Bool), ⟨.sql (.selectForUpdate username), .ok old⟩ ∈ done ∧
    (recovery = false → old = some (.owner, false) → disabled = true ∨ role ≠ .owner →
      ∃ n : ℕ, ⟨.sql .countOwners, .ok n⟩ ∈ done ∧ 1 < n)

/-- The state of its transaction in which a session sends a statement. -/
def Placed (done : List Exchange) : Statement → Prop
  | .advisoryLock | .selectToken _ => inTransaction done = true
  | .insertToken _ _ _ _ | .revokeToken _ =>
    inTransaction done = true ∧ done.any Exchange.writesToken = false
  | .countAccounts | .insertOwner _ _ | .selectForUpdate _ | .countOwners
  | .upsertAccount _ _ _ _ =>
    locked done = true ∧ done.any Exchange.writesAccount = false
  | .selectAccount _ | .insertSession _ _ _ _ | .selectSession _ | .deleteSession _
  | .selectServiceToken _ => done.any Exchange.begins = false
  | _ => True

/-- What a session has to know of its request and its answers when it sends a statement. -/
def Backed (request : Request) (done : List Exchange) : Statement → Prop
  | .insertOwner username _ => (∃ password, request = .bootstrap username password) ∧
      (⟨.sql .countAccounts, .ok 0⟩ : Exchange) ∈ done
  | .upsertAccount username _ role disabled => ∃ actor password roleName recovery,
      request = .setAccount actor username password roleName disabled recovery ∧
        Spared done username role disabled recovery
  | .selectAccount username => ∃ ip password, request = .createOperatorSession ip username password
  | .insertSession tokenHash username version _ =>
    (∃ ip password, request = .createOperatorSession ip username password) ∧
      ∃ token, drawn done = some token ∧ tokenHash = R.digest token ∧
        ∃ row : Account, ⟨.sql (.selectAccount username), .ok (some row)⟩ ∈ done ∧
          row.version = version
  | .selectSession tokenHash => ∃ token, request = .session token ∧ tokenHash = R.digest token
  | .deleteSession tokenHash => ∃ token, request = .revokeSession token ∧ tokenHash = R.digest token
  | .selectServiceToken tokenHash => ∃ token,
      request = .serviceToken token ∧ tokenHash = R.digest token
  | _ => True

/-- What a session has done when it commits. -/
def Commits (done : List Exchange) : Request → Prop
  | .bootstrap _ _ => ∀ e ∈ done, e.writesAccount = true → e.createsOwner = true
  | .setAccount _ username _ _ _ _ => ∃ hash role disabled,
      (⟨.sql (.upsertAccount username hash role disabled), .ok ()⟩ : Exchange) ∈ done
  | .provisionToken _ name token permissions namespaces => ∃ row : TokenRow,
      ⟨.sql (.selectToken name), .ok (some row)⟩ ∈ done ∧
        describes (R.digest token) permissions namespaces row = true
  | .revokeToken actor name => ∃ n : ℕ, done = [⟨.begin, .ok ()⟩,
      ⟨.sql (.revokeToken name), .ok n⟩, ⟨.sql (.insertAudit actor "token.revoke" name), .ok ()⟩]
  | _ => True

def Calls (request : Request) (done : List Exchange) : Call → Prop
  | .begin => done.any Exchange.isStatement = false ∧ done.any Exchange.ends = false
  | .sql st => Placed done st ∧ Backed R request done st
  | .commit => inTransaction done = true ∧ Commits R done request
  | .rollback => True
  | .draw => True

end Calls

/-! ### The methods keep to it -/

section Follows

variable {R : Runtime} {α β : Type} {B : List Exchange → Call → Prop}
  {Q : List Exchange → Except Error β → Prop}

lemma follows_request_bind (hc : B [] c)
    (hok : ∀ v, (f v).Follows (fun t => B (⟨c, .ok v⟩ :: t)) fun t => Q (⟨c, .ok v⟩ :: t))
    (he : ∀ e, Q [⟨c, .error e⟩] (.error (.accessError e))) : (request c >>= f).Follows B Q := by
  refine ⟨hc, fun answer => ?_⟩
  cases answer with
  | error e => exact he e
  | ok v => exact hok v

lemma follows_request {Q : List Exchange → Except Error c.Value → Prop} (hc : B [] c)
    (hok : ∀ v, Q [⟨c, .ok v⟩] (.ok v)) (he : ∀ e, Q [⟨c, .error e⟩] (.error (.accessError e))) :
    (request c).Follows B Q := by
  refine ⟨hc, fun answer => ?_⟩
  cases answer with
  | error e => exact he e
  | ok v => exact hok v

lemma follows_beginFunc (hb : B [] .begin) (hbo : body.Follows (fun t => B (⟨.begin, .ok ()⟩ :: t))
      (Program.Ends (fun t _ => B (⟨.begin, .ok ()⟩ :: t) .commit)
        fun t => B (⟨.begin, .ok ()⟩ :: t) .rollback)) :
    (beginFunc body).Follows B fun _ _ => True := by
  refine follows_request_bind (Q := fun _ _ => True) hb (fun _ => ?_) fun _ => trivial
  refine Program.Follows.attempt_bind hbo fun t x hx => ?_
  cases x with
  | error e =>
    refine ⟨?_, fun _ => trivial⟩
    have hr : B (⟨.begin, .ok ()⟩ :: t) .rollback := hx
    simpa using hr
  | ok _ =>
    refine follows_request (c := .commit) (Q := fun _ _ => True) ?_ (fun _ => trivial)
      fun _ => trivial
    have hc : B (⟨.begin, .ok ()⟩ :: t) .commit := hx
    simpa using hc

section Methods

variable {request : Request}

/-- Before its transaction a session only draws. -/
def OnlyDraws (t : List Exchange) : Prop := t = [] ∨ ∃ reply, t = [⟨.draw, .ok reply⟩]

lemma follows_passwordHash (pw : String) : (passwordHash R pw).Follows (Calls R request)
      (Program.Ends (fun t _ => OnlyDraws t) fun _ => True) := by
  unfold passwordHash
  cases checkPassword pw with
  | error e => trivial
  | ok _ =>
    exact follows_request_bind (c := .draw) trivial (fun reply => .inr ⟨reply, rfl⟩)
      fun _ => trivial

lemma follows_optionalHash (pw : String) : (optionalHash R pw).Follows (Calls R request)
      (Program.Ends (fun t _ => OnlyDraws t) fun _ => True) := by
  unfold optionalHash
  split_ifs
  · exact .inl rfl
  · exact follows_passwordHash pw

lemma follows_hash_bind {hash : AccessM String} {body : String → AccessM Unit}
    (hh : hash.Follows (Calls R request) (Program.Ends (fun t _ => OnlyDraws t) fun _ => True))
    (hb : ∀ text t, OnlyDraws t →
      (body text).Follows (fun t' => Calls R request (t ++ ⟨.begin, .ok ()⟩ :: t'))
        (Program.Ends (fun t' _ => Calls R request (t ++ ⟨.begin, .ok ()⟩ :: t') .commit)
          fun _ => True)) :
    (hash >>= fun text => beginFunc (body text)).Follows (Calls R request) fun _ _ => True := by
  refine Program.Follows.bind hh (fun t text ht => ?_) fun _ _ _ => trivial
  have hq : t.any Exchange.isStatement = false ∧ t.any Exchange.ends = false := by
    rcases ht with rfl | ⟨reply, rfl⟩ <;> exact ⟨rfl, rfl⟩
  refine follows_beginFunc (by simpa [Calls] using hq) ?_
  exact (hb text t ht).mono (fun _ _ h => h) fun t' x hx => by
    cases x with
    | error e => exact trivial
    | ok _ => exact hx

lemma OnlyDraws.inTransaction (h : OnlyDraws t) (l : List Exchange) :
    inTransaction (t ++ l) = inTransaction l := by
  rcases h with rfl | ⟨reply, rfl⟩ <;> rfl

lemma OnlyDraws.locked (h : OnlyDraws t) (l : List Exchange) : locked (t ++ l) = locked l := by
  rcases h with rfl | ⟨reply, rfl⟩ <;> rfl

lemma OnlyDraws.writesAccount (h : OnlyDraws t) (l : List Exchange) :
    (t ++ l).any Exchange.writesAccount = l.any Exchange.writesAccount := by
  rcases h with rfl | ⟨reply, rfl⟩ <;> rfl

lemma OnlyDraws.forall_mem (h : OnlyDraws t)
    (hl : ∀ e ∈ l, e.writesAccount = true → e.createsOwner = true) :
    ∀ e ∈ t ++ l, e.writesAccount = true → e.createsOwner = true := by
  rcases h with rfl | ⟨reply, rfl⟩
  · exact hl
  · exact List.forall_mem_cons.mpr ⟨nofun, hl⟩

lemma follows_bootstrap (user pw : String) :
    (bootstrap R user pw).Follows (Calls R (.bootstrap user pw))
      fun _ _ => True := by
  unfold bootstrap
  split_ifs
  · trivial
  · refine follows_hash_bind (follows_passwordHash pw) fun hash t ht => ?_
    refine follows_request_bind (c := .sql .advisoryLock) ⟨ht.inTransaction _, trivial⟩
      (fun _ => ?_) fun _ => trivial
    refine follows_request_bind (c := .sql .countAccounts)
      ⟨⟨ht.locked _, ht.writesAccount _⟩, trivial⟩ (fun count => ?_) fun _ => trivial
    unfold insertFirstOwner
    split_ifs with hc
    · exact ⟨ht.inTransaction _, ht.forall_mem (by simp [Exchange.writesAccount])⟩
    · obtain rfl : count = 0 := Nat.eq_zero_of_not_pos hc
      refine follows_request_bind (c := .sql (.insertOwner user hash))
        ⟨⟨ht.locked _, ht.writesAccount _⟩, ⟨pw, rfl⟩, by simp⟩ (fun _ => ?_) fun _ => trivial
      exact follows_request (c := .sql (.insertAudit _ _ _)) ⟨trivial, trivial⟩
        (fun _ => ⟨ht.inTransaction _,
          ht.forall_mem (by simp [Exchange.writesAccount, Exchange.createsOwner])⟩) fun _ => trivial

lemma follows_keepLastOwner (hc : B [] (.sql .countOwners)) :
    (keepLastOwner old role dis rec).Follows B (Program.Ends (fun t _ =>
      (t = [] ∧ (rec = false → old = some (.owner, false) →
        ¬ (dis = true ∨ role ≠ .owner))) ∨
      ∃ n : ℕ, 1 < n ∧ t = [⟨.sql .countOwners, .ok n⟩]) fun _ => True) := by
  unfold keepLastOwner
  split_ifs with hco
  · refine follows_request_bind (c := .sql .countOwners) hc (fun owners => ?_) fun _ => trivial
    by_cases ho : owners ≤ 1
    · rw [if_pos ho]
      trivial
    · rw [if_neg ho]
      exact .inr ⟨owners, Nat.lt_of_not_le ho, rfl⟩
  · exact .inl ⟨rfl, fun hr hol hl => hco ⟨hol, hl, hr⟩⟩

lemma follows_writeAccount {hash : String} (hu : B [] (.sql (.upsertAccount user hash role dis)))
    (hd : ∀ t, B t (.sql (.deleteSessions user)))
    (ha : ∀ t, B t (.sql (.insertAudit actor "account.update" user))) :
    (writeAccount actor user hash role dis).Follows B (Program.Ends (fun t _ =>
      t = [⟨.sql (.upsertAccount user hash role dis), .ok ()⟩,
        ⟨.sql (.deleteSessions user), .ok ()⟩,
        ⟨.sql (.insertAudit actor "account.update" user), .ok ()⟩]) fun _ => True) := by
  refine follows_request_bind (c := .sql (.upsertAccount _ _ _ _)) hu (fun _ => ?_) fun _ => trivial
  refine follows_request_bind (c := .sql (.deleteSessions _)) (hd _) (fun _ => ?_) fun _ => trivial
  exact follows_request (c := .sql (.insertAudit _ _ _)) (ha _) (fun _ => rfl) fun _ => trivial

lemma follows_setAccount (actor user pw role : String) (dis rec : Bool) :
    (setAccount R actor user pw role dis rec).Follows
      (Calls R (.setAccount actor user pw role dis rec)) fun _ _ => True := by
  unfold setAccount
  split
  · next role' _ _ =>
    refine follows_hash_bind (follows_optionalHash pw) fun hash t ht => ?_
    refine follows_request_bind (c := .sql .advisoryLock) ⟨ht.inTransaction _, trivial⟩
      (fun _ => ?_) fun _ => trivial
    refine follows_request_bind (c := .sql (.selectForUpdate user))
      ⟨⟨ht.locked _, ht.writesAccount _⟩, trivial⟩ (fun old => ?_) fun _ => trivial
    unfold changeAccount
    split_ifs
    · trivial
    · refine Program.Follows.bind (follows_keepLastOwner
        ⟨⟨ht.locked _, ht.writesAccount _⟩, trivial⟩) (fun t' _ ht' => ?_) fun _ _ _ => trivial
      have hu : Calls R (.setAccount actor user pw role dis rec)
          (t ++ ⟨.begin, .ok ()⟩ :: ⟨.sql .advisoryLock, .ok ()⟩ ::
            ⟨.sql (.selectForUpdate user), .ok old⟩ :: (t' ++ []))
          (.sql (.upsertAccount user hash role' dis)) := by
        constructor
        · rcases ht' with ⟨rfl, -⟩ | ⟨n, -, rfl⟩ <;> exact ⟨ht.locked _, ht.writesAccount _⟩
        · refine ⟨actor, pw, role, rec, rfl, old, by simp, fun hr ho hl => ?_⟩
          rcases ht' with ⟨-, hk⟩ | ⟨n, hn, rfl⟩
          · exact absurd hl (hk hr ho)
          · exact ⟨n, by simp, hn⟩
      refine (follows_writeAccount hu (fun _ => ⟨trivial, trivial⟩)
        fun _ => ⟨trivial, trivial⟩).mono (fun _ _ h => h) fun t'' x hx => ?_
      cases x with
      | error e => trivial
      | ok _ =>
        obtain rfl := hx
        refine ⟨?_, hash, role', dis, by simp⟩
        rcases ht' with ⟨rfl, -⟩ | ⟨n, -, rfl⟩ <;> exact ht.inTransaction _
  · trivial

lemma follows_allowAttempt (ip : String) :
    (allowAttempt R ip).Follows (Calls R request) (Program.Ends (fun t _ =>
      ∃ attempts : ℤ, t = [⟨.sql (.allowAttempt (R.digest ip)), .ok attempts⟩]) fun _ => True) :=
  follows_request_bind (c := .sql (.allowAttempt _)) ⟨trivial, trivial⟩
    (fun attempts => ⟨attempts, rfl⟩) fun _ => trivial

/-- The session is issued to the account that the password was checked against, in the version that
was read. -/
lemma follows_createOperatorSession (ip user pw : String) :
    (createOperatorSession R ip user pw).Follows
      (Calls R (.createOperatorSession ip user pw)) fun _ _ => True := by
  have hl : (login R ip user pw).Follows
      (Calls R (.createOperatorSession ip user pw)) (Program.Ends (fun t a =>
        a.name = user ∧ t.any Exchange.begins = false ∧ drawn t = none ∧
          ∃ row : Account, ⟨.sql (.selectAccount user), .ok (some row)⟩ ∈ t ∧
            row.version = a.version) fun _ => True) := by
    refine Program.Follows.bind (follows_allowAttempt ip) ?_ fun _ _ _ => trivial
    rintro t ok ⟨attempts, rfl⟩
    split_ifs
    · trivial
    · refine follows_request_bind (c := .sql (.selectAccount user)) ⟨rfl, ip, pw, rfl⟩
        (fun row => ?_) fun _ => trivial
      cases hve : verify R user pw row with
      | error e => trivial
      | ok a =>
        obtain ⟨acct, rfl, -, rfl⟩ := verify_ok hve
        exact ⟨rfl, rfl, rfl, acct, by simp, rfl⟩
  refine Program.Follows.bind hl ?_ fun _ _ _ => trivial
  rintro t a ⟨rfl, hb, hd, row, hr, hv⟩
  refine follows_request_bind (c := .sql (.insertAudit _ _ _)) ⟨trivial, trivial⟩ (fun _ => ?_)
    fun _ => trivial
  refine follows_request_bind (c := .draw) trivial (fun reply => ?_) fun _ => trivial
  refine follows_request_bind (c := .sql (.insertSession _ _ _ _)) ⟨?_,
    ⟨ip, pw, rfl⟩, reply.token, ?_, rfl, row, List.mem_append_left _ hr, hv⟩
    (fun affected => ?_) fun _ => trivial
  · simp only [Placed, List.any_append, hb]
    rfl
  · rw [drawn, List.findSome?_append]
    rw [drawn] at hd
    rw [hd]
    rfl
  · split_ifs <;> trivial

lemma follows_provisionToken (actor name token : String) (perms nss : List String) :
    (provisionToken R actor name token perms nss).Follows
      (Calls R (.provisionToken actor name token perms nss)) fun _ _ => True := by
  unfold provisionToken
  split_ifs
  · trivial
  · cases validateTokenSpec token perms nss with
    | error e => trivial
    | ok _ =>
      refine follows_beginFunc ⟨rfl, rfl⟩ ?_
      refine ⟨⟨⟨rfl, rfl⟩, trivial⟩, fun answer => ?_⟩
      cases answer with
      | error e => trivial
      | ok _ =>
        refine follows_request_bind (c := .sql (.selectToken name)) ⟨rfl, trivial⟩ (fun row => ?_)
          fun _ => trivial
        cases row with
        | none => trivial
        | some row =>
          simp only [confirmToken]
          split_ifs with hd
          · exact follows_request (c := .sql (.insertAudit _ _ _)) ⟨trivial, trivial⟩
              (fun _ => ⟨rfl, row, by simp, hd⟩) fun _ => trivial
          · trivial

lemma follows_revokeToken (actor name : String) :
    (revokeToken actor name).Follows (Calls R (.revokeToken actor name)) fun _ _ => True := by
  refine follows_beginFunc ⟨rfl, rfl⟩ ?_
  refine follows_request_bind (c := .sql (.revokeToken name)) ⟨⟨rfl, rfl⟩, trivial⟩ (fun n => ?_)
    fun _ => trivial
  exact follows_request (c := .sql (.insertAudit _ _ _)) ⟨trivial, trivial⟩
    (fun _ => ⟨rfl, n, rfl⟩) fun _ => trivial

/-- **Every request calls what it may call.** -/
theorem follows_run (request : Request) :
    (run R request).Follows (Calls R request) fun _ _ => True := by
  have hd : ∀ {α : Type} {p : AccessM α} {f : α → Response} {Q}, p.Follows (Calls R request) Q →
        (p >>= fun a => Pure.pure (f a)).Follows (Calls R request) fun _ _ => True :=
    fun hp => Program.Follows.bind hp (fun _ _ _ => trivial) fun _ _ _ => trivial
  cases request with
  | bootstrap user pw => exact hd (follows_bootstrap user pw)
  | setAccount actor user pw role dis rec =>
    exact hd (follows_setAccount actor user pw role dis rec)
  | createOperatorSession ip user pw =>
    exact hd (follows_createOperatorSession ip user pw)
  | provisionToken actor name token perms nss =>
    exact hd (follows_provisionToken actor name token perms nss)
  | revokeToken actor name => exact hd (follows_revokeToken actor name)
  | allowAttempt ip => exact hd (follows_allowAttempt ip)
  | session token =>
    refine hd (Q := fun _ _ => True) (follows_request_bind (c := .sql (.selectSession _))
      ⟨rfl, token, rfl, rfl⟩ (fun found => ?_) fun _ => trivial)
    cases found <;> trivial
  | serviceToken token =>
    refine hd (Q := fun _ _ => True) (follows_request_bind (c := .sql (.selectServiceToken _))
      ⟨rfl, token, rfl, rfl⟩ (fun found => ?_) fun _ => trivial)
    cases found <;> trivial
  | revokeSession token =>
    exact hd (Q := fun _ _ => True) (follows_request (c := .sql (.deleteSession _))
      ⟨rfl, token, rfl, rfl⟩ (fun _ => trivial) fun _ => trivial)
  | refundAttempt ip =>
    exact hd (Q := fun _ _ => True) (follows_request (c := .sql (.refundAttempt _))
      ⟨trivial, trivial⟩ (fun _ => trivial) fun _ => trivial)
  | prune =>
    refine hd (Q := fun _ _ => True) (follows_request_bind (c := .sql .pruneSessions)
      ⟨trivial, trivial⟩ (fun _ => ?_) fun _ => trivial)
    exact follows_request (c := .sql .pruneBuckets) ⟨trivial, trivial⟩ (fun _ => trivial)
      fun _ => trivial

end Methods

end Follows

end Codohue.Access
