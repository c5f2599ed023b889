import Codohue.ReadCommitted

/-!
The identity store of `internal/core/access`: its tables, and the statements that run on them.
-/

namespace Codohue.Access

open ReadCommitted

/-! ### Values -/

/-- The roles of accounts, and the one of service tokens. -/
inductive Role where
  | owner
  | admin
  | service
  deriving DecidableEq, Repr

/-- The roles that a caller can give to an account. -/
def accountRole : String → Option Role
  | "owner" => some .owner
  | "admin" => some .admin
  | _ => none

/-- A verified identity. -/
structure Actor where
  name : String
  role : Role
  permissions : List String
  namespaces : List String
  version : ℕ
  deriving DecidableEq, Repr

inductive Error where
  | credentials
  | conflict (detail : String)
  | invalid (detail : String)
  | throttled
  /-- PostgreSQL refuses a duplicate key (23505). -/
  | uniqueViolation
  | noRows
  | external (text : String)
  /-- `access store: %w`. -/
  | accessError (e : Error)
  deriving DecidableEq, Repr

/-- `errors.Is(err, ErrCredentials)`. -/
def Error.isCredentials : Error → Bool
  | .credentials => true
  | .accessError e => e.isCredentials
  | _ => false

/-- What the store computes with: SHA-256 in hexadecimal, and bcrypt. -/
structure Runtime where
  digest : String → String
  hash : String → ℕ → String
  compareHashAndPassword : String → String → Bool

/-! ### Checks -/

def isNameChar (c : Char) : Bool := c.isAlphanum || c = '_' || c = '.' || c = '-'

/-- `namePattern.MatchString`. -/
def matchesName (name : String) : Bool :=
  match name.toList with
  | [] => false
  | c :: cs => c.isAlphanum && cs.length ≤ 63 && cs.all isNameChar

def checkPassword (password : String) : Except Error Unit :=
  if password.utf8ByteSize < 12 ∨ 72 < password.utf8ByteSize ∨ password = "dev-secret-key" then
    .error (.invalid "password must be 12–72 bytes and cannot be the known development credential")
  else .ok ()

def isHexChar (c : Char) : Bool := c.isDigit || ('a' ≤ c ∧ c ≤ 'f') || ('A' ≤ c ∧ c ≤ 'F')

def supportedPermissions : List String :=
  ["admin:read", "admin:write", "namespace:provision", "data:read", "data:write"]

def validateTokenSpec (token : String) (permissions namespaces : List String) :
    Except Error Unit :=
  -- 32 bytes are 64 digits
  if ¬ (token.toList.all isHexChar ∧ token.toList.length = 64) then
    .error (.invalid "token must be 32 random bytes encoded as 64 hex characters")
  else if permissions = [] ∨ namespaces = [] then .error (.invalid "")
  else if permissions.any (· ∉ supportedPermissions) then .error (.invalid "")
  else if namespaces.any (fun ns => ns ≠ "*" ∧ matchesName ns = false) then .error (.invalid "")
  else .ok ()

/-! ### Tables -/

structure Account where
  passwordHash : String
  role : Role
  disabled : Bool
  version : ℕ
  deriving DecidableEq, Repr

structure SessionRow where
  username : String
  accountVersion : ℕ
  expiresAt : ℤ
  deriving DecidableEq, Repr

structure TokenRow where
  tokenHash : String
  permissions : List String
  namespaces : List String
  revoked : Bool
  deriving DecidableEq, Repr

structure Bucket where
  attempts : ℤ
  expiresAt : ℤ
  deriving DecidableEq, Repr

structure AuditRow where
  actor : String
  action : String
  target : String
  deriving DecidableEq, Repr

structure Tables where
  accounts : Table String Account
  sessions : Table String SessionRow
  serviceTokens : Table String TokenRow
  loginBuckets : Table String Bucket
  audit : List AuditRow

def Tables.empty : Tables := ⟨∅, ∅, ∅, ∅, []⟩

/-- What a transaction can keep from others: rows, values of unique columns, and the advisory lock
5757001. -/
inductive Key where
  | advisory
  | account (username : String)
  | session (tokenHash : String)
  | token (name : String)
  | tokenHash (tokenHash : String)
  | bucket (bucket : String)
  deriving DecidableEq, Repr

inductive Write where
  /-- A lock alone. -/
  | hold (key : Key)
  | putAccount (username : String) (row : Account)
  | putSession (tokenHash : String) (row : SessionRow)
  | deleteSession (tokenHash : String)
  | putToken (name : String) (row : TokenRow)
  | putBucket (bucket : String) (row : Bucket)
  | deleteBucket (bucket : String)
  | insertAudit (row : AuditRow)

def Write.apply : Write → Tables → Tables
  | .hold _, d => d
  | .putAccount u row, d => { d with accounts := d.accounts.insert u row }
  | .putSession h row, d => { d with sessions := d.sessions.insert h row }
  | .deleteSession h, d => { d with sessions := d.sessions.erase h }
  | .putToken name row, d => { d with serviceTokens := d.serviceTokens.insert name row }
  | .putBucket b row, d => { d with loginBuckets := d.loginBuckets.insert b row }
  | .deleteBucket b, d => { d with loginBuckets := d.loginBuckets.erase b }
  | .insertAudit row, d => { d with audit := d.audit ++ [row] }

def Write.keys : Write → List Key
  | .hold key => [key]
  | .putAccount u _ => [.account u]
  | .putSession h _ => [.session h]
  | .deleteSession h => [.session h]
  | .putToken name row => [.token name, .tokenHash row.tokenHash]
  | .putBucket b _ => [.bucket b]
  | .deleteBucket b => [.bucket b]
  | .insertAudit _ => []

def rows : Rows Tables Write Key := ⟨Write.apply, Write.keys⟩

abbrev Store := Database rows

/-! ### Statements -/

inductive Statement where
  | advisoryLock
  | countAccounts
  | insertOwner (username passwordHash : String)
  | selectForUpdate (username : String)
  | countOwners
  | upsertAccount (username passwordHash : String) (role : Role) (disabled : Bool)
  | deleteSessions (username : String)
  | insertAudit (actor action target : String)
  | allowAttempt (bucket : String)
  | refundAttempt (bucket : String)
  | selectAccount (username : String)
  | insertSession (tokenHash username : String) (version : ℕ) (expires : ℤ)
  | selectSession (tokenHash : String)
  | deleteSession (tokenHash : String)
  | insertToken (name tokenHash : String) (permissions namespaces : List String)
  | selectToken (name : String)
  | selectServiceToken (tokenHash : String)
  | revokeToken (name : String)
  | pruneSessions
  | pruneBuckets
  deriving DecidableEq

abbrev Statement.Value : Statement → Type
  | .advisoryLock => Unit
  | .countAccounts => ℕ
  | .insertOwner _ _ => Unit
  | .selectForUpdate _ => Option (Role × Bool)
  | .countOwners => ℕ
  | .upsertAccount _ _ _ _ => Unit
  | .deleteSessions _ => Unit
  | .insertAudit _ _ _ => Unit
  | .allowAttempt _ => ℤ
  | .refundAttempt _ => Unit
  | .selectAccount _ => Option Account
  -- the number of rows
  | .insertSession _ _ _ _ => ℕ
  | .selectSession _ => Option Actor
  | .deleteSession _ => Unit
  | .insertToken _ _ _ _ => Unit
  | .selectToken _ => Option TokenRow
  | .selectServiceToken _ => Option Actor
  | .revokeToken _ => ℕ
  | .pruneSessions => Unit
  | .pruneBuckets => Unit

/-- Microseconds. -/
def minute : ℤ := 60000000

def hour : ℤ := 60 * minute

/-- `INSERT … ON CONFLICT(username) DO UPDATE`. A new row has version 1. -/
def upsertedAccount (passwordHash : String) (role : Role) (disabled : Bool) :
    Option Account → Account
  | none => ⟨passwordHash, role, disabled, 1⟩
  | some row =>
    ⟨if passwordHash = "" then row.passwordHash else passwordHash, role, disabled, row.version + 1⟩

/-- The bucket after one more attempt: a new window, or the same one up to six. -/
def attempted (now : ℤ) : Option Bucket → Bucket
  | none => ⟨1, now + minute⟩
  | some row =>
    if row.expiresAt ≤ now then ⟨1, now + minute⟩
    else ⟨min (row.attempts + 1) 6, row.expiresAt⟩

def refunded (row : Bucket) : Bucket := ⟨max (row.attempts - 1) 0, row.expiresAt⟩

/-- An enabled owner. -/
def Account.isOwner (row : Account) : Bool := row.role = .owner && !row.disabled

/-- The join of `Session`. -/
def liveSession (d : Tables) (tokenHash : String) (now : ℤ) : Option Actor :=
  (d.sessions.lookup tokenHash).bind fun session =>
    (d.accounts.lookup session.username).bind fun account =>
      if now < session.expiresAt ∧ account.disabled = false ∧
          account.version = session.accountVersion then
        some ⟨session.username, account.role, [], [], account.version⟩
      else none

/-- The row of the unique column `token_hash`. -/
def tokenOf (d : Tables) (tokenHash : String) : Option (String × TokenRow) :=
  (d.serviceTokens.selectWhere fun _ row => row.tokenHash = tokenHash).head?

/-- What a statement answers on the rows that it sees, and what it writes. -/
def Statement.run (now : ℤ) (d : Tables) :
    (st : Statement) → Except Error (st.Value × List Write)
  | .advisoryLock => .ok ((), [.hold .advisory])
  | .countAccounts => .ok (d.accounts.entries.length, [])
  | .insertOwner username passwordHash =>
    if (d.accounts.lookup username).isSome then .error .uniqueViolation
    else .ok ((), [.putAccount username ⟨passwordHash, .owner, false, 1⟩])
  | .selectForUpdate username =>
    .ok ((d.accounts.lookup username).map fun row => (row.role, row.disabled),
      if (d.accounts.lookup username).isSome then [.hold (.account username)] else [])
  | .countOwners => .ok ((d.accounts.selectWhere fun _ row => row.isOwner).length, [])
  | .upsertAccount username passwordHash role disabled =>
    .ok ((), [.putAccount username
      (upsertedAccount passwordHash role disabled (d.accounts.lookup username))])
  | .deleteSessions username =>
    .ok ((), (d.sessions.selectWhere fun _ row => row.username = username).map fun e =>
      .deleteSession e.1)
  | .insertAudit actor action target => .ok ((), [.insertAudit ⟨actor, action, target⟩])
  | .allowAttempt bucket =>
    let row := attempted now (d.loginBuckets.lookup bucket)
    .ok (row.attempts, [.putBucket bucket row])
  | .refundAttempt bucket =>
    .ok ((), ((d.loginBuckets.lookup bucket).map fun row =>
      Write.putBucket bucket (refunded row)).toList)
  | .selectAccount username => .ok (d.accounts.lookup username, [])
  | .insertSession tokenHash username version expires =>
    match d.accounts.lookup username with
    | none => .ok (0, [])
    | some account =>
      if account.version = version ∧ account.disabled = false then
        if (d.sessions.lookup tokenHash).isSome then .error .uniqueViolation
        else .ok (1, [.putSession tokenHash ⟨username, account.version, expires⟩])
      else .ok (0, [])
  | .selectSession tokenHash => .ok (liveSession d tokenHash now, [])
  | .deleteSession tokenHash => .ok ((), [.deleteSession tokenHash])
  | .insertToken name tokenHash permissions namespaces =>
    -- a conflict on the name alone is no error
    if (d.serviceTokens.lookup name).isSome then .ok ((), [])
    else if (tokenOf d tokenHash).isSome then .error .uniqueViolation
    else .ok ((), [.putToken name ⟨tokenHash, permissions, namespaces, false⟩])
  | .selectToken name => .ok (d.serviceTokens.lookup name, [])
  | .selectServiceToken tokenHash =>
    .ok ((tokenOf d tokenHash).bind fun e =>
      if e.2.revoked then none else some ⟨e.1, .service, e.2.permissions, e.2.namespaces, 0⟩, [])
  | .revokeToken name =>
    match d.serviceTokens.lookup name with
    | none => .ok (0, [])
    | some row => .ok (1, [.putToken name { row with revoked := true }])
  | .pruneSessions =>
    .ok ((), (d.sessions.selectWhere fun _ row => row.expiresAt ≤ now).map fun e =>
      .deleteSession e.1)
  | .pruneBuckets =>
    .ok ((), (d.loginBuckets.selectWhere fun _ row => row.expiresAt ≤ now - hour).map fun e =>
      .deleteBucket e.1)

/-! ### What a statement can write -/

inductive Kind where
  | lock
  | account
  | newSession
  | endedSession
  | token
  | bucket
  | audit
  deriving DecidableEq, Repr

def Write.kind : Write → Kind
  | .hold _ => .lock
  | .putAccount _ _ => .account
  | .putSession _ _ => .newSession
  | .deleteSession _ => .endedSession
  | .putToken _ _ => .token
  | .putBucket _ _ => .bucket
  | .deleteBucket _ => .bucket
  | .insertAudit _ => .audit

def Statement.kind? : Statement → Option Kind
  | .advisoryLock | .selectForUpdate _ => some .lock
  | .insertOwner _ _ | .upsertAccount _ _ _ _ => some .account
  | .deleteSessions _ | .deleteSession _ | .pruneSessions => some .endedSession
  | .insertAudit _ _ _ => some .audit
  | .allowAttempt _ | .refundAttempt _ | .pruneBuckets => some .bucket
  | .insertSession _ _ _ _ => some .newSession
  | .insertToken _ _ _ _ | .revokeToken _ => some .token
  | .countAccounts | .countOwners | .selectAccount _ | .selectSession _ | .selectToken _
  | .selectServiceToken _ => none

theorem Statement.kind_of_run {st : Statement} {v : st.Value} (h : st.run now d = .ok (v, ws))
    (hw : w ∈ ws) : st.kind? = some w.kind := by
  have ho : ∀ {w'}, ws = [w'] → some w'.kind = st.kind? → st.kind? = some w.kind := by
    rintro w' rfl hk
    rw [List.mem_singleton.mp hw, hk]
  have hn : ws = [] → st.kind? = some w.kind := by
    rintro rfl
    cases hw
  cases st with
  | advisoryLock | upsertAccount | insertAudit | allowAttempt | deleteSession =>
    exact ho (Prod.mk.inj (Except.ok.inj h)).2.symm rfl
  | countAccounts | countOwners | selectAccount | selectSession | selectToken
  | selectServiceToken => exact hn (Prod.mk.inj (Except.ok.inj h)).2.symm
  | insertOwner =>
    simp only [run] at h
    split_ifs at h
    exact ho (Prod.mk.inj (Except.ok.inj h)).2.symm rfl
  | selectForUpdate =>
    have hws := (Prod.mk.inj (Except.ok.inj h)).2
    split_ifs at hws
    · exact ho hws.symm rfl
    · exact hn hws.symm
  | deleteSessions | pruneSessions | pruneBuckets =>
    rw [← (Prod.mk.inj (Except.ok.inj h)).2] at hw
    obtain ⟨e, -, rfl⟩ := List.mem_map.mp hw
    rfl
  | refundAttempt =>
    rw [← (Prod.mk.inj (Except.ok.inj h)).2] at hw
    obtain ⟨row, -, rfl⟩ := Option.map_eq_some_iff.mp (Option.mem_toList.mp hw)
    rfl
  | insertSession =>
    simp only [run] at h
    split at h
    · exact hn (Prod.mk.inj (Except.ok.inj h)).2.symm
    · split_ifs at h
      · exact ho (Prod.mk.inj (Except.ok.inj h)).2.symm rfl
      · exact hn (Prod.mk.inj (Except.ok.inj h)).2.symm
  | insertToken =>
    simp only [run] at h
    split_ifs at h
    · exact hn (Prod.mk.inj (Except.ok.inj h)).2.symm
    · exact ho (Prod.mk.inj (Except.ok.inj h)).2.symm rfl
  | revokeToken =>
    simp only [run] at h
    split at h
    · exact hn (Prod.mk.inj (Except.ok.inj h)).2.symm
    · exact ho (Prod.mk.inj (Except.ok.inj h)).2.symm rfl

/-! ### What writes of a kind leave alone -/

section Frame

lemma applyAll_accounts (h : ∀ w ∈ ws, w.kind ≠ .account) :
    (rows.applyAll ws d).accounts = d.accounts := by
  refine Rows.applyAll_invariant (I := fun d' : Tables => d'.accounts = d.accounts)
    (fun w hw d' hd' => ?_) rfl
  cases w with
  | putAccount u row => exact absurd rfl (h _ hw)
  | _ => exact hd'

lemma applyAll_serviceTokens (h : ∀ w ∈ ws, w.kind ≠ .token) :
    (rows.applyAll ws d).serviceTokens = d.serviceTokens := by
  refine Rows.applyAll_invariant (I := fun d' : Tables => d'.serviceTokens = d.serviceTokens)
    (fun w hw d' hd' => ?_) rfl
  cases w with
  | putToken name row => exact absurd rfl (h _ hw)
  | _ => exact hd'

end Frame

end Codohue.Access
