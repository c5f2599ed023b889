import Codohue.Access
import Codohue.Sessions
import Mathlib.Data.List.Sort

/-!
The methods of the identity store as programs that send statements to one database, and what a run
of many of them shows.

Sessions are the requests of any number of replicas, each with at most one transaction.
-/

namespace Codohue.Access

open Service Transition ReadCommitted

/-! ### Calls -/

/-- What comes from outside: the time, and randomness. -/
structure Reply where
  now : ℤ
  token : String
  salt : ℕ
  deriving DecidableEq, Repr

inductive Outcome where
  | ok (reply : Reply)
  /-- Nothing of the call remains. -/
  | fails (text : String)
  /-- The call takes effect, and the caller sees an error. -/
  | lost (reply : Reply) (text : String)
  deriving DecidableEq, Repr

inductive Call where
  | begin
  | sql (st : Statement)
  | commit
  | rollback
  /-- The clock and the randomness of the replica. -/
  | draw
  deriving DecidableEq

abbrev Call.Value : Call → Type
  | .begin => Unit
  | .sql st => st.Value
  | .commit => Unit
  | .rollback => Unit
  | .draw => Reply

abbrev Answer (c : Call) : Type := Except Error c.Value

abbrev Exchange := Σ c, Answer c

/-- A call that fails ends the transaction, if that was its purpose or the way it ends. -/
def abandoned (t : ℕ) (s : Store) : Call → Store
  | .commit => s.rollback t
  | .rollback => s.rollback t
  | _ => s

/-- A call that takes effect. It waits for the rows and locks that others keep. -/
def perform (t : ℕ) (s : Store) (reply : Reply) : (c : Call) → Option (Answer c × Store)
  | .begin => some (.ok (), s.begin t)
  | .sql st =>
    match st.run reply.now (s.view t) with
    | .error e => some (.error e, s)
    | .ok (v, ws) => (s.write t ws).map fun s' => (.ok v, s')
  | .commit => some (.ok (), s.commit t)
  | .rollback => some (.ok (), s.rollback t)
  | .draw => some (.ok reply, s)

def serve (t : ℕ) (c : Call) (s : Store) : Outcome → Option (Answer c × Store)
  | .ok reply => perform t s reply c
  | .fails text => some (.error (.external text), abandoned t s c)
  | .lost reply text =>
    -- a connection that is lost while it begins a transaction has none
    if c = .begin then some (.error (.external text), s)
    else (perform t s reply c).map fun r => (.error (.external text), r.2)

/-! ### Methods -/

abbrev AccessM (α : Type) := Program Call Answer Error α

def request (c : Call) : AccessM c.Value := do
  let answer : Answer c ← Program.ask c
  Program.ofExcept (answer.mapError .accessError)

def sql (st : Statement) : AccessM st.Value := request (.sql st)

/-- `pgx.BeginFunc`, with the error of the method around it. -/
def beginFunc (body : AccessM Unit) : AccessM Unit := do
  let _ ← request .begin
  let result ← body.attempt
  match result with
  | .error e => do
    let _ ← Program.ask Call.rollback
    .throw (.accessError e)
  | .ok () => request .commit

section Methods

variable (R : Runtime)

def passwordHash (password : String) : AccessM String := do
  Program.ofExcept ((checkPassword password).mapError .accessError)
  let reply ← request .draw
  return R.hash password reply.salt

def insertFirstOwner (username hash : String) (count : ℕ) : AccessM Unit :=
  if 0 < count then return ()
  else do
    let _ ← sql (.insertOwner username hash)
    sql (.insertAudit "bootstrap" "account.create" username)

def bootstrap (username password : String) : AccessM Unit :=
  if matchesName username = false then .throw (.invalid "")
  else do
    let hash ← passwordHash R password
    beginFunc do
      let _ ← sql .advisoryLock
      let count ← sql .countAccounts
      insertFirstOwner username hash count

/-- A password that is not given is not changed. -/
def optionalHash (password : String) : AccessM String :=
  if password = "" then return "" else passwordHash R password

/-- An owner that is the last one stays, but for a recovery. -/
def keepLastOwner (old : Option (Role × Bool)) (role : Role) (disabled recovery : Bool) :
    AccessM Unit :=
  if old = some (.owner, false) ∧ (disabled = true ∨ role ≠ .owner) ∧ recovery = false then do
    let owners ← sql .countOwners
    if owners ≤ 1 then .throw (.conflict "cannot disable or demote the last owner") else return ()
  else return ()

def writeAccount (actor username hash : String) (role : Role) (disabled : Bool) : AccessM Unit := do
  let _ ← sql (.upsertAccount username hash role disabled)
  let _ ← sql (.deleteSessions username)
  sql (.insertAudit actor "account.update" username)

def changeAccount (actor username hash : String) (role : Role) (disabled recovery : Bool)
    (old : Option (Role × Bool)) : AccessM Unit :=
  if old = none ∧ hash = "" then .throw (.invalid "")
  else do
    keepLastOwner old role disabled recovery
    writeAccount actor username hash role disabled

def setAccount (actor username password role : String) (disabled recovery : Bool) : AccessM Unit :=
  match matchesName username, accountRole role with
  | true, some role => do
    let hash ← optionalHash R password
    beginFunc do
      let _ ← sql .advisoryLock
      let old ← sql (.selectForUpdate username)
      changeAccount actor username hash role disabled recovery old
  | _, _ => .throw (.invalid "")

def allowAttempt (ip : String) : AccessM Bool := do
  let attempts ← sql (.allowAttempt (R.digest ip))
  return attempts ≤ 5

def refundAttempt (ip : String) : AccessM Unit := sql (.refundAttempt (R.digest ip))

def dummyHash : String := "$2a$10$7EqJtq98hPqEX7fNZaFWoO5RCPRgjfNL39..yhmEtV6ZQ2v9Z1e4S"

/-- The password check of `Login` on the row that it has read. -/
def verify (username password : String) (row : Option Account) : Except Error Actor :=
  match row with
  -- an unknown account costs a comparison too
  | none => .error .credentials
  | some row =>
    if R.compareHashAndPassword (if row.passwordHash = "" then dummyHash else row.passwordHash)
        password ∧ row.disabled = false then
      .ok ⟨username, row.role, [], [], row.version⟩
    else .error .credentials

variable {R} in

lemma verify_ok (h : verify R user pw row = .ok a) :
    ∃ acct, row = some acct ∧
      acct.disabled = false ∧ a = ⟨user, acct.role, [], [], acct.version⟩ := by
  cases row with
  | none => cases h
  | some acct =>
    simp only [verify] at h
    by_cases hok : R.compareHashAndPassword
        (if acct.passwordHash = "" then dummyHash else acct.passwordHash) pw = true ∧
          acct.disabled = false
    · rw [if_pos hok] at h
      exact ⟨acct, rfl, hok.2, (Except.ok.inj h).symm⟩
    · rw [if_neg hok] at h
      cases h

def verifyAccount (username password : String) : AccessM Actor := do
  let row ← sql (.selectAccount username)
  Program.ofExcept (verify R username password row)

def login (ip username password : String) : AccessM Actor := do
  let ok ← allowAttempt R ip
  if ok = false then .throw .throttled else verifyAccount R username password

def sessionTTL : ℤ := 8 * hour

def issueSession (a : Actor) : AccessM (String × ℤ) := do
  let reply ← request .draw
  let expires := reply.now + sessionTTL
  let affected ← sql (.insertSession (R.digest reply.token) a.name a.version expires)
  if affected = 1 then return (reply.token, expires) else .throw .credentials

/-- The handler of a login: the check, the audit record and the session. -/
def createOperatorSession (ip username password : String) : AccessM (String × ℤ) := do
  let a ← login R ip username password
  let _ ← sql (.insertAudit ("operator:" ++ a.name) "session.create" a.name)
  issueSession R a

def session (token : String) : AccessM Actor := do
  let found ← sql (.selectSession (R.digest token))
  match found with
  | none => .throw (.accessError .credentials)
  | some a => return a

def revokeSession (token : String) : AccessM Unit := sql (.deleteSession (R.digest token))

/-- The grant that is stored is the one of the request. -/
def describes (tokenHash : String) (permissions namespaces : List String) (row : TokenRow) : Bool :=
  row.tokenHash = tokenHash && row.revoked = false &&
    row.permissions.insertionSort (· ≤ ·) = permissions.insertionSort (· ≤ ·) &&
    row.namespaces.insertionSort (· ≤ ·) = namespaces.insertionSort (· ≤ ·)

def confirmToken (actor name tokenHash : String) (permissions namespaces : List String)
    (row : Option TokenRow) : AccessM Unit :=
  match row with
  | none => .throw (.accessError .noRows)
  | some row =>
    if describes tokenHash permissions namespaces row then
      sql (.insertAudit actor "token.provision" name)
    else .throw (.conflict "")

/-- The insert reports a token that stands under another name. -/
def insertToken (name tokenHash : String) (permissions namespaces : List String) :
    AccessM Unit := do
  let answer ← Program.ask (Call.sql (.insertToken name tokenHash permissions namespaces))
  Program.ofExcept (answer.mapError fun e =>
    if e = .uniqueViolation then .conflict "" else .accessError e)

def provisionToken (actor name token : String) (permissions namespaces : List String) :
    AccessM Unit :=
  if matchesName name = false then .throw (.invalid "")
  else do
    Program.ofExcept ((validateTokenSpec token permissions namespaces).mapError .accessError)
    beginFunc do
      insertToken name (R.digest token) permissions namespaces
      let row ← sql (.selectToken name)
      confirmToken actor name (R.digest token) permissions namespaces row

def serviceToken (token : String) : AccessM Actor := do
  let found ← sql (.selectServiceToken (R.digest token))
  match found with
  | none => .throw (.accessError .credentials)
  | some a => return a

def revokeToken (actor name : String) : AccessM Unit :=
  beginFunc do
    let _ ← sql (.revokeToken name)
    sql (.insertAudit actor "token.revoke" name)

def prune : AccessM Unit := do
  let _ ← sql .pruneSessions
  sql .pruneBuckets

end Methods

/-! ### Requests -/

inductive Request where
  | bootstrap (username password : String)
  | setAccount (actor username password role : String) (disabled recovery : Bool)
  | createOperatorSession (ip username password : String)
  | session (token : String)
  | revokeSession (token : String)
  | provisionToken (actor name token : String) (permissions namespaces : List String)
  | serviceToken (token : String)
  | revokeToken (actor name : String)
  | allowAttempt (ip : String)
  | refundAttempt (ip : String)
  | prune
  deriving DecidableEq

inductive Response where
  | done
  | allowed (ok : Bool)
  | actor (a : Actor)
  | issued (token : String) (expires : ℤ)
  deriving DecidableEq, Repr

section Runs

variable (R : Runtime)

def run : Request → AccessM Response
  | .bootstrap username password => do bootstrap R username password; return .done
  | .setAccount actor username password role disabled recovery => do
    setAccount R actor username password role disabled recovery; return .done
  | .createOperatorSession ip username password => do
    let r ← createOperatorSession R ip username password; return .issued r.1 r.2
  | .session token => do let a ← session R token; return .actor a
  | .revokeSession token => do revokeSession R token; return .done
  | .provisionToken actor name token permissions namespaces => do
    provisionToken R actor name token permissions namespaces; return .done
  | .serviceToken token => do let a ← serviceToken R token; return .actor a
  | .revokeToken actor name => do revokeToken actor name; return .done
  | .allowAttempt ip => do let ok ← allowAttempt R ip; return .allowed ok
  | .refundAttempt ip => do refundAttempt R ip; return .done
  | .prune => do prune; return .done

abbrev Scene := Sessions Store Call Answer Error Response Request

abbrev Action := PoolAction Request Outcome

/-- The tables as the migration makes them, and no session. -/
def init : Scene := Sessions.boot (Database.start Tables.empty)

def step : Scene → Action → Option Scene := Sessions.step serve (run R)

end Runs

end Codohue.Access
