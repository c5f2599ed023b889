import Codohue.Access
import Codohue.HttpRoutes
import Codohue.NegativeCache
import Codohue.Service

/-!
The middlewares that let a request through to its handler: `RequireIdentity` of the admin server
and `RequireNamespace` of the data plane.

Both run after the router, so they see the parameters of the route.
-/

namespace Codohue.Http

open Url Router Service

/-! ### Requests -/

structure Request where
  method : String
  url : URL
  /-- The header `Authorization`; empty if there is none. -/
  authorization : String
  /-- The session cookie. -/
  cookie : Option String
  /-- Whether the request passes `csrfOK`. -/
  csrfOK : Bool
  remoteIP : String
  deriving DecidableEq, Repr

/-- An answer that ends a request before its handler. -/
structure Refusal where
  status : ℕ
  code : String
  message : String
  deriving DecidableEq, Repr

/-- What the middlewares ask of the identity store, the namespaces and the cache of rejections. -/
inductive Call where
  | serviceToken (token : String)
  | session (token : String)
  | allowAttempt (ip : String)
  | refundAttempt (ip : String)
  | audit (actor action : String) (target : Bytes)
  | keyHash (ns : Bytes)
  | hit (token : String) (ns : Bytes)
  | put (token : String) (ns : Bytes)
  deriving DecidableEq, Repr

abbrev Answer : Call → Type
  | .serviceToken _ => Except Access.Error Access.Actor
  | .session _ => Except Access.Error Access.Actor
  | .allowAttempt _ => Except Access.Error Bool
  | .refundAttempt _ => Except Access.Error Unit
  | .audit _ _ _ => Except Access.Error Unit
  | .keyHash _ => Except Access.Error String
  | .hit _ _ => Bool
  | .put _ _ => Unit

abbrev MiddlewareM (α : Type) := Program Call Answer Refusal α

def ask (c : Call) : MiddlewareM (Answer c) := Program.ask c

/-! ### Errors -/

/-- The error that `errors.Is` finds inside. -/
def unwrap : Access.Error → Access.Error
  | .accessError e => unwrap e
  | e => e

/-- A sentinel error with what follows it. -/
def errorText (sentinel detail : String) : String :=
  if detail = "" then sentinel else sentinel ++ ": " ++ detail

/-- `err.Error()`. -/
def message : Access.Error → String
  | .credentials => "invalid credentials"
  | .conflict detail => errorText "existing credentials or account state conflict" detail
  | .invalid detail => errorText "invalid account or token parameters" detail
  | .throttled => "too many login attempts"
  | .uniqueViolation => "duplicate key value violates unique constraint"
  | .noRows => "no rows in result set"
  | .external text => text
  | .accessError e => "access store: " ++ message e

def identityError (e : Access.Error) : Refusal :=
  match unwrap e with
  | .throttled => ⟨429, "rate_limited", "too many login attempts"⟩
  | .credentials => ⟨401, "unauthorized", "invalid credentials"⟩
  | .invalid _ => ⟨400, "invalid_request", message e⟩
  | .conflict _ => ⟨409, "conflict", message e⟩
  | _ => ⟨503, "identity_unavailable", "identity store unavailable"⟩

def forbidden : Refusal := ⟨403, "forbidden", "credential lacks permission"⟩

/-! ### Grants -/

/-- `Actor.Allows` of a namespace that a path names. -/
def allows (a : Access.Actor) (permission : String) (ns : Bytes) : Bool :=
  match a.role with
  | .owner => true
  | .admin => permission = "admin:read" ∨ permission = "admin:write"
  | .service =>
    permission ∈ a.permissions ∧ (ns = [] ∨ "*" ∈ a.namespaces ∨ ns ∈ a.namespaces.map bytes)

/-- The namespace is among those of the credential. -/
def Covers (a : Access.Actor) (ns : Bytes) : Prop :=
  "*" ∈ a.namespaces ∨ ns ∈ a.namespaces.map bytes

lemma allows_service (ha : a.role = .service) :
    allows a perm ns = true ↔ perm ∈ a.permissions ∧ (ns = [] ∨ Covers a ns) := by
  simp [allows, ha, Covers]

/-! ### RequireIdentity -/

/-- `strings.CutPrefix`. -/
def cutPrefix (text start : String) : Option String :=
  (text.toList.dropPrefix? start.toList).map String.ofList

lemma cutPrefix_append (start text : String) : cutPrefix (start ++ text) start = some text := by
  have hd : (start ++ text).toList.dropPrefix? start.toList = some text.toList := by
    rw [List.dropPrefix?_eq_some_iff]
    exact ⟨start.toList, String.toList_append, beq_self_eq_true _⟩
  rw [cutPrefix, hd, Option.map_some, String.ofList_toList]

def legacyActor : Access.Actor :=
  ⟨"legacy", .service, ["admin:read", "admin:write", "namespace:provision"], ["*"], 0⟩

/-- The legacy key itself, for which an attempt was reserved. -/
def refunded (ip : String) : MiddlewareM Access.Actor := do
  let refund : Except Access.Error Unit ← ask (.refundAttempt ip)
  match refund with
  | .error e => .throw (identityError e)
  | .ok () => return legacyActor

/-- A bearer that is no service token: during a migration it can be the legacy key. -/
def legacyBearer (legacyKey token ip : String) (e : Access.Error) : MiddlewareM Access.Actor :=
  if e.isCredentials = true ∧ legacyKey ≠ "" then do
    let allowed : Except Access.Error Bool ← ask (.allowAttempt ip)
    match allowed with
    | .error e' => .throw (identityError e')
    | .ok false => .throw (identityError .throttled)
    | .ok true => if token = legacyKey then refunded ip else .throw (identityError e)
  else .throw (identityError e)

def bearerActor (legacyKey : String) (r : Request) : MiddlewareM Access.Actor :=
  match cutPrefix r.authorization "Bearer " with
  | none => .throw (identityError .credentials)
  | some token => do
    let found : Except Access.Error Access.Actor ← ask (.serviceToken token)
    match found with
    | .ok a => return a
    | .error e => legacyBearer legacyKey token r.remoteIP e

def sessionActor (r : Request) : MiddlewareM Access.Actor :=
  match r.cookie with
  | none => .throw (identityError .credentials)
  | some token => do
    let found : Except Access.Error Access.Actor ← ask (.session token)
    match found with
    | .error e => .throw (identityError e)
    | .ok a =>
      if r.csrfOK then return a
      else .throw ⟨403, "csrf", "same-origin CSRF header required"⟩

def reads (method : String) : Bool := method = "GET" ∨ method = "HEAD"

def sensitive (path : Bytes) : Bool :=
  (bytes "/api/admin/v1/accounts").isPrefixOf path ||
    (bytes "/api/admin/v1/service-tokens").isPrefixOf path ||
    path = bytes "/api/admin/v1/reset"

def sessionRoute (path : Bytes) : Bool := (bytes "/api/v1/auth/sessions/").isPrefixOf path

def namespacePath : Bytes := bytes "/api/admin/v1/namespaces/"

/-- What `RequireIdentity` decides; a later rule overrides those before it. -/
def allowed (a : Access.Actor) (r : Request) (ns : Bytes) : Bool :=
  let granted := allows a (if reads r.method then "admin:read" else "admin:write") ns
  let granted :=
    if a.role = .service ∧ ns = [] then granted && decide ("*" ∈ a.namespaces) else granted
  let granted :=
    if r.method = "PUT" ∧ ns ≠ [] ∧ r.url.path = namespacePath ++ ns then
      granted || allows a "namespace:provision" ns
    else granted
  let granted := if sensitive r.url.path then decide (a.role = .owner) else granted
  if sessionRoute r.url.path then decide (r.authorization = "") else granted

def roleText : Access.Role → String
  | .owner => "owner"
  | .admin => "admin"
  | .service => "service"

/-- An attempt to change something is recorded before it is made. -/
def audited (route : Route AdminHandler) (a : Access.Actor) (r : Request) :
    MiddlewareM Access.Actor :=
  if reads r.method then return a
  else do
    let recorded : Except Access.Error Unit ←
      ask (.audit (roleText a.role ++ ":" ++ a.name) (r.method ++ " " ++ route.pattern) r.url.path)
    match recorded with
    | .error e => .throw (identityError e)
    | .ok () => return a

/-- The actor with whom the request goes on. -/
def requireIdentity (legacyKey : String) (route : Route AdminHandler) (params : Params)
    (r : Request) : MiddlewareM Access.Actor := do
  let a ← if r.authorization ≠ "" then bearerActor legacyKey r else sessionActor r
  if allowed a r (urlParam r.url params "ns") then audited route a r else .throw forbidden

/-! ### RequireNamespace -/

def extractBearerToken (r : Request) : String := (cutPrefix r.authorization "Bearer ").getD ""

def unauthorized : Refusal := ⟨401, "unauthorized", "invalid or missing bearer token"⟩

/-- Whether the key is valid, and whether that is definitive. -/
def validateNamespaceKey (compareHashAndPassword : String → String → Bool)
    (token adminKey : String) (ns : Bytes) : MiddlewareM (Bool × Bool) :=
  if token = "" then return (false, true)
  else if adminKey ≠ "" ∧ token = adminKey then return (true, true)
  else do
    let found : Except Access.Error String ← ask (.keyHash ns)
    match found with
    | .error _ => return (false, false)
    | .ok hash =>
      if hash = "" then return (false, true)
      else return (compareHashAndPassword hash token, true)

/-- The verdict is the one that the requests of `NegativeCache` get. -/
lemma ensures_validateNamespaceKey {D : Type} (R : NegativeCache.Runtime D)
    (hc : ∀ hash token, R.compareHashAndPassword (bytes hash) (bytes token) =
      compareHashAndPassword hash token)
    (ha : R.adminKey = bytes adminKey) (answer : (c : Call) → Answer c) :
    (validateNamespaceKey compareHashAndPassword token adminKey ns).Ensures answer fun verdict =>
      verdict = NegativeCache.validateNamespaceKey R (bytes token)
        ((answer (.keyHash ns)).toOption.map bytes) := by
  have hb (text : String) : bytes text = [] ↔ text = "" := bytes_injective.eq_iff (b := "")
  unfold validateNamespaceKey NegativeCache.validateNamespaceKey
  simp only [ha, hb, ne_eq, bytes_injective.eq_iff]
  split_ifs
  · rfl
  · rfl
  · refine Program.ensures_ask_bind.mpr ?_
    cases answer (.keyHash ns) with
    | error e => rfl
    | ok hash =>
      simp only [Except.toOption, Option.map_some, hb, hc]
      split_ifs <;> rfl

def settleKey (token : String) (ns : Bytes) (verdict : Bool × Bool) : MiddlewareM Unit :=
  match verdict with
  | (true, _) => return ()
  | (false, true) => do
    let _ : Unit ← ask (.put token ns)
    .throw unauthorized
  | (false, false) => .throw unauthorized

def namespaceKey (compareHashAndPassword : String → String → Bool) (token adminKey : String)
    (ns : Bytes) : MiddlewareM Unit := do
  let hit : Bool ← ask (.hit token ns)
  if hit then .throw unauthorized
  else do
    let verdict ← validateNamespaceKey compareHashAndPassword token adminKey ns
    settleKey token ns verdict

def isRankingRead (r : Request) (ns : Bytes) : Bool :=
  r.method = "POST" ∧ r.url.path = bytes "/v1/namespaces/" ++ ns ++ bytes "/rankings"

def dataPermission (r : Request) (ns : Bytes) : String :=
  if reads r.method = false ∧ isRankingRead r ns = false then "data:write" else "data:read"

def requireNamespace (compareHashAndPassword : String → String → Bool) (adminKey : String)
    (params : Params) (r : Request) : MiddlewareM Unit :=
  let token := extractBearerToken r
  let ns := urlParam r.url params "ns"
  -- without a namespace nothing can be checked, and the handler answers
  if ns = [] then return ()
  else if token = "" then namespaceKey compareHashAndPassword token adminKey ns
  else do
    let found : Except Access.Error Access.Actor ← ask (.serviceToken token)
    match found with
    | .ok a => if allows a (dataPermission r ns) ns then return () else .throw forbidden
    | .error _ => namespaceKey compareHashAndPassword token adminKey ns

end Codohue.Http
