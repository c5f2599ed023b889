import Codohue.AccessTransactions

/-!
What a run of the identity store shows: logins that have read an account, sessions and tokens that
are issued, accepted and revoked, and changes of accounts that are committed.
-/

namespace Codohue.Access

open Service Transition ReadCommitted

inductive Event where
  /-- The login of session `t` has read the row of the account, in this version. -/
  | checked (t : ℕ) (username : String) (version : ℕ)
  /-- The row of the token is there. -/
  | issued (t : ℕ) (token username : String) (expires : ℤ)
  | accepted (token : String) (a : Actor) (now : ℤ)
  | revokedSession (token : String)
  | changedAccount (username : String)
  | createdOwner (username : String)
  | provisioned (name token : String) (permissions namespaces : List String)
  | resolved (token : String) (a : Actor)
  | revokedToken (t : ℕ) (name : String)
  deriving DecidableEq, Repr

namespace Outcome

/-- The call takes effect. -/
def effect : Outcome → Option Reply
  | .ok reply => some reply
  | .fails _ => none
  | .lost reply _ => some reply

/-- The caller gets the answer. -/
def told : Outcome → Bool
  | .ok _ => true
  | _ => false

end Outcome

/-- What a call of session `t` shows that takes effect. -/
def shown (t : ℕ) (request : Request) (done : List Exchange) (told : Bool) (now : ℤ)
    (e : Exchange) : Option Event :=
  match request, e with
  | .createOperatorSession _ username _, ⟨.sql (.selectAccount _), .ok (some row)⟩ =>
    if told then some (.checked t username row.version) else none
  | .createOperatorSession _ _ _, ⟨.sql (.insertSession _ username _ expires), .ok 1⟩ =>
    (drawn done).map fun token => .issued t token username expires
  | .session token, ⟨.sql (.selectSession _), .ok (some a)⟩ =>
    if told then some (.accepted token a now) else none
  | .revokeSession token, ⟨.sql (.deleteSession _), .ok _⟩ => some (.revokedSession token)
  | .setAccount _ username _ _ _ _, ⟨.commit, .ok _⟩ => some (.changedAccount username)
  | .bootstrap username _, ⟨.commit, .ok _⟩ =>
    if done.any Exchange.createsOwner then some (.createdOwner username) else none
  | .provisionToken _ name token permissions namespaces, ⟨.commit, .ok _⟩ =>
    if told then some (.provisioned name token permissions namespaces) else none
  | .serviceToken token, ⟨.sql (.selectServiceToken _), .ok (some a)⟩ =>
    if told then some (.resolved token a) else none
  | .revokeToken _ name, ⟨.commit, .ok _⟩ => some (.revokedToken t name)
  | _, _ => none

def event (w : Scene) : Action → Option Event
  | .start _ _ => none
  | .reply t o =>
    match w.session t with
    | some ⟨request, done, .call c _⟩ => o.effect.bind fun reply =>
      (perform t w.shared reply c).bind fun r => shown t request done o.told reply.now ⟨c, r.1⟩
    | _ => none

/-- The events of a run. -/
def events (R : Runtime) (as : List Action) : List Event := observed (step R) event init as

/-- Where each event comes from. -/
inductive Shows (t : ℕ) (done : List Exchange) (told : Bool) (now : ℤ) :
    Request → Exchange → Event → Prop
  | checked {ip username password u row} (h : told = true) :
    Shows t done told now (.createOperatorSession ip username password)
      ⟨.sql (.selectAccount u), .ok (some row)⟩ (.checked t username row.version)
  | issued {ip username password tokenHash u version expires token} (h : drawn done = some token) :
    Shows t done told now (.createOperatorSession ip username password)
      ⟨.sql (.insertSession tokenHash u version expires), .ok 1⟩ (.issued t token u expires)
  | accepted {token tokenHash a} (h : told = true) :
    Shows t done told now (.session token) ⟨.sql (.selectSession tokenHash), .ok (some a)⟩
      (.accepted token a now)
  | revokedSession {token tokenHash} :
    Shows t done told now (.revokeSession token) ⟨.sql (.deleteSession tokenHash), .ok ()⟩
      (.revokedSession token)
  | changedAccount {actor username password role disabled recovery} :
    Shows t done told now (.setAccount actor username password role disabled recovery)
      ⟨.commit, .ok ()⟩ (.changedAccount username)
  | createdOwner {username password} (h : done.any Exchange.createsOwner = true) :
    Shows t done told now (.bootstrap username password) ⟨.commit, .ok ()⟩ (.createdOwner username)
  | provisioned {actor name token permissions namespaces} (h : told = true) :
    Shows t done told now (.provisionToken actor name token permissions namespaces)
      ⟨.commit, .ok ()⟩ (.provisioned name token permissions namespaces)
  | resolved {token tokenHash a} (h : told = true) :
    Shows t done told now (.serviceToken token) ⟨.sql (.selectServiceToken tokenHash), .ok (some a)⟩
      (.resolved token a)
  | revokedToken {actor name} :
    Shows t done told now (.revokeToken actor name) ⟨.commit, .ok ()⟩ (.revokedToken t name)

variable {t : ℕ}

lemma shows_of_shown {request : Request} {told : Bool}
    (h : shown t request done told now e = some ev) : Shows t done told now request e ev := by
  unfold shown at h
  split at h
  · split_ifs at h with ht
    cases h
    exact .checked ht
  · obtain ⟨token, hd, rfl⟩ := Option.map_eq_some_iff.mp h
    exact .issued hd
  · split_ifs at h with ht
    cases h
    exact .accepted ht
  · cases h
    exact .revokedSession
  · cases h
    exact .changedAccount
  · split_ifs at h with hc
    cases h
    exact .createdOwner hc
  · split_ifs at h with ht
    cases h
    exact .provisioned ht
  · split_ifs at h with ht
    cases h
    exact .resolved ht
  · cases h
    exact .revokedToken
  · cases h

lemma event_eq_some (h : event w a = some ev) (hst : step R w a = some w') :
    ∃ t o request done c k r reply, a = .reply t o ∧
      w.session t = some ⟨request, done, .call c k⟩ ∧ o.effect = some reply ∧
        perform t w.shared reply c = some (r, w'.shared) ∧
          Shows t done o.told reply.now request ⟨c, r⟩ ev := by
  cases a with
  | start t request => cases h
  | reply t o =>
    obtain ⟨request, done, c, k, r, hx, hs, -⟩ := Sessions.step_reply hst
    simp only [event, hx] at h
    obtain ⟨reply, he, h⟩ := Option.bind_eq_some_iff.mp h
    obtain ⟨⟨r', s'⟩, hp, h⟩ := Option.bind_eq_some_iff.mp h
    have hsh := shows_of_shown h
    refine ⟨t, o, request, done, c, k, r', reply, rfl, hx, he, ?_, hsh⟩
    rw [hp]
    cases o with
    | ok reply' =>
      cases he
      obtain ⟨-, rfl⟩ := Prod.mk.inj (Option.some.inj (hp.symm.trans hs))
      rfl
    | fails text => cases he
    | lost reply' text =>
      cases he
      have hb : c ≠ .begin := by
        rintro rfl
        cases hsh
      simp only [serve, if_neg hb, hp, Option.map_some, Option.some.injEq, Prod.mk.injEq] at hs
      rw [hs.2]

lemma serve_effect {request : Request} (hx : w.session t = some ⟨request, done, .call c k⟩)
    (h : serve t c w.shared o = some (r, s')) :
    s'.committed = w.shared.committed ∨
      ∃ reply r', o.effect = some reply ∧ perform t w.shared reply c = some (r', s') ∧
        event w (.reply t o) = shown t request done o.told reply.now ⟨c, r'⟩ := by
  have hs : ∀ {reply r'}, o.effect = some reply → perform t w.shared reply c = some (r', s') →
        event w (.reply t o) = shown t request done o.told reply.now ⟨c, r'⟩ := by
    intro reply r' he hp
    simp [event, hx, he, hp]
  cases o with
  | ok reply => exact .inr ⟨reply, r, rfl, h, hs rfl h⟩
  | fails text =>
    cases h
    left
    cases c <;> rfl
  | lost reply text =>
    by_cases hb : c = .begin
    · rw [serve, if_pos hb] at h
      cases h
      exact .inl rfl
    · rw [serve, if_neg hb] at h
      obtain ⟨⟨r', s₁⟩, hp, heq⟩ := Option.map_eq_some_iff.mp h
      obtain ⟨-, rfl⟩ := Prod.mk.inj heq
      exact .inr ⟨reply, r', rfl, hp, hs rfl hp⟩

/-! ### Sample data -/

namespace Sample

def plain : Runtime := ⟨id, fun password _ => password, fun hash password => hash = password⟩

def goes : Outcome := .ok ⟨0, "token", 0⟩

/-- Session `t` gets `n` answers in a row. -/
def replies (t n : ℕ) : List Action := List.replicate n (.reply t goes)

/-- The first start of a deployment. -/
def firstStart : List Action :=
  .start 0 (.bootstrap "root" "correct horse") :: replies 0 7

end Sample

end Codohue.Access
