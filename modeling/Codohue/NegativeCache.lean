import Codohue.Table
import Codohue.Text
import Codohue.Transition

/-!
The middleware that asks for the key of a namespace, and its cache of rejected credentials.
-/

namespace Codohue.NegativeCache

open Transition

abbrev Bytes := List UInt8

/-- What the middleware computes with: SHA-256, bcrypt, and the key of the migration period. -/
structure Runtime (D : Type) where
  digest : Bytes → D
  compareHashAndPassword : Bytes → Bytes → Bool
  adminKey : Bytes

variable {D : Type} (R : Runtime D)

/-- The key is valid, and whether that is definitive. `lookup` is what `getHash` has returned. -/
def validateNamespaceKey (token : Bytes) (lookup : Option Bytes) : Bool × Bool :=
  if token = [] then (false, true)
  else if R.adminKey ≠ [] ∧ token = R.adminKey then (true, true)
  else
    match lookup with
    | none => (false, false)
    | some hash => if hash = [] then (false, true) else (R.compareHashAndPassword hash token, true)

/-- Nanoseconds. -/
def negativeCacheTTL : ℤ := 30000000000

def negKey (token ns : Bytes) : D := R.digest (ns ++ 0 :: token)

/-- Where a request stands. `cached` is the answer 401 without a check of the key. -/
inductive Stage where
  | service
  | hit
  | validate
  | put (lookup : Option Bytes)
  | store (lookup : Option Bytes) (now : ℤ)
  | passed
  | forbidden
  | refused
  | cached
  deriving DecidableEq

structure Request where
  token : Bytes
  ns : Bytes
  stage : Stage
  deriving DecidableEq

/-- A rejection that was put into the cache. -/
structure Rejection where
  token : Bytes
  ns : Bytes
  lookup : Option Bytes
  time : ℤ
  deriving DecidableEq

structure World (D : Type) where
  now : ℤ
  entries : Table D ℤ
  requests : List Request
  rejections : List Rejection

def boot (now : ℤ) : World D := ⟨now, ∅, [], []⟩

/-- What a service token or the hash lookup gives. -/
structure Reply where
  serviceToken : Option Bool
  lookup : Option Bytes

inductive Action where
  | tick (elapsed : ℕ)
  /-- A header value contains no NUL. -/
  | arrive (token ns : Bytes) (h : 0 ∉ token)
  | advance (i : ℕ) (reply : Reply)

variable [DecidableEq D]

/-- The next step of a request: what becomes of the cache and of the request. -/
def serve (w : World D) (r : Request) (reply : Reply) : Option (World D × Stage) :=
  match r.stage with
  | .service =>
    match reply.serviceToken with
    | some allowed => some (w, if allowed then .passed else .forbidden)
    | none => some (w, .hit)
  | .hit =>
    match w.entries.lookup (negKey R r.token r.ns) with
    | none => some (w, .validate)
    | some exp =>
      if exp < w.now then
        some ({ w with entries := w.entries.erase (negKey R r.token r.ns) }, .validate)
      else some (w, .cached)
  | .validate =>
    match validateNamespaceKey R r.token reply.lookup with
    | (true, _) => some (w, .passed)
    | (false, true) => some (w, .put reply.lookup)
    | (false, false) => some (w, .refused)
  | .put lookup => some (w, .store lookup w.now)
  | .store lookup now =>
    some ({ w with
      entries := (w.entries.deleteWhere fun _ exp => exp < now).insert
        (negKey R r.token r.ns) (now + negativeCacheTTL)
      rejections := ⟨r.token, r.ns, lookup, now⟩ :: w.rejections }, .refused)
  | .passed | .forbidden | .refused | .cached => none

def step (w : World D) : Action → Option (World D)
  | .tick elapsed => some { w with now := w.now + elapsed }
  | .arrive token ns _ =>
    some { w with
      requests := w.requests ++ [⟨token, ns, if ns = [] then .passed else .service⟩] }
  | .advance i reply =>
    (w.requests[i]?).bind fun r => (serve R w r reply).map fun (w', stage) =>
      { w' with requests := w.requests.set i { r with stage := stage } }

/-- The hash lookup succeeded and the hash was absent or did not match, or there was no token. -/
def Definitive (token : Bytes) (lookup : Option Bytes) : Prop :=
  token = [] ∨ ∃ hash, lookup = some hash ∧
    (hash = [] ∨ R.compareHashAndPassword hash token = false)

/-- What a request that is about to enter the cache has been told, and when. -/
def Pending (now : ℤ) (r : Request) : Stage → Prop
  | .put lookup => Definitive R r.token lookup
  | .store lookup time => Definitive R r.token lookup ∧ time ≤ now
  | _ => True

structure Inv (w : World D) : Prop where
  requests : ∀ r ∈ w.requests, 0 ∉ r.token ∧ Pending R w.now r r.stage
  rejections : ∀ x ∈ w.rejections, 0 ∉ x.token ∧ Definitive R x.token x.lookup ∧ x.time ≤ w.now
  entries : ∀ key exp, w.entries.lookup key = some exp →
    ∃ x ∈ w.rejections, key = negKey R x.token x.ns ∧ exp = x.time + negativeCacheTTL

variable {R} {w w' : World D} {r : Request}

omit [DecidableEq D] in
lemma definitive_of_validate (h : validateNamespaceKey R token lookup = (false, true)) :
    Definitive R token lookup := by
  unfold validateNamespaceKey at h
  split_ifs at h with ht ha
  · exact .inl ht
  · cases h
  · cases lookup with
    | none => cases h
    | some hash =>
      refine .inr ⟨hash, rfl, ?_⟩
      dsimp only at h
      split_ifs at h with hh
      · exact .inl hh
      · exact .inr (Prod.mk.inj h).1

omit [DecidableEq D] in
lemma Pending.later (he : 0 ≤ elapsed) (h : Pending R now r s) : Pending R (now + elapsed) r s := by
  cases s with
  | store => exact ⟨h.1, by have := h.2; omega⟩
  | put => exact h
  | _ => trivial

/-- What one step of a request does to the cache, the log and the request, and when it is answered
from the cache. -/
lemma Inv.serve (h : Inv R w) (hr : r ∈ w.requests) (hs : serve R w r reply = some (w', s)) :
    Inv R { w' with requests := w.requests } ∧ w'.now = w.now ∧ Pending R w.now r s ∧
      (s = .cached → ∃ exp, w.entries.lookup (negKey R r.token r.ns) = some exp ∧ w.now ≤ exp) := by
  obtain ⟨hn, hp⟩ := h.requests r hr
  unfold NegativeCache.serve at hs
  split at hs
  · split at hs <;> cases hs
    · split_ifs <;> exact ⟨h, rfl, trivial, nofun⟩
    · exact ⟨h, rfl, trivial, nofun⟩
  · split at hs
    · cases hs
      exact ⟨h, rfl, trivial, nofun⟩
    · next exp he =>
      split_ifs at hs with hlt <;> cases hs
      · exact ⟨⟨h.requests, h.rejections, fun key exp he =>
          h.entries key exp (Table.lookup_of_erase he)⟩, rfl, trivial, nofun⟩
      · exact ⟨h, rfl, trivial, fun _ => ⟨exp, he, not_lt.mp hlt⟩⟩
  · split at hs <;> cases hs
    · exact ⟨h, rfl, trivial, nofun⟩
    · next hv => exact ⟨h, rfl, definitive_of_validate hv, nofun⟩
    · exact ⟨h, rfl, trivial, nofun⟩
  · next hst =>
    cases hs
    rw [hst] at hp
    exact ⟨h, rfl, ⟨hp, le_refl _⟩, nofun⟩
  · next lookup now hst =>
    cases hs
    rw [hst] at hp
    refine ⟨⟨h.requests, ?_, fun key exp he => ?_⟩, rfl, trivial, nofun⟩
    · rintro x (_ | ⟨_, hx⟩)
      · exact ⟨hn, hp⟩
      · exact h.rejections x hx
    · rcases Table.eq_or_of_lookup_insert he with ⟨rfl, rfl⟩ | he
      · exact ⟨_, List.mem_cons_self, rfl, rfl⟩
      · obtain ⟨x, hx, hk⟩ := h.entries key exp (Table.lookup_deleteWhere_eq_some.mp he).1
        exact ⟨x, List.mem_cons_of_mem _ hx, hk⟩
  all_goals cases hs

lemma inv_step (h : Inv R w) (hs : step R w a = some w') : Inv R w' := by
  cases a with
  | tick elapsed =>
    cases hs
    refine ⟨fun r hr => ⟨(h.requests r hr).1, (h.requests r hr).2.later (by omega)⟩, ?_, h.entries⟩
    intro x hx
    obtain ⟨hn, hd, ha⟩ := h.rejections x hx
    exact ⟨hn, hd, by simp only; omega⟩
  | arrive token ns hn =>
    cases hs
    refine ⟨fun r hr => ?_, h.rejections, h.entries⟩
    rcases List.mem_append.mp hr with hr | hr
    · exact h.requests r hr
    · rw [List.mem_singleton.mp hr]
      exact ⟨hn, by split_ifs <;> trivial⟩
  | advance i reply =>
    obtain ⟨r, hr, hs⟩ := Option.bind_eq_some_iff.mp hs
    obtain ⟨⟨w₁, s⟩, hv, rfl⟩ := Option.map_eq_some_iff.mp hs
    have hm := List.mem_of_getElem? hr
    obtain ⟨hi, hnow, hp, -⟩ := h.serve hm hv
    refine ⟨fun r' hr' => ?_, hi.rejections, hi.entries⟩
    rcases List.mem_or_eq_of_mem_set hr' with hr' | rfl
    · exact hi.requests r' hr'
    · exact ⟨(h.requests r hm).1, hnow ▸ hp⟩

/-- **A key is locked out only by its own rejection.** If a request is answered 401 without a check
of its key, then the same token was definitively rejected for the same namespace, and that was
recorded at most 30 seconds before. -/
theorem locked_out_by_own_rejection (now : ℤ) (as : List Action) (i : ℕ) (reply : Reply)
    (hd : Function.Injective R.digest) (h : exec (step R) (boot now) as = some w)
    (hs : step R w (.advance i reply) = some w') (hr : w'.requests[i]? = some r)
    (hc : r.stage = .cached) : ∃ x ∈ w.rejections, x.token = r.token ∧ x.ns = r.ns ∧
      Definitive R r.token x.lookup ∧ x.time ≤ w.now ∧ w.now - x.time ≤ negativeCacheTTL := by
  have hi : Inv R w := exec_invariant (fun _ _ _ h => inv_step h) h ⟨nofun, nofun, nofun⟩
  obtain ⟨q, hq, hs⟩ := Option.bind_eq_some_iff.mp hs
  obtain ⟨⟨w₁, s⟩, hv, rfl⟩ := Option.map_eq_some_iff.mp hs
  rw [List.getElem?_set_self (List.getElem?_eq_some_iff.mp hq).1] at hr
  obtain rfl := Option.some.inj hr
  obtain rfl : s = .cached := hc
  have hm := List.mem_of_getElem? hq
  obtain ⟨exp, he, hle⟩ := (hi.serve hm hv).2.2.2 rfl
  obtain ⟨x, hx, hk, rfl⟩ := hi.entries _ _ he
  obtain ⟨hn, hdef, ht⟩ := hi.rejections x hx
  -- the namespace may contain the separator, the token does not
  obtain ⟨hns, -, htok⟩ := Text.split_right (P := (· = 0))
    (fun z hz h0 => (hi.requests q hm).1 (h0 ▸ hz)) (fun z hz h0 => hn (h0 ▸ hz)) rfl rfl (hd hk)
  exact ⟨x, hx, htok.symm, hns.symm, htok ▸ hdef, ht, by omega⟩

/-- A wrong token is sent twice for a namespace whose name contains NUL. -/
def sentTwice : List Action :=
  [.arrive [7] [1, 0] (by decide), .advance 0 ⟨none, none⟩, .advance 0 ⟨none, none⟩,
    .advance 0 ⟨none, some [2]⟩, .advance 0 ⟨none, none⟩, .advance 0 ⟨none, none⟩, .tick 1000,
    .arrive [7] [1, 0] (by decide), .advance 1 ⟨none, none⟩]

theorem locked_out_by_own_rejection_twice : ∃ (w : World Bytes) (x : Rejection),
    exec (step ⟨id, fun _ _ => false, []⟩) (boot 0) sentTwice = some w ∧ x ∈ w.rejections ∧
      x.token = [7] ∧ x.ns = [1, 0] ∧ w.now - x.time ≤ negativeCacheTTL := by
  obtain ⟨w, hw⟩ : ∃ w : World Bytes,
      exec (step ⟨id, fun _ _ => false, []⟩) (boot 0) sentTwice = some w := ⟨_, rfl⟩
  obtain ⟨w', hs, hr⟩ : ∃ w' : World Bytes, step ⟨id, fun _ _ => false, []⟩ w
      (.advance 1 ⟨none, none⟩) = some w' ∧ w'.requests[1]? = some ⟨[7], [1, 0], .cached⟩ := by
    obtain rfl := Option.some.inj hw
    exact ⟨_, rfl, by decide +kernel⟩
  obtain ⟨x, hx, htok, hns, -, -, ht⟩ :=
    locked_out_by_own_rejection 0 sentTwice 1 _ Function.injective_id hw hs hr rfl
  exact ⟨w, x, hw, hx, htok, hns, ht⟩

end Codohue.NegativeCache
