import Codohue.Access
import Codohue.Transition

/-!
The attempts of one client address: password logins and checks of the legacy bearer key, which
reserve an attempt in the bucket of the address before a credential is verified.
-/

namespace Codohue.LoginBuckets

open Access Transition

/-- A check that has reserved an attempt. That of a bearer key gives it back if the key is right. -/
inductive Check where
  | login
  | bearer
  | refunding
  deriving DecidableEq

/-- The bucket, the checks under way, and the verifications that failed in the bucket's window. -/
structure World where
  now : ℤ
  bucket : Option Bucket
  checks : List Check
  failures : ℕ

def boot (now : ℤ) : World := ⟨now, none, [], 0⟩

inductive Action where
  | tick (elapsed : ℕ)
  | allowAttempt (bearer : Bool)
  | verify (i : ℕ) (valid : Bool)
  /-- The check ends before its verification, or its refund does not reach the table. -/
  | abandon (i : ℕ)
  | refundAttempt (i : ℕ)
  | prune
  deriving DecidableEq

/-- The next attempt opens a window. -/
def World.closed (w : World) : Bool := w.bucket.all fun row => row.expiresAt ≤ w.now

def step (w : World) : Action → Option World
  | .tick elapsed => some { w with now := w.now + elapsed }
  | .allowAttempt bearer =>
    let row := attempted w.now w.bucket
    some { w with
      bucket := some row
      checks := if row.attempts ≤ 5 then (if bearer then .bearer else .login) :: w.checks
        else w.checks
      failures := if w.closed then 0 else w.failures }
  | .verify i valid =>
    match w.checks[i]?, valid with
    | some .login, true => some { w with checks := w.checks.eraseIdx i }
    | some .bearer, true => some { w with checks := w.checks.set i .refunding }
    | some .login, false | some .bearer, false =>
      some { w with
        checks := w.checks.eraseIdx i
        failures := if w.closed then w.failures else w.failures + 1 }
    | _, _ => none
  | .abandon i =>
    if i < w.checks.length then some { w with checks := w.checks.eraseIdx i } else none
  | .refundAttempt i =>
    if w.checks[i]? = some .refunding then
      some { w with bucket := w.bucket.map refunded, checks := w.checks.eraseIdx i }
    else none
  | .prune =>
    some { w with bucket := w.bucket.filter fun row => w.now - hour < row.expiresAt }

/-- A window opens only when no check that reserved its attempt before is still under way. -/
def Prompt (w : World) (a : Action) : Prop :=
  ∀ bearer, a = .allowAttempt bearer → w.closed = true → w.checks = []

instance (w : World) (a : Action) : Decidable (Prompt w a) :=
  inferInstanceAs (Decidable (∀ _ : Bool, _ → _))

/-- What failed and what may still fail fits in the attempts that are reserved. -/
structure Inv (w : World) : Prop where
  bounded : w.failures + w.checks.length ≤ 5
  reserved : ∀ row, w.bucket = some row → (w.failures + w.checks.length : ℤ) ≤ row.attempts

variable {w : World}

lemma inv_allowAttempt (h : Inv w) (hp : Prompt w (.allowAttempt bearer))
    (hs : step w (.allowAttempt bearer) = some w') : Inv w' := by
  cases hs
  have hp := hp bearer rfl
  cases hb : w.bucket with
  | none =>
    have hc : w.closed = true := by rw [World.closed, hb]; rfl
    constructor <;> simp [attempted, hc, hp hc]
  | some row =>
    have hr := h.reserved row hb
    have hf := h.bounded
    by_cases he : row.expiresAt ≤ w.now
    · have hc : w.closed = true := by simpa [World.closed, hb] using he
      constructor <;> simp [attempted, he, hc, hp hc]
    · have hc : w.closed = false := by simpa [World.closed, hb] using he
      simp only [attempted, he, hc, if_false, Bool.false_eq_true]
      by_cases ha : min (row.attempts + 1) 6 ≤ 5
      · rw [if_pos ha]
        constructor
        · simp only [List.length_cons]
          omega
        · rintro _ ⟨⟩
          simp only [List.length_cons]
          omega
      · rw [if_neg ha]
        refine ⟨hf, ?_⟩
        rintro _ ⟨⟩
        show (w.failures + w.checks.length : ℤ) ≤ min (row.attempts + 1) 6
        omega

/-- A check that ends makes room for the failure that it may have been. -/
lemma Inv.ended (h : Inv w) (hi : i < w.checks.length) (hf : failures ≤ w.failures + 1) :
    Inv { w with checks := w.checks.eraseIdx i, failures := failures } := by
  have hb := h.bounded
  constructor
  · simp only [List.length_eraseIdx, hi, if_true]
    omega
  · intro row hr
    have := h.reserved row hr
    simp only [List.length_eraseIdx, hi, if_true]
    omega

lemma inv_step (h : Inv w) (hp : Prompt w a) (hs : step w a = some w') : Inv w' := by
  cases a with
  | tick => cases hs; exact ⟨h.bounded, h.reserved⟩
  | allowAttempt => exact inv_allowAttempt h hp hs
  | verify i valid =>
    have hf : (if w.closed then w.failures else w.failures + 1) ≤ w.failures + 1 := by
      split_ifs <;> omega
    simp only [step] at hs
    split at hs
    · next hi =>
      exact Option.some.inj hs ▸ h.ended (List.getElem?_eq_some_iff.mp hi).1 (Nat.le_succ _)
    · cases hs
      exact ⟨by simpa using h.bounded, by simpa using h.reserved⟩
    · next hi => exact Option.some.inj hs ▸ h.ended (List.getElem?_eq_some_iff.mp hi).1 hf
    · next hi => exact Option.some.inj hs ▸ h.ended (List.getElem?_eq_some_iff.mp hi).1 hf
    · cases hs
  | abandon i =>
    simp only [step] at hs
    split_ifs at hs with hi
    exact Option.some.inj hs ▸ h.ended hi (Nat.le_succ _)
  | refundAttempt i =>
    simp only [step] at hs
    split_ifs at hs with hc
    cases hs
    have hi := (List.getElem?_eq_some_iff.mp hc).1
    refine ⟨(h.ended hi (Nat.le_succ _)).bounded, fun row' hr => ?_⟩
    obtain ⟨row, hb, rfl⟩ := Option.map_eq_some_iff.mp hr
    have := h.reserved row hb
    simp only [List.length_eraseIdx, hi, if_true, refunded]
    omega
  | prune =>
    cases hs
    refine ⟨h.bounded, fun row hr => h.reserved row ?_⟩
    exact (Option.filter_eq_some_iff.mp hr).1

/-- At most five verifications that fail are carried out in one window, if no check is still under
way when a window opens. -/
theorem failures_bounded {now : ℤ} {as : List Action} (hp : Along step Prompt (boot now) as)
    (h : exec step (boot now) as = some w) : w.failures ≤ 5 := by
  have hi : Inv w := exec_guarded (fun _ _ _ hi => inv_step hi) hp h ⟨by simp [boot], nofun⟩
  have := hi.bounded
  omega

def fiveFailures : List Action :=
  (List.replicate 5 [.allowAttempt false, .verify 0 false]).flatten

theorem failures_bounded_five : ∃ w, exec step (boot 0) (fiveFailures ++ [.allowAttempt false]) =
    some w ∧ w.checks = [] ∧ w.failures ≤ 5 := by
  have hp : Along step Prompt (boot 0) (fiveFailures ++ [.allowAttempt false]) := by decide +kernel
  exact ⟨_, rfl, by decide +kernel, failures_bounded hp rfl⟩

/-- A bearer key is being checked when its window ends; five logins fail in the next one. The key
is right, and its refund lets a sixth verification fail. -/
theorem sixth_failure : ∃ w, exec step (boot 0) ([.allowAttempt true, .tick 60000000] ++
    fiveFailures ++ [.verify 0 true, .refundAttempt 0, .allowAttempt false, .verify 0 false]) =
      some w ∧ w.failures = 6 :=
  ⟨_, rfl, by decide +kernel⟩

end Codohue.LoginBuckets
