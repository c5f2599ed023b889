import Codohue.Transition

/-!
Programs that call a service which others use too.

A program is a tree of calls: it names the next call, and goes on with the answer. Between two
calls the others act on the service as they like, so all that a program knows when it makes a
call is what their commands cannot undo.

`Wp S K p Q s` says that `p`, started in `s`, makes a call only in states in which the contract `K`
allows it, and raises only the errors of the contract, as long as the outcomes of its calls are
those of the contract; and that `Q` holds of its value and of the state after its last call.
-/

namespace Codohue.Service

open Transition

/-! ### Results -/

section Results

variable {ε ε' α β : Type} {x : Except ε α} {a : α} {b : β}

lemma ok_of_bind (h : x >>= f = .ok b) : ∃ a, x = .ok a ∧ f a = .ok b := by
  cases x with
  | error e => cases h
  | ok a => exact ⟨a, rfl, h⟩

lemma ok_of_map (h : x.map f = .ok b) : ∃ a, x = .ok a ∧ f a = b := by
  cases x with
  | error e => cases h
  | ok a => exact ⟨a, rfl, Except.ok.inj h⟩

lemma ok_of_mapError (h : x.mapError f = .ok a) : x = .ok a := by
  cases x with
  | error e => cases h
  | ok b => exact congrArg Except.ok (Except.ok.inj h)

end Results

/-! ### Programs -/

/-- A program with calls `C`, answers `A` and errors `ε`. -/
inductive Program (C : Type) (A : C → Type) (ε α : Type) where
  | pure (a : α)
  | throw (e : ε)
  | call (c : C) (k : A c → Program C A ε α)

variable {C : Type} {A : C → Type} {ε α β σ κ ω : Type}
variable {ε' : Type} {a : α} {f : α → Program C A ε β} {x : Except ε α}

namespace Program

protected def bind : Program C A ε α → (α → Program C A ε β) → Program C A ε β
  | .pure a, f => f a
  | .throw e, _ => .throw e
  | .call c k, f => .call c fun r => (k r).bind f

instance : Monad (Program C A ε) where
  pure := Program.pure
  bind := Program.bind

def ask (c : C) : Program C A ε (A c) := .call c .pure

def require (c : Prop) [Decidable c] (e : ε) : Program C A ε Unit :=
  if c then .pure () else .throw e

def when (b : Bool) (p : Program C A ε Unit) : Program C A ε Unit := if b then p else .pure ()

def ofExcept : Except ε α → Program C A ε α
  | .ok a => .pure a
  | .error e => .throw e

/-- The program with its errors rewritten. -/
def mapError {ε' : Type} (f : ε → ε') : Program C A ε α → Program C A ε' α
  | .pure a => .pure a
  | .throw e => .throw (f e)
  | .call c k => .call c fun r => (k r).mapError f

/-- An error as a value. -/
def attempt {ε' : Type} : Program C A ε α → Program C A ε' (Except ε α)
  | .pure a => .pure (.ok a)
  | .throw e => .pure (.error e)
  | .call c k => .call c fun r => (k r).attempt

/-- The run in which every call is answered at once. -/
def run (answer : (c : C) → σ → A c × σ) : Program C A ε α → σ → Except ε α × σ
  | .pure a, s => (.ok a, s)
  | .throw e, s => (.error e, s)
  | .call c k, s => (k (answer c s).1).run answer (answer c s).2

section Run

variable {answer : (c : C) → σ → A c × σ} {s : σ}

@[simp] lemma run_pure (a : α) :
    (pure a : Program C A ε α).run answer s = (.ok a, s) := rfl

lemma run_bind (p : Program C A ε α) (f : α → Program C A ε β) :
    (p >>= f).run answer s = match p.run answer s with
      | (.ok a, s') => (f a).run answer s'
      | (.error e, s') => (.error e, s') := by
  induction p generalizing s with
  | pure a | throw e => rfl
  | call c k ih => exact ih (answer c s).1

@[simp] lemma run_ask_bind (c : C) (f : A c → Program C A ε β) :
    ((.ask c : Program C A ε (A c)) >>= f).run answer s =
      (f (answer c s).1).run answer (answer c s).2 := rfl

lemma run_attempt (p : Program C A ε α) : (p.attempt : Program C A ε' (Except ε α)).run answer s =
      (.ok (p.run answer s).1, (p.run answer s).2) := by
  induction p generalizing s with
  | pure a | throw e => rfl
  | call c k ih => exact ih (answer c s).1

@[simp] lemma run_attempt_bind (p : Program C A ε α) (f : Except ε α → Program C A ε' β) :
    (p.attempt >>= f).run answer s = (f (p.run answer s).1).run answer (p.run answer s).2 := by
  rw [run_bind, run_attempt]

@[simp] lemma run_ofExcept (x : Except ε α) :
    (.ofExcept x : Program C A ε α).run answer s = (x, s) := by
  cases x <;> rfl

@[simp] lemma run_ofExcept_ok_bind (a : α) (f : α → Program C A ε β) :
    ((.ofExcept (.ok a) : Program C A ε α) >>= f).run answer s = (f a).run answer s := rfl

@[simp] lemma run_ofExcept_error_bind (e : ε) (f : α → Program C A ε β) :
    ((.ofExcept (.error e) : Program C A ε α) >>= f).run answer s = (.error e, s) := rfl

@[simp] lemma run_require_bind {c : Prop} [Decidable c] (e : ε) (f : Unit → Program C A ε β) :
    ((.require c e : Program C A ε Unit) >>= f).run answer s =
      if c then (f ()).run answer s else (.error e, s) := by
  unfold require
  split_ifs <;> rfl

end Run

/-! ### Answers that depend on the call alone -/

def eval (answer : (c : C) → A c) : Program C A ε α → Except ε α
  | .pure a => .ok a
  | .throw e => .error e
  | .call c k => (k (answer c)).eval answer

/-- The program returns a value, and `Q` holds of it. -/
def Ensures (answer : (c : C) → A c) : Program C A ε α → (α → Prop) → Prop
  | .pure a, Q => Q a
  | .throw _, _ => False
  | .call c k, Q => (k (answer c)).Ensures answer Q

section Ensures

variable {answer : (c : C) → A c} {Q : α → Prop}

variable {p : Program C A ε α}

lemma ensures_iff : p.Ensures answer Q ↔ ∃ a, p.eval answer = .ok a ∧ Q a := by
  induction p with
  | pure a | throw e => simp [Ensures, eval]
  | call c k ih => exact ih (answer c)

lemma ensures_pure (h : Q a) : (pure a : Program C A ε α).Ensures answer Q := h

lemma Ensures.mono {R : α → Prop} (h : p.Ensures answer Q)
    (hQ : ∀ a, Q a → R a) : p.Ensures answer R := by
  obtain ⟨a, ha, hq⟩ := ensures_iff.mp h
  exact ensures_iff.mpr ⟨a, ha, hQ a hq⟩

lemma ensures_bind {Q : β → Prop} :
    (p >>= f).Ensures answer Q ↔ p.Ensures answer fun a => (f a).Ensures answer Q := by
  induction p with
  | pure a | throw e => rfl
  | call c k ih => exact ih (answer c)

lemma ensures_ask_bind {Q : β → Prop} {c : C} {f : A c → Program C A ε β} :
    ((ask c : Program C A ε (A c)) >>= f).Ensures answer Q ↔ (f (answer c)).Ensures answer Q :=
  Iff.rfl

lemma Ensures.attempt (h : p.Ensures answer Q) :
    (p.attempt : Program C A ε' (Except ε α)).Ensures answer fun x => ∃ a, x = .ok a ∧ Q a := by
  induction p with
  | pure a => exact ⟨a, rfl, h⟩
  | throw e => exact h.elim
  | call c k ih => exact ih (answer c) h

end Ensures

/-! ### Exchanges -/

/-- The program can make the exchanges of the list, one after the other, and end so. -/
def Runs : Program C A ε α → List (Σ c, A c) → Except ε α → Prop
  | .pure a, t, x => t = [] ∧ x = .ok a
  | .throw e, t, x => t = [] ∧ x = .error e
  | .call c k, t, x => ∃ r rest, t = ⟨c, r⟩ :: rest ∧ (k r).Runs rest x

/-- `Q` holds of the exchanges and the end of every run. -/
def Traced : Program C A ε α → (List (Σ c, A c) → Except ε α → Prop) → Prop
  | .pure a, Q => Q [] (.ok a)
  | .throw e, Q => Q [] (.error e)
  | .call c k, Q => ∀ r, (k r).Traced fun t x => Q (⟨c, r⟩ :: t) x

/-- The exchanges, if the answers depend on the calls alone. -/
def exchanges (answer : (c : C) → A c) : Program C A ε α → List (Σ c, A c)
  | .pure _ => []
  | .throw _ => []
  | .call c k => ⟨c, answer c⟩ :: (k (answer c)).exchanges answer

section Traced

variable {Q : List (Σ c, A c) → Except ε α → Prop}

variable {p : Program C A ε α} {ε' : Type}

lemma Traced.runs (h : p.Traced Q) {t : List (Σ c, A c)} (hr : p.Runs t x) : Q t x := by
  induction p generalizing t Q with
  | pure a | throw e =>
    obtain ⟨rfl, rfl⟩ := hr
    exact h
  | call c k ih =>
    obtain ⟨r, rest, rfl, hre⟩ := hr
    exact ih r (h r) hre

lemma runs_exchanges (answer : (c : C) → A c) (p : Program C A ε α) :
    p.Runs (p.exchanges answer) (p.eval answer) := by
  induction p with
  | pure a | throw e => exact ⟨rfl, rfl⟩
  | call c k ih => exact ⟨answer c, _, rfl, ih (answer c)⟩

lemma eq_answer_of_mem_exchanges {answer : (c : C) → A c} (h : e ∈ p.exchanges answer) :
    e = ⟨e.1, answer e.1⟩ := by
  induction p with
  | pure a | throw e => cases h
  | call c k ih =>
    rcases List.mem_cons.mp h with rfl | h
    · rfl
    · exact ih (answer c) h

lemma exists_runs_ok {answer : (c : C) → A c}
    (h : (p.eval answer).isOk = true) : ∃ a, p.Runs (p.exchanges answer) (.ok a) := by
  cases hx : p.eval answer with
  | ok a => exact ⟨a, hx ▸ runs_exchanges answer p⟩
  | error e =>
    rw [hx] at h
    cases h

variable {Q' : List (Σ c, A c) → Except ε α → Prop}

lemma Traced.mono (h : p.Traced Q) (hQ : ∀ t x, Q t x → Q' t x) : p.Traced Q' := by
  induction p generalizing Q Q' with
  | pure a | throw e => exact hQ _ _ h
  | call c k ih => exact fun r => ih r (h r) fun t x => hQ _ x

lemma traced_trivial : p.Traced fun _ _ => True := by
  induction p with
  | pure a | throw e => trivial
  | call c k ih => exact ih

/-- The rule for a sequence: the exchanges of the second part follow those of the first. -/
lemma Traced.bind {Q : List (Σ c, A c) → Except ε β → Prop}
    {P : List (Σ c, A c) → Except ε α → Prop} (h : p.Traced P)
    (hok : ∀ t a, P t (.ok a) → (f a).Traced fun t' x => Q (t ++ t') x)
    (he : ∀ t e, P t (.error e) → Q t (.error e)) : (p >>= f).Traced Q := by
  induction p generalizing P Q with
  | pure a => exact hok [] a h
  | throw e => exact he [] e h
  | call c k ih => exact fun r => ih r (h r) (fun t a => hok _ a) fun t e => he _ e

lemma traced_pure : (Pure.pure a : Program C A ε α).Traced Q ↔ Q [] (.ok a) := Iff.rfl

lemma traced_ask_bind {Q : List (Σ c, A c) → Except ε β → Prop} {c : C}
    {f : A c → Program C A ε β} :
    ((ask c : Program C A ε (A c)) >>= f).Traced Q ↔
      ∀ r, (f r).Traced fun t x => Q (⟨c, r⟩ :: t) x := Iff.rfl

lemma Traced.attempt (h : p.Traced Q) :
    (p.attempt : Program C A ε' (Except ε α)).Traced fun t x => ∃ y, x = .ok y ∧ Q t y := by
  induction p generalizing Q with
  | pure a | throw e => exact ⟨_, rfl, h⟩
  | call c k ih => exact fun r => ih r (h r)

lemma Traced.attempt_bind {f : Except ε α → Program C A ε' β}
    {Q' : List (Σ c, A c) → Except ε' β → Prop} (h : p.Traced Q)
    (hf : ∀ t x, Q t x → (f x).Traced fun t' y => Q' (t ++ t') y) :
    (p.attempt >>= f).Traced Q' := by
  refine Traced.bind h.attempt (fun t x hx => ?_) nofun
  obtain ⟨y, hy, hQ⟩ := hx
  cases hy
  exact hf t x hQ

/-- One condition for the end of a run with a value, and one for that with an error. -/
def Ends (I : List (Σ c, A c) → α → Prop) (E : List (Σ c, A c) → Prop) (t : List (Σ c, A c)) :
    Except ε α → Prop
  | .ok a => I t a
  | .error _ => E t

variable {E : List (Σ c, A c) → Prop}

end Traced

end Program

/-- A service: the commands of the others, and how a call of the program turns out. -/
structure System (σ C κ ω : Type) (A : C → Type) where
  perform : σ → κ → Option σ
  serve : (c : C) → σ → ω → Option (A c × σ)

inductive Action (κ ω : Type) where
  | other (command : κ)
  | reply (outcome : ω)

variable {s' : σ} {command : κ} {P : σ → Prop}

namespace System

variable (S : System σ C κ ω A)

/-- The others act, or the call that the program stands at is answered. -/
def step : σ × Program C A ε α → Action κ ω → Option (σ × Program C A ε α)
  | (s, p), .other command => (S.perform s command).map fun s' => (s', p)
  | (s, .call c k), .reply outcome => (S.serve c s outcome).map fun r => (r.2, k r.1)
  | _, .reply _ => none

/-- What the others can make of `s`. -/
def Rely (s s' : σ) : Prop := ∃ commands, exec S.perform s commands = some s'

variable {S}

lemma Rely.refl (s : σ) : S.Rely s s := ⟨[], rfl⟩

lemma Rely.head (h : S.perform s command = some m) (h' : S.Rely m s') : S.Rely s s' := by
  obtain ⟨commands, hr⟩ := h'
  exact ⟨command :: commands, (exec_cons _).mpr ⟨m, h, hr⟩⟩

/-- What one command keeps, the others keep. -/
lemma Rely.invariant (h : S.Rely s s')
    (hP : ∀ s command s', P s → S.perform s command = some s' → P s') (hs : P s) : P s' := by
  obtain ⟨commands, hr⟩ := h
  exact exec_invariant hP hr hs

end System

section Wp

/-- What is expected of the outcomes of the calls, and what is promised of the program. -/
structure Contract (σ C ω ε : Type) where
  outcome : ω → Prop
  allows : C → σ → Prop
  raises : ε → Prop

def Wp (S : System σ C κ ω A) (K : Contract σ C ω ε) :
    Program C A ε α → (α → σ → Prop) → σ → Prop
  | .pure a, Q, s => Q a s
  | .throw e, _, _ => K.raises e
  | .call c k, Q, s => ∀ s', S.Rely s s' → K.allows c s' ∧
      ∀ o r s'', K.outcome o → S.serve c s' o = some (r, s'') → Wp S K (k r) Q s''

variable {S : System σ C κ ω A} {K : Contract σ C ω ε} {Q : α → σ → Prop} {s : σ}

variable {p : Program C A ε α}

lemma wp_pure (h : Q a s) : Wp S K (pure a : Program C A ε α) Q s := h

lemma wp_mono {Q' : α → σ → Prop} (h : Wp S K p Q s)
    (hQ : ∀ a s', Q a s' → Q' a s') : Wp S K p Q' s := by
  induction p generalizing s with
  | pure a => exact hQ a s h
  | throw e => exact h
  | call c k ih =>
    intro s' hr
    obtain ⟨ha, hk⟩ := h s' hr
    exact ⟨ha, fun o r s'' ho hs => ih r (hk o r s'' ho hs)⟩

lemma wp_bind {Q : β → σ → Prop} (h : Wp S K p (fun a s' => Wp S K (f a) Q s') s) :
    Wp S K (p >>= f) Q s := by
  induction p generalizing s with
  | pure a | throw e => exact h
  | call c k ih =>
    intro s' hr
    obtain ⟨ha, hk⟩ := h s' hr
    exact ⟨ha, fun o r s'' ho hs => ih r (hk o r s'' ho hs)⟩

/-- The rule for a call: `P` is what the others cannot undo. -/
lemma wp_ask {Q : A c → σ → Prop} (hs : P s)
    (hP : ∀ s command s', P s → S.perform s command = some s' → P s')
    (ha : ∀ s', P s' → K.allows c s')
    (hse : ∀ s' o r s'', P s' → K.outcome o → S.serve c s' o = some (r, s'') → Q r s'') :
    Wp S K (.ask c : Program C A ε (A c)) Q s := by
  intro s' hr
  have hs' := hr.invariant hP hs
  exact ⟨ha s' hs', fun o r s'' ho h => hse s' o r s'' hs' ho h⟩

lemma wp_require {c : Prop} {_ : Decidable c} {Q : Unit → σ → Prop} (h : c → Q () s)
    (he : ¬ c → K.raises e) : Wp S K (.require c e : Program C A ε Unit) Q s := by
  unfold Program.require
  split_ifs with hc
  · exact h hc
  · exact he hc

lemma wp_when {p : Program C A ε Unit} {Q : Unit → σ → Prop} (hp : b = true → Wp S K p Q s)
    (hq : b = false → Q () s) : Wp S K (.when b p) Q s := by
  cases b with
  | true => exact hp rfl
  | false => exact hq rfl

lemma wp_ofExcept (h : ∀ a, x = .ok a → Q a s) (he : ∀ e, x = .error e → K.raises e) :
    Wp S K (.ofExcept x : Program C A ε α) Q s := by
  cases x with
  | ok a => exact h a rfl
  | error e => exact he e rfl

lemma wp_mapError {f : ε' → ε} {p : Program C A ε' α}
    (h : Wp S ⟨K.outcome, K.allows, fun e => K.raises (f e)⟩ p Q s) :
    Wp S K (p.mapError f) Q s := by
  induction p generalizing s with
  | pure a | throw e => exact h
  | call c k ih =>
    intro s' hr
    obtain ⟨ha, hk⟩ := h s' hr
    exact ⟨ha, fun o r s'' ho hs => ih r (hk o r s'' ho hs)⟩

/-- What the others do leaves a program as good as it was. -/
lemma Wp.perform (h : Wp S K p Q s) (hp : S.perform s command = some s')
    (hQ : ∀ a, Q a s → Q a s') : Wp S K p Q s' := by
  cases p with
  | pure a => exact hQ a h
  | throw e => exact h
  | call c k => exact fun s'' hr => h s'' (hr.head hp)

/-- **Every call is made in a state that allows it**, in every interleaving with the others. -/
theorem Wp.allows_of_exec (h : Wp S K p Q s) (hac : ∀ o, .reply o ∈ actions → K.outcome o)
    (hr : exec S.step (s, p) actions = some (s', .call c k)) : K.allows c s' := by
  have ht : Wp S K p (fun _ _ => True) s := wp_mono h fun _ _ _ => trivial
  have hal : Along S.step (fun _ a => ∀ o, a = .reply o → K.outcome o) (s, p) actions := by
    refine along_of_forall (fun a ha _ o ho => hac o ?_) _
    rwa [← ho]
  have he := exec_guarded
    (I := fun x : σ × Program C A ε α => Wp S K x.2 (fun _ _ => True) x.1) ?_ hal hr ht
  · exact (he s' (.refl s')).1
  · rintro ⟨s₁, p₁⟩ (command | o) ⟨s₂, p₂⟩ hwp hG hs
    · obtain ⟨s₃, hp, heq⟩ := Option.map_eq_some_iff.mp hs
      obtain ⟨rfl, rfl⟩ := Prod.mk.inj heq
      exact Wp.perform hwp hp fun _ _ => trivial
    · cases p₁ with
      | pure a | throw e => cases hs
      | call c k =>
        obtain ⟨⟨r, s₃⟩, hse, heq⟩ := Option.map_eq_some_iff.mp hs
        obtain ⟨rfl, rfl⟩ := Prod.mk.inj heq
        exact (hwp s₁ (.refl s₁)).2 o r s₃ (hG o rfl) hse

end Wp

end Codohue.Service
