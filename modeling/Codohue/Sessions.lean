import Codohue.Concurrent

/-!
Programs that call one service at the same time, each with the record of its exchanges.

`Follows B Q` says what a program knows: `B` of the exchanges so far and of the call that it is
about to make, and `Q` of all its exchanges and of its end. It is about the program alone. The
service is told who calls it, so it can hold something for one session, such as a lock.
-/

namespace Codohue.Service

open Transition

variable {C : Type} {A : C → Type} {ε α β σ ω ι : Type}

variable {c : C}

namespace Program

variable {p : Program C A ε α}

/-- The exchanges of the list lead from the one program to the other. -/
def Reaches (p : Program C A ε α) : List (Σ c, A c) → Program C A ε α → Prop
  | [], q => p = q
  | e :: t, q => ∃ k, p = .call e.1 k ∧ (k e.2).Reaches t q

/-- The end of a program that has come to it. -/
def outcome : Program C A ε α → Option (Except ε α)
  | .pure a => some (.ok a)
  | .throw e => some (.error e)
  | .call _ _ => none

lemma eq_pure_of_outcome (h : p.outcome = some (.ok a)) : p = .pure a := by
  cases p with
  | pure b => rw [Except.ok.inj (Option.some.inj h)]
  | throw e | call c k => cases h

lemma eq_throw_of_outcome (h : p.outcome = some (.error e)) : p = .throw e := by
  cases p with
  | pure b | call c k => cases h
  | throw e' => rw [Except.error.inj (Option.some.inj h)]

variable {t : List (Σ c, A c)} {k : A c → Program C A ε α}

lemma Reaches.snoc (h : p.Reaches t (.call c k)) (r : A c) : p.Reaches (t ++ [⟨c, r⟩]) (k r) := by
  induction t generalizing p with
  | nil => exact ⟨k, h, rfl⟩
  | cons e t ih =>
    obtain ⟨k', hp, hr⟩ := h
    exact ⟨k', hp, ih hr⟩

lemma Reaches.before (h : p.Reaches (t ++ e :: t') q) : ∃ k, p.Reaches t (.call e.1 k) := by
  induction t generalizing p with
  | nil =>
    obtain ⟨k, hp, -⟩ := h
    exact ⟨k, hp⟩
  | cons d t ih =>
    obtain ⟨k, hp, hr⟩ := h
    obtain ⟨k', hk'⟩ := ih hr
    exact ⟨k', k, hp, hk'⟩

/-- Whatever the answers are, `B` holds at every call and `Q` at the end. -/
def Follows (B : List (Σ c, A c) → C → Prop) (Q : List (Σ c, A c) → Except ε α → Prop) :
    Program C A ε α → Prop
  | .pure a => Q [] (.ok a)
  | .throw e => Q [] (.error e)
  | .call c k => B [] c ∧ ∀ r, (k r).Follows (fun t => B (⟨c, r⟩ :: t)) fun t => Q (⟨c, r⟩ :: t)

section Follows

variable {B : List (Σ c, A c) → C → Prop} {Q : List (Σ c, A c) → Except ε α → Prop}
  {t : List (Σ c, A c)}

section

variable (h : p.Follows B Q)

include h

lemma Follows.reaches (hq : p.Reaches t q) :
    q.Follows (fun t' => B (t ++ t')) fun t' => Q (t ++ t') := by
  induction t generalizing p B Q with
  | nil =>
    obtain rfl := hq
    exact h
  | cons e t ih =>
    obtain ⟨k, rfl, hr⟩ := hq
    exact ih (h.2 e.2) hr

lemma Follows.call (hp : p.Reaches t (.call c k)) : B t c := by
  have hc : B (t ++ []) c := (h.reaches hp).1
  rwa [List.append_nil] at hc

lemma Follows.made (hq : p.Reaches t q) (he : e ∈ t) : ∃ t₁ t₂, t = t₁ ++ e :: t₂ ∧ B t₁ e.1 := by
  obtain ⟨t₁, t₂, rfl⟩ := List.append_of_mem he
  obtain ⟨k, hk⟩ := hq.before
  exact ⟨t₁, t₂, rfl, h.call hk⟩

lemma Follows.returned (hp : p.Reaches t (.pure a)) : Q t (.ok a) := by
  have he : Q (t ++ []) (.ok a) := h.reaches hp
  rwa [List.append_nil] at he

lemma Follows.thrown (hp : p.Reaches t (.throw e)) : Q t (.error e) := by
  have he : Q (t ++ []) (.error e) := h.reaches hp
  rwa [List.append_nil] at he

lemma Follows.mono {B' : List (Σ c, A c) → C → Prop} {Q' : List (Σ c, A c) → Except ε α → Prop}
    (hB : ∀ t c, B t c → B' t c) (hQ : ∀ t x, Q t x → Q' t x) :
    p.Follows B' Q' := by
  induction p generalizing B Q B' Q' with
  | pure a | throw e => exact hQ _ _ h
  | call c k ih => exact ⟨hB _ _ h.1, fun r => ih r (h.2 r) (fun t => hB _) fun t => hQ _⟩

end

lemma follows_of_forall (p : Program C A ε α) (hB : ∀ t c, B t c) (hQ : ∀ t x, Q t x) :
    p.Follows B Q := by
  induction p generalizing B Q with
  | pure a | throw e => exact hQ _ _
  | call c k ih => exact ⟨hB _ _, fun r => ih r (fun _ => hB _) fun _ => hQ _⟩

lemma Follows.calls {K : C → Prop} (h : p.Follows (fun _ => K) Q) :
    p.Follows (fun _ => K) fun t x => (∀ e ∈ t, K e.1) ∧ Q t x := by
  induction p generalizing Q with
  | pure a | throw e => exact ⟨nofun, h⟩
  | call c k ih =>
    refine ⟨h.1, fun r => (ih r (h.2 r)).mono (fun _ _ h => h) fun t x hx => ?_⟩
    exact ⟨List.forall_mem_cons.mpr ⟨h.1, hx.1⟩, hx.2⟩

lemma follows_pure : (Pure.pure a : Program C A ε α).Follows B Q ↔ Q [] (.ok a) := Iff.rfl

variable {Q' : List (Σ c, A c) → Except ε β → Prop}

lemma Follows.bind (h : p.Follows B Q)
    (hok : ∀ t a, Q t (.ok a) → (f a).Follows (fun t' => B (t ++ t')) fun t' => Q' (t ++ t'))
    (he : ∀ t e, Q t (.error e) → Q' t (.error e)) : (p >>= f).Follows B Q' := by
  induction p generalizing B Q Q' with
  | pure a => exact hok [] a h
  | throw e => exact he [] e h
  | call c k ih => exact ⟨h.1, fun r => ih r (h.2 r) (fun t => hok _) fun t => he _⟩

lemma Follows.attempt_bind {ε' : Type} {f : Except ε α → Program C A ε' β}
    {Q' : List (Σ c, A c) → Except ε' β → Prop} (h : p.Follows B Q)
    (hf : ∀ t x, Q t x → (f x).Follows (fun t' => B (t ++ t')) fun t' => Q' (t ++ t')) :
    (p.attempt >>= f).Follows B Q' := by
  induction p generalizing B Q Q' with
  | pure a => exact hf [] (.ok a) h
  | throw e => exact hf [] (.error e) h
  | call c k ih => exact ⟨h.1, fun r => ih r (h.2 r) fun t => hf _⟩

lemma Follows.mapError {ε' : Type} {I : List (Σ c, A c) → α → Prop} {E : List (Σ c, A c) → Prop}
    {f : ε → ε'} (h : p.Follows B (Ends I E)) : (p.mapError f).Follows B (Ends I E) := by
  induction p generalizing B I E with
  | pure a | throw e => exact h
  | call c k ih =>
    refine ⟨h.1, fun r => ?_⟩
    refine (ih r (I := fun t a => I (⟨c, r⟩ :: t) a) (E := fun t => E (⟨c, r⟩ :: t))
      ((h.2 r).mono (fun _ _ h => h) fun t x hx => ?_)).mono (fun _ _ h => h) fun t x hx => ?_
    · cases x <;> exact hx
    · cases x <;> exact hx

end Follows

end Program

/-! ### Sessions -/

structure Session (C : Type) (A : C → Type) (ε α ι : Type) where
  request : ι
  done : List (Σ c, A c)
  rest : Program C A ε α

structure Sessions (σ C : Type) (A : C → Type) (ε α ι : Type) where
  shared : σ
  session : ℕ → Option (Session C A ε α ι)

namespace Sessions

variable (serve : ℕ → (c : C) → σ → ω → Option (A c × σ)) (run : ι → Program C A ε α)

def boot (s : σ) : Sessions σ C A ε α ι := ⟨s, fun _ => none⟩

def step (w : Sessions σ C A ε α ι) : PoolAction ι ω → Option (Sessions σ C A ε α ι)
  | .start t request =>
    if (w.session t).isNone then
      some { w with session := Function.update w.session t (some ⟨request, [], run request⟩) }
    else none
  | .reply t outcome =>
    match w.session t with
    | some ⟨request, done, .call c k⟩ => (serve t c w.shared outcome).map fun r =>
      ⟨r.2, Function.update w.session t (some ⟨request, done ++ [⟨c, r.1⟩], k r.1⟩)⟩
    | _ => none

/-- Session `t` is over, with an end that meets the condition. -/
def endsWith (w : Sessions σ C A ε α ι) (t : ℕ) (check : Except ε α → Bool) : Bool :=
  (w.session t).any fun x => x.rest.outcome.any check

/-- In the run session `t`, started for `request`, makes the call `c` after the exchanges `done`,
and `r` is the answer. -/
def Makes (s : σ) (as : List (PoolAction ι ω)) (t : ℕ) (request : ι) (done : List (Σ c, A c))
    (c : C) (r : A c) (before after : Sessions σ C A ε α ι) : Prop :=
  ∃ as₁ o as₂ k, as = as₁ ++ .reply t o :: as₂ ∧ exec (step serve run) (boot s) as₁ = some before ∧
    step serve run before (.reply t o) = some after ∧
    before.session t = some ⟨request, done, .call c k⟩ ∧
    serve t c before.shared o = some (r, after.shared)

lemma update_eq_some {τ : Type} {f : ℕ → Option τ} {t u : ℕ} {x y : τ}
    (h : Function.update f t (some y) u = some x) : (u = t ∧ y = x) ∨ (u ≠ t ∧ f u = some x) := by
  by_cases hu : u = t
  · subst hu
    rw [Function.update_self] at h
    exact .inl ⟨rfl, Option.some.inj h⟩
  · rw [Function.update_of_ne hu] at h
    exact .inr ⟨hu, h⟩

variable {serve run} {w : Sessions σ C A ε α ι} {a : PoolAction ι ω} {t : ℕ}

variable {r : A c} {x : Session C A ε α ι}

lemma step_start (h : step serve run w (.start t request) = some w') :
    w.session t = none ∧ w'.shared = w.shared ∧
      w'.session = Function.update w.session t (some ⟨request, [], run request⟩) := by
  simp only [step] at h
  split_ifs at h with hf
  cases h
  exact ⟨Option.isNone_iff_eq_none.mp hf, rfl, rfl⟩

lemma step_reply (h : step serve run w (.reply t o) = some w') :
    ∃ request done c k r, w.session t = some ⟨request, done, .call c k⟩ ∧
      serve t c w.shared o = some (r, w'.shared) ∧
      w'.session = Function.update w.session t (some ⟨request, done ++ [⟨c, r⟩], k r⟩) := by
  simp only [step] at h
  split at h
  · next request done c k hc =>
    obtain ⟨⟨r, s⟩, hs, rfl⟩ := Option.map_eq_some_iff.mp h
    exact ⟨request, done, c, k, r, hc, hs, rfl⟩
  · cases h

/-- What is left of a session is what its exchanges lead to. -/
def Faithful (run : ι → Program C A ε α) (w : Sessions σ C A ε α ι) : Prop :=
  ∀ t x, w.session t = some x → (run x.request).Reaches x.done x.rest

lemma faithful_step (hw : Faithful run w) (h : step serve run w a = some w') : Faithful run w' := by
  intro u x hx
  cases a with
  | start t request =>
    obtain ⟨-, -, hs⟩ := step_start h
    rw [hs] at hx
    rcases update_eq_some hx with ⟨rfl, rfl⟩ | ⟨-, hx⟩
    · exact rfl
    · exact hw u x hx
  | reply t o =>
    obtain ⟨request, done, c, k, r, hc, -, hs⟩ := step_reply h
    rw [hs] at hx
    rcases update_eq_some hx with ⟨rfl, rfl⟩ | ⟨-, hx⟩
    · exact (hw u _ hc).snoc r
    · exact hw u x hx

lemma faithful_of_exec (h : exec (step serve run) (boot s) as = some w) : Faithful run w :=
  exec_invariant (fun _ _ _ => faithful_step) h nofun

lemma Makes.follows {B : List (Σ c, A c) → C → Prop} {Q : List (Σ c, A c) → Except ε α → Prop}
    (h : Makes serve run s as t request done c r w w') (hr : (run request).Follows B Q) :
    B done c := by
  obtain ⟨as₁, o, as₂, k, -, he, -, hc, -⟩ := h
  exact hr.call (faithful_of_exec he t _ hc)

lemma Makes.append (h : Makes serve run s as t request done c r w w') (bs : List (PoolAction ι ω)) :
    Makes serve run s (as ++ bs) t request done c r w w' := by
  obtain ⟨as₁, o, as₂, k, rfl, hr⟩ := h
  exact ⟨as₁, o, as₂ ++ bs, k, by simp, hr⟩

lemma step_record (hx : w.session t = some x) (h : step serve run w a = some w') :
    ∃ x', w'.session t = some x' ∧ x'.request = x.request ∧ x.done <+: x'.done := by
  cases a with
  | start u request =>
    obtain ⟨hf, -, hs⟩ := step_start h
    have hu : t ≠ u := by
      rintro rfl
      cases hf.symm.trans hx
    exact ⟨x, by rw [hs, Function.update_of_ne hu, hx], rfl, List.prefix_rfl⟩
  | reply u o =>
    obtain ⟨request, done, c, k, r, hc, -, hs⟩ := step_reply h
    by_cases hu : t = u
    · subst hu
      obtain rfl := Option.some.inj (hx.symm.trans hc)
      refine ⟨⟨request, done ++ [⟨c, r⟩], k r⟩, ?_, rfl, List.prefix_append _ _⟩
      rw [hs, Function.update_self]
    · exact ⟨x, by rw [hs, Function.update_of_ne hu, hx], rfl, List.prefix_rfl⟩

lemma exec_record (hx : w.session t = some x) (h : exec (step serve run) w as = some w') :
    ∃ x', w'.session t = some x' ∧ x'.request = x.request ∧ x.done <+: x'.done := by
  refine exec_invariant (I := fun w => ∃ x', w.session t = some x' ∧ x'.request = x.request ∧
    x.done <+: x'.done) ?_ h ⟨x, hx, rfl, List.prefix_rfl⟩
  rintro w a w' ⟨x', hx', hr, hp⟩ hs
  obtain ⟨x'', hx'', hr', hp'⟩ := step_record hx' hs
  exact ⟨x'', hx'', hr'.trans hr, hp.trans hp'⟩

lemma started (hst : .start t request ∈ as) (he : exec (step serve run) (boot s) as = some w) :
    ∃ x, w.session t = some x ∧ x.request = request := by
  obtain ⟨as₁, as₂, rfl⟩ := List.append_of_mem hst
  obtain ⟨m, -, hr⟩ := (exec_append _).mp he
  obtain ⟨m', hste, hr⟩ := (exec_cons _).mp hr
  obtain ⟨-, -, hs⟩ := step_start hste
  have hn : m'.session t = some ⟨request, [], run request⟩ := by
    rw [hs, Function.update_self]
  obtain ⟨x, hx, hre, -⟩ := exec_record hn hr
  exact ⟨x, hx, hre⟩

lemma start_of_session (h : exec (step serve run) (boot s) as = some w)
    (hx : w.session t = some x) : .start t x.request ∈ as := by
  induction as using List.reverseRecOn generalizing w x with
  | nil =>
    cases h
    cases hx
  | append_singleton as a ih =>
    obtain ⟨m, hm, hl⟩ := (exec_append _).mp h
    obtain ⟨w', hst, he⟩ := (exec_cons _).mp hl
    cases he
    cases a with
    | start u request =>
      obtain ⟨-, -, hs⟩ := step_start hst
      rw [hs] at hx
      rcases update_eq_some hx with ⟨rfl, rfl⟩ | ⟨-, hx⟩
      · exact List.mem_append_right _ List.mem_cons_self
      · exact List.mem_append_left _ (ih hm hx)
    | reply u o =>
      obtain ⟨request, done, c, k, r, hc, -, hs⟩ := step_reply hst
      rw [hs] at hx
      rcases update_eq_some hx with ⟨rfl, rfl⟩ | ⟨-, hx⟩
      · have hme := ih hm hc
        exact List.mem_append_left _ hme
      · exact List.mem_append_left _ (ih hm hx)

lemma ended_of_check (hst : .start t request ∈ as)
    (h : (exec (step serve run) (boot s) as).any (fun w => w.endsWith t check) = true) :
    ∃ w done rest x, exec (step serve run) (boot s) as = some w ∧
      w.session t = some ⟨request, done, rest⟩ ∧ rest.outcome = some x ∧ check x = true := by
  obtain ⟨w, hw, he⟩ := (Option.any_eq_true _ _).mp h
  obtain ⟨⟨request', done, rest⟩, hs, hc⟩ := (Option.any_eq_true _ _).mp he
  obtain ⟨x, ho, hc⟩ := (Option.any_eq_true _ _).mp hc
  obtain ⟨x', hx', rfl⟩ := started hst hw
  obtain rfl := Option.some.inj (hs.symm.trans hx')
  exact ⟨w, done, rest, x, hw, hs, ho, hc⟩

lemma Makes.cut (h : Makes serve run s as t request done c r before after)
    (he : exec (step serve run) (boot s) as = some w) : ∃ as₁ o as₂ k,
    as = as₁ ++ .reply t o :: as₂ ∧ exec (step serve run) (boot s) as₁ = some before ∧
      step serve run before (.reply t o) = some after ∧
      before.session t = some ⟨request, done, .call c k⟩ ∧
      serve t c before.shared o = some (r, after.shared) ∧
      exec (step serve run) after as₂ = some w := by
  obtain ⟨as₁, o, as₂, k, rfl, hb, hst, hc, hs⟩ := h
  obtain ⟨m, hm, hr⟩ := (exec_append _).mp he
  obtain rfl := Option.some.inj (hm.symm.trans hb)
  obtain ⟨m', hm', hr⟩ := (exec_cons _).mp hr
  obtain rfl := Option.some.inj (hm'.symm.trans hst)
  exact ⟨as₁, o, as₂, k, rfl, hb, hst, hc, hs, hr⟩

lemma Makes.recorded (h : Makes serve run s as t request done c r before after)
    (he : exec (step serve run) (boot s) as = some w) :
    ∃ x, w.session t = some x ∧ x.request = request ∧ ⟨c, r⟩ ∈ x.done := by
  obtain ⟨_, o, _, k, -, hb, hst, hc, hs, hr⟩ := h.cut he
  obtain ⟨rq', done', c', k', r', hc', hs', hse⟩ := step_reply hst
  have hsa := hc.symm.trans hc'
  simp only [Option.some.injEq, Session.mk.injEq, Program.call.injEq] at hsa
  obtain ⟨rfl, rfl, rfl, -⟩ := hsa
  obtain rfl : r' = r := (Prod.mk.inj (Option.some.inj (hs'.symm.trans hs))).1
  have hn : after.session t = some ⟨request, done ++ [⟨c, r'⟩], k' r'⟩ := by
    rw [hse, Function.update_self]
  obtain ⟨x, hx, hre, hp⟩ := exec_record hn hr
  exact ⟨x, hx, hre, hp.subset (List.mem_append_right _ List.mem_cons_self)⟩

/-- An exchange on record was made in the run. -/
theorem makes_of_mem_done (h : exec (step serve run) (boot s) as = some w)
    (hx : w.session t = some x) {e : Σ c, A c} (he : e ∈ x.done) :
    ∃ done before after, Makes serve run s as t x.request done e.1 e.2 before after := by
  induction as using List.reverseRecOn generalizing w x with
  | nil =>
    cases h
    cases hx
  | append_singleton as a ih =>
    obtain ⟨m, hm, hl⟩ := (exec_append _).mp h
    obtain ⟨w', hst, hen⟩ := (exec_cons _).mp hl
    obtain rfl := Option.some.inj hen
    -- the exchange was there before the last action, or it is what that action adds
    have ho : ∀ x', m.session t = some x' → x'.request = x.request → e ∈ x'.done →
        ∃ done before after, Makes serve run s (as ++ [a]) t x.request done e.1 e.2 before
          after := by
      intro x' hx' hr he'
      obtain ⟨done, before, after, hma⟩ := ih hm hx' he'
      exact ⟨done, before, after, hr ▸ hma.append [a]⟩
    cases a with
    | start u request =>
      obtain ⟨-, -, hs⟩ := step_start hst
      rw [hs] at hx
      rcases update_eq_some hx with ⟨rfl, rfl⟩ | ⟨-, hx⟩
      · cases he
      · exact ho x hx rfl he
    | reply u o =>
      obtain ⟨request, done, c, k, r, hc, hse, hs⟩ := step_reply hst
      rw [hs] at hx
      rcases update_eq_some hx with ⟨rfl, rfl⟩ | ⟨-, hx⟩
      · rcases List.mem_append.mp he with he | he
        · exact ho _ hc rfl he
        · obtain rfl := List.mem_singleton.mp he
          exact ⟨done, m, w', as, o, [], k, rfl, hm, hst, hc, hse⟩
      · exact ho x hx rfl he

end Sessions

end Codohue.Service
