import Codohue.Service

/-!
Any number of programs that call one service, one call at a time.

To each of them the others are the commands of the service: what one program relies on, every call
of another one has to keep. So what `Wp` says of each program alone holds of all of them together.
-/

namespace Codohue.Service

open Transition

variable {C : Type} {A : C → Type} {ε α σ ω ι : Type}

/-- A service whose other users make the same calls. -/
def peers (serve : (c : C) → σ → ω → Option (A c × σ)) :
    System σ C ((_ : C) × ω) ω A where
  perform s command := (serve command.1 s command.2).map Prod.snd
  serve := serve

/-- The shared state, and what is left of each program with the request that it was started for. -/
structure Pool (σ C : Type) (A : C → Type) (ε α ι : Type) where
  shared : σ
  calls : ℕ → Option (ι × Program C A ε α)

inductive PoolAction (ι ω : Type) where
  | start (t : ℕ) (request : ι)
  /-- The call that program `t` stands at is answered. -/
  | reply (t : ℕ) (outcome : ω)
  deriving DecidableEq, Repr

namespace Pool

def boot (s : σ) : Pool σ C A ε α ι := ⟨s, fun _ => none⟩

def step (serve : (c : C) → σ → ω → Option (A c × σ)) (run : ι → Program C A ε α)
    (pool : Pool σ C A ε α ι) : PoolAction ι ω → Option (Pool σ C A ε α ι)
  | .start t request =>
    if (pool.calls t).isNone then
      some { pool with calls := Function.update pool.calls t (some (request, run request)) }
    else none
  | .reply t outcome =>
    match pool.calls t with
    | some (request, .call c k) => (serve c pool.shared outcome).map fun r =>
      ⟨r.2, Function.update pool.calls t (some (request, k r.1))⟩
    | _ => none

variable {serve : (c : C) → σ → ω → Option (A c × σ)} {K : Contract σ C ω ε} {Q : ι → α → σ → Prop}
  {pool : Pool σ C A ε α ι}

lemma step_start (h : step serve run pool (.start t request) = some pool') :
    pool.calls t = none ∧ pool'.shared = pool.shared ∧
      pool'.calls = Function.update pool.calls t (some (request, run request)) := by
  simp only [step] at h
  split_ifs at h with hf
  cases h
  exact ⟨Option.isNone_iff_eq_none.mp hf, rfl, rfl⟩

lemma step_reply (h : step serve run pool (.reply t o) = some pool') :
    ∃ request c k r, pool.calls t = some (request, .call c k) ∧
      serve c pool.shared o = some (r, pool'.shared) ∧
      pool'.calls = Function.update pool.calls t (some (request, k r)) := by
  simp only [step] at h
  split at h
  · next request c k hc =>
    obtain ⟨⟨r, s⟩, hs, rfl⟩ := Option.map_eq_some_iff.mp h
    exact ⟨request, c, k, r, hc, hs, rfl⟩
  · cases h

/-- The shared state moves by the calls of the programs only. -/
lemma step_shared {P : σ → Prop} (hP : ∀ c s o r s', P s → serve c s o = some (r, s') → P s')
    (h : step serve run pool a = some pool') (hs : P pool.shared) : P pool'.shared := by
  cases a with
  | start t request => rwa [(step_start h).2.1]
  | reply t o =>
    obtain ⟨request, c, k, r, -, hse, -⟩ := step_reply h
    exact hP c pool.shared o r pool'.shared hs hse

lemma step_returned (h : step serve run pool a = some pool')
    (hr : pool.calls t = some (request, .pure value)) :
    pool'.calls t = some (request, .pure value) := by
  cases a with
  | start u rq' =>
    obtain ⟨hf, -, hc⟩ := step_start h
    have hne : t ≠ u := by
      rintro rfl
      rw [hf] at hr
      cases hr
    rw [hc, Function.update_of_ne hne, hr]
  | reply u o =>
    obtain ⟨rq', c, k, r, hca, -, hc⟩ := step_reply h
    have hne : t ≠ u := by
      rintro rfl
      rw [hca] at hr
      cases hr
    rw [hc, Function.update_of_ne hne, hr]

/-- Every program is as good as `Wp` says. -/
def Good (serve : (c : C) → σ → ω → Option (A c × σ)) (K : Contract σ C ω ε)
    (Q : ι → α → σ → Prop) (pool : Pool σ C A ε α ι) : Prop :=
  ∀ t request p, pool.calls t = some (request, p) → Wp (peers serve) K p (Q request) pool.shared

lemma good_boot (s : σ) : Good serve K Q (boot s) := by
  intro t request p h
  cases h

/-- **The rule for concurrent programs.** Each program is proved against calls of any kind by the
others, and what it returns is kept by every call. -/
theorem good_step {I : σ → Prop}
    (hr : ∀ request s, I s → Wp (peers serve) K (run request) (Q request) s)
    (hQ : ∀ request value c s o r s', Q request value s → serve c s o = some (r, s') →
      Q request value s')
    (ho : ∀ t o, a = .reply t o → K.outcome o) (hI : I pool.shared)
    (hpo : Good serve K Q pool) (h : step serve run pool a = some pool') :
    Good serve K Q pool' := by
  cases a with
  | start t request =>
    obtain ⟨-, hsh, hc⟩ := step_start h
    intro u rq' p hp
    rw [hc] at hp
    rw [hsh]
    by_cases hu : u = t
    · subst hu
      rw [Function.update_self] at hp
      cases hp
      exact hr request pool.shared hI
    · rw [Function.update_of_ne hu] at hp
      exact hpo u rq' p hp
  | reply t o =>
    obtain ⟨request, c, k, r, hca, hs, hc⟩ := step_reply h
    intro u rq' p hp
    rw [hc] at hp
    by_cases hu : u = t
    · subst hu
      rw [Function.update_self] at hp
      cases hp
      exact ((hpo u request _ hca) pool.shared (.refl _)).2 o r _ (ho u o rfl) hs
    · rw [Function.update_of_ne hu] at hp
      have hpe : (peers serve).perform pool.shared ⟨c, o⟩ = some pool'.shared := by
        simp only [peers, hs, Option.map_some]
      exact (hpo u rq' p hp).perform hpe fun value hv =>
        hQ rq' value c _ o r _ hv hs

end Pool

end Codohue.Service
