import Mathlib.Data.List.Induction

/-!
Runs of a partial step function, and the rules by which a property of single steps becomes
a property of runs.

A step is a function `σ → α → Option σ`: the action says which transition is tried and with
which outcome of the environment, and `none` says that it is not enabled. All the
nondeterminism of a system is in the list of actions.
-/

namespace Codohue.Transition

variable {σ τ α β : Type*} (step : σ → α → Option σ)

/-- The state that a list of actions leads to, if each of them was enabled. -/
def exec : σ → List α → Option σ
  | s, [] => some s
  | s, a :: as => (step s a).bind fun s' => exec s' as

@[simp] lemma exec_nil (s : σ) : exec step s [] = some s := rfl

variable {u : σ} {a : α}

lemma exec_cons :
    exec step s (a :: as) = some u ↔ ∃ s', step s a = some s' ∧ exec step s' as = some u := by
  simp [exec, Option.bind_eq_some_iff]

lemma exec_append : exec step s (as ++ bs) = some u ↔
      ∃ m, exec step s as = some m ∧ exec step m bs = some u := by
  induction as generalizing s with
  | nil => simp
  | cons a as ih =>
    simp only [List.cons_append, exec_cons, ih]
    constructor
    · rintro ⟨s', hs, m, hm, hu⟩
      exact ⟨m, ⟨s', hs, hm⟩, hu⟩
    · rintro ⟨m, ⟨s', hs, hm⟩, hu⟩
      exact ⟨s', hs, m, hm, hu⟩

variable {m m' : σ} {as₁ as₂ : List α}

/-- Of two steps of a run one comes first. -/
lemma steps_ordered (h : as₁ ++ a :: as₂ = bs₁ ++ b :: bs₂) (hm : exec step s as₁ = some m)
    (hm' : step m a = some m') (hn : exec step s bs₁ = some n) (hn' : step n b = some n') :
    (as₁ = bs₁ ∧ a = b) ∨ (∃ l, bs₁ = as₁ ++ a :: l ∧ exec step m' l = some n) ∨
      ∃ l, as₁ = bs₁ ++ b :: l ∧ exec step n' l = some m := by
  rcases List.append_eq_append_iff.mp h with ⟨l, hl, hre⟩ | ⟨l, hl, hre⟩
  · cases l with
    | nil => exact .inl ⟨by simpa using hl.symm, (List.cons.inj hre).1⟩
    | cons c l =>
      obtain ⟨rfl, -⟩ := List.cons.inj hre
      obtain ⟨m₁, hm₁, hr⟩ := (exec_append step).mp (hl ▸ hn)
      obtain rfl := Option.some.inj (hm.symm.trans hm₁)
      obtain ⟨m₂, hm₂, hr⟩ := (exec_cons step).mp hr
      obtain rfl := Option.some.inj (hm'.symm.trans hm₂)
      exact .inr (.inl ⟨l, hl, hr⟩)
  · cases l with
    | nil => exact .inl ⟨by simpa using hl, (List.cons.inj hre).1.symm⟩
    | cons c l =>
      obtain ⟨rfl, -⟩ := List.cons.inj hre
      obtain ⟨n₁, hn₁, hr⟩ := (exec_append step).mp (hl ▸ hm)
      obtain rfl := Option.some.inj (hn.symm.trans hn₁)
      obtain ⟨n₂, hn₂, hr⟩ := (exec_cons step).mp hr
      obtain rfl := Option.some.inj (hn'.symm.trans hn₂)
      exact .inr (.inr ⟨l, hl, hr⟩)

/-- Every action of the run is taken in a state where it meets `G`. -/
def Along (G : σ → α → Prop) : σ → List α → Prop
  | _, [] => True
  | s, a :: as => G s a ∧ ∀ s', step s a = some s' → Along G s' as

variable {step}

variable {G : σ → α → Prop} {s : σ} {as : List α} {I : σ → Prop}

instance decidableAlong {G : σ → α → Prop} [∀ s a, Decidable (G s a)] :
    ∀ s as, Decidable (Along step G s as)
  | _, [] => isTrue trivial
  | s, a :: as =>
    match hs : step s a with
    | none => decidable_of_iff (G s a) ⟨fun hg => ⟨hg, by simp [hs]⟩, And.left⟩
    | some s' =>
      have : Decidable (Along step G s' as) := decidableAlong s' as
      decidable_of_iff (G s a ∧ Along step G s' as)
        ⟨fun hg => ⟨hg.1, by simpa [hs] using hg.2⟩, fun hg => ⟨hg.1, hg.2 s' hs⟩⟩

lemma Along.mono {H : σ → α → Prop} (h : ∀ s a, G s a → H s a)
    (hG : Along step G s as) : Along step H s as := by
  induction as generalizing s with
  | nil => trivial
  | cons a as ih => exact ⟨h s a hG.1, fun s' hs' => ih (hG.2 s' hs')⟩

lemma Along.at (h : Along step G s (as₁ ++ a :: as₂)) (hm : exec step s as₁ = some m) : G m a := by
  induction as₁ generalizing s with
  | nil =>
    obtain rfl : s = m := by simpa using hm
    exact h.1
  | cons b as₁ ih =>
    obtain ⟨s', hs', hr⟩ := (exec_cons step).mp hm
    exact ih (h.2 s' hs') hr

/-- **Invariant rule, with a condition on the steps.** What every step that meets `G`
preserves, holds at the end of a run whose steps all meet `G`. -/
theorem exec_guarded (hst : ∀ s a s', I s → G s a → step s a = some s' → I s')
    (hG : Along step G s as) (hr : exec step s as = some u) (hs : I s) : I u := by
  induction as generalizing s with
  | nil =>
    obtain rfl : s = u := by simpa using hr
    exact hs
  | cons a as ih =>
    obtain ⟨s', hs', hre⟩ := (exec_cons step).mp hr
    exact ih (hG.2 s' hs') hre (hst s a s' hs hG.1 hs')

lemma along_of_forall (h : ∀ a ∈ as, ∀ s, G s a) (s : σ) : Along step G s as := by
  induction as generalizing s with
  | nil => trivial
  | cons a as ih =>
    exact ⟨h a List.mem_cons_self s,
      fun s' _ => ih (fun b hb => h b (List.mem_cons_of_mem _ hb)) s'⟩

/-- In the states of an invariant, one condition on the steps may imply another. -/
lemma Along.imp_of_invariant {H : σ → α → Prop}
    (hst : ∀ s a s', I s → step s a = some s' → I s') (h : ∀ s a, I s → G s a → H s a) (hs : I s)
    (hG : Along step G s as) : Along step H s as := by
  induction as generalizing s with
  | nil => trivial
  | cons a as ih => exact ⟨h s a hs hG.1, fun s' hs' => ih (hst s a s' hs hs') (hG.2 s' hs')⟩

/-- **Invariant rule.** -/
theorem exec_invariant (hst : ∀ s a s', I s → step s a = some s' → I s')
    (hr : exec step s as = some u) (hs : I s) : I u :=
  exec_guarded (fun s a s' h _ => hst s a s' h) (along_of_forall (fun _ _ _ => trivial) s) hr hs

/-- From `s`, some run of actions that meet `P` leads to a state that meets `Q`. -/
def Leads (step : σ → α → Option σ) (P : α → Prop) (Q : σ → Prop) (s : σ) : Prop :=
  ∃ as u, (∀ a ∈ as, P a) ∧ exec step s as = some u ∧ Q u

section Leads

variable {P : α → Prop} {Q R : σ → Prop} {s m : σ} {a : α}

lemma Leads.refl (h : Q s) : Leads step P Q s := ⟨[], s, by simp, rfl, h⟩

lemma Leads.cons (ha : P a) (hs : step s a = some m) (h : Leads step P Q m) : Leads step P Q s := by
  obtain ⟨as, u, has, hr, hu⟩ := h
  exact ⟨a :: as, u, List.forall_mem_cons.mpr ⟨ha, has⟩, (exec_cons step).mpr ⟨m, hs, hr⟩, hu⟩

lemma Leads.bind (h : Leads step P R s) (hR : ∀ u, R u → Leads step P Q u) : Leads step P Q s := by
  obtain ⟨as, m, has, hr, hm⟩ := h
  obtain ⟨bs, u, hbs, hr', hu⟩ := hR m hm
  refine ⟨as ++ bs, u, fun a ha => ?_, (exec_append step).mpr ⟨m, hr, hr'⟩, hu⟩
  exact (List.mem_append.mp ha).elim (has a) (hbs a)

end Leads

/-! ### Observations -/

section Observed

variable (step) (obs : σ → α → Option β)

/-- What the steps of a run show, in order. -/
def observed : σ → List α → List β
  | _, [] => []
  | s, a :: as => (obs s a).toList ++ ((step s a).map fun s' => observed s' as).getD []

variable {obs} {s m u : σ} {as bs : List α}

lemma observed_append (h : exec step s as = some m) :
    observed step obs s (as ++ bs) = observed step obs s as ++ observed step obs m bs := by
  induction as generalizing s with
  | nil =>
    cases h
    rfl
  | cons a as ih =>
    obtain ⟨s', hs', hr⟩ := (exec_cons step).mp h
    simp only [observed, List.cons_append, hs', Option.map_some, Option.getD_some, ih hr,
      List.append_assoc]

variable {step}

/-- **Invariant rule for states and what was shown on the way to them.** -/
theorem observed_invariant {I : σ → List β → Prop}
    (hst : ∀ s tr a s', I s tr → step s a = some s' → I s' (tr ++ (obs s a).toList))
    (hr : exec step s as = some u) (hs : I s []) : I u (observed step obs s as) := by
  induction as using List.reverseRecOn generalizing u with
  | nil =>
    cases hr
    exact hs
  | append_singleton as a ih =>
    obtain ⟨m, hm, hl⟩ := (exec_append step).mp hr
    obtain ⟨m', hm', he⟩ := (exec_cons step).mp hl
    obtain rfl := Option.some.inj he
    rw [observed_append step hm]
    simpa [observed, hm'] using hst m _ a m' (ih hm) hm'

/-- What was shown had been shown before the last step, or that step shows it. -/
lemma append_toList_split {o : Option β} (h : l ++ o.toList = pre ++ e :: post) :
    (∃ post', l = pre ++ e :: post' ∧ post = post' ++ o.toList) ∨
      o = some e ∧ l = pre ∧ post = [] := by
  cases post using List.reverseRecOn with
  | nil =>
    cases o with
    | none => exact .inl ⟨[], by simpa using h, rfl⟩
    | some d =>
      obtain ⟨rfl, hd⟩ := List.append_inj' h rfl
      exact .inr ⟨congrArg some (List.singleton_inj.mp hd), rfl, rfl⟩
  | append_singleton post d =>
    cases o with
    | none => exact .inl ⟨post ++ [d], by simpa using h, by simp⟩
    | some d' =>
      have h' : l ++ [d'] = (pre ++ e :: post) ++ [d] := by simpa using h
      obtain ⟨rfl, hd⟩ := List.append_inj' h' rfl
      exact .inl ⟨post, rfl, by rw [Option.toList_some, hd]⟩

/-- What was shown was shown by a step, and what came before it by the steps before. -/
lemma observed_split (hru : exec step s as = some u) (h : observed step obs s as = pre ++ e :: post)
    :
    ∃ as₁ a as₂ m m', as = as₁ ++ a :: as₂ ∧ exec step s as₁ = some m ∧ step m a = some m' ∧
      exec step m' as₂ = some u ∧ obs m a = some e ∧ observed step obs s as₁ = pre ∧
      observed step obs m' as₂ = post := by
  induction as generalizing s pre with
  | nil => simp [observed] at h
  | cons a as ih =>
    obtain ⟨s', hs', hr⟩ := (exec_cons step).mp hru
    simp only [observed, hs', Option.map_some, Option.getD_some] at h
    -- the step shows the event, or something that comes before it, or nothing
    by_cases hf : obs s a = some e ∧ pre = []
    · obtain ⟨ho, rfl⟩ := hf
      rw [ho] at h
      exact ⟨[], a, as, s, s', rfl, rfl, hs', hr, ho, rfl, (List.cons.inj h).2⟩
    · obtain ⟨pre', hp', ht⟩ : ∃ pre', pre = (obs s a).toList ++ pre' ∧
          observed step obs s' as = pre' ++ e :: post := by
        cases ho : obs s a with
        | none => exact ⟨pre, rfl, by simpa [ho] using h⟩
        | some d =>
          rw [ho] at h hf
          cases pre with
          | nil => exact absurd ⟨congrArg some (List.cons.inj h).1, rfl⟩ hf
          | cons d' pre =>
            obtain ⟨rfl, ht⟩ := List.cons.inj h
            exact ⟨pre, rfl, ht⟩
      obtain ⟨as₁, b, as₂, m, m', rfl, hm, hm', hen, he, hp, hpo⟩ := ih hr ht
      exact ⟨a :: as₁, b, as₂, m, m', rfl, (exec_cons step).mpr ⟨s', hs', hm⟩, hm', hen, he,
        by simp [observed, hs', hp, hp'], hpo⟩

end Observed

end Codohue.Transition
