import Mathlib.Algebra.BigOperators.Group.List.Basic
import Mathlib.Data.List.Basic

/-!
Sums that are built up cell by cell.

The additions of a cell are done in the order in which they come, and nothing is asked of the
addition, so the results also hold for one that rounds.
-/

namespace Codohue.Tally

variable {V τ σ κ : Type*}

section Add

variable [Zero V] [Add V]

/-- One more value in a cell; an absent cell counts as zero. -/
def plus (cell : Option V) (v : V) : Option V := some (cell.getD 0 + v)

/-- What a cell holds once the values have been added, one after the other. -/
def total (l : List V) : Option V := l.foldl plus none

lemma foldl_plus_some (l : List V) (v : V) : l.foldl plus (some v) = some (l.foldl (· + ·) v) := by
  induction l generalizing v with
  | nil => rfl
  | cons w l ih => exact ih (v + w)

lemma total_cons (v : V) (l : List V) : total (v :: l) = some (l.foldl (· + ·) (0 + v)) :=
  foldl_plus_some l (0 + v)

lemma isSome_total {l : List V} : (total l).isSome ↔ l ≠ [] := by
  cases l with
  | nil => simp [total]
  | cons v l => simp [total_cons]

/-- A step adds its value to its own cell, and leaves the others. -/
def Adds [DecidableEq κ] (get : τ → κ → Option V) (step : τ → σ → τ) (key : σ → κ)
    (value : σ → V) : Prop :=
  ∀ t s k, get (step t s) k = if key s = k then plus (get t k) (value s) else get t k

theorem Adds.foldl [DecidableEq κ] {get : τ → κ → Option V} {step : τ → σ → τ}
    (h : Adds get step key value) (steps : List σ) (t : τ) (k : κ) :
    get (steps.foldl step t) k =
      ((steps.filter fun s => key s = k).map value).foldl plus (get t k) := by
  induction steps generalizing t with
  | nil => rfl
  | cons s steps ih =>
    rw [List.foldl_cons, ih, h]
    by_cases hk : key s = k <;> simp [hk]

end Add

lemma total_eq_sum [AddMonoid V] {l : List V} (h : l ≠ []) : total l = some l.sum := by
  cases l with
  | nil => exact absurd rfl h
  | cons v l =>
    rw [total_cons, List.sum_eq_foldl]
    rfl

end Codohue.Tally
