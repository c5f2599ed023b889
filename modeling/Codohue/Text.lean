import Mathlib.Data.List.Basic
import Mathlib.Data.String.Basic

/-!
Texts that are put together from parts, and when the parts can be read off again.

A part can be read off to the left of a separator that does not occur in it, and so can a part to
the right of one.
-/

namespace Codohue.Text

/-- `%q`, without escapes. -/
def quote (text : String) : String := "\"" ++ text ++ "\""

/-! ### Separators -/

variable {α : Type*} {a b : List α} {x : α}

lemma split_left {P : α → Prop} (ha : ∀ z ∈ a, ¬ P z) (hb : ∀ z ∈ b, ¬ P z) (hx : P x) (hy : P y)
    (h : a ++ x :: c = b ++ y :: d) : a = b ∧ x = y ∧ c = d := by
  rcases List.append_eq_append_iff.mp h with ⟨e, rfl, he⟩ | ⟨e, rfl, he⟩
  · cases e with
    | nil => exact ⟨(List.append_nil a).symm, List.cons.inj he⟩
    | cons z e =>
      obtain ⟨rfl, -⟩ := List.cons.inj he
      exact absurd hx (hb x (by simp))
  · cases e with
    | nil => exact ⟨List.append_nil b, (List.cons.inj he).imp Eq.symm Eq.symm⟩
    | cons z e =>
      obtain ⟨rfl, -⟩ := List.cons.inj he
      exact absurd hy (ha y (by simp))

lemma cut (ha : x ∉ a) (hb : x ∉ b) (h : a ++ x :: c = b ++ x :: d) : a = b ∧ c = d := by
  have hn : ∀ {l : List α}, x ∉ l → ∀ z ∈ l, ¬ z = x := fun hx z hz heq => hx (heq ▸ hz)
  exact (split_left (hn ha) (hn hb) rfl rfl h).imp_right And.right

lemma split_right {P : α → Prop} (hc : ∀ z ∈ c, ¬ P z) (hd : ∀ z ∈ d, ¬ P z) (hx : P x) (hy : P y)
    (h : a ++ x :: c = b ++ y :: d) : a = b ∧ x = y ∧ c = d := by
  have hr : c.reverse ++ x :: a.reverse = d.reverse ++ y :: b.reverse := by
    simpa using congrArg List.reverse h
  obtain ⟨hcd, hxy, hab⟩ := split_left (by simpa using hc) (by simpa using hd) hx hy hr
  exact ⟨List.reverse_injective hab, hxy, List.reverse_injective hcd⟩

/-! ### Joined parts -/

lemma mem_of_mem_intercalate (h : y ∈ [x].intercalate ls) : y = x ∨ ∃ l ∈ ls, y ∈ l := by
  induction ls with
  | nil => cases h
  | cons l ls ih =>
    cases ls with
    | nil => exact .inr ⟨l, List.mem_cons_self, by simpa [List.intercalate_singleton] using h⟩
    | cons l' ls =>
      rw [List.intercalate_cons_cons, List.mem_append, List.mem_append, List.mem_singleton] at h
      rcases h with (h | h) | h
      · exact .inr ⟨l, List.mem_cons_self, h⟩
      · exact .inl h
      · refine (ih h).imp_right ?_
        rintro ⟨m, hm, hy⟩
        exact ⟨m, List.mem_cons_of_mem _ hm, hy⟩

lemma intercalate_eq_nil (hl : [] ∉ ls) (h : [x].intercalate ls = []) : ls = [] := by
  rcases ls with _ | ⟨l, _ | ⟨l', ls⟩⟩
  · rfl
  · rw [List.intercalate_singleton] at h
    exact absurd (h ▸ List.mem_cons_self) hl
  · simp at h

/-- The parts can be read off what is joined, if each ends where the first separator is that may
end it. -/
lemma intercalate_inj
    (hc : ∀ l ∈ ls, ∀ m ∈ ms, ∀ c d, l ++ x :: c = m ++ x :: d → l = m ∧ c = d)
    (hl : [] ∉ ls) (hm : [] ∉ ms) (h : [x].intercalate ls = [x].intercalate ms) : ls = ms := by
  induction ls generalizing ms with
  | nil => exact (intercalate_eq_nil hm h.symm).symm
  | cons l ls ih =>
    cases ms with
    | nil => exact intercalate_eq_nil hl h
    | cons m ms =>
      have hlm := hc l List.mem_cons_self m List.mem_cons_self
      rcases ls with _ | ⟨l', ls⟩ <;> rcases ms with _ | ⟨m', ms⟩ <;>
        simp only [List.intercalate_singleton, List.intercalate_cons_cons, List.append_assoc,
          List.singleton_append] at h
      · rw [h]
      · have hs := (hlm [] ([x].intercalate (m' :: ms) ++ [x]) (by simp [h])).2
        exact absurd hs (by simp)
      · have hs := (hlm ([x].intercalate (l' :: ls) ++ [x]) [] (by simp [← h])).2
        exact absurd hs (by simp)
      · obtain ⟨rfl, hr⟩ := hlm _ _ h
        rw [ih (fun a ha b hb => hc a (List.mem_cons_of_mem _ ha) b (List.mem_cons_of_mem _ hb))
          (fun ha => hl (List.mem_cons_of_mem _ ha)) (fun hb => hm (List.mem_cons_of_mem _ hb)) hr]

section Join

variable {sep : String} {ch : Char} {as bs : List String}

lemma mem_of_mem_join (hs : sep.toList = [ch]) (h : z ∈ (sep.intercalate as).toList) :
    z = ch ∨ ∃ a ∈ as, z ∈ a.toList := by
  rw [String.toList_intercalate, hs] at h
  refine (mem_of_mem_intercalate h).imp_right ?_
  rintro ⟨l, hl, hz⟩
  obtain ⟨a, ha, rfl⟩ := List.mem_map.mp hl
  exact ⟨a, ha, hz⟩

lemma join_inj (hs : sep.toList = [ch]) (hc : ∀ a ∈ as, ∀ b ∈ bs, ∀ c d,
      a.toList ++ ch :: c = b.toList ++ ch :: d → a = b ∧ c = d)
    (ha : "" ∉ as) (hb : "" ∉ bs) (h : sep.intercalate as = sep.intercalate bs) : as = bs := by
  have hn : ∀ {l : List String}, "" ∉ l → [] ∉ l.map String.toList := by
    intro l hl hm
    obtain ⟨a, ha, he⟩ := List.mem_map.mp hm
    exact hl (String.toList_eq_nil_iff.mp he ▸ ha)
  have hl := congrArg String.toList h
  rw [String.toList_intercalate, String.toList_intercalate, hs] at hl
  refine List.map_injective_iff.mpr (fun _ _ => String.toList_inj.mp)
    (intercalate_inj (List.forall_mem_map.mpr fun a ha => ?_) (hn ha) (hn hb) hl)
  refine List.forall_mem_map.mpr fun b hb c d hcd => ?_
  exact (hc a ha b hb c d hcd).imp_left (congrArg String.toList)

end Join

/-! ### Numbers -/

lemma toList_toString (n : ℕ) : (toString n).toList = Nat.toDigits 10 n := Nat.toList_repr

lemma isDigit_of_mem_toString {n : ℕ} {ch : Char} (h : ch ∈ (toString n).toList) : ch.isDigit := by
  rw [toList_toString] at h
  exact Nat.isDigit_of_mem_toDigits (by decide) (by decide) h

lemma toString_injective : Function.Injective (toString : ℕ → String) := by
  intro m n h
  have hd : Nat.toDigits 10 m = Nat.toDigits 10 n := by
    rw [← toList_toString, ← toList_toString, h]
  calc m = Nat.ofDigitChars 10 (Nat.toDigits 10 m) 0 := Nat.ofDigitChars_ten_toDigits.symm
    _ = Nat.ofDigitChars 10 (Nat.toDigits 10 n) 0 := by rw [hd]
    _ = n := Nat.ofDigitChars_ten_toDigits

/-! ### Integers -/

lemma toString_int_cases (n : ℤ) : (∃ m : ℕ, n = m ∧ toString n = toString m) ∨
      ∃ m : ℕ, n = -(m + 1 : ℕ) ∧ toString n = "-" ++ toString (m + 1) := by
  cases n with
  | ofNat m => exact .inl ⟨m, rfl, rfl⟩
  | negSucc m => exact .inr ⟨m, rfl, rfl⟩

lemma mem_toString_int {n : ℤ} {ch : Char} (h : ch ∈ (toString n).toList) :
    ch.isDigit ∨ ch = '-' := by
  rcases toString_int_cases n with ⟨m, -, hm⟩ | ⟨m, -, hm⟩
  · rw [hm] at h
    exact .inl (isDigit_of_mem_toString h)
  · rw [hm, String.toList_append, List.mem_append] at h
    rcases h with h | h
    · exact .inr (List.mem_singleton.mp h)
    · exact .inl (isDigit_of_mem_toString h)

lemma toString_int_ne_empty (n : ℤ) : toString n ≠ "" := by
  rcases toString_int_cases n with ⟨m, -, hm⟩ | ⟨m, -, hm⟩
  · rw [hm]
    exact Nat.repr_ne_empty
  · rw [hm]
    simp

lemma toString_int_injective : Function.Injective (toString : ℤ → String) := by
  have hs : ∀ m k : ℕ, toString m ≠ "-" ++ toString k := by
    intro m k h
    have hme : '-' ∈ (toString m).toList := by
      rw [h, String.toList_append]
      exact List.mem_append_left _ (by decide)
    exact absurd (isDigit_of_mem_toString hme) (by decide)
  intro a b h
  rcases toString_int_cases a with ⟨m, rfl, hm⟩ | ⟨m, rfl, hm⟩ <;>
    rcases toString_int_cases b with ⟨k, rfl, hk⟩ | ⟨k, rfl, hk⟩ <;> rw [hm, hk] at h
  · rw [toString_injective h]
  · exact absurd h (hs m _)
  · exact absurd h.symm (hs k _)
  · have hl := congrArg String.toList h
    rw [String.toList_append, String.toList_append] at hl
    rw [toString_injective (String.toList_inj.mp (List.append_cancel_left hl))]

end Codohue.Text
