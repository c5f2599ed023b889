import Mathlib.Data.List.Infix

/-!
The prefix that the admin repository looks for among the ids of the subjects.
-/

namespace Codohue.Like

/-- The escape character of the statement. -/
def backslash : Char := Char.ofNat 92

def special (c : Char) : Bool := c = backslash || c = '%' || c = '_'

/-- The replacer goes through the text once. -/
def escapeLikePrefix (s : List Char) : List Char :=
  s.flatMap fun c => if special c then [backslash, c] else [c]

/-- Every escape character is followed by one that it may escape. -/
def wellFormed : List Char → Bool
  | [] => true
  | c :: p =>
    if c = backslash then
      match p with
      | [] => false
      | d :: p => special d && wellFormed p
    else wellFormed p

/-- `LIKE`: the pattern first, then the text. -/
def like : List Char → List Char → Bool
  | [], t => t.isEmpty
  | c :: p, t =>
    if c = backslash then
      match p, t with
      | d :: p, x :: t => x = d && like p t
      | _, _ => false
    else if c = '%' then t.tails.any (like p)
    else
      match t with
      | x :: t => (c = '_' || x = c) && like p t
      | [] => false

lemma like_percent (t : List Char) : like ['%'] t = true := by
  have hp : '%' ≠ backslash := by decide
  rw [like.eq_def]
  simp only [if_neg hp, if_true, List.any_eq_true]
  exact ⟨[], (List.mem_tails [] t).mpr t.nil_suffix, rfl⟩

/-- An escaped character of the prefix takes that character and nothing else. -/
lemma like_escape (c : Char) (p t : List Char) :
    like (escapeLikePrefix [c] ++ p) t = true ↔ ∃ t', t = c :: t' ∧ like p t' = true := by
  cases hs : special c with
  | true =>
    have he : escapeLikePrefix [c] ++ p = backslash :: c :: p := by simp [escapeLikePrefix, hs]
    rw [he, like.eq_def]
    cases t <;> simp [and_assoc]
  | false =>
    obtain ⟨⟨hb, hp⟩, hu⟩ : (c ≠ backslash ∧ c ≠ '%') ∧ c ≠ '_' := by simpa [special] using hs
    have he : escapeLikePrefix [c] ++ p = c :: p := by simp [escapeLikePrefix, hs]
    rw [he, like.eq_def]
    cases t <;> simp [hb, hp, hu, and_assoc]

lemma escapeLikePrefix_cons (c : Char) (s : List Char) :
    escapeLikePrefix (c :: s) = escapeLikePrefix [c] ++ escapeLikePrefix s := by
  simp [escapeLikePrefix]

/-- **An escaped prefix matches literally.** -/
theorem like_escapeLikePrefix (s t : List Char) :
    wellFormed (escapeLikePrefix s ++ ['%']) = true ∧
      (like (escapeLikePrefix s ++ ['%']) t = true ↔ s <+: t) := by
  constructor
  · induction s with
    | nil => decide
    | cons c s ih =>
      rw [escapeLikePrefix_cons, List.append_assoc]
      cases hs : special c with
      | true => simpa [escapeLikePrefix, hs, wellFormed] using ih
      | false =>
        have hb : c ≠ backslash := by rintro rfl; cases hs
        have he : escapeLikePrefix [c] = [c] := by simp [escapeLikePrefix, hs]
        rw [he, List.singleton_append, wellFormed.eq_def]
        simpa [hb] using ih
  · induction s generalizing t with
    | nil => exact iff_of_true (like_percent t) t.nil_prefix
    | cons c s ih =>
      rw [escapeLikePrefix_cons, List.append_assoc, like_escape]
      simp only [ih, List.cons_prefix_iff]

end Codohue.Like
