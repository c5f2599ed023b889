import Mathlib.Data.List.GetD
import Mathlib.Data.String.Basic

/-!
The unpadded base64 encoding with the alphabet for URLs and file names.

Three bytes become four characters, and a rest of one or two bytes becomes two or three. Different
byte strings get different texts, and no text has a character outside the alphabet.
-/

namespace Codohue.Base64

def alphabet : List Char :=
  "ABCDEFGHIJKLMNOPQRSTUVWXYZabcdefghijklmnopqrstuvwxyz0123456789-_".toList

/-- The character of six bits. -/
def char (n : ℕ) : Char := alphabet.getD n 'A'

lemma char_inj : ∀ m < 64, ∀ n < 64, char m = char n → m = n := by decide +kernel

lemma char_mem (n : ℕ) : char n ∈ alphabet := by
  unfold char
  by_cases h : n < alphabet.length
  · rw [List.getD_eq_getElem _ _ h]
    exact List.getElem_mem h
  · rw [List.getD_eq_default _ _ (not_lt.mp h)]
    decide

def encode : List UInt8 → List Char
  | [] => []
  | [a] => [char (a.toNat / 4), char (a.toNat % 4 * 16)]
  | [a, b] =>
    [char (a.toNat / 4), char (a.toNat % 4 * 16 + b.toNat / 16), char (b.toNat % 16 * 4)]
  | a :: b :: c :: rest =>
    char (a.toNat / 4) :: char (a.toNat % 4 * 16 + b.toNat / 16) ::
      char (b.toNat % 16 * 4 + c.toNat / 64) :: char (c.toNat % 64) :: encode rest

lemma mem_alphabet_of_mem_encode (h : c ∈ encode bytes) : c ∈ alphabet := by
  induction bytes using encode.induct with
  | case1 => cases h
  | case2 a =>
    simp only [encode, List.mem_cons, List.not_mem_nil, or_false] at h
    rcases h with rfl | rfl <;> exact char_mem _
  | case3 a b =>
    simp only [encode, List.mem_cons, List.not_mem_nil, or_false] at h
    rcases h with rfl | rfl | rfl <;> exact char_mem _
  | case4 a b d rest ih =>
    simp only [encode, List.mem_cons] at h
    rcases h with rfl | rfl | rfl | rfl | h
    · exact char_mem _
    · exact char_mem _
    · exact char_mem _
    · exact char_mem _
    · exact ih h

/-- Three bytes can be read off their four characters; a byte that is missing counts as zero. -/
lemma bytes_inj (a b c a' b' c' : UInt8) (h₁ : char (a.toNat / 4) = char (a'.toNat / 4))
    (h₂ : char (a.toNat % 4 * 16 + b.toNat / 16) = char (a'.toNat % 4 * 16 + b'.toNat / 16))
    (h₃ : char (b.toNat % 16 * 4 + c.toNat / 64) = char (b'.toNat % 16 * 4 + c'.toNat / 64))
    (h₄ : char (c.toNat % 64) = char (c'.toNat % 64)) : a = a' ∧ b = b' ∧ c = c' := by
  have hl (x : UInt8) := x.toNat_lt
  have ha := hl a
  have ha' := hl a'
  have hb := hl b
  have hb' := hl b'
  have hc := hl c
  have hc' := hl c'
  replace h₁ := char_inj _ (by omega) _ (by omega) h₁
  replace h₂ := char_inj _ (by omega) _ (by omega) h₂
  replace h₃ := char_inj _ (by omega) _ (by omega) h₃
  replace h₄ := char_inj _ (by omega) _ (by omega) h₄
  simp only [← UInt8.toNat_inj]
  omega

/-- **Different byte strings have different texts.** -/
theorem encode_injective : Function.Injective encode := by
  intro xs ys h
  induction xs using encode.induct generalizing ys with
  | case1 =>
    match ys with
    | [] => rfl
    | [a] | [a, b] | a :: b :: c :: rest => simp [encode] at h
  | case2 a =>
    match ys with
    | [] | [a, b] | a :: b :: c :: rest => simp [encode] at h
    | [a'] =>
      simp only [encode, List.cons.injEq, and_true] at h
      obtain ⟨rfl, -⟩ := bytes_inj a 0 0 a' 0 0 h.1 h.2 rfl rfl
      rfl
  | case3 a b =>
    match ys with
    | [] | [a] | a :: b :: c :: rest => simp [encode] at h
    | [a', b'] =>
      simp only [encode, List.cons.injEq, and_true] at h
      obtain ⟨rfl, rfl, -⟩ := bytes_inj a b 0 a' b' 0 h.1 h.2.1 h.2.2 rfl
      rfl
  | case4 a b c rest ih =>
    match ys with
    | [] | [a] | [a, b] => simp [encode] at h
    | a' :: b' :: c' :: rest' =>
      simp only [encode, List.cons.injEq] at h
      obtain ⟨h₁, h₂, h₃, h₄, hr⟩ := h
      obtain ⟨rfl, rfl, rfl⟩ := bytes_inj a b c a' b' c' h₁ h₂ h₃ h₄
      rw [ih hr]

/-- The encoding of the bytes of a text. -/
def encodeToString (text : String) : String := String.ofList (encode text.toUTF8.data.toList)

lemma encodeToString_injective : Function.Injective encodeToString := by
  intro s t h
  have hb := encode_injective (String.ofList_injective h)
  rw [← String.toByteArray_inj]
  exact ByteArray.ext (Array.toList_inj.mp hb)

lemma mem_alphabet_of_mem_encodeToString (h : c ∈ (encodeToString text).toList) : c ∈ alphabet := by
  rw [encodeToString, String.toList_ofList] at h
  exact mem_alphabet_of_mem_encode h

end Codohue.Base64
