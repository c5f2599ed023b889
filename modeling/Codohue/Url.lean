import Mathlib.Data.List.Basic
import Mathlib.Data.String.Basic

/-!
The path of a URL, as `net/url` reads it.

A path is kept decoded, and beside it as it came where the default encoding of the decoded path is
another text. Decoding goes through a text from left to right, so it can be cut before every byte
that is no hexadecimal digit.
-/

namespace Codohue.Url

/-- A Go string. -/
abbrev Bytes := List UInt8

def bytes (text : String) : Bytes := text.toUTF8.data.toList

lemma bytes_injective : Function.Injective bytes := by
  intro s t h
  have hd : s.toUTF8.data = t.toUTF8.data := Array.toList_inj.mp h
  exact String.toByteArray_inj.mp (ByteArray.ext hd)

@[simp] lemma bytes_inj : bytes s = bytes t ↔ s = t := bytes_injective.eq_iff

/-! ### Percent-encoding -/

def percent : UInt8 := 37

def slash : UInt8 := 47

def unhex (c : UInt8) : Option UInt8 :=
  if 48 ≤ c ∧ c ≤ 57 then some (c - 48)
  else if 97 ≤ c ∧ c ≤ 102 then some (c - 97 + 10)
  else if 65 ≤ c ∧ c ≤ 70 then some (c - 65 + 10)
  else none

/-- `PathUnescape`, and `unescape` of a whole path. -/
def unescape : Bytes → Option Bytes
  | [] => some []
  | c :: rest =>
    if c = percent then
      match rest with
      | a :: b :: rest => do
        let high ← unhex a
        let low ← unhex b
        let text ← unescape rest
        return (high * 16 + low) :: text
      | _ => none
    else (unescape rest).map (c :: ·)

def upperhex (n : UInt8) : UInt8 := if n < 10 then 48 + n else 55 + n

/-- `shouldEscape` in a path. -/
def shouldEscape (c : UInt8) : Bool :=
  if (97 ≤ c ∧ c ≤ 122) ∨ (65 ≤ c ∧ c ≤ 90) ∨ (48 ≤ c ∧ c ≤ 57) then false
  else c ∉ bytes "-_.~$&+,/:;=@"

def escape (text : Bytes) : Bytes :=
  text.flatMap fun c =>
    if shouldEscape c then [percent, upperhex (c / 16), upperhex (c % 16)] else [c]

structure URL where
  path : Bytes
  rawPath : Bytes
  deriving DecidableEq, Repr

/-- `URL.setPath`; `none` is a path that does not parse. -/
def setPath (p : Bytes) : Option URL :=
  (unescape p).map fun path => ⟨path, if p = escape path then [] else p⟩

/-! ### Cutting a text -/

section Cut

@[simp] lemma unescape_nil : unescape [] = some [] := rfl

lemma unescape_cons (hc : c ≠ percent) : unescape (c :: t) = (unescape t).map (c :: ·) := by
  rw [unescape.eq_def]
  exact if_neg hc

lemma unescape_percent (a b : UInt8) :
    unescape (percent :: a :: b :: t) = (unhex a).bind fun hi => (unhex b).bind fun low =>
      (unescape t).map ((hi * 16 + low) :: ·) := by
  rw [unescape.eq_def]
  simp only [if_pos]
  cases unhex a <;> cases unhex b <;> cases unescape t <;> rfl

lemma unescape_append_plain (h : percent ∉ s) : unescape (s ++ t) = (unescape t).map (s ++ ·) := by
  induction s with
  | nil => simp
  | cons c s ih =>
    obtain ⟨hc, hs⟩ := not_or.mp (mt List.mem_cons.mpr h)
    rw [List.cons_append, unescape_cons (Ne.symm hc), ih hs, Option.map_map]
    rfl

lemma unescape_append (h : unhex c = none) : unescape (s ++ c :: t) =
      (unescape s).bind fun a => (unescape (c :: t)).map (a ++ ·) := by
  fun_induction unescape s with
  | case1 => simp
  | case2 a b rest ih =>
    simp only [List.cons_append, unescape_percent, ih]
    cases unhex a <;> cases unhex b <;> cases unescape rest <;> simp [Function.comp_def]
  | case3 rest hs =>
    -- an escape that is cut short would have to go on with the byte
    match rest, hs with
    | [], _ =>
      cases t with
      | nil => rfl
      | cons b t => simp [unescape_percent, h]
    | [a], _ => simp [unescape_percent, h]
    | a :: b :: rest, hs => exact absurd rfl (hs a b rest)
  | case4 d rest hd ih =>
    rw [List.cons_append, unescape_cons hd, ih]
    cases unescape rest <;> simp [Function.comp_def]

end Cut

end Codohue.Url
