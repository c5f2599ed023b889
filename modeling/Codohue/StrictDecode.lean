import Codohue.Url
import Mathlib.Data.List.TakeWhile

/-!
`DecodeStrictMax`: one JSON value of bounded size from the body of a request.

The decoder of `encoding/json` is a parameter, with what it is known for. It only sees the first
bytes of the body, and takes the end of those for the end of the body.
-/

namespace Codohue.StrictDecode

open Url

/-- The blanks of JSON. -/
def blank (c : UInt8) : Bool := c = 32 || c = 9 || c = 13 || c = 10

def Blank (s : Bytes) : Prop := ∀ c ∈ s, blank c = true

instance (s : Bytes) : Decidable (Blank s) := inferInstanceAs (Decidable (∀ c ∈ s, _))

/-- What `readValue` of the decoder finds in the bytes that are left. -/
inductive Read where
  | eof
  | fail
  | value (text rest : Bytes)
  deriving DecidableEq, Repr

structure Json where
  Value : Bytes → Prop
  readValue : Bytes → Read
  /-- The value fits the target, and has no unknown field. -/
  stores : Bytes → Bool
  /-- The value fits a target of any type. -/
  storesAny : Bytes → Bool
  eof_iff {s : Bytes} : readValue s = .eof ↔ Blank s
  eq_of_value {s text rest : Bytes} : readValue s = .value text rest →
    ∃ b, Blank b ∧ s = b ++ text ++ rest ∧ Value text
  value_of_blank {b text b' : Bytes} : Blank b → Value text → Blank b' →
    readValue (b ++ text ++ b') = .value text b'

inductive DecodeError where
  | bodyTooLarge
  | body
  | trailing
  | unexpected
  deriving DecidableEq, Repr

/-- The error of a decoder; `spent` tells whether the reader was at its limit by then. -/
def failed (spent : Bool) (e : DecodeError) : Except DecodeError Unit :=
  .error (if spent then .bodyTooLarge else e)

def decodeStrictMax (J : Json) (stream : Bytes) (maxBytes : ℤ) (spent spent' : Bool) :
    Except DecodeError Unit :=
  if maxBytes ≤ 0 then .error .bodyTooLarge
  else
    match J.readValue (stream.take (maxBytes + 1).toNat) with
    | .eof | .fail => failed spent .body
    | .value text rest =>
      if J.stores text then
        match J.readValue rest with
        | .eof => .ok ()
        | .fail => failed spent' .trailing
        | .value text' _ =>
          if J.storesAny text' then .error .unexpected else failed spent' .trailing
      else failed spent .body

/-- One value that the target takes, with blanks around it. -/
def OneValue (J : Json) (s : Bytes) : Prop :=
  ∃ b text b', s = b ++ text ++ b' ∧ Blank b ∧ Blank b' ∧ J.Value text ∧ J.stores text

/-- The decoder judges the first bytes of the body as if they were all of it. -/
lemma decodeStrictMax_eq_ok (h : 1 ≤ maxBytes) :
    decodeStrictMax J stream maxBytes spent spent' = .ok () ↔
      OneValue J (stream.take (maxBytes + 1).toNat) := by
  constructor
  · intro hd
    unfold decodeStrictMax at hd
    split_ifs at hd
    split at hd
    · cases hd
    · cases hd
    · rename_i text rest hr
      split_ifs at hd with hs
      · split at hd
        · rename_i hr'
          obtain ⟨b, hb, he, hv⟩ := J.eq_of_value hr
          exact ⟨b, text, rest, he, hb, J.eof_iff.mp hr', hv, hs⟩
        · cases hd
        · split_ifs at hd
          cases hd
      · cases hd
  · rintro ⟨b, text, b', he, hb, hb', hv, hs⟩
    have hr := J.value_of_blank hb hv hb'
    have hm : ¬ maxBytes ≤ 0 := by omega
    rw [← he] at hr
    simp [decodeStrictMax, hm, hr, hs, J.eof_iff.mpr hb']

/-- **What is accepted is one value within the limit**, unless the body is longer and its first
`maxBytes + 1` bytes are such a value by themselves: then it is accepted whatever follows. -/
theorem decodeStrictMax_sound_iff (J : Json) (stream : Bytes) (maxBytes : ℤ) (spent spent' : Bool)
    (h : 1 ≤ maxBytes) :
    (decodeStrictMax J stream maxBytes spent spent' = .ok () →
      stream.length ≤ maxBytes ∧ OneValue J stream) ↔
    (stream.length ≤ maxBytes ∨ ¬ OneValue J (stream.take (maxBytes + 1).toNat)) := by
  rw [decodeStrictMax_eq_ok h]
  by_cases hl : stream.length ≤ maxBytes
  · rw [List.take_of_length_le (by omega)]
    simp [hl]
  · simp [hl]

/-! ### Runs of digits -/

def nonzero (c : UInt8) : Bool := 49 ≤ c && c ≤ 57

lemma not_blank {c : UInt8} (h : nonzero c = true) : blank c = false := by
  have h9 : (49 : UInt8) ≤ c := by simp [nonzero] at h; exact h.1
  have hb : ∀ d : UInt8, d < 49 → c ≠ d := fun d hd he => absurd h9 (by simpa [he] using hd)
  simp [blank, hb 32 (by decide), hb 9 (by decide), hb 13 (by decide), hb 10 (by decide)]

/-- The decoder, on streams of blanks and nonzero digits. -/
def digits : Json where
  Value text := text ≠ [] ∧ text.all nonzero
  readValue s :=
    let s' := s.dropWhile blank
    if s' = [] then .eof
    else
      let text := s'.takeWhile nonzero
      if text = [] then .fail else .value text (s'.dropWhile nonzero)
  stores _ := true
  storesAny _ := true
  eof_iff {s} := by
    rw [Blank, ← List.dropWhile_eq_nil_iff]
    dsimp only
    split_ifs <;> simp_all
  eq_of_value {s text rest} h := by
    dsimp only at h
    split_ifs at h with he ht
    cases h
    refine ⟨s.takeWhile blank, fun c hc => List.mem_takeWhile_imp hc, ?_, ht, ?_⟩
    · rw [List.append_assoc, List.takeWhile_append_dropWhile, List.takeWhile_append_dropWhile]
    · exact List.all_eq_true.mpr fun c hc => List.mem_takeWhile_imp hc
  value_of_blank {b text b'} hb ht hb' := by
    obtain ⟨hne, hd⟩ := ht
    have hd := List.all_eq_true.mp hd
    have hs : (b ++ text ++ b').dropWhile blank = text ++ b' := by
      rw [List.append_assoc, List.dropWhile_append_of_pos hb]
      obtain ⟨c, text, rfl⟩ := List.exists_cons_of_ne_nil hne
      exact List.dropWhile_cons_of_neg (by simpa using not_blank (hd c List.mem_cons_self))
    have hn : b'.takeWhile nonzero = [] ∧ b'.dropWhile nonzero = b' := by
      cases b' with
      | nil => exact ⟨rfl, rfl⟩
      | cons c b' =>
        have hc : nonzero c = false := by
          by_contra hc
          simpa [not_blank (by simpa using hc)] using hb' c List.mem_cons_self
        simp [hc]
    have ht : text ++ b' ≠ [] := by simp [hne]
    simp only [hs, List.takeWhile_append_of_pos hd, List.dropWhile_append_of_pos hd, hn,
      List.append_nil, ht, hne, if_false]

/-- "1" within a limit of one byte. -/
theorem decodeStrictMax_sound_one :
    decodeStrictMax digits [49] 1 false false = .ok () ∧ ([49] : Bytes).length ≤ (1 : ℤ) ∧
      OneValue digits [49] := by
  have hok : decodeStrictMax digits [49] 1 false false = .ok () := by decide
  exact ⟨hok, (decodeStrictMax_sound_iff digits [49] 1 false false le_rfl).mpr
    (.inl (by decide)) hok⟩

/-- The limit is one byte: of "1 2" the decoder sees "1 ". -/
theorem trailing_accepted : decodeStrictMax digits ([49] ++ [32, 50]) 1 false false = .ok () ∧
    digits.Value [49] ∧ ¬ Blank [32, 50] ∧ ¬ ([49] ++ [32, 50] : Bytes).length ≤ 1 := by
  exact ⟨by decide, ⟨by decide, by decide⟩, by decide, by decide⟩

end Codohue.StrictDecode
