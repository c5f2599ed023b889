import Codohue.Pages
import Mathlib.Data.List.Sort

/-!
Reading a collection page by page in the order of a key, each page from a cursor on:
`WHERE key > after ORDER BY key LIMIT limit OFFSET offset`.

Of the elements beyond the cursor, a page without an offset holds the first. One that it leaves out
is beyond all that it holds, so it is beyond the cursor of the next page.
-/

namespace Codohue.Keyset

variable {α K : Type*} [LinearOrder K]

/-- Without a cursor every key is beyond it. -/
def Beyond : Option K → K → Prop
  | none, _ => True
  | some c, k => c < k

instance : ∀ (after : Option K) (k : K), Decidable (Beyond after k)
  | none, _ => isTrue trivial
  | some c, k => inferInstanceAs (Decidable (c < k))

lemma Beyond.mono {after : Option K} (h : Beyond after k) (hle : k ≤ k') : Beyond after k' := by
  cases after with
  | none => trivial
  | some c => exact lt_of_lt_of_le h hle

section Page

variable (key : α → K)

def ordered (rows : List α) : List α := rows.insertionSort fun a b => key a ≤ key b

def page (after : Option K) (limit offset : ℕ) (rows : List α) : List α :=
  Pages.page (ordered key (rows.filter fun r => Beyond after (key r))) offset limit

variable {key}

@[simp] lemma mem_ordered : r ∈ ordered key rows ↔ r ∈ rows :=
  List.mem_insertionSort _

lemma pairwise_ordered (rows : List α) : (ordered key rows).Pairwise fun a b => key a ≤ key b := by
  have ht : IsTrans α fun a b => key a ≤ key b := ⟨fun _ _ _ => le_trans⟩
  have hto : Std.Total fun a b : α => key a ≤ key b := ⟨fun a b => le_total (key a) (key b)⟩
  exact List.pairwise_insertionSort _ rows

variable {after : Option K} {limit : ℕ} {rows : List α}

lemma page_spec (h : r ∈ page key after limit offset rows) : r ∈ rows ∧ Beyond after (key r) := by
  have hm := mem_ordered.mp (Pages.mem_of_mem_page h)
  simpa using hm

lemma nodup_page (h : rows.Nodup) : (page key after limit offset rows).Nodup := by
  have ho : (ordered key (rows.filter fun r => Beyond after (key r))).Nodup :=
    (List.perm_insertionSort _ _).nodup_iff.mpr (h.filter _)
  exact (ho.sublist (List.drop_sublist _ _)).sublist (List.take_sublist _ _)

/-- What a page leaves out comes after all that it holds, and the page is full. -/
lemma mem_page_or (hr : r ∈ rows) (hb : Beyond after (key r)) : r ∈ page key after limit 0 rows ∨
      (page key after limit 0 rows).length = limit ∧
        ∀ x ∈ page key after limit 0 rows, key x ≤ key r := by
  set l := ordered key (rows.filter fun r => Beyond after (key r)) with hl
  have hm : r ∈ l := by simp [hl, hr, hb]
  have hp : page key after limit 0 rows = l.take limit := Pages.page_zero l limit
  rw [hp]
  rw [← List.take_append_drop limit l] at hm
  rcases List.mem_append.mp hm with ht | hd
  · exact .inl ht
  · have hs : (l.take limit ++ l.drop limit).Pairwise fun a b => key a ≤ key b := by
      rw [List.take_append_drop]
      exact pairwise_ordered _
    have hlo : limit < l.length := by
      by_contra hsh
      rw [List.drop_eq_nil_of_le (not_lt.mp hsh)] at hd
      cases hd
    refine .inr ⟨by rw [List.length_take, min_eq_left hlo.le], fun x hx => ?_⟩
    exact (List.pairwise_append.mp hs).2.2 x hx r hd

/-- The last element of a page has its greatest key. -/
lemma le_key_last (hla : (page key after limit offset rows).getLast? = some last)
    (hx : x ∈ page key after limit offset rows) : key x ≤ key last := by
  set l := page key after limit offset rows with hl
  have hs : l.Pairwise fun a b => key a ≤ key b :=
    ((pairwise_ordered _).sublist (List.drop_sublist _ _)).sublist (List.take_sublist _ _)
  have hne : l ≠ [] := List.ne_nil_of_mem hx
  rw [List.getLast?_eq_some_getLast hne] at hla
  cases hla
  rw [← List.dropLast_append_getLast hne] at hs hx
  rcases List.mem_append.mp hx with hi | he
  · exact (List.pairwise_append.mp hs).2.2 x hi _ List.mem_cons_self
  · rw [List.mem_singleton.mp he]

/-- The cursor after a page: `none` at the end of the walk, which a page that is not full shows. -/
def nextCursor (key : α → K) (limit : ℕ) (rows : List α) : Option (Option K) :=
  if rows.length = limit then some (rows.getLast?.map key) else none

/-- A walk that stands at the cursor still comes to the key. -/
def Ahead : Option (Option K) → K → Prop
  | none, _ => False
  | some after, k => Beyond after k

lemma Ahead.mono {position : Option (Option K)} (h : Ahead position k) (hle : k ≤ k') :
    Ahead position k' := by
  cases position with
  | none => exact h
  | some after => exact Beyond.mono h hle

/-- **What a page leaves out is what is still ahead after it.** -/
theorem ahead_nextCursor (hli : 0 < limit) (hr : r ∈ rows)
    (hk : ∀ x ∈ rows, key x = key r → x = r) :
    Ahead (nextCursor key limit (page key after limit 0 rows)) (key r) ↔
      Beyond after (key r) ∧ r ∉ page key after limit 0 rows := by
  set l := page key after limit 0 rows with hl
  rw [nextCursor]
  split_ifs with hf
  · have hne : l ≠ [] := List.ne_nil_of_length_pos (hf ▸ hli)
    have hla : l.getLast? = some (l.getLast hne) := List.getLast?_eq_some_getLast hne
    have hm : l.getLast hne ∈ l := List.getLast_mem hne
    rw [hla]
    constructor
    · intro hlt
      refine ⟨(page_spec hm).2.mono (le_of_lt hlt), fun hin => ?_⟩
      exact absurd (le_key_last hla hin) (not_le.mpr hlt)
    · rintro ⟨hb, ho⟩
      have hle := ((mem_page_or hr hb).resolve_left ho).2 _ hm
      refine lt_of_le_of_ne hle fun heq => ho ?_
      rwa [← hk _ (page_spec hm).1 heq]
  · simp only [Ahead, false_iff, not_and, not_not]
    exact fun hb => (mem_page_or hr hb).resolve_right fun h => hf h.1

end Page

end Codohue.Keyset
