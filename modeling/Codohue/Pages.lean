import Mathlib.Data.List.Perm.Subperm
import Mathlib.Order.Lattice

/-!
Windows of a list, and windows of a filtered list of which only a beginning has been read.
-/

namespace Codohue.Pages

variable {α β : Type*}

variable {l : List α} {offset limit : ℕ}

/-- The elements at the positions from `offset` on, at most `limit` of them. -/
def page (l : List α) (offset limit : ℕ) : List α := (l.drop offset).take limit

@[simp] lemma page_nil (offset limit : ℕ) : page ([] : List α) offset limit = [] := by
  simp [page]

lemma page_zero (l : List α) (limit : ℕ) : page l 0 limit = l.take limit := by
  simp [page]

lemma page_eq_nil : page l offset limit = [] ↔ limit = 0 ∨ l.length ≤ offset := by
  simp [page]

/-- A window depends on the elements before its end alone. -/
lemma page_congr (h : l.take (offset + limit) = l'.take (offset + limit)) :
    page l offset limit = page l' offset limit := by
  have hw : ∀ l : List α, page l offset limit = (l.take (offset + limit)).drop offset := by
    intro l
    rw [page, List.drop_take, Nat.add_sub_cancel_left]
  rw [hw, hw, h]

lemma mem_of_mem_page (h : x ∈ page l offset limit) : x ∈ l :=
  List.mem_of_mem_drop (List.mem_of_mem_take h)

lemma map_page (f : α → β) (l : List α) (offset limit : ℕ) :
    (page l offset limit).map f = page (l.map f) offset limit := by
  simp [page, List.map_take, List.map_drop]

/-- Numbering the elements of a window from its start is numbering those of the list. -/
lemma mapIdx_page (f : ℕ → α → β) (l : List α) (offset limit : ℕ) :
    (page l offset limit).mapIdx (fun i a => f (offset + i) a) =
      page (l.mapIdx f) offset limit := by
  refine List.ext_getElem ?_ fun i h₁ h₂ => ?_
  · simp [page]
  · simp [page, List.getElem_take, List.getElem_drop]

section Filter

variable [DecidableEq β] {key : α → β} {excluded : List β} {l : List α}

/-- The elements whose key is not excluded. -/
def keep (key : α → β) (excluded : List β) (l : List α) : List α :=
  l.filter fun a => key a ∉ excluded

@[simp] lemma keep_nil (l : List α) : keep key [] l = l := by
  simp [keep]

/-- Of elements with distinct keys, at most as many drop out as keys are excluded. -/
lemma length_le_keep (h : (l.map key).Nodup) :
    l.length ≤ (keep key excluded l).length + excluded.length := by
  have hd : (l.filter fun a => key a ∈ excluded).length ≤ excluded.length := by
    have hn : ((l.filter fun a => key a ∈ excluded).map key).Nodup :=
      h.sublist (List.filter_sublist.map key)
    have hsu : (l.filter fun a => key a ∈ excluded).map key ⊆ excluded := by
      intro b hb
      obtain ⟨a, ha, rfl⟩ := List.mem_map.mp hb
      simpa using (List.mem_filter.mp ha).2
    simpa using (hn.subperm hsu).length_le
  have hs := List.length_eq_length_filter_add (l := l) fun a => decide (key a ∉ excluded)
  have hne : (l.filter fun a => !decide (key a ∉ excluded)) =
      l.filter fun a => key a ∈ excluded := by
    refine List.filter_congr fun a _ => ?_
    by_cases hm : key a ∈ excluded <;> simp [hm]
  rw [hne] at hs
  unfold keep
  omega

/-- What is kept of a beginning with headroom for all that drops out is enough for `n` elements. -/
lemma take_keep_take (h : (l.map key).Nodup) (hN : n + excluded.length ≤ N) :
    (keep key excluded (l.take N)).take n = (keep key excluded l).take n := by
  rcases le_total l.length N with hl | hl
  · rw [List.take_of_length_le hl]
  have he : n ≤ (keep key excluded (l.take N)).length := by
    have hn : ((l.take N).map key).Nodup := h.sublist ((List.take_sublist N l).map key)
    have hk : (l.take N).length ≤ (keep key excluded (l.take N)).length + excluded.length :=
      length_le_keep hn
    rw [List.length_take, min_eq_left hl] at hk
    omega
  have hs : keep key excluded l = keep key excluded (l.take N) ++ keep key excluded (l.drop N) := by
    unfold keep
    rw [← List.filter_append, List.take_append_drop]
  rw [hs, List.take_append_of_le_length he]

/-- A window of what is kept can be cut from a beginning with headroom. -/
lemma page_keep_take (h : (l.map key).Nodup) (hN : offset + limit + excluded.length ≤ N) :
    page (keep key excluded (l.take N)) offset limit = page (keep key excluded l) offset limit :=
  page_congr (take_keep_take h hN)

/-- The beginning with headroom keeps something if anything is kept at all. -/
lemma keep_take_eq_nil (h : (l.map key).Nodup) (hN : excluded.length < N) :
    keep key excluded (l.take N) = [] ↔ keep key excluded l = [] := by
  constructor
  · intro hn
    have ht := take_keep_take h (show 1 + excluded.length ≤ N by omega)
    rw [hn, List.take_nil] at ht
    cases hk : keep key excluded l with
    | nil => rfl
    | cons a rest =>
      rw [hk] at ht
      cases ht
  · intro hn
    have hs : (keep key excluded (l.take N)).Sublist (keep key excluded l) :=
      (List.take_sublist N l).filter _
    rw [hn] at hs
    exact List.sublist_nil.mp hs

end Filter

end Codohue.Pages
