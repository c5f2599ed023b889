import Codohue.RecommendScores
import Mathlib.Data.Finset.Card

/-!
`blendItems`: four passes over two lists share one page and what it has seen.

Every pass appends the first elements of its list that the page does not have yet. The last two may
take all the room that is left, so a page that stays short has everything of both lists.
-/

namespace Codohue.Recommend

/-- The elements that are not in the page yet, each at its first occurrence. -/
def unseen (result items : List String) : List String := (items.removeAll result).eraseDups

section Pass

lemma mem_unseen : x ∈ unseen result items ↔ x ∈ items ∧ x ∉ result := by
  simp [unseen, List.removeAll]

lemma nodup_eraseDups (l : List String) : l.eraseDups.Nodup := by
  induction hn : l.length using Nat.strong_induction_on generalizing l with
  | _ n ih =>
    cases l with
    | nil => simp
    | cons a l =>
      have hl := List.length_filter_le (fun b => !b == a) l
      rw [List.length_cons] at hn
      rw [List.eraseDups_cons, List.nodup_cons]
      refine ⟨?_, ih _ (by omega) _ rfl⟩
      simp

lemma unseen_cons_of_mem (h : x ∈ result) : unseen result (x :: items) = unseen result items := by
  simp [unseen, List.removeAll, h]

lemma unseen_cons_of_notMem (h : x ∉ result) :
    unseen result (x :: items) = x :: unseen (result ++ [x]) items := by
  have hr : (items.removeAll result).filter (fun b => !b == x) =
      items.removeAll (result ++ [x]) := by
    simp only [List.removeAll, List.filter_filter]
    refine List.filter_congr fun b _ => ?_
    by_cases hb : b = x <;> simp [hb]
  rw [unseen, List.removeAll, List.filter_cons_of_pos (by simpa using h), List.eraseDups_cons]
  exact congrArg (fun l => x :: l.eraseDups) hr

/-- A pass appends a beginning of what the page has not seen. -/
lemma take_eq (limit : ℕ) (items : List String) (n : ℤ) (result : List String) :
    take limit items n result =
      result ++ (unseen result items).take (min n.toNat (limit - result.length)) := by
  induction items generalizing n result with
  | nil => simp [take, unseen, List.removeAll]
  | cons item items ih =>
    rw [take]
    split_ifs with hf hn hm
    · rw [Nat.sub_eq_zero_of_le hf, Nat.min_zero, List.take_zero, List.append_nil]
    · rw [Int.toNat_of_nonpos hn, Nat.zero_min, List.take_zero, List.append_nil]
    · rw [ih, unseen_cons_of_mem hm]
    · have hr : min n.toNat (limit - result.length) =
          min (n - 1).toNat (limit - (result ++ [item]).length) + 1 := by
        rw [List.length_append, List.length_singleton]
        omega
      rw [ih, unseen_cons_of_notMem hm, hr, List.take_succ_cons, List.append_assoc]
      rfl

lemma nodup_take (h : result.Nodup) : (take limit items n result).Nodup := by
  rw [take_eq, List.nodup_append]
  refine ⟨h, (nodup_eraseDups _).sublist (List.take_sublist _ _), fun a ha b hb heq => ?_⟩
  exact (mem_unseen.mp (List.mem_of_mem_take hb)).2 (heq ▸ ha)

lemma length_take_le (h : result.length ≤ limit) : (take limit items n result).length ≤ limit := by
  rw [take_eq, List.length_append, List.length_take]
  omega

lemma prefix_take : result <+: take limit items n result := by
  rw [take_eq]
  exact List.prefix_append _ _

lemma mem_of_mem_take (h : x ∈ take limit items n result) : x ∈ items ∨ x ∈ result := by
  rw [take_eq, List.mem_append] at h
  exact h.symm.imp_left fun hx => (mem_unseen.mp (List.mem_of_mem_take hx)).1

/-- A pass that may take all the room either fills the page or takes its whole list. -/
lemma length_take_or (h : result.length ≤ limit) :
    (take limit items (limit - result.length) result).length = limit ∨
      items ⊆ take limit items (limit - result.length) result := by
  have hr : min (limit - result.length : ℤ).toNat (limit - result.length) =
      limit - result.length := by omega
  rw [take_eq, hr]
  rcases le_total (limit - result.length) (unseen result items).length with hl | hl
  · left
    rw [List.length_append, List.length_take]
    omega
  · right
    intro x hx
    rw [List.take_of_length_le hl, List.mem_append, mem_unseen]
    exact (em (x ∈ result)).imp id fun hn => ⟨hx, hn⟩

end Pass

section Blend

lemma mem_of_mem_blendShares {popularCount : ℕ}
    (h : x ∈ blendShares popular cf popularCount limit) : x ∈ popular ∨ x ∈ cf := by
  rcases mem_of_mem_take h with hx | hx
  · exact .inr hx
  rcases mem_of_mem_take hx with hx | hx
  · exact .inl hx
  rcases mem_of_mem_take hx with hx | hx
  · exact .inr hx
  rcases mem_of_mem_take hx with hx | hx
  · exact .inl hx
  · cases hx

variable (popular cf : List String) {popularCount limit : ℕ} (h : popularCount ≤ limit)

/-- The popular share of the blend. -/
def popularShare (popularCount : ℕ) : List String := popular.eraseDups.take popularCount

/-- The other share: the first elements of `cf` that the popular share does not have. -/
def cfShare (popularCount limit : ℕ) : List String :=
  (unseen (popularShare popular popularCount) cf).take (limit - popularCount)

include h

lemma shares_eq : take limit cf (limit - popularCount) (take limit popular popularCount []) =
    popularShare popular popularCount ++ cfShare popular cf popularCount limit := by
  have hp : take limit popular popularCount [] = popularShare popular popularCount := by
    have hr : min (popularCount : ℤ).toNat (limit - ([] : List String).length) = popularCount := by
      rw [List.length_nil]
      omega
    have ha : unseen [] popular = popular.eraseDups := by simp [unseen, List.removeAll]
    rw [take_eq, hr, ha, List.nil_append]
    rfl
  have hs : (popularShare popular popularCount).length ≤ popularCount := List.length_take_le _ _
  have hr : min (limit - popularCount : ℤ).toNat
      (limit - (popularShare popular popularCount).length) = limit - popularCount := by omega
  rw [hp, take_eq, hr]
  rfl

/-- The blend has no duplicates and only elements of the two lists; it fills the page as far as they
reach; it begins with the popular share, and has the other share too. -/
theorem blendShares_fills : (blendShares popular cf popularCount limit).Nodup ∧
    (∀ x ∈ blendShares popular cf popularCount limit, x ∈ popular ∨ x ∈ cf) ∧
    (blendShares popular cf popularCount limit).length = min limit (popular ++ cf).toFinset.card ∧
    popularShare popular popularCount <+: blendShares popular cf popularCount limit ∧
    cfShare popular cf popularCount limit ⊆ blendShares popular cf popularCount limit := by
  have hle : (take limit cf (limit - popularCount)
      (take limit popular popularCount [])).length ≤ limit :=
    length_take_le (length_take_le (Nat.zero_le _))
  have hn : (take limit cf (limit - popularCount) (take limit popular popularCount [])).Nodup :=
    nodup_take (nodup_take .nil)
  unfold blendShares
  dsimp only
  rw [shares_eq popular cf h] at hle hn ⊢
  generalize hs : popularShare popular popularCount ++ cfShare popular cf popularCount limit =
    shares at hle hn ⊢
  generalize hf : take limit popular (limit - shares.length) shares = filled
  have hfl : filled.length ≤ limit := hf ▸ length_take_le hle
  have hfi : filled.length = limit ∨ popular ⊆ filled := hf ▸ length_take_or hle
  generalize hb : take limit cf (limit - filled.length) filled = blend
  have hbn : blend.Nodup := hb ▸ nodup_take (hf ▸ nodup_take hn)
  have hbl : blend.length ≤ limit := hb ▸ length_take_le hfl
  have hse : blend.length = limit ∨ cf ⊆ blend := hb ▸ length_take_or hfl
  have hp : filled <+: blend := hb ▸ prefix_take
  have hsp : popularShare popular popularCount ++ cfShare popular cf popularCount limit <+:
      blend := hs ▸ (hf ▸ prefix_take : shares <+: filled).trans hp
  have hsu : ∀ x ∈ blend, x ∈ popular ∨ x ∈ cf := fun x hx => mem_of_mem_blendShares (by
    unfold blendShares
    dsimp only
    rwa [shares_eq popular cf h, hs, hf, hb])
  refine ⟨hbn, hsu, ?_, ?_, ?_⟩
  · have hc : blend.toFinset.card = blend.length := List.toFinset_card_of_nodup hbn
    have hu : blend.length ≤ (popular ++ cf).toFinset.card := by
      rw [← hc]
      refine Finset.card_le_card fun x hx => ?_
      simpa using hsu x (List.mem_toFinset.mp hx)
    -- a page that is short has both lists
    have hl : blend.length = limit ∨ (popular ++ cf).toFinset.card ≤ blend.length := by
      have hlen := hp.length_le
      rcases hse with hfu | hcf
      · exact .inl hfu
      rcases hfi with hfu | hpo
      · exact .inl (by omega)
      refine .inr (hc ▸ Finset.card_le_card fun x hx => List.mem_toFinset.mpr ?_)
      rcases List.mem_append.mp (List.mem_toFinset.mp hx) with hx | hx
      · exact hp.subset (hpo hx)
      · exact hcf hx
    omega
  · exact (List.prefix_append _ _).trans hsp
  · exact List.Subset.trans (List.subset_append_right _ _) hsp.subset

end Blend

/-- The popular list is short, and repeats an element that the other list has too. -/
theorem blendShares_fills_repeated :
    blendShares ["p", "p", "c"] ["c", "d", "e"] 3 4 = ["p", "c", "d", "e"] ∧
    (blendShares ["p", "p", "c"] ["c", "d", "e"] 3 4).length =
      min 4 (["p", "p", "c"] ++ ["c", "d", "e"]).toFinset.card :=
  ⟨by decide, (blendShares_fills ["p", "p", "c"] ["c", "d", "e"] (by decide)).2.2.1⟩

end Codohue.Recommend
