import Mathlib.Algebra.BigOperators.Group.List.Basic
import Mathlib.Data.Nat.Cast.Basic
import Mathlib.Data.Multiset.MapFold
import Codohue.RepairTypes
import Codohue.Text

/-!
What the hash of a manifest pins.

The texts of a decision are joined with one separator and the decisions with another, and neither
is escaped. The hash tells two manifests apart as long as their texts do not contain the first; the
second does no harm, since a decision ends with a number.
-/

namespace Codohue.Repair

/-- What was decided, whatever the order of the old ids. -/
structure Pinned where
  ns : String
  entityType : String
  stringID : String
  oldNumericIDs : Multiset ℤ
  targetNumericID : Option ℤ
  deriving DecidableEq

def Entry.pinned (e : Entry) : Pinned where
  ns := e.ns
  entityType := e.entityType
  stringID := e.stringID
  oldNumericIDs := e.oldNumericIDs
  targetNumericID := e.targetNumericID

/-- The decisions of a manifest, whatever the order of its items. -/
def decisions (entries : List Entry) : Multiset Pinned := entries.map Entry.pinned

/-- The separator of the fields does not occur. -/
def Separable (text : String) : Prop := '\x1f' ∉ text.toList

instance (text : String) : Decidable (Separable text) := inferInstanceAs (Decidable (¬ _))

def Entry.Separable (e : Entry) : Prop :=
  Repair.Separable e.ns ∧ Repair.Separable e.entityType ∧ Repair.Separable e.stringID

instance (e : Entry) : Decidable e.Separable := inferInstanceAs (Decidable (_ ∧ _ ∧ _))

/-! ### Numbers -/

lemma ne_of_mem_toString {n : ℤ} {a b : Char} (h : a ∈ (toString n).toList)
    (hd : b.isDigit = false) (hda : b ≠ '-') : a ≠ b := by
  rintro rfl
  rcases Text.mem_toString_int h with hm | hm
  · exact absurd hm (Bool.eq_false_iff.mp hd)
  · exact hda hm

lemma not_mem_target (e : Entry) {ch : Char} (hd : ch.isDigit = false) (hda : ch ≠ '-')
    (hn : ch ∉ "none".toList) : ch ∉ e.target.toList := by
  unfold Entry.target
  split
  · exact hn
  · exact fun h => ne_of_mem_toString h hd hda rfl

lemma target_inj {e e' : Entry} (h : e.target = e'.target) :
    e.targetNumericID = e'.targetNumericID := by
  have hn : ∀ n : ℤ, "none" ≠ toString n := by
    intro n heq
    have hm : 'n' ∈ (toString n).toList := heq ▸ (by decide : 'n' ∈ "none".toList)
    exact ne_of_mem_toString hm rfl (by decide) rfl
  unfold Entry.target at h
  cases ht : e.targetNumericID with
  | none =>
    cases ht' : e'.targetNumericID with
    | none => rfl
    | some n => exact absurd (by simpa only [ht, ht'] using h) (hn n)
  | some n =>
    cases ht' : e'.targetNumericID with
    | none => exact absurd (by simpa only [ht, ht'] using h.symm) (hn n)
    | some m =>
      rw [ht, ht'] at h
      rw [Text.toString_int_injective h]

lemma separable_olds (e : Entry) : Separable e.olds := by
  intro h
  rcases Text.mem_of_mem_join rfl h with hc | ⟨text, ht, hch⟩
  · exact absurd hc (by decide)
  · obtain ⟨n, -, rfl⟩ := List.mem_map.mp ht
    exact ne_of_mem_toString hch rfl (by decide) rfl

lemma insertionSort_eq_iff {α : Type} [LinearOrder α] {l l' : List α} :
    l.insertionSort (· ≤ ·) = l'.insertionSort (· ≤ ·) ↔ l.Perm l' := by
  constructor
  · intro h
    exact (List.perm_insertionSort _ l).symm.trans (h ▸ List.perm_insertionSort _ l')
  · intro h
    refine List.Perm.eq_of_pairwise (fun _ _ _ _ => le_antisymm) (List.pairwise_insertionSort _ _)
      (List.pairwise_insertionSort _ _) ?_
    exact (List.perm_insertionSort _ l).trans (h.trans (List.perm_insertionSort _ l').symm)

lemma olds_inj {e e' : Entry} (h : e.olds = e'.olds) : e.oldNumericIDs.Perm e'.oldNumericIDs := by
  have ht : ∀ (l : List ℤ), ∀ text ∈ l.map toString, ',' ∉ text.toList ∧ text ≠ "" := by
    intro l
    refine List.forall_mem_map.mpr fun n _ => ⟨fun hm => ?_, Text.toString_int_ne_empty n⟩
    exact ne_of_mem_toString hm rfl (by decide) rfl
  have hma := Text.join_inj rfl (fun a ha b hb c d hcd => ?_) (fun hm => (ht _ _ hm).2 rfl)
    (fun hm => (ht _ _ hm).2 rfl) h
  · exact insertionSort_eq_iff.mp (List.map_injective_iff.mpr Text.toString_int_injective hma)
  · exact (Text.cut (ht _ a ha).1 (ht _ b hb).1 hcd).imp_left String.toList_inj.mp

/-! ### Keys -/

section Keys

variable {e e' : Entry}

lemma toList_key (e : Entry) : e.key.toList = e.ns.toList ++ '\x1f' :: (e.entityType.toList ++
    '\x1f' :: (e.stringID.toList ++ '\x1f' :: (e.olds.toList ++ '\x1f' :: e.target.toList))) := by
  simp [Entry.key, Entry.fields]

/-- Fields without their separator can be read off a key, and the key ends at the first separator
of keys behind its last field. -/
lemma key_cut (h : e.Separable) (h' : e'.Separable)
    (hk : e.key.toList ++ '\x1e' :: c = e'.key.toList ++ '\x1e' :: d) :
    e.pinned = e'.pinned ∧ c = d := by
  have ht : ∀ e : Entry, '\x1e' ∉ e.target.toList := fun e =>
    not_mem_target e rfl (by decide) (by decide)
  simp only [toList_key, List.append_assoc, List.cons_append] at hk
  obtain ⟨hns, hk⟩ := Text.cut h.1 h'.1 hk
  obtain ⟨hty, hk⟩ := Text.cut h.2.1 h'.2.1 hk
  obtain ⟨hid, hk⟩ := Text.cut h.2.2 h'.2.2 hk
  obtain ⟨hol, hk⟩ := Text.cut (separable_olds e) (separable_olds e') hk
  obtain ⟨hta, hcd⟩ := Text.cut (ht e) (ht e') hk
  simp only [String.toList_inj] at hns hty hid hol hta
  simp only [Entry.pinned, Pinned.mk.injEq, Multiset.coe_eq_coe]
  exact ⟨⟨hns, hty, hid, olds_inj hol, target_inj hta⟩, hcd⟩

lemma key_congr (h : e.pinned = e'.pinned) : e.key = e'.key := by
  simp only [Entry.pinned, Pinned.mk.injEq, Multiset.coe_eq_coe] at h
  obtain ⟨hns, hty, hid, holds, ht⟩ := h
  have hs := insertionSort_eq_iff.mpr holds
  simp only [Entry.key, Entry.fields, Entry.olds, Entry.target, hns, hty, hid, hs, ht]

lemma key_ne_empty (e : Entry) : e.key ≠ "" := by
  intro he
  have hl := congrArg String.toList he
  rw [toList_key] at hl
  simp at hl

lemma split_of_not_separable {text : String} (h : ¬ Separable text) :
    ∃ a b : String, text = a ++ "\x1f" ++ b := by
  obtain ⟨a, b, hab⟩ := List.append_of_mem (not_not.mp h)
  refine ⟨String.ofList a, String.ofList b, String.toList_inj.mp ?_⟩
  simp [hab]

lemma ne_append_sep (a b : String) : a ≠ a ++ "\x1f" ++ b := by
  intro h
  have hl := congrArg (fun text : String => text.toList.length) h
  simp at hl

/-- A field that contains the separator can end there, and then the key is that of another
decision. -/
lemma exists_key_eq (h : ¬ e.Separable) : ∃ e' : Entry, e'.key = e.key ∧ e'.pinned ≠ e.pinned := by
  suffices hs : ∃ e' : Entry, e'.key = e.key ∧ e'.ns ≠ e.ns by
    obtain ⟨e', hk, hne⟩ := hs
    exact ⟨e', hk, fun hp => hne (congrArg Pinned.ns hp)⟩
  by_cases hns : Separable e.ns
  · by_cases hty : Separable e.entityType
    · obtain ⟨a, b, hid⟩ := split_of_not_separable fun hid => h ⟨hns, hty, hid⟩
      refine ⟨{ e with ns := e.ns ++ "\x1f" ++ e.entityType, entityType := a, stringID := b },
        ?_, (ne_append_sep _ _).symm⟩
      rw [← String.toList_inj, toList_key, toList_key, hid]
      simp [Entry.olds, Entry.target]
    · obtain ⟨a, b, hab⟩ := split_of_not_separable hty
      refine ⟨{ e with ns := e.ns ++ "\x1f" ++ a, entityType := b }, ?_, (ne_append_sep _ _).symm⟩
      rw [← String.toList_inj, toList_key, toList_key, hab]
      simp [Entry.olds, Entry.target]
  · obtain ⟨a, b, hab⟩ := split_of_not_separable hns
    refine ⟨{ e with
      ns := a, entityType := b, stringID := e.entityType ++ "\x1f" ++ e.stringID }, ?_, ?_⟩
    · rw [← String.toList_inj, toList_key, toList_key, hab]
      simp [Entry.olds, Entry.target]
    · exact hab ▸ ne_append_sep a b

end Keys

/-! ### Manifests -/

/-- Where equal images under `f` have equal images under `g`, so have lists up to order. -/
lemma perm_map_of_perm_map {α β γ : Type} {f : α → β} {g : α → γ} {l l' : List α}
    (hfg : ∀ a ∈ l, ∀ b ∈ l', f a = f b → g a = g b) (h : (l.map f).Perm (l'.map f)) :
    (l.map g).Perm (l'.map g) := by
  induction l generalizing l' with
  | nil =>
    obtain rfl : l' = [] := List.map_eq_nil_iff.mp h.nil_eq.symm
    exact .nil
  | cons a l ih =>
    obtain ⟨b, hb, hfb⟩ := List.mem_map.mp (h.subset List.mem_cons_self)
    obtain ⟨s, t, rfl⟩ := List.append_of_mem hb
    have hr : (l.map f).Perm ((s ++ t).map f) := by
      have hco := h.trans (List.perm_middle.map f)
      rw [List.map_cons, List.map_cons, hfb] at hco
      exact hco.cons_inv
    have hga : g a = g b := hfg a List.mem_cons_self b hb hfb.symm
    have hs : ∀ c ∈ s ++ t, c ∈ s ++ b :: t := fun c hc =>
      List.perm_middle.symm.subset (List.mem_cons_of_mem b hc)
    have ht := ih (fun c hc d hd => hfg c (List.mem_cons_of_mem a hc) d (hs d hd)) hr
    have hp : (g b :: (s ++ t).map g).Perm ((s ++ b :: t).map g) :=
      (List.perm_middle.map g).symm
    rw [List.map_cons, hga]
    exact (ht.cons _).trans hp

/-- As long as no text contains the separator of the fields, two manifests have the same hash
exactly if the same was decided in them. -/
lemma manifestHash_eq_iff {sha256 : String → String} (hsha : Function.Injective sha256)
    {entries entries' : List Entry} (h : ∀ e ∈ entries, e.Separable)
    (h' : ∀ e ∈ entries', e.Separable) :
    Entry.manifestHash sha256 entries = Entry.manifestHash sha256 entries' ↔
      decisions entries = decisions entries' := by
  have hmem : ∀ {es : List Entry} {k}, k ∈ (es.map Entry.key).insertionSort (· ≤ ·) ↔
      ∃ e ∈ es, e.key = k := by
    intro es k
    rw [List.mem_insertionSort, List.mem_map]
  have hne : ∀ es : List Entry, "" ∉ (es.map Entry.key).insertionSort (· ≤ ·) := by
    intro es hm
    obtain ⟨e, -, he⟩ := hmem.mp hm
    exact key_ne_empty e he
  rw [decisions, decisions, Multiset.coe_eq_coe]
  constructor
  · intro hh
    have hke := Text.join_inj rfl (fun a ha b hb c d hcd => ?_) (hne _) (hne _) (hsha hh)
    · refine perm_map_of_perm_map (fun e he e' he' hk => ?_) (insertionSort_eq_iff.mp hke)
      exact (key_cut (h e he) (h' e' he') (c := []) (d := []) (by rw [hk])).1
    · obtain ⟨e, he, rfl⟩ := hmem.mp ha
      obtain ⟨e', he', rfl⟩ := hmem.mp hb
      exact (key_cut (h e he) (h' e' he') hcd).imp_left key_congr
  · intro hd
    have hke := perm_map_of_perm_map (fun _ _ _ _ => key_congr) hd
    rw [Entry.manifestHash, insertionSort_eq_iff.mpr hke, Entry.manifestHash]

section Converse

variable {e e' : Entry}

lemma manifestHash_congr {sha256 : String → String} {s t : List Entry} (h : e'.key = e.key) :
    Entry.manifestHash sha256 (s ++ e' :: t) = Entry.manifestHash sha256 (s ++ e :: t) := by
  simp [Entry.manifestHash, h]

lemma decisions_ne {s t : List Entry} (h : e'.pinned ≠ e.pinned) :
    decisions (s ++ e' :: t) ≠ decisions (s ++ e :: t) := by
  intro hd
  rw [decisions, decisions, Multiset.coe_eq_coe, List.map_append, List.map_append,
    List.perm_append_left_iff, List.map_cons, List.map_cons, ← Multiset.coe_eq_coe,
    ← Multiset.cons_coe, ← Multiset.cons_coe] at hd
  exact h ((Multiset.cons_inj_left _).mp hd)

/-- The separators of the fields that the texts of an entry contain. -/
def Entry.inner (e : Entry) : ℕ :=
  e.ns.toList.count '\x1f' + e.entityType.toList.count '\x1f' + e.stringID.toList.count '\x1f'

lemma inner_eq_zero : e.inner = 0 ↔ e.Separable := by
  simp only [Entry.inner, Nat.add_eq_zero_iff, List.count_eq_zero, and_assoc]
  exact Iff.rfl

lemma count_key (e : Entry) : e.key.toList.count '\x1f' = e.inner + 4 := by
  have ho := List.count_eq_zero.mpr (separable_olds e)
  have ht : e.target.toList.count '\x1f' = 0 :=
    List.count_eq_zero.mpr (not_mem_target e rfl (by decide) (by decide))
  simp only [toList_key, List.count_append, List.count_cons_self, ho, ht, Entry.inner]
  omega

lemma count_join (ks : List String) : ("\x1e".intercalate ks).toList.count '\x1f' =
    (ks.map fun k => k.toList.count '\x1f').sum := by
  rw [String.toList_intercalate]
  induction ks with
  | nil => rfl
  | cons k ks ih =>
    cases ks with
    | nil => simp
    | cons k' ks => simpa using ih

/-- Manifests of as many items with the same hash have as many separators in their texts. -/
lemma sum_inner {entries entries' : List Entry} (hl : entries'.length = entries.length)
    (h : "\x1e".intercalate ((entries.map Entry.key).insertionSort (· ≤ ·)) =
      "\x1e".intercalate ((entries'.map Entry.key).insertionSort (· ≤ ·))) :
    (entries'.map Entry.inner).sum = (entries.map Entry.inner).sum := by
  have hc : ∀ es : List Entry, ("\x1e".intercalate ((es.map Entry.key).insertionSort
      (· ≤ ·))).toList.count '\x1f' = (es.map Entry.inner).sum + es.length * 4 := by
    intro es
    rw [count_join, ((List.perm_insertionSort _ _).map _).sum_nat, List.map_map]
    simp [Function.comp_def, count_key, List.sum_map_add]
  have he := hc entries
  rw [h, hc, hl] at he
  omega

end Converse

/-- **What the hash of a manifest pins.** If no text contains the separator of the fields, two
manifests have the same hash exactly if the same was decided in them. And a manifest whose hash no
other decisions of as many items have is one of these. -/
theorem manifest_hash_pins {sha256 : String → String} (hsha : Function.Injective sha256) :
    (∀ entries entries' : List Entry,
      (∀ e ∈ entries, e.Separable) → (∀ e ∈ entries', e.Separable) →
      (Entry.manifestHash sha256 entries = Entry.manifestHash sha256 entries' ↔
        decisions entries = decisions entries')) ∧
    ∀ entries : List Entry,
      (∀ entries' : List Entry, entries'.length = entries.length →
        Entry.manifestHash sha256 entries = Entry.manifestHash sha256 entries' →
        decisions entries = decisions entries') ↔ ∀ e ∈ entries, e.Separable := by
  refine ⟨fun _ _ h h' => manifestHash_eq_iff hsha h h', fun entries => ⟨fun hp e he => ?_, ?_⟩⟩
  · by_contra hn
    obtain ⟨e', hk, hne⟩ := exists_key_eq hn
    obtain ⟨s, t, rfl⟩ := List.append_of_mem he
    exact decisions_ne hne (hp (s ++ e' :: t) (by simp) (manifestHash_congr hk).symm).symm
  · intro h entries' hl hh
    have hz : (entries'.map Entry.inner).sum = 0 := by
      rw [sum_inner hl (hsha hh), List.sum_eq_zero_iff_forall_eq_nat, List.forall_mem_map]
      exact fun e he => inner_eq_zero.mpr (h e he)
    rw [List.sum_eq_zero_iff_forall_eq_nat, List.forall_mem_map] at hz
    exact (manifestHash_eq_iff hsha h fun e he => inner_eq_zero.mp (hz e he)).mp hh

/-- Two items of the audit. -/
def reviewed : List Entry :=
  [⟨"shop", "subject", "x", [1], some 5⟩, ⟨"shop", "subject", "y", [2], some 6⟩]

/-- One item whose id spells out the end of an item and the beginning of the next. -/
def applied : List Entry :=
  [⟨"shop", "subject", "x\x1f1\x1f5\x1eshop\x1fsubject\x1fy", [2], some 6⟩]

theorem manifest_hash_ambiguous : decisions reviewed ≠ decisions applied ∧
      ∀ sha256, Entry.manifestHash sha256 reviewed = Entry.manifestHash sha256 applied :=
  ⟨by decide, fun sha256 => congrArg sha256 (by decide +kernel)⟩

/-- The items and the old ids come in another order, and the texts that are hashed agree. -/
theorem manifest_hash_pins_reordered :
    decisions (⟨"shop", "object", "z", [4, 3], none⟩ :: reviewed) =
      decisions (reviewed ++ [⟨"shop", "object", "z", [3, 4], none⟩]) :=
  ((manifest_hash_pins Function.injective_id).1 _ _ (by decide) (by decide)).mp (by decide +kernel)

end Codohue.Repair
