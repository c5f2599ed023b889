import Mathlib.Data.List.Nodup

/-!
What is stored of content and of metadata: text that PostgreSQL takes, in every place of the tree.
-/

namespace Codohue.Storable

abbrev Bytes := List UInt8

/-! ### UTF-8 -/

/-- The length of a rune by its first byte, 0 if none begins with it. -/
def runeLen (a : UInt8) : ℕ :=
  if a < 0x80 then 1 else if a < 0xC2 then 0 else if a < 0xE0 then 2 else if a < 0xF0 then 3
  else if a < 0xF5 then 4 else 0

/-- What the second byte may be. -/
def acceptRange (a : UInt8) : UInt8 × UInt8 :=
  if a = 0xE0 then (0xA0, 0xBF) else if a = 0xED then (0x80, 0x9F)
  else if a = 0xF0 then (0x90, 0xBF) else if a = 0xF4 then (0x80, 0x8F) else (0x80, 0xBF)

/-- The encoding of one rune. -/
def isRune : Bytes → Bool
  | [] => false
  | a :: s => runeLen a = s.length + 1 &&
    (s.head?.all fun b => (acceptRange a).1 ≤ b && b ≤ (acceptRange a).2) &&
    s.tail.all fun b => 0x80 ≤ b && b ≤ 0xBF

/-- A sequence of runes. -/
inductive Valid : Bytes → Prop where
  | nil : Valid []
  | rune {p s : Bytes} (hp : isRune p) (hs : Valid s) : Valid (p ++ s)

/-- The loop of `strings.ToValidUTF8`, with an empty replacement: `k` more bytes of a rune are
written, then a rune begins or a byte is left out. -/
def scan : ℕ → Bytes → Bytes
  | _, [] => []
  | k + 1, b :: s => b :: scan k s
  | 0, b :: s =>
    if isRune ((b :: s).take (runeLen b)) then b :: scan (runeLen b - 1) s else scan 0 s

def toValidUTF8 (s : Bytes) : Bytes := scan 0 s

def sanitizeStorable (s : Bytes) : Bytes := toValidUTF8 (s.filter (· ≠ 0))

/-- Valid UTF-8 without NUL. -/
def Clean (s : Bytes) : Prop := Valid s ∧ 0 ∉ s

lemma scan_sublist (k : ℕ) (s : Bytes) : (scan k s).Sublist s := by
  induction s generalizing k with
  | nil => cases k <;> exact .slnil
  | cons b s ih =>
    cases k with
    | succ k => exact (ih k).cons_cons b
    | zero =>
      unfold scan
      split_ifs
      · exact (ih _).cons_cons b
      · exact (ih 0).cons b

lemma scan_append (p s : Bytes) : scan p.length (p ++ s) = p ++ scan 0 s := by
  induction p with
  | nil => rfl
  | cons b p ih => exact congrArg (b :: ·) ih

lemma scan_rune (hp : isRune p) (s : Bytes) : scan 0 (p ++ s) = p ++ scan 0 s := by
  cases p with
  | nil => cases hp
  | cons a p =>
    have hl : runeLen a = p.length + 1 := by simp_all [isRune]
    have ht : ((a :: p) ++ s).take (runeLen a) = a :: p := by simp [hl]
    rw [List.cons_append, scan, ← List.cons_append, ht, if_pos hp, hl, Nat.add_sub_cancel,
      scan_append, List.cons_append]

lemma scan_valid (h : Valid s) : scan 0 s = s := by
  induction h with
  | nil => rfl
  | rune hp _ ih => rw [scan_rune hp, ih]

lemma valid_scan (s : Bytes) : Valid (scan 0 s) := by
  induction hn : s.length using Nat.strongRecOn generalizing s with
  | _ n ih =>
    cases s with
    | nil => exact .nil
    | cons b s =>
      by_cases hp : isRune ((b :: s).take (runeLen b))
      · rw [← List.take_append_drop (runeLen b) (b :: s), scan_rune hp]
        refine .rune hp (ih _ ?_ _ rfl)
        have : runeLen b ≠ 0 := fun h0 => by simp [h0, isRune] at hp
        rw [List.length_drop, ← hn, List.length_cons]
        omega
      · rw [scan, if_neg hp]
        exact ih _ (hn ▸ Nat.lt_succ_self _) s rfl

lemma clean_sanitizeStorable (s : Bytes) : Clean (sanitizeStorable s) := by
  refine ⟨valid_scan _, fun h0 => ?_⟩
  simpa using (scan_sublist 0 _).subset h0

lemma sanitizeStorable_eq_self (h : Clean s) : sanitizeStorable s = s := by
  have hf : s.filter (· ≠ 0) = s :=
    List.filter_eq_self.mpr fun b hb => decide_eq_true fun h0 => h.2 (h0 ▸ hb)
  rw [sanitizeStorable, hf, toValidUTF8, scan_valid h.1]

/-! ### Metadata -/

/-- A metadata value. The entries of a map stand in the order in which it is ranged over; a nil map
is one of the other values, all of which are returned as they are. -/
inductive Tree (α : Type) where
  | text (s : Bytes)
  | other (a : α)
  | list (vs : List (Tree α))
  | map (es : List (Bytes × Tree α))

variable {α : Type}

/-- `out[k] = v`. -/
def put (out : List (Bytes × Tree α)) (k : Bytes) (v : Tree α) : List (Bytes × Tree α) :=
  out.filter (·.1 ≠ k) ++ [(k, v)]

mutual

def sanitizeStorableValue : Tree α → Tree α
  | .text s => .text (sanitizeStorable s)
  | .other a => .other a
  | .list vs => .list (sanitizeStorableValues vs)
  | .map es => .map (sanitizeStorableMetadata [] es)

def sanitizeStorableValues : List (Tree α) → List (Tree α)
  | [] => []
  | v :: vs => sanitizeStorableValue v :: sanitizeStorableValues vs

def sanitizeStorableMetadata (out : List (Bytes × Tree α)) :
    List (Bytes × Tree α) → List (Bytes × Tree α)
  | [] => out
  | (k, v) :: es =>
    sanitizeStorableMetadata (put out (sanitizeStorable k) (sanitizeStorableValue v)) es

end

mutual

/-- Every key and every string is rewritten, everything else stays where it is. -/
def Tree.mapText (f : Bytes → Bytes) : Tree α → Tree α
  | .text s => .text (f s)
  | .other a => .other a
  | .list vs => .list (mapTexts f vs)
  | .map es => .map (mapEntries f es)

def mapTexts (f : Bytes → Bytes) : List (Tree α) → List (Tree α)
  | [] => []
  | v :: vs => v.mapText f :: mapTexts f vs

def mapEntries (f : Bytes → Bytes) : List (Bytes × Tree α) → List (Bytes × Tree α)
  | [] => []
  | (k, v) :: es => (f k, v.mapText f) :: mapEntries f es

end

inductive Tree.Clean : Tree α → Prop where
  | text {s : Bytes} (h : Storable.Clean s) : Clean (.text s)
  | other (a : α) : Clean (.other a)
  | list {vs : List (Tree α)} (h : ∀ v ∈ vs, Clean v) : Clean (.list vs)
  | map {es : List (Bytes × Tree α)} (hk : ∀ e ∈ es, Storable.Clean e.1)
    (hv : ∀ e ∈ es, Clean e.2) : Clean (.map es)

/-- No two keys of one map become equal. Of a clean tree that says only that they differ. -/
inductive Tree.Distinct : Tree α → Prop where
  | text (s : Bytes) : Distinct (.text s)
  | other (a : α) : Distinct (.other a)
  | list {vs : List (Tree α)} (h : ∀ v ∈ vs, Distinct v) : Distinct (.list vs)
  | map {es : List (Bytes × Tree α)} (hk : ((es.map Prod.fst).map sanitizeStorable).Nodup)
    (hv : ∀ e ∈ es, Distinct e.2) : Distinct (.map es)

/-- The keys of a map are different. -/
inductive Tree.Proper : Tree α → Prop where
  | text (s : Bytes) : Proper (.text s)
  | other (a : α) : Proper (.other a)
  | list {vs : List (Tree α)} (h : ∀ v ∈ vs, Proper v) : Proper (.list vs)
  | map {es : List (Bytes × Tree α)} (hk : (es.map Prod.fst).Nodup)
    (hv : ∀ e ∈ es, Proper e.2) : Proper (.map es)

/-- The same value as far as `f` tells: maps have the same keys, and the same value at each, in
whatever order. -/
inductive Tree.Rel (f : Bytes → Bytes) : Tree α → Tree α → Prop where
  | text {s s' : Bytes} (h : f s = f s') : Rel f (.text s) (.text s')
  | other (a : α) : Rel f (.other a) (.other a)
  | list {vs us : List (Tree α)} (h : List.Forall₂ (Rel f) vs us) : Rel f (.list vs) (.list us)
  | map {es fs : List (Bytes × Tree α)} (hl : ∀ e ∈ es, ∃ e' ∈ fs, f e.1 = f e'.1)
    (hr : ∀ e' ∈ fs, ∃ e ∈ es, f e.1 = f e'.1)
    (hv : ∀ e ∈ es, ∀ e' ∈ fs, f e.1 = f e'.1 → Rel f e.2 e'.2) : Rel f (.map es) (.map fs)

/-- Induction over trees. -/
theorem Tree.induct {P : Tree α → Prop} (text : ∀ s, P (.text s)) (other : ∀ a, P (.other a))
    (list : ∀ vs, (∀ v ∈ vs, P v) → P (.list vs))
    (map : ∀ es, (∀ e ∈ es, P e.2) → P (.map es)) (t : Tree α) : P t :=
  @Tree.rec α P (fun vs => ∀ v ∈ vs, P v) (fun es => ∀ e ∈ es, P e.2) (fun e => P e.2)
    text other list map nofun (fun _ _ hv hvs => List.forall_mem_cons.mpr ⟨hv, hvs⟩)
    nofun (fun _ _ he hes => List.forall_mem_cons.mpr ⟨he, hes⟩) (fun _ _ hv => hv) t

lemma sanitizeStorableValues_eq (vs : List (Tree α)) :
    sanitizeStorableValues vs = vs.map sanitizeStorableValue := by
  induction vs with
  | nil => rfl
  | cons v vs ih => exact congrArg (sanitizeStorableValue v :: ·) ih

lemma mapTexts_eq (f : Bytes → Bytes) (vs : List (Tree α)) :
    mapTexts f vs = vs.map (Tree.mapText f) := by
  induction vs with
  | nil => rfl
  | cons v vs ih => exact congrArg (v.mapText f :: ·) ih

lemma mapEntries_eq (f : Bytes → Bytes) (es : List (Bytes × Tree α)) :
    mapEntries f es = es.map fun e => (f e.1, e.2.mapText f) := by
  induction es with
  | nil => rfl
  | cons e es ih => exact congrArg ((f e.1, e.2.mapText f) :: ·) ih

lemma clean_metadata {es out : List (Bytes × Tree α)} (ho : (Tree.map out).Clean)
    (h : ∀ e ∈ es, (sanitizeStorableValue e.2).Clean) :
    (Tree.map (sanitizeStorableMetadata out es)).Clean := by
  induction es generalizing out with
  | nil => exact ho
  | cons e es ih =>
    obtain ⟨hv, hvs⟩ := List.forall_mem_cons.mp h
    refine ih ?_ hvs
    cases ho with
    | map hk hc =>
      constructor
      · intro x hx
        rcases List.mem_append.mp hx with hx | hx
        · exact hk x (List.mem_of_mem_filter hx)
        · rw [List.mem_singleton.mp hx]
          exact clean_sanitizeStorable _
      · intro x hx
        rcases List.mem_append.mp hx with hx | hx
        · exact hc x (List.mem_of_mem_filter hx)
        · rwa [List.mem_singleton.mp hx]

lemma clean_sanitizeStorableValue (t : Tree α) : (sanitizeStorableValue t).Clean := by
  induction t using Tree.induct with
  | text s => exact .text (clean_sanitizeStorable s)
  | other a => exact .other a
  | list vs ih =>
    rw [sanitizeStorableValue, sanitizeStorableValues_eq]
    exact .list (by simpa using ih)
  | map es ih => exact clean_metadata (.map nofun nofun) ih

/-- Nothing is overwritten where the keys stay different. -/
lemma metadata_eq_append {es : List (Bytes × Tree α)} (out : List (Bytes × Tree α))
    (hk : (out.map Prod.fst ++ es.map fun e => sanitizeStorable e.1).Nodup) :
    sanitizeStorableMetadata out es =
      out ++ es.map fun e => (sanitizeStorable e.1, sanitizeStorableValue e.2) := by
  induction es generalizing out with
  | nil => simp [sanitizeStorableMetadata]
  | cons e es ih =>
    have hf : out.filter (·.1 ≠ sanitizeStorable e.1) = out := by
      refine List.filter_eq_self.mpr fun x hx => decide_eq_true fun heq => ?_
      exact (List.nodup_append.mp hk).2.2 _ (List.mem_map_of_mem hx) _ List.mem_cons_self heq
    rw [sanitizeStorableMetadata, put, hf, ih _ (by simpa using hk)]
    simp

lemma nodup_keys_metadata (es : List (Bytes × Tree α)) {out : List (Bytes × Tree α)}
    (h : (out.map Prod.fst).Nodup) :
    ((sanitizeStorableMetadata out es).map Prod.fst).Nodup := by
  induction es generalizing out with
  | nil => exact h
  | cons e es ih =>
    refine ih ?_
    rw [put, List.map_append, List.nodup_append]
    refine ⟨(List.filter_sublist.map _).nodup h, List.nodup_singleton _, ?_⟩
    simp +contextual

lemma nodup_keys (es : List (Bytes × Tree α)) :
    ((sanitizeStorableMetadata [] es).map Prod.fst).Nodup :=
  nodup_keys_metadata es List.nodup_nil

lemma nodup_of_metadata {es : List (Bytes × Tree α)}
    (h : sanitizeStorableMetadata [] es = mapEntries sanitizeStorable es) :
    (es.map fun e => sanitizeStorable e.1).Nodup := by
  have hn := nodup_keys es
  rwa [h, mapEntries_eq, List.map_map] at hn

/-- Everything but the strings is kept exactly where no two keys become equal. -/
lemma sanitizeStorableValue_eq_iff (t : Tree α) :
    sanitizeStorableValue t = t.mapText sanitizeStorable ↔ t.Distinct := by
  induction t using Tree.induct with
  | text s => exact iff_of_true rfl (.text s)
  | other a => exact iff_of_true rfl (.other a)
  | list vs ih =>
    rw [sanitizeStorableValue, sanitizeStorableValues_eq, Tree.mapText, mapTexts_eq,
      Tree.list.injEq, List.map_inj_left]
    exact ⟨fun h => .list fun v hv => (ih v hv).mp (h v hv),
      fun h v hv => (ih v hv).mpr (by cases h with | list h => exact h v hv)⟩
  | map es ih =>
    rw [sanitizeStorableValue, Tree.mapText, Tree.map.injEq]
    constructor
    · intro h
      have hk := nodup_of_metadata h
      rw [metadata_eq_append [] hk, List.nil_append, mapEntries_eq, List.map_inj_left] at h
      exact .map (by rwa [List.map_map]) fun e he => (ih e he).mp (congrArg Prod.snd (h e he))
    · intro h
      cases h with
      | map hk hv =>
        rw [List.map_map] at hk
        rw [metadata_eq_append [] hk, List.nil_append, mapEntries_eq, List.map_inj_left]
        exact fun e he => Prod.ext rfl ((ih e he).mpr (hv e he))

lemma mapText_eq_self {t : Tree α} (h : t.Clean) : t.mapText sanitizeStorable = t := by
  induction t using Tree.induct with
  | text s =>
    cases h with
    | text h => rw [Tree.mapText, sanitizeStorable_eq_self h]
  | other a => rfl
  | list vs ih =>
    cases h with
    | list h =>
      rw [Tree.mapText, mapTexts_eq, List.map_congr_left fun v hv => ih v hv (h v hv), List.map_id']
  | map es ih =>
    cases h with
    | map hk hv =>
      have he : ∀ e ∈ es, (sanitizeStorable e.1, e.2.mapText sanitizeStorable) = e := fun e he =>
        Prod.ext (sanitizeStorable_eq_self (hk e he)) (ih e he (hv e he))
      rw [Tree.mapText, mapEntries_eq, List.map_congr_left he, List.map_id']

/-- What is stored is clean, and what was clean is stored as it is. Everything but the strings is
kept exactly where no two keys of one map become equal. -/
theorem sanitized (s : Bytes) (t : Tree α) :
    (Clean (sanitizeStorable s) ∧ (sanitizeStorable s = s ↔ Clean s) ∧
      sanitizeStorable (sanitizeStorable s) = sanitizeStorable s) ∧
    (sanitizeStorableValue t).Clean ∧
    (sanitizeStorableValue t = t.mapText sanitizeStorable ↔ t.Distinct) ∧
    (t.Distinct → t.Clean → sanitizeStorableValue t = t) := by
  have hc := clean_sanitizeStorable s
  refine ⟨⟨hc, ⟨fun h => h ▸ hc, sanitizeStorable_eq_self⟩, sanitizeStorable_eq_self hc⟩,
    clean_sanitizeStorableValue t, sanitizeStorableValue_eq_iff t, fun hd ht => ?_⟩
  rw [(sanitizeStorableValue_eq_iff t).mpr hd, mapText_eq_self ht]

/-- Two keys that differ in a NUL. -/
def twoKeys : Tree ℕ := .map [([97], .other 1), ([97, 0], .other 2)]

theorem value_lost : sanitizeStorableValue twoKeys = .map [([97], .other 2)] := rfl

/-! ### The order of the keys -/

lemma mem_metadata_or {out : List (Bytes × Tree α)} (h : x ∈ sanitizeStorableMetadata out es) :
    x ∈ out ∨ ∃ e ∈ es, x = (sanitizeStorable e.1, sanitizeStorableValue e.2) := by
  induction es generalizing out with
  | nil => exact .inl h
  | cons e es ih =>
    rcases ih h with h | ⟨f, hf, rfl⟩
    · rcases List.mem_append.mp h with h | h
      · exact .inl (List.mem_of_mem_filter h)
      · exact .inr ⟨e, List.mem_cons_self, List.mem_singleton.mp h⟩
    · exact .inr ⟨f, List.mem_cons_of_mem e hf, rfl⟩

lemma mem_metadata {es : List (Bytes × Tree α)} (h : x ∈ sanitizeStorableMetadata [] es) :
    ∃ e ∈ es, x = (sanitizeStorable e.1, sanitizeStorableValue e.2) :=
  (mem_metadata_or h).resolve_left List.not_mem_nil

lemma exists_key_or {out es : List (Bytes × Tree α)}
    (h : (∃ y ∈ out, y.1 = k) ∨ ∃ e ∈ es, sanitizeStorable e.1 = k) :
    ∃ x ∈ sanitizeStorableMetadata out es, x.1 = k := by
  induction es generalizing out with
  | nil => simpa [sanitizeStorableMetadata] using h
  | cons e es ih =>
    refine ih ?_
    by_cases hk : sanitizeStorable e.1 = k
    · exact .inl ⟨_, List.mem_append_right _ (List.mem_singleton_self _), hk⟩
    · rcases h with ⟨y, hy, rfl⟩ | h
      · exact .inl ⟨y, List.mem_append_left _ (by simpa [hy] using Ne.symm hk), rfl⟩
      · exact .inr (by simpa [hk] using h)

lemma exists_key {es : List (Bytes × Tree α)} (he : e ∈ es) :
    ∃ x ∈ sanitizeStorableMetadata [] es, x.1 = sanitizeStorable e.1 :=
  exists_key_or (.inr ⟨e, he, rfl⟩)

/-- The last of the entries that become equal is the one that stays. -/
lemma metadata_concat (es : List (Bytes × Tree α)) (e : Bytes × Tree α)
    (out : List (Bytes × Tree α)) :
    (sanitizeStorable e.1, sanitizeStorableValue e.2) ∈
      sanitizeStorableMetadata out (es ++ [e]) := by
  induction es generalizing out with
  | nil => simp [sanitizeStorableMetadata, put]
  | cons f es ih => exact ih _

lemma Tree.Proper.refl {t : Tree α} (h : t.Proper) : t.Rel id t := by
  induction t using Tree.induct with
  | text s => exact .text rfl
  | other a => exact .other a
  | list vs ih =>
    cases h with | list h => exact .list (List.forall₂_same.mpr fun v hv => ih v hv (h v hv))
  | map es ih =>
    cases h with
    | map hk h =>
      refine .map (fun e he => ⟨e, he, rfl⟩) (fun e he => ⟨e, he, rfl⟩) fun e he e' he' heq => ?_
      rw [List.inj_on_of_nodup_map hk he he' heq]
      exact ih e' he' (h e' he')

/-- Keys and values that the sanitiser takes for the same are stored as the same. -/
lemma Tree.Rel.functional {t u : Tree α} (h : t.Rel sanitizeStorable u) :
    (sanitizeStorableValue t).Rel id (sanitizeStorableValue u) := by
  induction t using Tree.induct generalizing u with
  | text s => cases h with | text h => exact .text h
  | other a => cases h; exact .other a
  | list vs ih =>
    cases h with
    | list h =>
      refine .list ?_
      induction h with
      | nil => exact .nil
      | cons hx _ ih' =>
        exact .cons (ih _ List.mem_cons_self hx) (ih' fun v hv => ih v (List.mem_cons_of_mem _ hv))
  | map es ih =>
    cases h with
    | map hl hr hv =>
      refine .map (fun x hx => ?_) (fun y hy => ?_) fun x hx y hy heq => ?_
      · obtain ⟨e, he, rfl⟩ := mem_metadata hx
        obtain ⟨e', he', heq⟩ := hl e he
        obtain ⟨y, hy, hy'⟩ := exists_key he'
        exact ⟨y, hy, heq.trans hy'.symm⟩
      · obtain ⟨e', he', rfl⟩ := mem_metadata hy
        obtain ⟨e, he, heq⟩ := hr e' he'
        obtain ⟨x, hx, hx'⟩ := exists_key he
        exact ⟨x, hx, hx'.trans heq⟩
      · obtain ⟨e, he, rfl⟩ := mem_metadata hx
        obtain ⟨e', he', rfl⟩ := mem_metadata hy
        exact ih e he (hv e he e' he' heq)

/-- What is taken for the same does not depend on the order of the keys. -/
lemma Tree.Rel.of_same {t t' : Tree α} (h : t.Rel f t') (hu : t.Rel id u) (hu' : t'.Rel id u') :
    u.Rel f u' := by
  induction t using Tree.induct generalizing t' u u' with
  | text s =>
    cases h with | text h
    cases hu with | text hs
    cases hu' with | text hs'
    exact .text ((congrArg f hs).symm.trans (h.trans (congrArg f hs')))
  | other a => cases h; cases hu; cases hu'; exact .other a
  | list vs ih =>
    cases h with | list h
    cases hu with | list hu
    cases hu' with | list hu'
    refine .list ?_
    rename_i us us'
    induction h generalizing us us' with
    | nil => cases hu; cases hu'; exact .nil
    | cons hx _ ih' =>
      cases hu with | cons hxu hu
      cases hu' with | cons hxu' hu'
      exact .cons (ih _ List.mem_cons_self hx hxu hxu')
        (ih' (fun v hv => ih v (List.mem_cons_of_mem _ hv)) hu hu')
  | map es ih =>
    cases h with | map hl hr hv
    cases hu with | map hlu hru hvu
    cases hu' with | map hlu' hru' hvu'
    refine .map (fun d hd => ?_) (fun d' hd' => ?_) fun d hd d' hd' heq => ?_
    · obtain ⟨e, he, hed⟩ := hru d hd
      obtain ⟨e', he', heq⟩ := hl e he
      obtain ⟨d', hd', hed'⟩ := hlu' e' he'
      exact ⟨d', hd', (congrArg f hed).symm.trans (heq.trans (congrArg f hed'))⟩
    · obtain ⟨e', he', hed'⟩ := hru' d' hd'
      obtain ⟨e, he, heq⟩ := hr e' he'
      obtain ⟨d, hd, hed⟩ := hlu e he
      exact ⟨d, hd, (congrArg f hed).symm.trans (heq.trans (congrArg f hed'))⟩
    · obtain ⟨e, he, hed⟩ := hru d hd
      obtain ⟨e', he', hed'⟩ := hru' d' hd'
      have heq' := (congrArg f hed).trans (heq.trans (congrArg f hed').symm)
      exact ih e he (hv e he e' he' heq') (hvu e he d hd hed) (hvu' e' he' d' hd' hed')

/-- An entry can be made the last one, and its value be taken in another order. -/
lemma rel_last {l m : List (Bytes × Tree α)} (h : (Tree.map (l ++ e :: m)).Proper)
    (hv : e.2.Rel id v) : (Tree.map (l ++ e :: m)).Rel id (.map (l ++ m ++ [(e.1, v)])) := by
  have hp : (l ++ e :: m).Perm (l ++ m ++ [e]) :=
    List.perm_middle.trans (List.perm_append_singleton e _).symm
  have he : e ∈ l ++ e :: m := List.mem_append_right l List.mem_cons_self
  have hin : ∀ x ∈ l ++ m, x ∈ l ++ e :: m := fun x hx =>
    hp.mem_iff.mpr (List.mem_append_left _ hx)
  cases h with | map hk h
  refine .map (fun x hx => ?_) (fun y hy => ?_) fun x hx y hy hxy => ?_
  · rcases List.mem_append.mp (hp.mem_iff.mp hx) with hx | hx
    · exact ⟨x, List.mem_append_left _ hx, rfl⟩
    · exact ⟨(e.1, v), by simp, by rw [List.mem_singleton.mp hx]⟩
  · rcases List.mem_append.mp hy with hy | hy
    · exact ⟨y, hin y hy, rfl⟩
    · exact ⟨e, he, by rw [List.mem_singleton.mp hy]⟩
  · rcases List.mem_append.mp hy with hy | hy
    · rw [List.inj_on_of_nodup_map hk hx (hin y hy) hxy]
      exact (h y (hin y hy)).refl
    · cases List.mem_singleton.mp hy
      rwa [List.inj_on_of_nodup_map hk hx he hxy]

/-- No order of the keys makes a difference. -/
def Tree.Settled (t t' : Tree α) : Prop :=
  ∀ u u', t.Rel id u → t'.Rel id u' → (sanitizeStorableValue u).Rel id (sanitizeStorableValue u')

lemma forall₂_of_settled {vs vs' : List (Tree α)} (hp : ∀ v ∈ vs, v.Proper)
    (hp' : ∀ v ∈ vs', v.Proper) (h : (Tree.list vs).Settled (.list vs'))
    (ih : ∀ v ∈ vs, ∀ v' ∈ vs', v.Settled v' → v.Rel sanitizeStorable v') :
    List.Forall₂ (Tree.Rel sanitizeStorable) vs vs' := by
  have hr := List.forall₂_same.mpr fun v hv => (hp v hv).refl
  have hr' := List.forall₂_same.mpr fun v hv => (hp' v hv).refl
  have h0 := h _ _ (.list hr) (.list hr')
  induction vs generalizing vs' with
  | nil =>
    cases vs' with
    | nil => exact .nil
    | cons => cases h0 with | list h0 => cases h0
  | cons v vs ih' =>
    cases vs' with
    | nil => cases h0 with | list h0 => cases h0
    | cons v' vs' =>
      cases hr with | cons hv hr
      cases hr' with | cons hv' hr'
      obtain ⟨hpv, hp⟩ := List.forall_mem_cons.mp hp
      obtain ⟨hpv', hp'⟩ := List.forall_mem_cons.mp hp'
      have hs : (Tree.list vs).Settled (.list vs') := fun u u' hu hu' => by
        cases hu with | list hu
        cases hu' with | list hu'
        cases h _ _ (.list (.cons hv hu)) (.list (.cons hv' hu')) with
        | list h => cases h with | cons _ h => exact .list h
      refine .cons (ih v List.mem_cons_self v' List.mem_cons_self fun u u' hu hu' => ?_)
        (ih' hp hp' hs (fun x hx y hy => ih x (List.mem_cons_of_mem v hx) y
          (List.mem_cons_of_mem v' hy)) hr hr' (hs _ _ (.list hr) (.list hr')))
      cases h _ _ (.list (.cons hu hr)) (.list (.cons hu' hr')) with
      | list h => cases h with | cons h _ => exact h

lemma rel_of_settled {t t' : Tree α} (ht : t.Proper) (ht' : t'.Proper) (h : t.Settled t') :
    t.Rel sanitizeStorable t' := by
  have h0 := h _ _ ht.refl ht'.refl
  induction t using Tree.induct generalizing t' with
  | text s =>
    cases t' with
    | text s' => exact .text (by cases h0 with | text h => exact h)
    | other | list | map => cases h0
  | other a =>
    cases t' with
    | other a' => cases h0; exact .other a
    | text | list | map => cases h0
  | list vs ih =>
    cases t' with
    | list vs' =>
      cases ht with | list hp
      cases ht' with | list hp'
      exact .list (forall₂_of_settled hp hp' h fun v hv v' hv' hs =>
        ih v hv (hp v hv) (hp' v' hv') hs (hs _ _ (hp v hv).refl (hp' v' hv').refl))
    | text | other | map => cases h0
  | map es ih =>
    cases t' with
    | map es' =>
      cases h0 with | map hl hr
      refine .map (fun e he => ?_) (fun e' he' => ?_) fun e he e' he' heq => ?_
      · obtain ⟨x, hx, hxe⟩ := exists_key he
        obtain ⟨y, hy, hxy⟩ := hl x hx
        obtain ⟨e', he', rfl⟩ := mem_metadata hy
        exact ⟨e', he', hxe.symm.trans hxy⟩
      · obtain ⟨y, hy, hye⟩ := exists_key he'
        obtain ⟨x, hx, hxy⟩ := hr y hy
        obtain ⟨e, he, rfl⟩ := mem_metadata hx
        exact ⟨e, he, Eq.trans hxy hye⟩
      · have hpe : e.2.Proper := by cases ht with | map _ hp => exact hp e he
        have hpe' : e'.2.Proper := by cases ht' with | map _ hp => exact hp e' he'
        have hs : e.2.Settled e'.2 := fun v v' hv hv' => by
          obtain ⟨l, m, rfl⟩ := List.mem_iff_append.mp he
          obtain ⟨l', m', rfl⟩ := List.mem_iff_append.mp he'
          cases h _ _ (rel_last ht hv) (rel_last ht' hv') with
          | map _ _ hs =>
            exact hs _ (metadata_concat (l ++ m) (e.1, v) []) _
              (metadata_concat (l' ++ m') (e'.1, v') []) heq
        exact ih e he hpe hpe' hs (hs _ _ hpe.refl hpe'.refl)
    | text | other | list => cases h0

/-- **Two runs store the same in every order of the keys** exactly where keys that become equal
have values that become equal. -/
theorem sanitized_same_iff (t : Tree α) (ht : t.Proper) :
    (∀ u u', t.Rel id u → t.Rel id u' →
      (sanitizeStorableValue u).Rel id (sanitizeStorableValue u')) ↔ t.Rel sanitizeStorable t :=
  ⟨rel_of_settled ht ht, fun h _ _ hu hu' => (h.of_same hu hu').functional⟩

theorem sanitized_same_twoKeys :
    (sanitizeStorableValue (.map [([97], .other 1), ([97, 0], .other 1)])).Rel id
      (sanitizeStorableValue (.map [([97, 0], .other 1), ([97], .other 1)])) := by
  refine (sanitized_same_iff (.map [([97], .other 1), ([97, 0], .other 1)])
    (.map (by decide) (by simp [Tree.Proper.other]))).mpr ?_ _ _ ?_ ?_
  all_goals exact .map (by simp) (by simp) (by simp [Tree.Rel.other])

/-- The later of the two is the one that stays. -/
theorem stored_by_order : ∃ u, twoKeys.Rel id u ∧
    ¬ (sanitizeStorableValue twoKeys).Rel id (sanitizeStorableValue u) := by
  refine ⟨.map [([97, 0], .other 2), ([97], .other 1)],
    .map (by simp) (by simp) (by simp [Tree.Rel.other]), fun h => ?_⟩
  cases h with
  | map _ _ hv => cases hv _ (.head _) _ (.head _) rfl

end Codohue.Storable
