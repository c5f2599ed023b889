import Codohue.Base64
import Codohue.RepairTypes
import Codohue.Text

/-!
The names of Redis keys and Qdrant collections.

The name of a namespace goes into them as it is, followed by the generation from the second one
on. So a namespace whose own name ends like a generation can be taken for another one, and one that
begins like a key can have a collection named like the key of another.
-/

namespace Codohue.PhysicalNames

open Repair Text

/-! ### Names -/

inductive PhysicalKind where
  | recommendationCache
  | trending
  | embedStream
  | collection (kind : CollectionKind)
  deriving DecidableEq, Repr

variable {kind : PhysicalKind} {ns : String} {generation : ℤ} {separator : String} {g : ℤ}
  {key : String}

/-- A namespace with its generation; the first generation keeps the bare name. -/
def qualify (separator ns : String) (generation : ℤ) : String :=
  if generation < 2 then ns else ns ++ separator ++ toString generation

def redisNamespace (ns : String) (generation : ℤ) : String := qualify ":g" ns generation

lemma qdrantNamespace_eq (ns : String) (generation : ℤ) :
    qdrantNamespace ns generation = qualify "_g" ns generation := rfl

/-- The name of a resource, once its namespace and generation have been checked. -/
def PhysicalKind.nameOf (kind : PhysicalKind) (ns : String) (generation : ℤ) : String :=
  match kind with
  | .recommendationCache => "rec:v3:" ++ Base64.encodeToString (redisNamespace ns generation)
  | .trending => "trending:" ++ redisNamespace ns generation
  | .embedStream => "catalog:embed:" ++ redisNamespace ns generation
  | .collection kind => collectionName ns generation kind

def physicalName (kind : PhysicalKind) (ns : String) (generation : ℤ) : Except String String :=
  if ns = "" then .error "physical name: namespace is required"
  else if generation < 1 then .error "physical name: generation must be positive"
  else .ok (kind.nameOf ns generation)

lemma physicalName_eq_ok : physicalName kind ns generation = .ok name ↔
      ns ≠ "" ∧ 1 ≤ generation ∧ kind.nameOf ns generation = name := by
  unfold physicalName
  split_ifs with hns hg
  · simp [hns]
  · simp [hg]
  · simp [hns, not_lt.mp hg]

/-- The key under which a page of recommendations is cached. -/
def recCacheKey (ns : String) (generation : ℤ) (subjectID : String) (limit offset : ℤ) : String :=
  PhysicalKind.nameOf .recommendationCache ns generation ++ ":" ++
    Base64.encodeToString subjectID ++ ":limit=" ++ toString limit ++ ":offset=" ++
    toString offset

/-! ### Namespaces that end like a generation -/

lemma qualify_of_two_le (h : 2 ≤ generation) :
    qualify separator ns generation = ns ++ separator ++ toString generation.toNat := by
  obtain ⟨n, rfl⟩ := Int.eq_ofNat_of_zero_le (by omega : 0 ≤ generation)
  rw [qualify, if_neg (by omega)]
  rfl

/-- The name is not that of another namespace with its generation. -/
def Unqualified (separator ns : String) : Prop :=
  ∀ other generation, other ≠ "" → 2 ≤ generation → ns ≠ qualify separator other generation

/-- What is written between a name and its generation ends in no digit. -/
def Separates (separator : String) : Prop :=
  ∃ start last, separator.toList = start ++ [last] ∧ last.isDigit = false

lemma separates_redis : Separates ":g" := ⟨[':'], 'g', by decide, by decide⟩

lemma separates_qdrant : Separates "_g" := ⟨['_'], 'g', by decide, by decide⟩

lemma qualify_inj_of_two_le (hse : Separates separator)
    (hg : 2 ≤ g) (hg' : 2 ≤ g') (h : qualify separator ns g = qualify separator ns' g') :
    ns = ns' ∧ g = g' := by
  obtain ⟨start, last, hli, hl⟩ := hse
  rw [qualify_of_two_le hg, qualify_of_two_le hg'] at h
  have hs : (ns.toList ++ start) ++ last :: (toString g.toNat).toList =
      (ns'.toList ++ start) ++ last :: (toString g'.toNat).toList := by
    have := congrArg String.toList h
    simpa [hli] using this
  -- the digits end where the separator begins
  have hd : ∀ n : ℕ, ∀ c ∈ (toString n).toList, ¬ c.isDigit = false := fun n c hc => by
    simp [isDigit_of_mem_toString hc]
  obtain ⟨hna, -, hn⟩ := split_right (hd _) (hd _) hl hl hs
  have hnat := toString_injective (String.toList_inj.mp hn)
  exact ⟨String.toList_inj.mp (List.append_cancel_right hna), by omega⟩

lemma qualify_inj (hs : Separates separator) (hg : 1 ≤ g) (hg' : 1 ≤ g')
    (hu : ∀ g, 2 ≤ g → ns ≠ qualify separator ns' g)
    (hu' : ∀ g, 2 ≤ g → ns' ≠ qualify separator ns g)
    (h : qualify separator ns g = qualify separator ns' g') : ns = ns' ∧ g = g' := by
  rcases lt_or_ge g 2 with hlt | hge <;> rcases lt_or_ge g' 2 with hlt' | hge'
  · rw [qualify, if_pos hlt, qualify, if_pos hlt'] at h
    exact ⟨h, by omega⟩
  · rw [qualify, if_pos hlt] at h
    exact absurd h (hu g' hge')
  · rw [eq_comm, qualify, if_pos hlt'] at h
    exact absurd h (hu' g hge)
  · exact qualify_inj_of_two_le hs hge hge' h

/-! ### The kind of a name -/

/-- What the keys of each kind begin with. -/
def redisPrefixes : List String := ["rec:v3:", "trending:", "catalog:embed:"]

/-- A name that cannot be taken for another one. -/
structure Plain (ns : String) : Prop where
  redis : Unqualified ":g" ns
  qdrant : Unqualified "_g" ns
  unlike : ∀ start ∈ redisPrefixes, ¬ start.toList <+: ns.toList

lemma unqualified_of_end
    (h : ns.toList.getLast?.any Char.isDigit = false) : Unqualified separator ns := by
  rintro other generation - hg rfl
  have hne : (toString generation.toNat).toList ≠ [] := by
    rw [toList_toString]
    exact Nat.toDigits_ne_nil
  rw [qualify_of_two_le hg, String.toList_append, List.getLast?_append_of_ne_nil _ hne,
    List.getLast?_eq_getLast_of_ne_nil hne, Option.any_some,
    isDigit_of_mem_toString (List.getLast_mem hne)] at h
  cases h

lemma plain_of_end (h : ns.toList.getLast?.any Char.isDigit = false)
    (hs : ∀ start ∈ redisPrefixes, ¬ start.toList <+: ns.toList) : Plain ns :=
  ⟨unqualified_of_end h, unqualified_of_end h, hs⟩

lemma collectionName_toList (ns : String) (generation : ℤ) (kind : CollectionKind) :
    ∃ rest, (collectionName ns generation kind).toList = ns.toList ++ '_' :: rest := by
  unfold collectionName qdrantNamespace
  split_ifs
  · exact ⟨kind.name.toList, by simp⟩
  · exact ⟨_, by simp only [String.toList_append, List.append_assoc]; rfl⟩

lemma collectionName_append (start ns : String) (generation : ℤ) (kind : CollectionKind) :
    collectionName (start ++ ns) generation kind = start ++ collectionName ns generation kind := by
  unfold collectionName qdrantNamespace
  split_ifs <;> simp only [String.append_assoc]

/-- A collection whose name begins like a key belongs to a namespace that does. -/
lemma eq_append_of_collectionName {kind : CollectionKind} (hs : start ∈ redisPrefixes)
    (h : collectionName ns generation kind = start ++ rest) :
    ∃ ns', ns = start ++ ns' ∧ rest = collectionName ns' generation kind := by
  suffices hp : ∃ ns' : String, ns = start ++ ns' by
    obtain ⟨ns', rfl⟩ := hp
    rw [collectionName_append, String.append_right_inj] at h
    exact ⟨ns', rfl, h.symm⟩
  obtain ⟨tail, ht⟩ := collectionName_toList ns generation kind
  rw [h, String.toList_append] at ht
  have hm : ∀ start ∈ redisPrefixes, '_' ∉ start.toList := by decide
  have hof : ∀ e, ns.toList = start.toList ++ e → ∃ ns' : String, ns = start ++ ns' := fun e he =>
    ⟨String.ofList e, String.toList_inj.mp (by simpa using he)⟩
  rcases List.append_eq_append_iff.mp ht with ⟨e, he, -⟩ | ⟨e, he, hr⟩
  · exact hof e he
  · cases e with
    | nil => exact hof [] (by simpa using he.symm)
    | cons c e =>
      obtain ⟨rfl, -⟩ := List.cons.inj hr
      exact absurd (he ▸ by simp) (hm start hs)

/-- A name ends like a kind of collections, and not like a generation. -/
lemma collectionName_ne_qualify {kind : CollectionKind} (hns' : ns' ≠ "") (hg : 2 ≤ g) :
    collectionName ns generation kind ≠ qualify separator ns' g := by
  refine unqualified_of_end ?_ ns' g hns' hg
  have hne : kind.name.toList ≠ [] := by cases kind <;> decide
  rw [collectionName, String.toList_append, List.getLast?_append_of_ne_nil _ hne]
  cases kind <;> decide

/-! ### Two namespaces -/

/-- A collection of the first namespace has the name of a key of the other: behind the beginning of
the key, the first namespace goes on as that name does. -/
def Shadows (ns other : String) : Prop :=
  ∃ rest generation, ∃ kind : CollectionKind, 1 ≤ generation ∧
    ((ns = "trending:" ++ rest ∨ ns = "catalog:embed:" ++ rest) ∧
        other = collectionName rest generation kind ∨
      ns = "rec:v3:" ++ rest ∧ ∃ g, 1 ≤ g ∧
        Base64.encodeToString (redisNamespace other g) = collectionName rest generation kind)

/-- Neither namespace is the other one with a later generation, and neither has collections that are
named like keys of the other. -/
structure Apart (ns ns' : String) : Prop where
  redis : ∀ g, 2 ≤ g → ns ≠ qualify ":g" ns' g ∧ ns' ≠ qualify ":g" ns g
  qdrant : ∀ g, 2 ≤ g → ns ≠ qualify "_g" ns' g ∧ ns' ≠ qualify "_g" ns g
  unlike : ¬ Shadows ns ns' ∧ ¬ Shadows ns' ns

lemma Plain.not_shadows (h : Plain ns) : ¬ Shadows ns ns' := by
  have hu : ∀ start ∈ redisPrefixes, ∀ rest, ns ≠ start ++ rest := by
    rintro start hs rest rfl
    exact h.unlike start hs ⟨rest.toList, by simp⟩
  rintro ⟨rest, g, kind, -, ⟨hns | hns, -⟩ | ⟨hns, -⟩⟩ <;> exact hu _ (by decide) rest hns

lemma Plain.apart (h : Plain ns) (h' : Plain ns') (hns : ns ≠ "") (hns' : ns' ≠ "") :
    Apart ns ns' :=
  ⟨fun g hg => ⟨h.redis ns' g hns' hg, h'.redis ns g hns hg⟩,
    fun g hg => ⟨h.qdrant ns' g hns' hg, h'.qdrant ns g hns hg⟩, h.not_shadows, h'.not_shadows⟩

/-- The names of a key and of a collection are the same exactly where the namespaces are so. -/
lemma shadows_of_collectionName {kind : CollectionKind} {kind' : PhysicalKind} (hns' : ns' ≠ "")
    (hg : 1 ≤ g) (hg' : 1 ≤ g') (h : collectionName ns g kind = kind'.nameOf ns' g')
    (hk : ∀ c, kind' ≠ .collection c) : Shadows ns ns' := by
  have hone : ∀ {rest}, redisNamespace ns' g' = collectionName rest g kind →
      redisNamespace ns' g' = ns' := by
    intro rest heq
    rcases lt_or_ge g' 2 with hlt | hge
    · rw [redisNamespace, qualify, if_pos hlt]
    · exact absurd heq.symm (collectionName_ne_qualify hns' hge)
  cases kind' with
  | recommendationCache =>
    obtain ⟨rest, hr, he⟩ := eq_append_of_collectionName (by decide) h
    exact ⟨rest, g, kind, hg, .inr ⟨hr, g', hg', he⟩⟩
  | trending =>
    obtain ⟨rest, hr, he⟩ := eq_append_of_collectionName (by decide) h
    exact ⟨rest, g, kind, hg, .inl ⟨.inl hr, (hone he).symm.trans he⟩⟩
  | embedStream =>
    obtain ⟨rest, hr, he⟩ := eq_append_of_collectionName (by decide) h
    exact ⟨rest, g, kind, hg, .inl ⟨.inr hr, (hone he).symm.trans he⟩⟩
  | collection c => exact absurd rfl (hk c)

/-- Where a namespace shadows another, a key and a collection have the same name. -/
lemma Shadows.nameOf_eq (h : Shadows ns ns') : ∃ (kind kind' : PhysicalKind) (g g' : ℤ),
    1 ≤ g ∧ 1 ≤ g' ∧ kind ≠ kind' ∧ kind.nameOf ns g = kind'.nameOf ns' g' := by
  obtain ⟨rest, g, kind, hg, ⟨rfl | rfl, rfl⟩ | ⟨rfl, g', hg', he⟩⟩ := h
  · exact ⟨.collection kind, .trending, g, 1, hg, le_rfl, nofun, collectionName_append _ _ _ _⟩
  · exact ⟨.collection kind, .embedStream, g, 1, hg, le_rfl, nofun, collectionName_append _ _ _ _⟩
  · refine ⟨.collection kind, .recommendationCache, g, g', hg, hg', nofun, ?_⟩
    rw [PhysicalKind.nameOf, PhysicalKind.nameOf, he, collectionName_append]

lemma suffix_kind : ∀ kind kind' : CollectionKind,
    ("_" ++ kind.name).toList <:+ ("_" ++ kind'.name).toList → kind = kind' := by
  intro kind kind'
  cases kind <;> cases kind' <;> decide

lemma collectionKind_inj {kind : CollectionKind}
    (h : q ++ "_" ++ kind.name = q' ++ "_" ++ kind'.name) : kind = kind' := by
  have hsu : ∀ (q : String) (kind : CollectionKind),
      ("_" ++ kind.name).toList <:+ (q ++ "_" ++ kind.name).toList := fun q kind =>
    ⟨q.toList, by simp [String.append_assoc]⟩
  rcases List.suffix_or_suffix_of_suffix (hsu q kind) (h ▸ hsu q' kind') with hs | hs
  · exact suffix_kind kind kind' hs
  · exact (suffix_kind kind' kind hs).symm

lemma collectionName_inj {kind : CollectionKind} (hg : 1 ≤ g) (hg' : 1 ≤ g') (ha : Apart ns ns')
    (h : collectionName ns g kind = collectionName ns' g' kind') :
    kind = kind' ∧ ns = ns' ∧ g = g' := by
  obtain rfl := collectionKind_inj h
  have hq : qdrantNamespace ns g = qdrantNamespace ns' g' := by
    simpa [collectionName, String.append_assoc] using h
  exact ⟨rfl, qualify_inj separates_qdrant hg hg' (fun g hg => (ha.qdrant g hg).1)
    (fun g hg => (ha.qdrant g hg).2) hq⟩

lemma redisNamespace_inj (hg : 1 ≤ g) (hg' : 1 ≤ g') (ha : Apart ns ns')
    (h : redisNamespace ns g = redisNamespace ns' g') : ns = ns' ∧ g = g' :=
  qualify_inj separates_redis hg hg' (fun g hg => (ha.redis g hg).1)
    (fun g hg => (ha.redis g hg).2) h

lemma nameOf_inj {kind' : PhysicalKind} (hns : ns ≠ "") (hns' : ns' ≠ "") (hg : 1 ≤ g)
    (hg' : 1 ≤ g') (ha : Apart ns ns') (h : kind.nameOf ns g = kind'.nameOf ns' g') :
    kind = kind' ∧ ns = ns' ∧ g = g' := by
  have hr := redisNamespace_inj hg hg' ha
  cases kind with
  | recommendationCache =>
    cases kind' with
    | recommendationCache =>
      exact ⟨rfl, hr (Base64.encodeToString_injective ((String.append_right_inj _).mp h))⟩
    | trending | embedStream =>
      have hl := congrArg String.toList h
      simp [PhysicalKind.nameOf] at hl
    | collection kind' =>
      exact absurd (shadows_of_collectionName hns hg' hg h.symm nofun) ha.unlike.2
  | trending =>
    cases kind' with
    | trending => exact ⟨rfl, hr ((String.append_right_inj _).mp h)⟩
    | recommendationCache | embedStream =>
      have hl := congrArg String.toList h
      simp [PhysicalKind.nameOf] at hl
    | collection kind' =>
      exact absurd (shadows_of_collectionName hns hg' hg h.symm nofun) ha.unlike.2
  | embedStream =>
    cases kind' with
    | embedStream => exact ⟨rfl, hr ((String.append_right_inj _).mp h)⟩
    | recommendationCache | trending =>
      have hl := congrArg String.toList h
      simp [PhysicalKind.nameOf] at hl
    | collection kind' =>
      exact absurd (shadows_of_collectionName hns hg' hg h.symm nofun) ha.unlike.2
  | collection kind =>
    cases kind' with
    | collection kind' =>
      obtain ⟨rfl, hre⟩ := collectionName_inj hg hg' ha h
      exact ⟨rfl, hre⟩
    | recommendationCache | trending | embedStream =>
      exact absurd (shadows_of_collectionName hns' hg hg' h nofun) ha.unlike.1

/-- **Physical names are unambiguous** for two namespaces exactly if these are apart. -/
lemma nameOf_inj_iff (hns : ns ≠ "") (hns' : ns' ≠ "") :
    (∀ (kind kind' : PhysicalKind) g g', 1 ≤ g → 1 ≤ g' →
      kind.nameOf ns g = kind'.nameOf ns' g' → kind = kind' ∧ ns = ns' ∧ g = g') ↔
      Apart ns ns' := by
  constructor
  · intro h
    have hq : ∀ (kind : PhysicalKind) g, 2 ≤ g → kind.nameOf ns 1 ≠ kind.nameOf ns' g ∧
        kind.nameOf ns g ≠ kind.nameOf ns' 1 := fun kind g hg =>
      ⟨fun heq => absurd (h kind kind 1 g le_rfl (by omega) heq).2.2 (by omega),
        fun heq => absurd (h kind kind g 1 (by omega) le_rfl heq).2.2 (by omega)⟩
    refine ⟨fun g hg => ⟨fun heq => ?_, fun heq => ?_⟩, fun g hg => ⟨fun heq => ?_, fun heq => ?_⟩,
      fun hs => ?_, fun hs => ?_⟩
    · exact (hq .trending g hg).1 (congrArg ("trending:" ++ ·) heq)
    · exact (hq .trending g hg).2 (congrArg ("trending:" ++ ·) heq.symm)
    · exact (hq (.collection .subjects) g hg).1 (congrArg (· ++ "_" ++ "subjects") heq)
    · exact (hq (.collection .subjects) g hg).2 (congrArg (· ++ "_" ++ "subjects") heq.symm)
    · obtain ⟨kind, kind', g, g', hg, hg', hne, heq⟩ := hs.nameOf_eq
      exact hne (h kind kind' g g' hg hg' heq).1
    · obtain ⟨kind, kind', g, g', hg, hg', hne, heq⟩ := hs.nameOf_eq
      exact hne (h kind' kind g' g hg' hg heq.symm).1.symm
  · exact fun ha kind kind' g g' hg hg' => nameOf_inj hns hns' hg hg' ha

/-! ### The cached recommendations -/

lemma colon_notMem_encodeToString (text : String) : ':' ∉ (Base64.encodeToString text).toList :=
  fun h => absurd (Base64.mem_alphabet_of_mem_encodeToString h) (by decide)

lemma cache_unique
    (h : (PhysicalKind.nameOf .recommendationCache ns g ++ ":").toList <+: key.toList)
    (h' : (PhysicalKind.nameOf .recommendationCache ns' g' ++ ":").toList <+: key.toList) :
    redisNamespace ns g = redisNamespace ns' g' := by
  obtain ⟨rest, hr⟩ := h
  obtain ⟨rest', hr'⟩ := h'
  have heq := hr.trans hr'.symm
  simp only [PhysicalKind.nameOf, String.toList_append, List.append_assoc] at heq
  have hco : ∀ text : String, ∀ c ∈ (Base64.encodeToString text).toList, ¬ c = ':' :=
    fun text c hc heq => colon_notMem_encodeToString text (heq ▸ hc)
  have hs := (split_left (hco _) (hco _) rfl rfl (List.append_cancel_left heq)).1
  exact Base64.encodeToString_injective (String.toList_inj.mp hs)

/-! ### The keys of a namespace -/

/-- The key is one of the namespace at this generation. -/
def KeyOf (ns : String) (generation : ℤ) (key : String) : Prop :=
  key = PhysicalKind.nameOf .trending ns generation ∨
  key = PhysicalKind.nameOf .embedStream ns generation ∨
  (PhysicalKind.nameOf .recommendationCache ns generation ++ ":").toList <+: key.toList

instance (ns : String) (generation : ℤ) (key : String) : Decidable (KeyOf ns generation key) :=
  inferInstanceAs (Decidable (_ ∨ _ ∨ _))

lemma not_cache_of_nameOf (hk : kind = .trending ∨ kind = .embedStream) :
    ¬ (PhysicalKind.nameOf .recommendationCache ns g ++ ":").toList <+:
      (kind.nameOf ns' g').toList := by
  rintro ⟨rest, hr⟩
  rcases hk with rfl | rfl <;> simp [PhysicalKind.nameOf] at hr

/-- **A key belongs to one namespace and generation.** -/
theorem KeyOf.inj (hns : ns ≠ "") (hns' : ns' ≠ "") (hg : 1 ≤ g) (hg' : 1 ≤ g')
    (ha : Apart ns ns') (h : KeyOf ns g key) (h' : KeyOf ns' g' key) : ns = ns' ∧ g = g' := by
  have hn : ∀ {kind kind' : PhysicalKind}, kind.nameOf ns g = kind'.nameOf ns' g' →
      ns = ns' ∧ g = g' := fun heq => (nameOf_inj hns hns' hg hg' ha heq).2
  rcases h with rfl | rfl | hc
  · rcases h' with heq | heq | hc'
    · exact hn heq
    · exact hn heq
    · exact absurd hc' (not_cache_of_nameOf (.inl rfl))
  · rcases h' with heq | heq | hc'
    · exact hn heq
    · exact hn heq
    · exact absurd hc' (not_cache_of_nameOf (.inr rfl))
  · rcases h' with rfl | rfl | hc'
    · exact absurd hc (not_cache_of_nameOf (.inl rfl))
    · exact absurd hc (not_cache_of_nameOf (.inr rfl))
    · exact redisNamespace_inj hg hg' ha (cache_unique hc hc')

/-! ### Generations out of range

A name is formed from any generation, those below the first one included. -/

lemma qualify_max (separator ns : String) (generation : ℤ) :
    qualify separator ns (max generation 1) = qualify separator ns generation := by
  unfold qualify
  rcases le_total generation 1 with h | h
  · rw [if_pos (by omega), if_pos (by omega)]
  · rw [max_eq_left h]

lemma nameOf_max (kind : PhysicalKind) (ns : String) (generation : ℤ) :
    kind.nameOf ns (max generation 1) = kind.nameOf ns generation := by
  cases kind <;> simp only [PhysicalKind.nameOf, redisNamespace, collectionName,
    qdrantNamespace_eq, qualify_max]

lemma keyOf_max : KeyOf ns (max generation 1) key ↔ KeyOf ns generation key := by
  simp only [KeyOf, nameOf_max]

theorem collection_ns_eq {kind : CollectionKind} (ha : Apart ns ns')
    (h : collectionName ns g kind = collectionName ns' g' kind') : ns = ns' := by
  have hm : ∀ (ns : String) (g : ℤ) (kind : CollectionKind),
      collectionName ns (max g 1) kind = collectionName ns g kind := fun ns g kind =>
    nameOf_max (.collection kind) ns g
  rw [← hm ns g, ← hm ns' g'] at h
  exact (collectionName_inj (le_max_right _ _) (le_max_right _ _) ha h).2.1

end Codohue.PhysicalNames
