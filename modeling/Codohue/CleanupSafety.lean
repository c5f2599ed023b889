import Codohue.Cleanup

/-!
What a cleanup removes.

The deletion of a namespace and the janitor issue deletions for the names of one generation only.
That spares every other namespace exactly as far as the names are unambiguous.
-/

namespace Codohue.Cleanup

open PhysicalNames Repair Service Transition

/-! ### Rules for the calls -/

variable {c : StoreCall} {ns : String} {generation : ℤ}

section Rules

variable {K : Contract Stores StoreCall Outcome String}

/-- A call that fails may end the program with any error. -/
def Lenient (K : Contract Stores StoreCall Outcome String) : Prop :=
  ∀ o, K.outcome o → o ≠ .ok → ∀ e, K.raises e

lemma wp_request {R : Stores → Prop} (hK : Lenient K) (hs : R s)
    (hR : ∀ s change, P change → R s → R (s.change change)) (ha : ∀ s, R s → K.allows c s)
    (hQ : ∀ s, R s → Q (s.execute c).1 (s.execute c).2) :
    Wp (stores P) K (request ctx c) Q s := by
  refine wp_bind (wp_ask hs ?_ ha ?_)
  · rintro s ⟨change, hc⟩ s' hs hp
    cases hp
    exact hR s change hc hs
  · intro s o r s' hs ho hse
    cases o with
    | ok =>
      cases hse
      refine wp_ofExcept (fun v hv => ?_) nofun
      cases hv
      exact hQ s hs
    | fail e | lost e =>
      cases hse
      exact wp_ofExcept nofun fun e _ => hK _ ho nofun e

/-- The names can be formed, or else any error may be raised. -/
def Nameable (K : Contract Stores StoreCall Outcome String) (ns : String) (generation : ℤ) :
    Prop :=
  (ns ≠ "" ∧ 1 ≤ generation) ∨ ∀ e, K.raises e

lemma wp_named {Q : String → Stores → Prop} (hn : Nameable K ns generation)
    (hQ : Q (kind.nameOf ns generation) s) : Wp (stores P) K (named kind ns generation) Q s := by
  refine wp_ofExcept (fun name hok => ?_) fun e he => ?_
  · rwa [← (physicalName_eq_ok.mp hok).2.2]
  · rcases hn with ⟨hns, hg⟩ | hr
    · rw [physicalName_eq_ok.mpr ⟨hns, hg, rfl⟩] at he
      cases he
    · exact hr e

end Rules

/-! ### Only what is its own -/

/-- The call removes nothing but resources of the namespace at this generation. -/
def OwnOnly (ns : String) (generation : ℤ) : StoreCall → Prop
  | .del keys => ∀ key ∈ keys, KeyOf ns generation key
  | .deleteCollection collection => ∃ kind, collection = collectionName ns generation kind
  | .clearNamespaceData ns' => ns' = ns
  | .truncateAllNamespaceData => False
  | _ => True

/-- Any outcome and any error, and calls that remove only what is its own. -/
def ownOnly (ns : String) (generation : ℤ) : Contract Stores StoreCall Outcome String :=
  ⟨fun _ => True, fun c _ => OwnOnly ns generation c, fun _ => True⟩

section Own

lemma nameable_own : Nameable (ownOnly ns generation) ns generation := .inr fun _ => trivial

lemma wp_own (ho : OwnOnly ns generation c) (hQ : ∀ s : Stores, Q (s.execute c).1 (s.execute c).2) :
    Wp (stores fun _ => True) (ownOnly ns generation) (request ctx c) Q s :=
  wp_request (R := fun _ => True) (fun _ _ _ _ => trivial) trivial (fun _ _ _ _ => trivial)
    (fun _ _ => ho) fun s _ => hQ s

lemma wp_purgeRedis_own :
    Wp (stores fun _ => True) (ownOnly ns generation) (purgeRedis scanning deleting ns generation)
      (fun _ _ => True) s := by
  refine wp_bind (wp_named nameable_own (wp_bind (wp_named nameable_own
    (wp_bind (wp_named nameable_own ?_)))))
  refine wp_bind (wp_own trivial fun s => ?_)
  refine wp_own (fun key hk => ?_) fun _ => trivial
  rcases List.mem_append.mp hk with hn | hc
  · simp only [List.mem_cons, List.not_mem_nil, or_false] at hn
    rcases hn with rfl | rfl
    · exact .inl rfl
    · exact .inr (.inl rfl)
  · have hs := (List.mem_filter.mp hc).2
    exact .inr (.inr (List.isPrefixOf_iff_prefix.mp hs))

lemma wp_dropCollections_own (kinds : List CollectionKind) :
    Wp (stores fun _ => True) (ownOnly ns generation) (dropCollections ns generation kinds)
      (fun _ _ => True) s := by
  induction kinds generalizing s with
  | nil => exact wp_pure trivial
  | cons kind kinds ih =>
    refine wp_bind (wp_bind (wp_named nameable_own (wp_bind (wp_own trivial fun s => ?_))))
    exact wp_when (fun _ => wp_own ⟨kind, rfl⟩ fun _ => ih) fun _ => ih

lemma wp_mapError_own {Q : Unit → Stores → Prop}
    (h : Wp (stores fun _ => True) (ownOnly ns generation) p (fun _ _ => True) s) (hQ : ∀ s, Q () s)
    :
    Wp (stores fun _ => True) (ownOnly ns generation) (p.mapError f) Q s :=
  wp_mapError (wp_mono h fun _ s _ => hQ s)

lemma wp_cleanCandidate_own :
    Wp (stores fun _ => True) (ownOnly ns generation) (cleanCandidate clients ns generation)
      (fun _ _ => True) s := by
  refine wp_bind (wp_mapError_own (wp_when (fun _ => wp_purgeRedis_own)
    fun _ => trivial) fun s => wp_mapError_own ?_ fun _ => trivial)
  exact wp_when (fun _ => wp_dropCollections_own _) fun _ => trivial

lemma wp_clearNamespaceEverywhere_own {Q : ℕ → Stores → Prop} (hQ : ∀ n s, Q n s) :
    Wp (stores fun _ => True) (ownOnly ns generation)
      (clearNamespaceEverywhereGeneration clients ns generation) Q s := by
  refine wp_bind (wp_own rfl fun s => wp_bind ?_)
  have hq : ∀ s', Wp (stores fun _ => True) (ownOnly ns generation)
      (Program.when clients.qdrant ((clearNamespaceQdrantGeneration ns generation).mapError
        ("clear qdrant data for " ++ Text.quote ns ++ ": " ++ ·)))
      (fun _ => Q (s.execute (.clearNamespaceData ns)).1) s' := fun s' =>
    wp_when (fun _ => wp_mapError_own (wp_dropCollections_own _) (hQ _)) fun _ => hQ _ s'
  exact wp_when (fun _ => wp_mapError_own (wp_purgeRedis_own) fun s => wp_bind (hq s))
    fun _ => wp_bind (hq _)

lemma wp_verifyCollectionsAbsent_own (kinds : List CollectionKind) :
    Wp (stores fun _ => True) (ownOnly ns generation)
      (verifyCollectionsAbsent ns generation kinds) (fun _ _ => True) s := by
  induction kinds generalizing s with
  | nil => exact wp_pure trivial
  | cons kind kinds ih =>
    refine wp_bind (wp_named nameable_own (wp_bind (wp_own trivial fun s => ?_)))
    exact wp_bind (wp_require (fun _ => ih) fun _ => trivial)

lemma wp_verifyRedisAbsent_own {Q : Unit → Stores → Prop} (hQ : ∀ s, Q () s) :
    Wp (stores fun _ => True) (ownOnly ns generation) (verifyRedisAbsent ns generation) Q s := by
  refine wp_bind (wp_named nameable_own (wp_bind (wp_named nameable_own (wp_bind (wp_own trivial
    fun s => wp_bind (wp_named nameable_own (wp_bind (wp_own trivial fun s' => ?_))))))))
  exact wp_require (fun _ => hQ _) fun _ => trivial

lemma wp_verifyNamespaceAbsent_own : Wp (stores fun _ => True) (ownOnly ns generation)
      (verifyNamespaceAbsent clients ns generation) (fun _ _ => True) s := by
  refine wp_bind (wp_own trivial fun s => wp_bind (wp_require (fun _ => wp_bind ?_)
    fun _ => trivial))
  have hq : ∀ s', Wp (stores fun _ => True) (ownOnly ns generation)
      (Program.when clients.qdrant (verifyCollectionsAbsent ns generation droppedKinds))
      (fun _ _ => True) s' := fun s' =>
    wp_when (fun _ => wp_verifyCollectionsAbsent_own _) fun _ => trivial
  exact wp_when (fun _ => wp_verifyRedisAbsent_own hq) fun _ => hq _

end Own

/-- Who removes a generation from the stores. -/
inductive Cleaner where
  | deletion
  | janitor
  deriving DecidableEq, Repr

def Cleaner.program (clients : Clients) (ns : String) (generation : ℤ) : Cleaner → CleanupM Unit
  | .deletion => do
    let _ ← deleteNamespaceGeneration clients ns generation
    pure ()
  | .janitor => cleanCandidate clients ns generation

lemma wp_program_own (clients : Clients) (cleaner : Cleaner) (s : Stores) :
    Wp (stores fun _ => True) (ownOnly ns generation) (cleaner.program clients ns generation)
      (fun _ _ => True) s := by
  cases cleaner with
  | janitor => exact wp_cleanCandidate_own
  | deletion =>
    have hc : ∀ s', Wp (stores fun _ => True) (ownOnly ns generation) (do
        let deleted ← clearNamespaceEverywhereGeneration clients ns generation
        verifyNamespaceAbsent clients ns generation
        pure deleted) (fun _ _ => True) s' := fun s' =>
      wp_bind (wp_clearNamespaceEverywhere_own fun _ s =>
        wp_bind (wp_mono (wp_verifyNamespaceAbsent_own) fun _ _ _ => wp_pure trivial))
    have hd : Wp (stores fun _ => True) (ownOnly ns generation)
        (deleteNamespaceGeneration clients ns generation) (fun _ _ => True) s :=
      wp_bind (wp_when (fun _ => wp_own trivial fun s => hc s) fun _ => hc s)
    exact wp_bind (wp_mono hd fun _ _ _ => wp_pure trivial)

/-! ### What is spared -/

/-- The keys and collections of the namespace at this generation are still there. -/
structure Spared (ns : String) (generation : ℤ) (s s' : Stores) : Prop where
  keys : ∀ key, KeyOf ns generation key → key ∈ s.keys → key ∈ s'.keys
  collections : ∀ kind, collectionName ns generation kind ∈ s.collections →
    collectionName ns generation kind ∈ s'.collections

lemma Spared.refl (ns : String) (generation : ℤ) (s : Stores) : Spared ns generation s s :=
  ⟨fun _ _ h => h, fun _ h => h⟩

lemma spared_of_ownOnly (hns : ns ≠ "") (hns' : ns' ≠ "") (hg : 1 ≤ g) (hg' : 1 ≤ g')
    (ha : Apart ns ns') (hne : ns ≠ ns' ∨ g ≠ g') (ho : OwnOnly ns g c) (s : Stores) :
    Spared ns' g' s (s.execute c).2 := by
  have hot : ¬ (ns = ns' ∧ g = g') := fun h => hne.elim (· h.1) (· h.2)
  cases c with
  | del keys =>
    refine ⟨fun key hke hm => List.mem_filter.mpr ⟨hm, ?_⟩, fun _ h => h⟩
    simp only [decide_eq_true_eq]
    exact fun hd => hot (KeyOf.inj hns hns' hg hg' ha (ho key hd) hke)
  | deleteCollection collection =>
    refine ⟨fun _ _ h => h, fun kind hm => List.mem_filter.mpr ⟨hm, ?_⟩⟩
    simp only [decide_eq_true_eq]
    intro heq
    obtain ⟨kind', hk'⟩ := ho
    exact hot (collectionName_inj hg hg' ha (hk'.symm.trans heq.symm)).2
  | truncateAllNamespaceData => exact ho.elim
  | clearNamespaceData => exact ⟨fun _ _ h => h, fun _ h => h⟩
  | lockNamespace | lockAllNamespaces | getNamespace | scan | existsKeys | collectionExists
  | listCollections => exact .refl ns' g' s

/-- **Names are unambiguous, and a cleanup spares everybody else.** For two namespaces, names
determine their kind, their namespace and their generation exactly if the namespaces are apart; and
then, in every interleaving with others and whatever becomes of the calls, no call of the deletion
or of the janitor for one of them and a generation removes a key or a collection of the other one,
or of another generation. -/
theorem cleanup_spares_others {n₁ n₂ : String} (hn₁ : n₁ ≠ "") (hn₂ : n₂ ≠ "") :
    ((∀ k₁ k₂ g₁ g₂ name, physicalName k₁ n₁ g₁ = .ok name → physicalName k₂ n₂ g₂ = .ok name →
      k₁ = k₂ ∧ n₁ = n₂ ∧ g₁ = g₂) ↔ Apart n₁ n₂) ∧
    (Apart n₁ n₂ → ∀ g₁ g₂, 1 ≤ g₁ → 1 ≤ g₂ → n₁ ≠ n₂ ∨ g₁ ≠ g₂ →
      ∀ clients (cleaner : Cleaner) s₀ actions s p o s' p',
        exec (stores fun _ => True).step (s₀, cleaner.program clients n₁ g₁) actions = some (s, p) →
        (stores fun _ => True).step (s, p) (.reply o) = some (s', p') → Spared n₂ g₂ s s') := by
  refine ⟨?_, fun ha g₁ g₂ hg₁ hg₂ hne => ?_⟩
  · rw [← nameOf_inj_iff hn₁ hn₂]
    constructor
    · intro h k₁ k₂ g₁ g₂ hg₁ hg₂ heq
      exact h k₁ k₂ g₁ g₂ _ (physicalName_eq_ok.mpr ⟨hn₁, hg₁, rfl⟩)
        (physicalName_eq_ok.mpr ⟨hn₂, hg₂, heq.symm⟩)
    · intro h k₁ k₂ g₁ g₂ name h₁ h₂
      obtain ⟨-, hg₁, rfl⟩ := physicalName_eq_ok.mp h₁
      obtain ⟨-, hg₂, heq⟩ := physicalName_eq_ok.mp h₂
      exact h k₁ k₂ g₁ g₂ hg₁ hg₂ heq.symm
  · intro clients cleaner s₀ actions s p o s' p' hr hst
    cases p with
    | pure | throw => cases hst
    | call c k =>
      have ho : OwnOnly n₁ g₁ c :=
        (wp_program_own clients cleaner s₀).allows_of_exec (fun _ _ => trivial) hr
      have hsp := spared_of_ownOnly hn₁ hn₂ hg₁ hg₂ ha hne ho s
      obtain ⟨⟨r, s''⟩, hs, heq⟩ := Option.map_eq_some_iff.mp hst
      obtain ⟨rfl, -⟩ := Prod.mk.inj heq
      cases o with
      | ok | lost e =>
        cases hs
        exact hsp
      | fail e =>
        cases hs
        exact .refl n₂ g₂ s

theorem cleanup_spares_others_shops : Apart "shop" "shop_eu" ∧
    (∀ k₁ k₂ g₁ g₂ name, physicalName k₁ "shop" g₁ = .ok name →
      physicalName k₂ "shop_eu" g₂ = .ok name → k₁ = k₂ ∧ "shop" = "shop_eu" ∧ g₁ = g₂) ∧
    ∀ clients (cleaner : Cleaner) s₀ actions s p o s' p',
      exec (stores fun _ => True).step (s₀, cleaner.program clients "shop" 2) actions =
        some (s, p) →
      (stores fun _ => True).step (s, p) (.reply o) = some (s', p') → Spared "shop_eu" 1 s s' := by
  have hs : Plain "shop" := plain_of_end (by decide +kernel) (by decide +kernel)
  have hse : Plain "shop_eu" := plain_of_end (by decide +kernel) (by decide +kernel)
  have ha : Apart "shop" "shop_eu" := hs.apart hse (by decide) (by decide)
  obtain ⟨hiff, hsp⟩ := @cleanup_spares_others "shop" "shop_eu" (by decide) (by decide)
  exact ⟨ha, hiff.mpr ha, hsp ha 2 1 (by decide) (by decide) (.inl (by decide))⟩

/-- The stores of two live namespaces of the first generation. -/
def twoNamespaces : Stores := ⟨[], ["trending:a:g2"], ["a_g2_subjects"]⟩

/-- The second generation of `a` has the names of the first one of `a:g2` and of `a_g2`, and its
deletion takes them along. -/
theorem deletion_removes_anothers_data :
    physicalName .trending "a" 2 = physicalName .trending "a:g2" 1 ∧
    physicalName (.collection .subjects) "a" 2 = physicalName (.collection .subjects) "a_g2" 1 ∧
    KeyOf "a:g2" 1 "trending:a:g2" ∧ collectionName "a_g2" 1 .subjects = "a_g2_subjects" ∧
    ∃ actions s p, exec (stores fun _ => True).step
        (twoNamespaces, Cleaner.deletion.program ⟨true, true, true⟩ "a" 2) actions = some (s, p) ∧
      "trending:a:g2" ∉ s.keys ∧ "a_g2_subjects" ∉ s.collections := by
  have hv : (exec (stores fun _ => True).step
      (twoNamespaces, Cleaner.deletion.program ⟨true, true, true⟩ "a" 2)
      (List.replicate 9 (.reply .ok))).map Prod.fst = some ⟨[], [], []⟩ := by decide +kernel
  obtain ⟨⟨s, p⟩, hr, rfl⟩ := Option.map_eq_some_iff.mp hv
  exact ⟨by decide +kernel, by decide +kernel, by decide +kernel, by decide +kernel, _, _, p, hr,
    by simp, by simp⟩

end Codohue.Cleanup
