import Codohue.CleanupSafety

/-!
What is left after a cleanup: nothing, as long as the others add nothing of the same generation.

Everything that a cleanup removes stays removed, so the checks at its end find what its deletions
left.
-/

namespace Codohue.Cleanup

open PhysicalNames Repair Service

/-! ### Calls only remove -/

/-- Nothing has been added. -/
structure Shrinks (s s' : Stores) : Prop where
  rows : s'.rows ⊆ s.rows
  keys : s'.keys ⊆ s.keys
  collections : s'.collections ⊆ s.collections

lemma Shrinks.refl (s : Stores) : Shrinks s s :=
  ⟨List.Subset.refl _, List.Subset.refl _, List.Subset.refl _⟩

lemma Shrinks.trans (h : Shrinks s s') (h' : Shrinks s' s'') : Shrinks s s'' :=
  ⟨fun _ hx => h.rows (h'.rows hx), fun _ hx => h.keys (h'.keys hx),
    fun _ hx => h.collections (h'.collections hx)⟩

lemma shrinks_execute (s : Stores) (c : StoreCall) : Shrinks s (s.execute c).2 := by
  cases c with
  | clearNamespaceData ns =>
    exact ⟨List.filter_subset_self _, List.Subset.refl _, List.Subset.refl _⟩
  | truncateAllNamespaceData => exact ⟨nofun, List.Subset.refl _, List.Subset.refl _⟩
  | del keys => exact ⟨List.Subset.refl _, List.filter_subset_self _, List.Subset.refl _⟩
  | deleteCollection collection =>
    exact ⟨List.Subset.refl _, List.Subset.refl _, List.filter_subset_self _⟩
  | lockNamespace | lockAllNamespaces | getNamespace | scan | existsKeys | collectionExists
  | listCollections => exact .refl s

/-! ### What is gone -/

/-- The change adds nothing of the namespace at this generation. -/
def Spares (ns : String) (generation : ℤ) : Change → Prop
  | .addRow _ ns' => ns' ≠ ns
  | .addKey key => ¬ KeyOf ns generation key
  | .addCollection collection => ∀ kind, collection ≠ collectionName ns generation kind
  | .execute _ => True

/-- The configuration is gone, and so are the keys in `keys` and the collections in `kinds`. -/
structure Cleared (ns : String) (generation : ℤ) (keys : String → Prop)
    (kinds : List CollectionKind) (s : Stores) : Prop where
  config : (.namespaceConfigs, ns) ∉ s.rows
  keys : ∀ key ∈ s.keys, KeyOf ns generation key → ¬ keys key
  collections : ∀ kind ∈ kinds, collectionName ns generation kind ∉ s.collections

variable {ns : String} {generation : ℤ} {keys : String → Prop} {kinds : List CollectionKind}
  {s : Stores}

section Cleared

section

variable (h : Cleared ns generation keys kinds s)

include h

lemma Cleared.shrinks (hs : Shrinks s s') : Cleared ns generation keys kinds s' where
  config hm := h.config (hs.rows hm)
  keys key hm := h.keys key (hs.keys hm)
  collections kind hk hm := h.collections kind hk (hs.collections hm)

lemma Cleared.execute (c : StoreCall) : Cleared ns generation keys kinds (s.execute c).2 :=
  h.shrinks (shrinks_execute s c)

/-- **What is gone stays gone**, whatever the others do with what is theirs. -/
theorem Cleared.change {change : Change} (hc : Spares ns generation change) :
    Cleared ns generation keys kinds (s.change change) := by
  cases change with
  | addRow table ns' =>
    refine ⟨fun hm => ?_, h.keys, h.collections⟩
    rcases List.mem_cons.mp hm with heq | hm
    · exact hc (Prod.mk.inj heq).2.symm
    · exact h.config hm
  | addKey key =>
    refine ⟨h.config, fun key' hm hk => ?_, h.collections⟩
    rcases List.mem_cons.mp hm with rfl | hm
    · exact absurd hk hc
    · exact h.keys key' hm hk
  | addCollection collection =>
    refine ⟨h.config, h.keys, fun kind hki hm => ?_⟩
    rcases List.mem_cons.mp hm with heq | hm
    · exact hc kind heq.symm
    · exact h.collections kind hki hm
  | execute c => exact h.execute c

lemma Cleared.mono {keys' : String → Prop} (hke : ∀ key, keys' key → keys key)
    (hki : kinds' ⊆ kinds) : Cleared ns generation keys' kinds' s where
  config := h.config
  keys key hm hkey hk := h.keys key hm hkey (hke key hk)
  collections kind hkin := h.collections kind (hki hkin)

end

end Cleared

/-- There is no configuration, no key and no collection of the namespace at this generation. -/
def Absent (ns : String) (generation : ℤ) (s : Stores) : Prop :=
  Cleared ns generation (fun _ => True) droppedKinds s

/-! ### The deletion of a generation -/

variable {c : StoreCall}

variable {K : Contract Stores StoreCall Outcome String}

section Deletion

section

variable (hK : Lenient K) (ha : ∀ c s, K.allows c s)

include hK ha

lemma wp_cleared (hs : Cleared ns generation keys kinds s)
    (hQ : ∀ s, Cleared ns generation keys kinds s → Q (s.execute c).1 (s.execute c).2) :
    Wp (stores (Spares ns generation)) K (request ctx c) Q s :=
  wp_request hK hs (fun _ _ hc h => h.change hc) (fun s _ => ha c s) hQ

lemma wp_purgeRedis (hn : Nameable K ns generation)
    (hs : Cleared ns generation (fun _ => False) kinds s) :
    Wp (stores (Spares ns generation)) K (purgeRedis scanning deleting ns generation)
      (fun _ => Cleared ns generation (fun _ => True) kinds) s := by
  refine wp_bind (wp_named hn (wp_bind (wp_named hn (wp_bind (wp_named hn ?_)))))
  refine wp_bind (wp_cleared hK ha hs fun s hs => ?_)
  -- from the scan on, every key of the namespace is one that was found
  have hal : Cleared ns generation (· ∉ [PhysicalKind.nameOf .trending ns generation,
      PhysicalKind.nameOf .embedStream ns generation] ++ s.keys.filter fun key =>
        (PhysicalKind.nameOf .recommendationCache ns generation ++ ":").toList.isPrefixOf
          key.toList) kinds s := by
    refine ⟨hs.config, fun key hm hk hne => hne ?_, hs.collections⟩
    rcases hk with rfl | rfl | hc
    · simp
    · simp
    · refine List.mem_append_right _ (List.mem_filter.mpr ⟨hm, ?_⟩)
      exact List.isPrefixOf_iff_prefix.mpr hc
  refine wp_cleared hK ha hal fun s hs => ⟨hs.config, fun key hm hk _ => ?_, hs.collections⟩
  obtain ⟨hm, hd⟩ := List.mem_filter.mp hm
  exact hs.keys key hm hk (of_decide_eq_true hd)

lemma wp_dropCollection (hn : Nameable K ns generation) (hs : Cleared ns generation keys kinds s) :
    Wp (stores (Spares ns generation)) K (dropCollection ns generation kind)
      (fun _ => Cleared ns generation keys (kind :: kinds)) s := by
  refine wp_bind (wp_named hn (wp_bind (wp_cleared hK ha hs fun s hs => ?_)))
  refine wp_when (fun _ => ?_) fun hno => ?_
  · refine wp_cleared hK ha hs fun s hs => ⟨hs.config, hs.keys, fun kind' hk' hm => ?_⟩
    obtain ⟨hm, hne⟩ := List.mem_filter.mp hm
    rcases List.mem_cons.mp hk' with rfl | hk'
    · exact absurd rfl (of_decide_eq_true hne)
    · exact hs.collections kind' hk' hm
  · have hg : collectionName ns generation kind ∉ s.collections := of_decide_eq_false hno
    refine ⟨hs.config, hs.keys, fun kind' hk' => ?_⟩
    rcases List.mem_cons.mp hk' with rfl | hk'
    · exact hg
    · exact hs.collections kind' hk'

lemma wp_dropCollections (todo : List CollectionKind) (hn : Nameable K ns generation)
    (hs : Cleared ns generation keys kinds s) :
    Wp (stores (Spares ns generation)) K (dropCollections ns generation todo)
      (fun _ => Cleared ns generation keys (todo ++ kinds)) s := by
  induction todo generalizing kinds s with
  | nil => exact wp_pure hs
  | cons kind todo ih =>
    refine wp_bind (wp_mono (wp_dropCollection hK ha hn hs) fun _ s' hs' => ?_)
    refine wp_mono (ih hs') fun _ s'' hs'' => hs''.mono (fun _ h => h) ?_
    intro kind' hk'
    simp only [List.cons_append, List.mem_cons, List.mem_append] at hk' ⊢
    tauto

lemma wp_clearNamespaceEverywhere (job : Bool) (hn : Nameable K ns generation) :
    Wp (stores (Spares ns generation)) K
      (clearNamespaceEverywhereGeneration ⟨true, true, job⟩ ns generation)
      (fun _ => Absent ns generation) s := by
  refine wp_bind (wp_request (R := fun _ => True) hK trivial (fun _ _ _ _ => trivial)
    (fun s _ => ha _ s) fun s _ => ?_)
  have hc : Cleared ns generation (fun _ => False) [] (s.execute (.clearNamespaceData ns)).2 := by
    refine ⟨fun hm => ?_, fun _ _ _ h => h, by simp⟩
    exact absurd rfl (of_decide_eq_true (List.mem_filter.mp hm).2)
  refine wp_bind (wp_when (fun _ => wp_mapError ?_) nofun)
  refine wp_mono (wp_purgeRedis ?_ ?_ ?_ hc) fun _ s' hs' => ?_
  · exact fun o ho hne e => hK o ho hne _
  · exact ha
  · exact hn.imp_right fun hr e => hr _
  refine wp_bind (wp_when (fun _ => wp_mapError ?_) nofun)
  refine wp_mono (wp_dropCollections ?_ ?_ _ ?_ hs') fun _ s'' hs'' => ?_
  · exact fun o ho hne e => hK o ho hne _
  · exact ha
  · exact hn.imp_right fun hr e => hr _
  exact wp_pure (hs''.mono (fun _ h => h) (by simp))

/-- The checks find what is there: they pass if it is nothing, and if they pass it is nothing. -/
lemma wp_verifyRedisAbsent (hn : Nameable K ns generation) (hs : Cleared ns generation keys kinds s)
    (hke : (∀ key, keys key) ∨ ∀ e, K.raises e) :
    Wp (stores (Spares ns generation)) K (verifyRedisAbsent ns generation)
      (fun _ => Cleared ns generation (fun _ => True) kinds) s := by
  refine wp_bind (wp_named hn (wp_bind (wp_named hn (wp_bind
    (wp_cleared hK ha hs fun s hs => wp_bind (wp_named hn (wp_bind ?_)))))))
  set trending := PhysicalKind.nameOf .trending ns generation with ht
  set embedStream := PhysicalKind.nameOf .embedStream ns generation with he
  -- what the count says of the two names stays true
  have hco : Cleared ns generation (fun key => keys key ∨ (key = trending ∨ key = embedStream) ∧
        (s.execute (.existsKeys [trending, embedStream])).1 = (0 : ℕ)) kinds s := by
    refine ⟨hs.config, fun key hm hk hor => ?_, hs.collections⟩
    rcases hor with ho | ⟨hn, hz⟩
    · exact hs.keys key hm hk ho
    · have hno := List.countP_eq_zero.mp hz key (by simpa using hn)
      exact hno (decide_eq_true hm)
  refine wp_cleared hK ha hco fun s' hs' => ?_
  refine wp_require (fun hno => ⟨hs'.config, fun key hm hk _ => ?_, hs'.collections⟩) fun hso => ?_
  · rcases hk with rfl | rfl | hc
    · exact hs'.keys _ hm (.inl rfl) (.inr ⟨.inl rfl, hno.1⟩)
    · exact hs'.keys _ hm (.inr (.inl rfl)) (.inr ⟨.inr rfl, hno.1⟩)
    · have hsc := List.filter_eq_nil_iff.mp hno.2 key hm
      exact hsc (List.isPrefixOf_iff_prefix.mpr hc)
  · rcases hke with hal | hr
    · refine absurd ⟨?_, ?_⟩ hso
      · refine List.countP_eq_zero.mpr fun key hk hm => ?_
        have hn : key = trending ∨ key = embedStream := by simpa using hk
        refine hs.keys key (of_decide_eq_true hm) ?_ (hal key)
        exact hn.elim .inl fun h => .inr (.inl h)
      · refine List.filter_eq_nil_iff.mpr fun key hm hc => ?_
        exact hs'.keys key hm (.inr (.inr (List.isPrefixOf_iff_prefix.mp hc))) (.inl (hal key))
    · exact hr _

lemma wp_verifyCollectionsAbsent (todo : List CollectionKind) (hn : Nameable K ns generation)
    (hs : Cleared ns generation keys kinds s)
    (hki : todo ⊆ kinds ∨ ∀ e, K.raises e) :
    Wp (stores (Spares ns generation)) K (verifyCollectionsAbsent ns generation todo)
      (fun _ => Cleared ns generation keys (todo ++ kinds)) s := by
  induction todo generalizing kinds s with
  | nil => exact wp_pure hs
  | cons kind todo ih =>
    refine wp_bind (wp_named hn (wp_bind (wp_cleared hK ha hs fun s hs => ?_)))
    refine wp_bind (wp_require (fun hno => ?_) fun hso => ?_)
    · have hg : collectionName ns generation kind ∉ s.collections := of_decide_eq_false hno
      have hs' : Cleared ns generation keys (kind :: kinds) s := by
        refine ⟨hs.config, hs.keys, fun kind' hk' => ?_⟩
        rcases List.mem_cons.mp hk' with rfl | hk'
        · exact hg
        · exact hs.collections kind' hk'
      refine wp_mono (ih hs' ?_) fun _ s'' hs'' => hs''.mono (fun _ h => h) ?_
      · refine hki.imp_left fun hsu kind' hk' => ?_
        exact List.mem_cons_of_mem _ (hsu (List.mem_cons_of_mem _ hk'))
      · intro kind' hk'
        simp only [List.cons_append, List.mem_cons, List.mem_append] at hk' ⊢
        tauto
    · rcases hki with hsu | hr
      · exact absurd (decide_eq_false (hs.collections kind (hsu List.mem_cons_self))) hso
      · exact hr _

/-- **A verified namespace is absent**, and an absent one is verified. -/
theorem wp_verifyNamespaceAbsent (job : Bool)
    (hn : Nameable K ns generation) (hs : Absent ns generation s ∨ ∀ e, K.raises e) :
    Wp (stores (Spares ns generation)) K (verifyNamespaceAbsent ⟨true, true, job⟩ ns generation)
      (fun _ => Absent ns generation) s := by
  -- the keys and the collections, once the configuration is known to be gone
  have hre : ∀ {keys : String → Prop} {kinds : List CollectionKind} {s : Stores},
      Cleared ns generation keys kinds s →
      ((∀ key, keys key) ∧ droppedKinds ⊆ kinds ∨ ∀ e, K.raises e) →
      Wp (stores (Spares ns generation)) K (do
        Program.when true (verifyRedisAbsent ns generation)
        Program.when true (verifyCollectionsAbsent ns generation droppedKinds))
        (fun _ => Absent ns generation) s := by
    intro keys kinds s hs hp
    refine wp_bind (wp_when (fun _ => ?_) nofun)
    refine wp_mono (wp_verifyRedisAbsent hK ha hn hs (hp.imp_left And.left))
      fun _ s' hs' => wp_when (fun _ => ?_) nofun
    refine wp_mono (wp_verifyCollectionsAbsent hK ha _ hn hs' (hp.imp_left And.right))
      fun _ s'' hs'' => hs''.mono (fun _ h => h) (List.subset_append_left _ _)
  rcases hs with hab | hr
  · refine wp_bind (wp_cleared hK ha hab fun s hs => wp_bind (wp_require (fun _ => ?_)
      fun hso => absurd (decide_eq_false hs.config) hso))
    exact hre hs (.inl ⟨fun _ => trivial, List.Subset.refl _⟩)
  · refine wp_bind (wp_request (R := fun _ => True) hK trivial (fun _ _ _ _ => trivial)
      (fun s _ => ha _ s) fun s _ => wp_bind (wp_require (fun hno => ?_) fun _ => hr _))
    have hc : Cleared ns generation (fun _ => False) [] s :=
      ⟨of_decide_eq_false hno, fun _ _ _ h => h, by simp⟩
    exact hre hc (.inr hr)

/-- **A deletion that succeeds leaves nothing**, and it succeeds if no call fails. -/
theorem wp_deleteNamespaceGeneration (job : Bool) (hn : Nameable K ns generation) :
    Wp (stores (Spares ns generation)) K (deleteNamespaceGeneration ⟨true, true, job⟩ ns generation)
      (fun _ => Absent ns generation) s := by
  have hc : ∀ s, Wp (stores (Spares ns generation)) K (do
      let deleted ← clearNamespaceEverywhereGeneration ⟨true, true, job⟩ ns generation
      verifyNamespaceAbsent ⟨true, true, job⟩ ns generation
      pure deleted) (fun _ => Absent ns generation) s := fun s =>
    wp_bind (wp_mono (wp_clearNamespaceEverywhere hK ha job hn) fun _ s' hs' =>
      wp_bind (wp_mono (wp_verifyNamespaceAbsent hK ha job hn (.inl hs')) fun _ _ h => wp_pure h))
  refine wp_bind (wp_when (fun _ => ?_) fun _ => hc s)
  exact wp_request (R := fun _ => True) hK trivial (fun _ _ _ _ => trivial)
    (fun s _ => ha _ s) fun s _ => hc s

end

end Deletion

/-! ### The wipe of a reset -/

section Wipe

section

variable (hK : Lenient K) (ha : ∀ c s, K.allows c s)

include hK ha

lemma wp_alone (hQ : Q (s.execute c).1 (s.execute c).2) :
    Wp (stores fun _ => False) K (request ctx c) Q s :=
  wp_request (R := fun s' => s' = s) hK rfl (fun _ _ hc _ => hc.elim)
    (fun s _ => ha c s) fun _ hs => hs ▸ hQ

/-- The keys that begin so are gone, up to those in `rest`. -/
def Flushed (start : String) (rest : List String) (s : Stores) : Prop :=
  ∀ key ∈ s.keys, start.toList <+: key.toList → key ∈ rest

lemma wp_flushKeys (keys batch : List String) (hs : Flushed start (batch ++ keys) s) :
    Wp (stores fun _ => False) K (flushKeys pattern keys batch)
      (fun _ s' => Flushed start [] s' ∧ Shrinks s s') s := by
  induction keys generalizing batch s with
  | nil =>
    refine wp_when (fun _ => wp_alone hK ha ⟨fun key hm hst => ?_, shrinks_execute s _⟩)
      fun he => ⟨?_, .refl s⟩
    · obtain ⟨hm, hk⟩ := List.mem_filter.mp hm
      exact absurd (by simpa using hs key hm hst) (of_decide_eq_true hk)
    · have hn : batch = [] := by simpa using he
      simpa [hn] using hs
  | cons key keys ih =>
    have hsp : batch ++ key :: keys = (batch ++ [key]) ++ keys := by simp
    rw [hsp] at hs
    unfold flushKeys
    split_ifs
    · refine wp_bind (wp_alone hK ha ?_)
      refine wp_mono (ih [] fun key' hm hst => ?_) fun _ s' hs' => ⟨hs'.1, ?_⟩
      · obtain ⟨hm, hk⟩ := List.mem_filter.mp hm
        exact (List.mem_append.mp (hs key' hm hst)).resolve_left (of_decide_eq_true hk)
      · exact (shrinks_execute s _).trans hs'.2
    · exact ih (batch ++ [key]) hs

lemma wp_flushPatterns (starts : List String) : Wp (stores fun _ => False) K (flushPatterns starts)
      (fun _ s' => (∀ start ∈ starts, Flushed start [] s') ∧ Shrinks s s') s := by
  induction starts generalizing s with
  | nil => exact wp_pure ⟨by simp, .refl s⟩
  | cons start starts ih =>
    refine wp_bind (wp_alone hK ha (wp_bind ?_))
    have hf : Flushed start ([] ++ s.keys.filter fun key =>
        start.toList.isPrefixOf key.toList) s := fun key hm hst =>
      List.mem_filter.mpr ⟨hm, List.isPrefixOf_iff_prefix.mpr hst⟩
    refine wp_mono (wp_flushKeys hK ha _ [] hf) fun _ s' hs' => ?_
    refine wp_mono ih fun _ s'' hs'' => ⟨fun start' hst' => ?_, hs'.2.trans hs''.2⟩
    rcases List.mem_cons.mp hst' with rfl | hst'
    · exact fun key hm => hs'.1 key (hs''.2.keys hm)
    · exact hs''.1 start' hst'

lemma wp_deleteMatching (names : List String)
    (hs : ∀ name ∈ s.collections, hasCollectionSuffix name → name ∈ names) :
    Wp (stores fun _ => False) K (deleteMatching names)
      (fun _ s' => (∀ name ∈ s'.collections, ¬ hasCollectionSuffix name) ∧ Shrinks s s') s := by
  induction names generalizing s with
  | nil => exact wp_pure ⟨fun name hm hours => absurd (hs name hm hours) (by simp), .refl s⟩
  | cons name names ih =>
    refine wp_bind (wp_when (fun _ => wp_alone hK ha ?_) fun ho => ?_)
    · refine wp_mono (ih fun name' hm hours => ?_) fun _ s' hs' =>
        ⟨hs'.1, (shrinks_execute s _).trans hs'.2⟩
      obtain ⟨hm, hne⟩ := List.mem_filter.mp hm
      exact (List.mem_cons.mp (hs name' hm hours)).resolve_left (of_decide_eq_true hne)
    · refine ih fun name' hm hours => (List.mem_cons.mp (hs name' hm hours)).resolve_left ?_
      rintro rfl
      rw [ho] at hours
      cases hours

/-- Nothing of any namespace is left. -/
structure Wiped (s : Stores) : Prop where
  rows : s.rows = []
  keys : ∀ start ∈ redisPatterns, Flushed start [] s
  collections : ∀ name ∈ s.collections, ¬ hasCollectionSuffix name

theorem wp_wipe (job : Bool) :
    Wp (stores fun _ => False) K (wipe ⟨true, true, job⟩) (fun _ => Wiped) s := by
  have hw : ∀ s, Wp (stores fun _ => False) K (do
      let _ ← request "truncate postgres data" .truncateAllNamespaceData
      Program.when true (flushAllNamespaceRedis.mapError ("flush redis: " ++ ·))
      Program.when true (flushAllNamespaceQdrant.mapError ("flush qdrant: " ++ ·)))
      (fun _ => Wiped) s := by
    intro s
    refine wp_bind (wp_alone hK ha (wp_bind (wp_when (fun _ => wp_mapError ?_) nofun)))
    refine wp_mono (wp_flushPatterns ?_ ?_ _) fun _ s' hs' =>
      wp_when (fun _ => wp_mapError ?_) nofun
    · exact fun o ho hne e => hK o ho hne _
    · exact ha
    refine wp_bind (wp_alone ?_ ?_ (wp_mono (wp_deleteMatching ?_ ?_ _ fun _ h _ => h)
      fun _ s'' hs'' => ⟨?_, ?_, hs''.1⟩))
    · exact fun o ho hne e => hK o ho hne _
    · exact ha
    · exact fun o ho hne e => hK o ho hne _
    · exact ha
    · have hr := hs'.2.trans hs''.2
      exact List.subset_nil.mp hr.rows
    · exact fun start hst key hm => hs'.1 start hst key (hs''.2.keys hm)
  refine wp_bind (wp_when (fun _ => wp_alone hK ha (hw _)) fun _ => hw s)

end

lemma Wiped.absent (h : Wiped s) (ns : String) (generation : ℤ) :
    Absent ns generation s where
  config := by simp [h.rows]
  keys key hm hk _ := by
    rcases hk with rfl | rfl | hc
    · exact absurd (h.keys "trending:" (by decide) _ hm (by simp [PhysicalKind.nameOf]))
        List.not_mem_nil
    · exact absurd (h.keys "catalog:embed:" (by decide) _ hm (by simp [PhysicalKind.nameOf]))
        List.not_mem_nil
    · refine absurd (h.keys "rec:" (by decide) _ hm (List.IsPrefix.trans ?_ hc))
        List.not_mem_nil
      simp [PhysicalKind.nameOf]
  collections kind _ hm := by
    have hs : "_" ++ kind.name ∈ qdrantCollectionSuffixes := by cases kind <;> decide
    refine h.collections _ hm (List.any_eq_true.mpr ⟨"_" ++ kind.name, hs, ?_⟩)
    simp [collectionName, String.append_assoc]

end Wipe

end Codohue.Cleanup
