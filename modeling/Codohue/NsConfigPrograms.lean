import Codohue.NsConfigSteps

/-!
What the methods of `internal/nsconfig` know when they write.

A write comes after the checks of its method, and these have seen the stores only through the
exchanges before it. So each fact is about a list of exchanges: what was read, and what was made
of it.
-/

namespace Codohue.NsConfig

open Service
open Program (Follows Ends)

variable {P : Type}

abbrev Exchange (P : Type) := Σ c : Call P, Answer c

/-- The calls that the checks make. -/
def Call.looks : Call P → Bool
  | .get => true
  | .denseCollectionsExist _ => true
  | _ => false

/-! ### Checks -/

variable {t : List (Exchange P)}

variable {dim : ℤ}

section Checks

variable (S : ConfigService P)

/-- The dimension was looked up, and it is the one that is asked for, or there are no
collections. -/
def Guarded (req : UpsertRequest P) (t : List (Exchange P)) : Prop :=
  ∀ dim, req.embeddingDim = some dim → S.denseCollections = true → req.provisionAPIKey = "" →
    ∃ current : Option (Row P), ⟨.get, .ok current⟩ ∈ t ∧ ∀ row, current = some row →
      row.values .embeddingDim = dim ∨ ⟨.denseCollectionsExist row.generation, .ok false⟩ ∈ t

lemma follows_guard (req : UpsertRequest P) :
    (guardEmbeddingDimChange S req).Follows (fun _ c => c.looks = true)
      (Ends (fun t _ => Guarded S req t) fun _ => True) := by
  unfold guardEmbeddingDimChange
  split
  · next hdi =>
    intro dim h
    cases hdi.symm.trans h
  · next dim hdi =>
    split_ifs with hs
    · intro _ _ hw hk
      exact absurd hs (not_or.mpr ⟨by simp [hw], not_not.mpr hk⟩)
    · refine follows_requestIn_bind rfl (fun current => ?_) fun _ => trivial
      cases current with
      | none =>
        exact fun _ _ _ _ => ⟨none, List.mem_cons_self, nofun⟩
      | some row =>
        dsimp only
        split_ifs with hsa
        · intro d hd _ _
          obtain rfl := Option.some.inj (hdi.symm.trans hd)
          refine ⟨some row, List.mem_cons_self, fun row' hr' => .inl ?_⟩
          rw [← Option.some.inj hr', hsa]
        · refine follows_requestIn_bind rfl (fun found => ?_) fun _ => trivial
          cases found with
          | true => exact trivial
          | false =>
            intro d hd _ _
            refine ⟨some row, List.mem_cons_self, fun row' hr' => .inr ?_⟩
            rw [← Option.some.inj hr']
            exact List.mem_cons_of_mem _ List.mem_cons_self

/-- The dimension that a strategy is checked against. -/
def Measured (requestedDim : Option ℤ) (t : List (Exchange P)) (dim : ℤ) : Prop :=
  match requestedDim.filter (0 < ·) with
  | some d => dim = d
  | none => ∃ current : Option (Row P), ⟨.get, .ok current⟩ ∈ t ∧ dim = dimOf current

lemma Measured.mono {requestedDim : Option ℤ} (h : Measured requestedDim t dim) (ht : t ⊆ t') :
    Measured requestedDim t' dim := by
  unfold Measured at h ⊢
  split at h
  · exact h
  · obtain ⟨current, hm, hd⟩ := h
    exact ⟨current, ht hm, hd⟩

lemma Measured.eq (h : Measured (some d) t dim) (hd : 0 < d) : dim = d := by
  rw [Measured, Option.filter_some, if_pos (decide_eq_true hd)] at h
  exact h

lemma follows_effectiveDim (requestedDim : Option ℤ) :
    (effectiveDim requestedDim : ConfigM P ℤ).Follows (fun _ c => c.looks = true)
      (Ends (fun t dim => Measured requestedDim t dim) fun _ => True) := by
  unfold effectiveDim Measured
  cases requestedDim.filter (0 < ·) with
  | some d => exact rfl
  | none =>
    refine follows_requestIn_bind rfl (fun current => ?_) fun _ => trivial
    exact ⟨current, List.mem_cons_self, rfl⟩

/-- The strategy of an enabled request builds, and has the dimension. -/
structure Usable (req : UpdateCatalogRequest P) (requestedDim : Option ℤ)
    (t : List (Exchange P)) : Prop where
  named : req.strategyID ≠ "" ∧ req.strategyVersion ≠ ""
  builds : ∃ dim, S.registry.build req.strategyID req.strategyVersion
    (req.params.getD S.runtime.empty) = .ok dim ∧ Measured requestedDim t dim

lemma follows_validateCatalogStrategy (req : UpdateCatalogRequest P) (requestedDim : Option ℤ) :
    (validateCatalogStrategy S req requestedDim).Follows (fun _ c => c.looks = true)
      (Ends (fun t _ => req.enabled = true → Usable S req requestedDim t) fun _ => True) := by
  unfold validateCatalogStrategy
  split_ifs with hd hn
  · intro he
    cases hd.symm.trans he
  · exact trivial
  · cases hb : S.registry.build req.strategyID req.strategyVersion
        (req.params.getD S.runtime.empty) with
    | error e => exact trivial
    | ok strategyDim =>
      change Follows _ _ (effectiveDim requestedDim >>= _)
      refine Follows.bind (follows_effectiveDim requestedDim) (fun t dim hdi => ?_) fun _ _ _ =>
        trivial
      split_ifs with hne
      · exact trivial
      · rw [Program.follows_pure, List.append_nil]
        intro _
        rw [not_not] at hne
        exact ⟨not_or.mp hn, strategyDim, hb, hne ▸ hdi⟩

end Checks

/-! ### The rules of a patch -/

variable {values : Values P}

variable {group : Group}

section Patches

variable {R : Runtime P} {req : ConfigurationPatch P}

/-- The values of a row with the changes of a patch. -/
def ConfigurationPatch.merge (R : Runtime P) (req : ConfigurationPatch P) (values : Values P) :
    Values P := fun f => (req.change R f).getD (values f)

lemma checkChange_ok (h : checkChange R group name v = .ok ()) :
    ∃ f, f.name = name ∧ f.group = group ∧ (decode R f v).isSome = true := by
  unfold checkChange at h
  split at h
  · cases h
  · next f hf =>
    split_ifs at h with hnu hd
    refine ⟨f, by simpa using List.find?_some hf, ?_, ?_⟩
    · exact mem_configurationFields.mp (List.mem_of_find?_eq_some hf)
    · exact Option.isSome_iff_ne_none.mpr fun hn => hd (Option.isNone_iff_eq_none.mpr hn)

lemma checkChanges_ok (h : checkChanges R group l = .ok ()) :
    ∀ change ∈ l, checkChange R group change.1 change.2 = .ok () := by
  induction l with
  | nil => exact nofun
  | cons change rest ih =>
    obtain ⟨⟨⟩, hc, hr⟩ := ok_of_bind h
    exact List.forall_mem_cons.mpr ⟨hc, ih hr⟩

/-- A patch that passes names fields of its group only, each with a value of its type. -/
lemma validateConfigurationPatch_ok (h : validateConfigurationPatch R req = .ok group) :
    Group.ofName req.group = some group ∧ ∀ (f : ConfigurationField) v,
      req.changes.lookup f.name = some v → f.group = group ∧ (decode R f v).isSome = true := by
  unfold validateConfigurationPatch at h
  split at h
  · cases h
  · next g hg =>
    split_ifs at h
    obtain ⟨⟨⟩, hc, heq⟩ := ok_of_bind h
    cases heq
    refine ⟨hg, fun f v hl => ?_⟩
    obtain ⟨f', hn, hg, hd⟩ :=
      checkChange_ok (checkChanges_ok hc _ (AList.mem_lookup_iff.mp hl))
    obtain rfl := ConfigurationField.name_injective hn
    exact ⟨hg, hd⟩

lemma apply_eq_merge (h : validateConfigurationPatch R req = .ok group) (values : Values P) :
    req.apply R values = req.merge R values := by
  obtain ⟨hg, hfi⟩ := validateConfigurationPatch_ok h
  funext f
  unfold ConfigurationPatch.apply ConfigurationPatch.merge
  split_ifs with hf
  · rfl
  · have hn : req.changes.lookup f.name = none := by
      refine Option.eq_none_iff_forall_ne_some.mpr fun v hv => hf ?_
      rw [hg, (hfi f v hv).1]
    rw [ConfigurationPatch.change, hn]
    rfl

lemma validateUpsert_ok (h : validateUpsert R base = .ok ()) (hd : base.embeddingDim = some dim) :
    0 < dim := by
  -- the dimension is the eighth field that is checked
  iterate 7 obtain ⟨-, -, h⟩ := ok_of_bind h
  obtain ⟨⟨⟩, hc, -⟩ := ok_of_bind h
  rw [hd] at hc
  by_contra hn
  have hle : dim ≤ 0 := by omega
  simp [check, hle] at hc

end Patches

/-! ### What a patch has checked -/

section Review

variable (S : ConfigService P)

/-- The values name a strategy that builds, with their dimension. -/
def HasStrategy (values : Values P) : Prop :=
  ∃ id version, values .catalogStrategyID = some id ∧
    values .catalogStrategyVersion = some version ∧
    S.registry.build id version (values .catalogStrategyParams) = .ok (values .embeddingDim)

/-- The fields that the dense collections are made of. -/
def ConfigurationField.isShape (f : ConfigurationField) : Prop :=
  f = .embeddingDim ∨ f = .denseDistance

/-- The values keep the shape, or there were no collections. -/
def Shaped (group : Group) (current : Configuration P) (values : Values P)
    (t : List (Exchange P)) : Prop :=
  S.denseCollections = true → group = .embeddings → ∀ f : ConfigurationField, f.isShape →
    values f = current.values f ∨ ⟨.denseCollectionsExist current.generation, .ok false⟩ ∈ t

variable {current : Configuration P}

lemma Shaped.mono (h : Shaped S group current values t) (ht : t ⊆ t') :
    Shaped S group current values t' :=
  fun hw hg f hf => (h hw hg f hf).imp_right fun hm => ht hm

/-- The patch fits the row that was read under the lock. -/
structure Reviewed (req : ConfigurationPatch P) (group : Group) (current : Configuration P)
    (t : List (Exchange P)) : Prop where
  generation : current.generation = req.generation
  revision : current.revision group = req.baseRevision
  positive : 0 < req.merge S.runtime current.values .embeddingDim
  strategy : req.merge S.runtime current.values .denseSource = catalog →
    HasStrategy S (req.merge S.runtime current.values)
  shape : Shaped S group current (req.merge S.runtime current.values) t

lemma Reviewed.mono (h : Reviewed S req group current t) (ht : t ⊆ t') :
    Reviewed S req group current t' :=
  ⟨h.generation, h.revision, h.positive, h.strategy, h.shape.mono S ht⟩

lemma follows_configurationLocks (out : Configuration P) :
    (configurationLocks S out).Follows (fun _ c => c.looks = true)
      (Ends (fun _ out' => ∃ locks, out' = { out with locks := locks }) fun _ => True) := by
  unfold configurationLocks
  split_ifs
  · refine follows_request_bind rfl (fun found => ?_) fun _ => trivial
    split_ifs
    · exact ⟨_, rfl⟩
    · exact ⟨out.locks, rfl⟩
  · exact ⟨out.locks, rfl⟩

lemma Usable.hasStrategy
    (h : Usable S
      ⟨true, (values .catalogStrategyID).getD "", (values .catalogStrategyVersion).getD "",
      some (values .catalogStrategyParams), 0, 0⟩ (some (values .embeddingDim)) t)
    (hp : 0 < values .embeddingDim) : HasStrategy S values := by
  obtain ⟨⟨hid, hv⟩, dim, hb, hd⟩ := h
  have hs : ∀ x : Option String, x.getD "" ≠ "" → x = some (x.getD "") := by
    rintro (_ | x) hx
    · exact absurd rfl hx
    · rfl
  refine ⟨_, _, hs _ hid, hs _ hv, ?_⟩
  rw [← hd.eq hp]
  exact hb

variable [DecidableEq P]

lemma follows_checkShape (current : Configuration P) (values : Values P) (f : ConfigurationField) :
    (checkShape current values f).Follows (fun _ c => c.looks = true)
      (Ends (fun t _ => values f = current.values f ∨
        ⟨.denseCollectionsExist current.generation, .ok false⟩ ∈ t) fun _ => True) := by
  unfold checkShape
  split_ifs with hs
  · exact .inl hs
  · refine follows_request_bind rfl (fun found => ?_) fun _ => trivial
    cases found with
    | true => exact trivial
    | false => exact .inr List.mem_cons_self

lemma follows_shape (group : Group) (current : Configuration P) (values : Values P) :
    (if S.denseCollections = true ∧ group = .embeddings then do
        checkShape current values .embeddingDim
        checkShape current values .denseDistance
      else pure () : ConfigM P Unit).Follows (fun _ c => c.looks = true)
      (Ends (fun t _ => Shaped S group current values t) fun _ => True) := by
  split_ifs with hs
  · refine Follows.bind (follows_checkShape current values .embeddingDim) (fun t _ hdi => ?_)
      fun _ _ _ => trivial
    refine (follows_checkShape current values .denseDistance).mono (fun _ _ h => h) ?_
    rintro t' (e | u) hd
    · exact trivial
    · intro _ _ f hf
      rcases hf with rfl | rfl
      · exact hdi.imp_right fun hm => List.mem_append_left _ hm
      · exact hd.imp_right fun hm => List.mem_append_right _ hm
  · exact fun hw hg => absurd ⟨hw, hg⟩ hs

lemma follows_validateConfiguration (group : Group) (current : Configuration P)
    (values : Values P) :
    (validateConfiguration S group current values).Follows (fun _ c => c.looks = true)
      (Ends (fun t _ => 0 < values .embeddingDim ∧
        (values .denseSource = catalog → HasStrategy S values) ∧
        Shaped S group current values t) fun _ => True) := by
  unfold validateConfiguration
  cases hv : validateValues S.runtime group values with
  | error e => exact trivial
  | ok u =>
    obtain ⟨⟨⟩, hu, -⟩ := ok_of_bind hv
    have hp := validateUpsert_ok (ok_of_mapError hu) rfl
    change Follows _ _ (if values .denseSource = catalog then _ else _)
    by_cases hc : values .denseSource = catalog
    · rw [if_pos hc]
      refine Follows.bind (follows_validateCatalogStrategy S _ _).mapError (fun t _ hu => ?_)
        fun _ _ _ => trivial
      refine (follows_shape S group current values).mono (fun _ _ h => h) ?_
      rintro t' (e | u) hs
      · exact trivial
      · exact ⟨hp, fun _ => (hu rfl).hasStrategy S hp, hs.mono S (List.subset_append_right t t')⟩
    · rw [if_neg hc]
      refine (follows_shape S group current values).mono (fun _ _ h => h) ?_
      rintro t' (e | u) hs
      · exact trivial
      · exact ⟨hp, fun h => absurd h hc, hs⟩

lemma follows_reviewConfiguration (req : ConfigurationPatch P) (group : Group)
    (current : Configuration P) :
    (reviewConfiguration S req group current).Follows (fun _ c => c.looks = true)
      (Ends (fun t _ => Reviewed S req group current t) fun _ => True) := by
  unfold reviewConfiguration
  split_ifs with hc
  · exact trivial
  · obtain ⟨hg, hr⟩ := not_or.mp hc
    refine Follows.bind (follows_configurationLocks S current) (fun t out ho => ?_)
      fun _ _ _ => trivial
    obtain ⟨locks, rfl⟩ := ho
    refine Follows.bind (follows_validateConfiguration S group _ _) (fun t' _ hv => ?_)
      fun _ _ _ => trivial
    obtain ⟨hp, hs, hsh⟩ := hv
    refine ⟨not_not.mp hg, not_not.mp hr, hp, hs, ?_⟩
    refine Shaped.mono S hsh ?_
    rw [List.append_nil]
    exact List.subset_append_right t t'

end Review

/-! ### The calls of a request -/

/-- The exchange is a write of the configuration row that has gone through. -/
def Exchange.writes : Exchange P → Bool
  | ⟨.upsertWithCatalog _ _, .ok _⟩ | ⟨.setAPIKeyHash _, .ok _⟩ | ⟨.replaceAPIKeyHash _, .ok _⟩
  | ⟨.upsertCatalogConfig _, .ok _⟩ | ⟨.commitConfiguration _ _, .ok _⟩ => true
  | _ => false

lemma writes_of_looks (h : ∀ e ∈ t, e.1.looks = true) : ∀ e ∈ t, Exchange.writes e = false := by
  rintro ⟨c, r⟩ he
  have hl := h _ he
  cases c <;> first | rfl | cases hl

section Requests

variable (S : ConfigService P)

/-- What an upsert knows when it writes. -/
structure Checked (req : UpsertRequest P) (t : List (Exchange P)) : Prop where
  valid : validateUpsert S.runtime req = .ok ()
  guarded : Guarded S req t
  opened : ⟨.activate, .ok ()⟩ ∈ t
  usable : ∀ c, req.split.2 = some c → Usable S c (requestedDim req.split.1) t

def UpsertCalls (req : UpsertRequest P) (t : List (Exchange P)) : Call P → Prop
  | .get | .denseCollectionsExist _ | .activate | .generateAPIKey => True
  | .withWriter => ⟨.activate, .ok ()⟩ ∈ t
  | .upsertWithCatalog base catalogReq => req.split = (base, catalogReq) ∧ Checked S req t
  | .setAPIKeyHash _ => ∃ cfg : Row P,
      ⟨.upsertWithCatalog req.split.1 req.split.2, .ok cfg⟩ ∈ t ∧ cfg.apiKeyHash.getD "" = ""
  | _ => False

def CatalogCalls (req : UpdateCatalogRequest P) (t : List (Exchange P)) : Call P → Prop
  | .get | .denseCollectionsExist _ | .withWriter => True
  | .upsertCatalogConfig req' => req' = req ∧ (req.enabled = true → Usable S req none t)
  | _ => False

/-- What a patch knows when it writes, of any row that it has read under its lock. -/
def Justified (req : ConfigurationPatch P) (t : List (Exchange P)) : Prop :=
  ∃ group, validateConfigurationPatch S.runtime req = .ok group ∧
    ∀ current, ⟨.lockConfiguration, .ok current⟩ ∈ t → Reviewed S req group current t

def PatchCalls (req : ConfigurationPatch P) (validateOnly : Bool) (t : List (Exchange P)) :
    Call P → Prop
  | .get | .denseCollectionsExist _ | .readConfiguration | .withWriter | .lockConfiguration
  | .rollback => True
  | .commitConfiguration req' validateOnly' =>
    req' = req ∧ validateOnly' = validateOnly ∧ Justified S req t
  | _ => False

def Request.Calls (request : Request P) (t : List (Exchange P)) (c : Call P) : Prop :=
  match request with
  | .upsert req => UpsertCalls S req t c
  | .updateCatalogConfig req => CatalogCalls S req t c
  | .patchConfiguration req validateOnly => PatchCalls S req validateOnly t c
  | .rotateAPIKey => c = .withWriter ∨ c = .generateAPIKey ∨ ∃ hash, c = .replaceAPIKeyHash hash
  | .createDenseCollections generation => c = .createDenseCollections generation

variable {S}

section Patch

variable {req : ConfigurationPatch P}

lemma patchCalls_of_looks (h : c.looks = true) : PatchCalls S req validateOnly t c := by
  cases c <;> trivial

lemma PatchCalls.cons (h : PatchCalls S req validateOnly t c) (he : e.1 ≠ .lockConfiguration) :
    PatchCalls S req validateOnly (e :: t) c := by
  cases c with
  | commitConfiguration req' vo' =>
    obtain ⟨hre, hv, group, hg, hr⟩ := h
    refine ⟨hre, hv, group, hg, fun current hm => ?_⟩
    rcases List.mem_cons.mp hm with rfl | hm
    · exact absurd rfl he
    · exact (hr current hm).mono S (List.subset_cons_self _ _)
  | _ => exact h

variable [DecidableEq P]

lemma follows_changeConfiguration (hg : validateConfigurationPatch S.runtime req = .ok group) :
    (changeConfiguration S req group validateOnly).Follows (PatchCalls S req validateOnly)
      (Ends (fun t _ => ∃ res : Configuration P,
          ⟨.commitConfiguration req validateOnly, .ok res⟩ ∈ t)
        fun t => ∀ e ∈ t, Exchange.writes e = false) := by
  refine follows_request_bind trivial (fun current => ?_) fun e => by simp [Ends, Exchange.writes]
  refine Follows.attempt_bind ((follows_reviewConfiguration S req group current).calls.mono
    (fun _ _ => patchCalls_of_looks) fun _ _ h => h) fun t x hx => ?_
  obtain ⟨hl, hx⟩ := hx
  have hc := writes_of_looks hl
  cases x with
  | error e =>
    refine ⟨trivial, fun r => ?_⟩
    exact List.forall_mem_cons.mpr ⟨rfl, List.forall_mem_append.mpr
      ⟨hc, List.forall_mem_singleton.mpr rfl⟩⟩
  | ok locks =>
    refine follows_request_bind ⟨rfl, rfl, group, hg, fun cur' hm => ?_⟩ (fun res => ?_)
      fun e => ?_
    · rw [List.append_nil] at hm ⊢
      rcases List.mem_cons.mp hm with heq | hm
      · obtain rfl : cur' = current := by simpa using heq
        exact Reviewed.mono S hx (List.subset_cons_self _ _)
      · cases hl _ hm
    · exact ⟨res, by simp⟩
    · exact List.forall_mem_cons.mpr ⟨rfl, List.forall_mem_append.mpr
        ⟨hc, List.forall_mem_singleton.mpr rfl⟩⟩

omit [DecidableEq P] in
lemma follows_reportPatch (e : Error P) :
    (reportPatch S e).Follows (fun _ c => c.looks = true)
      (Ends (fun _ _ => False) fun _ => True) := by
  unfold reportPatch
  extract_lets report
  have hr : ∀ e : Error P, (report e).Follows (fun _ c => c.looks = true)
      (Ends (fun _ _ => False) fun _ => True) := by
    intro e
    unfold report
    split_ifs <;> exact trivial
  cases e.snapshot with
  | none => exact hr e
  | some current =>
    exact Follows.bind (follows_configurationLocks S current) (fun t out _ => hr _)
      fun _ _ _ => trivial

lemma follows_patchConfiguration :
    (patchConfiguration S req validateOnly).Follows (PatchCalls S req validateOnly)
      (Ends (fun t _ => ∃ res : Configuration P,
          ⟨.commitConfiguration req validateOnly, .ok res⟩ ∈ t)
        fun t => ∀ e ∈ t, Exchange.writes e = false) := by
  unfold patchConfiguration
  cases hg : validateConfigurationPatch S.runtime req with
  | error e => exact List.forall_mem_nil _
  | ok group =>
    refine follows_request_bind trivial (fun _ => ?_) fun e => List.forall_mem_singleton.mpr rfl
    refine Follows.attempt_bind (Q := Ends (fun t _ => ∃ res : Configuration P,
      ⟨.commitConfiguration req validateOnly, .ok res⟩ ∈ t)
        fun t => ∀ e ∈ t, Exchange.writes e = false) ?_ fun t x hx => ?_
    · refine follows_request_bind trivial (fun _ => ?_) fun e => List.forall_mem_singleton.mpr rfl
      refine (follows_changeConfiguration hg).mapError.mono (fun t c hc => ?_) fun t x hx => ?_
      · exact PatchCalls.cons (hc.cons nofun) nofun
      · cases x with
        | error e => exact List.forall_mem_cons.mpr ⟨rfl, hx⟩
        | ok res =>
          obtain ⟨res, hm⟩ := hx
          exact ⟨res, List.mem_cons_of_mem _ hm⟩
    · cases x with
      | ok res =>
        obtain ⟨res, hm⟩ := hx
        exact ⟨res, by simp [hm]⟩
      | error e =>
        refine (follows_reportPatch e).calls.mono (fun _ _ => patchCalls_of_looks) ?_
        rintro t' (e' | res) ⟨hl, he⟩
        · exact List.forall_mem_cons.mpr ⟨rfl, List.forall_mem_append.mpr ⟨hx, writes_of_looks hl⟩⟩
        · exact he.elim

end Patch

section Upsert

variable {req : UpsertRequest P}

variable {base : UpsertRequest P}

lemma split_some (h : req.split = (base, some c)) : req.denseSource = some catalog ∧
      base = { req with denseSource := none } ∧
      c = ⟨true, req.catalogStrategyID.getD "", req.catalogStrategyVersion.getD "",
        req.catalogStrategyParams, 0, 0⟩ := by
  unfold UpsertRequest.split at h
  split_ifs at h with hs
  · obtain ⟨hb, hc⟩ := Prod.mk.inj h
    exact ⟨hs, hb.symm, (Option.some.inj hc).symm⟩
  · cases (Prod.mk.inj h).2

lemma split_none (h : req.split = (base, none)) : req.denseSource ≠ some catalog ∧ base = req := by
  unfold UpsertRequest.split at h
  split_ifs at h with hs
  · cases (Prod.mk.inj h).2
  · exact ⟨hs, (Prod.mk.inj h).1.symm⟩

lemma upsertCalls_of_looks (h : c.looks = true) : UpsertCalls S req t c := by
  cases c <;> trivial

lemma Guarded.mono (h : Guarded S req t) (ht : t ⊆ t') : Guarded S req t' := by
  intro dim hd hw hk
  obtain ⟨current, hm, hr⟩ := h dim hd hw hk
  exact ⟨current, ht hm, fun row hc => (hr row hc).imp_right fun h => ht h⟩

lemma Usable.mono {requestedDim : Option ℤ} (h : Usable S c requestedDim t) (ht : t ⊆ t') :
    Usable S c requestedDim t' := by
  obtain ⟨hn, dim, hb, hd⟩ := h
  exact ⟨hn, dim, hb, hd.mono ht⟩

/-- How an upsert ends: an error comes before its write, or from the key that it makes after. -/
def UpsertEnds (base : UpsertRequest P) (catalogReq : Option (UpdateCatalogRequest P))
    (t : List (Exchange P)) : Except (Error P) UpsertResponse → Prop
  | .ok response => ∃ cfg : Row P, ⟨.upsertWithCatalog base catalogReq, .ok cfg⟩ ∈ t ∧
      (cfg.apiKeyHash.getD "" ≠ "" → response.apiKey = "")
  | .error e => (∀ x ∈ t, Exchange.writes x = false) ∨ ∃ context e', e = .wrap context e' ∧
      (⟨.generateAPIKey, .error e'⟩ ∈ t ∨ ∃ hash, ⟨.setAPIKeyHash hash, .error e'⟩ ∈ t)

lemma UpsertEnds.prepend (h : UpsertEnds base catalogReq t' x)
    (ht : ∀ e ∈ t, Exchange.writes e = false) : UpsertEnds base catalogReq (t ++ t') x := by
  cases x with
  | ok resp =>
    obtain ⟨cfg, hm, hk⟩ := h
    exact ⟨cfg, List.mem_append_right t hm, hk⟩
  | error e =>
    rcases h with hc | ⟨ctx, e', rfl, hk⟩
    · exact .inl (List.forall_mem_append.mpr ⟨ht, hc⟩)
    · refine .inr ⟨ctx, e', rfl, ?_⟩
      exact hk.imp (List.mem_append_right t) fun ⟨hash, hm⟩ =>
        ⟨hash, List.mem_append_right t hm⟩

lemma follows_write (hs : req.split = (base, catalogReq)) (hc : Checked S req t) : (do
      let cfg ← requestIn "upsert namespace config" (.upsertWithCatalog base catalogReq)
      if cfg.apiKeyHash.getD "" = "" then
        let (plaintext, hash) ← requestIn "generate api key" .generateAPIKey
        let won ← requestIn "store api key hash" (.setAPIKeyHash hash)
        return ⟨ns, cfg.generation, cfg.updatedAt, if won then plaintext else ""⟩
      else return ⟨ns, cfg.generation, cfg.updatedAt, ""⟩ : ConfigM P UpsertResponse).Follows
      (fun t' => UpsertCalls S req (t ++ t')) (UpsertEnds base catalogReq) := by
  refine follows_requestIn_bind ⟨hs, by simpa using hc⟩ (fun cfg => ?_) fun e =>
    .inl (List.forall_mem_singleton.mpr rfl)
  split_ifs with hn
  · refine follows_requestIn_bind trivial (fun key => ?_) fun e =>
      .inr ⟨_, e, rfl, .inl (by simp)⟩
    refine follows_requestIn_bind ⟨cfg, by simp [hs], hn⟩ (fun won => ?_) fun e =>
      .inr ⟨_, e, rfl, .inr ⟨key.2, by simp⟩⟩
    exact ⟨cfg, List.mem_cons_self, fun h => absurd hn h⟩
  · exact ⟨cfg, List.mem_cons_self, fun _ => rfl⟩

lemma follows_upsertActive (hv : validateUpsert S.runtime req = .ok ()) (hg : Guarded S req t)
    (ho : ⟨.activate, .ok ()⟩ ∈ t) :
    (upsertActive S ns req).Follows (fun t' => UpsertCalls S req (t ++ t'))
      (UpsertEnds req.split.1 req.split.2) := by
  unfold upsertActive
  rcases hs : req.split with ⟨base, catalogReq⟩
  cases catalogReq with
  | none =>
    refine follows_write hs ⟨hv, hg, ho, ?_⟩
    rw [hs]
    exact nofun
  | some c =>
    have he : c.enabled = true := by rw [(split_some hs).2.2]
    refine Follows.bind ((follows_validateCatalogStrategy S c (requestedDim base)).calls.mono
      (fun _ _ => upsertCalls_of_looks) fun _ _ h => h) (fun t' _ h => ?_) fun t' e h =>
        .inl (writes_of_looks h.1)
    obtain ⟨hl, hu⟩ := h
    have hch : Checked S req (t ++ t') := by
      refine ⟨hv, hg.mono (List.subset_append_left _ _), List.mem_append_left _ ho, ?_⟩
      rw [hs]
      intro c' hc'
      cases hc'
      exact Usable.mono (hu he) (List.subset_append_right _ _)
    refine (follows_write hs hch).mono (fun t'' c hc => ?_) fun t'' x hx =>
      hx.prepend (writes_of_looks hl)
    rwa [List.append_assoc] at hc

lemma follows_upsert :
    (upsert S ns req).Follows (UpsertCalls S req) (UpsertEnds req.split.1 req.split.2) := by
  unfold upsert
  cases hv : validateUpsert S.runtime req with
  | error e => exact .inl (List.forall_mem_nil _)
  | ok u =>
    change Follows _ _ (guardEmbeddingDimChange S req >>= _)
    refine Follows.bind ((follows_guard S req).calls.mono (fun _ _ => upsertCalls_of_looks)
      fun _ _ h => h) (fun t _ h => ?_) fun t e h => .inl (writes_of_looks h.1)
    obtain ⟨hl, hg⟩ := h
    have hca := writes_of_looks hl
    refine follows_request_bind trivial (fun _ => ?_) fun e =>
      .inl (List.forall_mem_append.mpr ⟨hca, List.forall_mem_singleton.mpr rfl⟩)
    refine follows_request_bind (List.mem_append_right _ List.mem_cons_self) (fun _ => ?_) fun e =>
      .inl (List.forall_mem_append.mpr
        ⟨hca, List.forall_mem_cons.mpr ⟨rfl, List.forall_mem_singleton.mpr rfl⟩⟩)
    have ho : ∀ e ∈ [⟨.activate, .ok ()⟩, ⟨.withWriter, .ok ()⟩],
        Exchange.writes (P := P) e = false :=
      List.forall_mem_cons.mpr ⟨rfl, List.forall_mem_singleton.mpr rfl⟩
    refine (follows_upsertActive (t := t ++ [⟨.activate, .ok ()⟩, ⟨.withWriter, .ok ()⟩]) hv
      (Guarded.mono hg (List.subset_append_left _ _)) (by simp)).mono (fun t' c hc => ?_)
      fun t' x hx => ?_
    · simpa using hc
    · simpa using hx.prepend (List.forall_mem_append.mpr ⟨hca, ho⟩)

end Upsert

lemma follows_updateCatalogConfig :
    (updateCatalogConfig S req).Follows (CatalogCalls S req) fun _ _ => True := by
  refine follows_request_bind trivial (fun _ => ?_) fun _ => trivial
  refine follows_requestIn_bind trivial (fun cfg => ?_) fun _ => trivial
  split_ifs
  · exact trivial
  · refine Follows.bind ((follows_validateCatalogStrategy S req none).mono
      (fun _ c hc => by cases c <;> trivial) fun _ _ h => h) (fun t _ hu => ?_) fun _ _ _ => trivial
    refine follows_requestIn_bind ⟨rfl, fun he => ?_⟩ (fun updated => ?_) fun _ => trivial
    · refine Usable.mono (hu he) ?_
      simp
    · cases updated <;> exact trivial

lemma follows_rotateAPIKey :
    (rotateAPIKey : ConfigM P String).Follows (Request.rotateAPIKey.Calls S) fun _ _ => True := by
  refine follows_request_bind (.inl rfl) (fun _ => ?_) fun _ => trivial
  refine follows_requestIn_bind (.inr (.inl rfl)) (fun key => ?_) fun _ => trivial
  refine follows_requestIn_bind (.inr (.inr ⟨key.2, rfl⟩)) (fun found => ?_) fun _ => trivial
  split_ifs <;> exact trivial

/-- What the end of a request says of its exchanges. -/
def Request.Concludes : Request P → List (Exchange P) → Except (Error P) (Result P) → Prop
  | .upsert req, t, .ok result => ∃ response, result = .upserted response ∧
      UpsertEnds req.split.1 req.split.2 t (.ok response)
  | .upsert req, t, .error e => UpsertEnds req.split.1 req.split.2 t (.error e)
  | .patchConfiguration req validateOnly, t, .ok _ =>
    ∃ result : Configuration P, ⟨.commitConfiguration req validateOnly, .ok result⟩ ∈ t
  | .patchConfiguration _ _, t, .error _ => ∀ e ∈ t, Exchange.writes e = false
  | _, _, _ => True

/-- **The calls of a request, and its end.** -/
theorem follows_run [DecidableEq P] (request : Request P) :
    (request.run S ns).Follows (request.Calls S) request.Concludes := by
  cases request with
  | upsert req =>
    refine Follows.bind follows_upsert (fun t resp h => ?_) fun t e h => h
    rw [Program.follows_pure, List.append_nil]
    exact ⟨resp, rfl, h⟩
  | updateCatalogConfig req =>
    exact Follows.bind follows_updateCatalogConfig (fun _ _ _ => trivial) fun _ _ _ => trivial
  | patchConfiguration req validateOnly =>
    refine Follows.bind follows_patchConfiguration (fun t res h => ?_) fun t e h => h
    rw [Program.follows_pure, List.append_nil]
    exact h
  | rotateAPIKey =>
    exact Follows.bind follows_rotateAPIKey (fun _ _ _ => trivial) fun _ _ _ => trivial
  | createDenseCollections gen =>
    exact follows_request_bind rfl (fun _ => trivial) fun _ => trivial

end Requests

end Codohue.NsConfig
