import Codohue.RecommendExclusion

/-!
Which failures keep a response out of the cache.

A run of `Recommend` is the list of its exchanges: each call with its answer, in any pattern of
failures. What a run tells about its outcome is summed up from its exchanges, and the outcome is
marked as degraded exactly if the summary says so.
-/

namespace Codohue.Recommend

open Service
open Program (Traced traced_ask_bind)

variable {K S D : Type}

/-! ### Exchanges -/

abbrev Exchange (K S D : Type) := Σ c : Call K S D, Answer c

def Exchange.failed : Exchange K S D → Bool
  | ⟨.getConfig _, r⟩ => !r.isOk
  | ⟨.cacheGet _, _⟩ => false
  | ⟨.cacheSet _ _, _⟩ => false
  | ⟨.countInteractions _ _, r⟩ => !r.isOk
  | ⟨.getSeenItems _ _ _, r⟩ => r.2.isSome
  | ⟨.getAuthoredObjects _ _, r⟩ => !r.isOk
  | ⟨.getPopularItems _ _, r⟩ => !r.isOk
  | ⟨.lookupSubjectID _ _, r⟩ => !r.isOk
  | ⟨.lookupObjectIDs _ _, r⟩ => !r.isOk
  | ⟨.fetchSubjectVector _ _, r⟩ => !r.isOk
  | ⟨.fetchSubjectDenseVector _ _, r⟩ => !r.isOk
  | ⟨.searchObjects _ _ _ _, r⟩ => !r.isOk
  | ⟨.searchObjectsDense _ _ _ _, r⟩ => !r.isOk
  | ⟨.getTrending _ _ _ _, r⟩ => !r.isOk
  | ⟨.now, _⟩ => false

/-- The calls whose failures leave no mark on the outcome. -/
def Call.swallowed : Call K S D → Bool
  | .getSeenItems _ _ _ => true
  | .getAuthoredObjects _ _ => true
  | .lookupObjectIDs _ _ => true
  | .fetchSubjectDenseVector _ _ => true
  | _ => false

/-- What some exchanges tell about the outcome of a run. -/
structure Summary (K : Type) where
  /-- A failure that always leaves its mark, or a subject without a numeric id. -/
  marked : Bool := false
  /-- A search has failed. -/
  searchFailed : Bool := false
  /-- Whether the first read of the trending list has failed; a second one is the probe. -/
  trending : Option Bool := none
  /-- The subject has interactions enough not to be a cold one. -/
  warm : Bool := false
  /-- The points that the searches of the two arms have found. -/
  sparse : List (ScoredPoint K) := []
  dense : List (ScoredPoint K) := []
  writes : Bool := false

def Summary.ofSparse (arm : Arm K) : Summary K :=
  { searchFailed := !arm.isOk, sparse := arm.results }

def Summary.ofDense (arm : Arm K) : Summary K :=
  { searchFailed := !arm.isOk, dense := arm.results }

def Exchange.summary : Exchange K S D → Summary K
  | ⟨.cacheSet _ _, _⟩ => { writes := true }
  | ⟨.countInteractions _ _, r⟩ =>
    { marked := !r.isOk, warm := coldStartThreshold ≤ r.toOption.getD 0 }
  | ⟨.getPopularItems _ _, r⟩ => { marked := !r.isOk }
  | ⟨.lookupSubjectID _ _, r⟩ => { marked := r.toOption.join.isNone }
  | ⟨.fetchSubjectVector _ _, r⟩ => { marked := !r.isOk }
  | ⟨.searchObjects _ _ _ _, r⟩ => .ofSparse r
  | ⟨.searchObjectsDense _ _ _ _, r⟩ => .ofDense r
  | ⟨.getTrending _ _ _ _, r⟩ => { trending := some !r.isOk }
  | _ => {}

instance : Append (Summary K) where
  append a b := ⟨a.marked || b.marked, a.searchFailed || b.searchFailed, a.trending.or b.trending,
    a.warm || b.warm, a.sparse ++ b.sparse, a.dense ++ b.dense, a.writes || b.writes⟩

def summary (t : List (Exchange K S D)) : Summary K := t.foldr (fun e s => e.summary ++ s) {}

/-- Points were found, and none that an arm has a finite score for. -/
def Summary.Unscored (R : Runtime K) (s : Summary K) : Prop :=
  s.sparse ++ s.dense ≠ [] ∧ ¬ HasScore R s.sparse ∧ ¬ HasScore R s.dense

/-- The outcome is marked: by a failure that always is, by the first read of the trending list, or
by a search, unless the subject is warm and what the searches have found is unscored. -/
def Summary.Degrades (R : Runtime K) (s : Summary K) : Prop :=
  s.marked = true ∨ s.trending = some true ∨
    s.searchFailed = true ∧ ¬ (s.warm = true ∧ s.Unscored R)

open Summary (ofSparse ofDense)

section Summaries

variable {e : Exchange K S D} {t t' : List (Exchange K S D)}

lemma Summary.append_def (a b : Summary K) : a ++ b =
    ⟨a.marked || b.marked, a.searchFailed || b.searchFailed, a.trending.or b.trending,
      a.warm || b.warm, a.sparse ++ b.sparse, a.dense ++ b.dense, a.writes || b.writes⟩ := rfl

@[simp] lemma Summary.empty_append (s : Summary K) : ({} : Summary K) ++ s = s := rfl

@[simp] lemma Summary.append_empty (s : Summary K) : s ++ ({} : Summary K) = s := by
  simp [append_def]

@[simp] lemma summary_nil : summary ([] : List (Exchange K S D)) = {} := rfl

@[simp] lemma summary_cons : summary (e :: t) = e.summary ++ summary t := rfl

@[simp] lemma summary_append : summary (t ++ t') = summary t ++ summary t' := by
  induction t with
  | nil => rfl
  | cons e t ih => simp [ih, Summary.append_def, Bool.or_assoc, Option.or_assoc]

lemma summary_of_swallowed (h : ∀ e ∈ t, e.1.swallowed = true) : summary t = {} := by
  induction t with
  | nil => rfl
  | cons e t ih =>
    obtain ⟨he, ht⟩ := List.forall_mem_cons.mp h
    have hs : e.summary = {} := by
      obtain ⟨c, r⟩ := e
      cases c <;> first | rfl | cases he
    rw [summary_cons, hs, ih ht, Summary.empty_append]

end Summaries

/-! ### The fallbacks -/

/-- A program that fails in no way: its calls are those whose failures are swallowed. -/
def Quiet {α : Type} (p : RecommendM K S D α) : Prop :=
  p.Traced fun t x => (∀ e ∈ t, e.1.swallowed = true) ∧ ∃ a, x = .ok a

section Rules

variable {α β : Type} {c : Call K S D}

lemma quiet_pure (a : α) : Quiet (pure a : RecommendM K S D α) := ⟨nofun, a, rfl⟩

lemma quiet_ask_bind {f : Answer c → RecommendM K S D α} (hc : c.swallowed = true)
    (hf : ∀ r, Quiet (f r)) : Quiet (Program.ask c >>= f) :=
  fun r => (hf r).mono fun _ _ h => ⟨List.forall_mem_cons.mpr ⟨hc, h.1⟩, h.2⟩

lemma Quiet.bind {p : RecommendM K S D α} {f : α → RecommendM K S D β} (hp : Quiet p)
    {Q : List (Exchange K S D) → Except Error β → Prop}
    (hf : ∀ a t, (∀ e ∈ t, e.1.swallowed = true) → (f a).Traced fun t' x => Q (t ++ t') x) :
    (p >>= f).Traced Q :=
  Traced.bind hp (fun t a h => hf a t h.1) fun _ _ h => nomatch h.2

lemma Quiet.seq {p : RecommendM K S D α} {f : α → RecommendM K S D β} (hp : Quiet p)
    (hf : ∀ a, Quiet (f a)) : Quiet (p >>= f) :=
  hp.bind fun a _ ht => (hf a).mono fun _ _ h => ⟨List.forall_mem_append.mpr ⟨ht, h.1⟩, h.2⟩

lemma Quiet.before {p : RecommendM K S D α} {f : α → RecommendM K S D β} (hp : Quiet p)
    (Q : Summary K → Except Error β → Prop)
    (hf : ∀ a, (f a).Traced fun t x => Q (summary t) x) :
    (p >>= f).Traced fun t x => Q (summary t) x :=
  hp.bind fun a t ht => (hf a).mono fun t' x h => by
    rwa [summary_append, summary_of_swallowed ht]

end Rules

variable {cfg : Config K} {R : Runtime K}

section Fallbacks

lemma quiet_authoredObjectSet :
    Quiet (authoredObjectSet req cfg : RecommendM K S D (List String)) := by
  unfold authoredObjectSet
  split_ifs
  · exact quiet_pure _
  · refine quiet_ask_bind rfl fun r => ?_
    split <;> exact quiet_pure _

lemma quiet_seenObjectSet :
    Quiet (seenObjectSet req cfg : RecommendM K S D (List String)) := by
  refine quiet_ask_bind rfl fun r => ?_
  split <;> exact quiet_pure _

lemma quiet_excludedObjectIDs (seen : List String) :
    Quiet (excludedObjectIDs req cfg seen : RecommendM K S D (List String)) := by
  refine quiet_authoredObjectSet.seq fun authored => ?_
  split_ifs <;> exact quiet_pure _

lemma quiet_buildSeenItemsFilter (ns : String) (excluded : List String) :
    Quiet (buildSeenItemsFilter ns excluded : RecommendM K S D (Option Filter)) := by
  unfold buildSeenItemsFilter
  split_ifs
  · exact quiet_pure _
  · refine quiet_ask_bind rfl fun r => ?_
    split
    · exact quiet_pure _
    · dsimp only
      split_ifs <;> exact quiet_pure _

/-- The end of a fallback, with the mark that it gives to its outcome and what its exchanges tell:
that of the trending list, and whether the popular objects could be read. -/
structure Fell (trending : Option Bool) (degraded : Bool) (s : Summary K)
    (x : Except Error (Outcome K)) : Prop where
  told : s = { trending := trending, marked := !x.isOk }
  outcome : ∀ out, x = .ok out → out.degraded = degraded ∧ out.source = .fallbackPopular

lemma Fell.after {degraded : Bool} {trending : Option Bool} {s : Summary K}
    {x : Except Error (Outcome K)} (h : Fell none degraded s x) :
    Fell trending degraded (({ trending := trending } : Summary K) ++ s) x :=
  ⟨by rw [h.told]; simp [Summary.append_def], h.outcome⟩

lemma fell_ok {out : Outcome K} (hd : out.degraded = degraded)
    (hs : out.source = .fallbackPopular) : Fell none degraded {} (.ok out) :=
  ⟨rfl, fun _ ho => Except.ok.inj ho ▸ ⟨hd, hs⟩⟩

/-- The probe follows a read of the trending list, and its failure is swallowed. -/
lemma probeTrending_traced (ns : String) (gen : ℤ) (fetchOffset : ℕ)
    (entries : List TrendingEntry) :
    (probeTrending ns gen fetchOffset entries : RecommendM K S D Bool).Traced fun t x =>
      (∃ trending, summary t = { trending := trending }) ∧ ∃ has, x = .ok has := by
  unfold probeTrending
  split_ifs
  · exact ⟨⟨none, rfl⟩, true, rfl⟩
  · exact ⟨⟨none, rfl⟩, false, rfl⟩
  · refine traced_ask_bind.mpr fun r => ?_
    cases r with
    | error e => exact ⟨⟨some true, rfl⟩, false, rfl⟩
    | ok probe => exact ⟨⟨some false, rfl⟩, _, rfl⟩

variable [Field K]

lemma descendPopular_traced (degraded : Bool) :
    (descendPopular req lim cfg ex degraded : RecommendM K S D (Outcome K)).Traced fun t x =>
      Fell none degraded (summary t) x := by
  have h : (fallbackPopular req lim cfg ex : RecommendM K S D (Outcome K)).Traced fun t x =>
      Fell none false (summary t) x := by
    refine quiet_authoredObjectSet.before (Fell none false) fun authored => ?_
    refine traced_ask_bind.mpr fun r => ?_
    cases r with
    | error e => exact ⟨rfl, nofun⟩
    | ok items => exact fell_ok rfl rfl
  refine Traced.bind h (fun t out h => ?_) fun t e h => ⟨h.told, nofun⟩
  rw [Program.traced_pure, List.append_nil]
  refine ⟨h.told, fun _ ho => ?_⟩
  cases ho
  exact ⟨by simp [(h.outcome out rfl).1], (h.outcome out rfl).2⟩

lemma fallbackTrending_traced :
    (fallbackTrending req lim cfg ex : RecommendM K S D (Outcome K)).Traced fun t x =>
      ∃ failed, Fell (some failed) failed (summary t) x := by
  refine quiet_authoredObjectSet.before (fun s x => ∃ failed, Fell (some failed) failed s x)
    fun authored => traced_ask_bind.mpr fun r => ?_
  cases r with
  | error e => exact (descendPopular_traced true).mono fun t x h => ⟨true, h.after⟩
  | ok entries =>
    refine Traced.bind (probeTrending_traced _ _ _ entries) (fun t has h => ?_)
      (fun _ _ h => nomatch h.2)
    obtain ⟨⟨trending, hp⟩, -⟩ := h
    refine Traced.mono (Q := fun t x => Fell none false (summary t) x) ?_ fun t' x h => ⟨false, ?_⟩
    · dsimp only
      split_ifs
      · exact descendPopular_traced false
      · exact fell_ok rfl rfl
      · exact descendPopular_traced false
      · exact fell_ok rfl rfl
    · rw [summary_cons, summary_append, hp]
      exact h.after

end Fallbacks

/-! ### The scored rungs -/

/-- An outcome in whose place a warm subject is served trending objects. -/
def Outcome.Discarded (out : Outcome K) : Prop :=
  out.total = 0 ∧ (out.source = .collaborativeFiltering ∨ out.source = .hybrid)

/-- The end of a run that searches, with what its exchanges tell. -/
structure Searched (R : Runtime K) (s : Summary K) (x : Except Error (Outcome K)) : Prop where
  trending : s.trending = none
  warm : s.warm = false
  writes : s.writes = false
  error : x.isOk = false → s.marked = true
  degraded : ∀ out, x = .ok out → out.degraded = (s.marked || s.searchFailed)
  kept : ∀ out, x = .ok out → out.Discarded → s.marked = false
  discarded : ∀ out, x = .ok out → s.searchFailed = true → (out.Discarded ↔ s.Unscored R)

section Rungs

/-- A search that descends is not discarded, and has found nothing. -/
lemma Fell.searched (marked failed : Bool) {s : Summary K} {x : Except Error (Outcome K)}
    (h : Fell none (marked || failed) s x) :
    Searched R ({ marked := marked, searchFailed := failed } ++ s) x := by
  have hn : ∀ out, x = .ok out → ¬ out.Discarded := by
    rintro out ho ⟨-, hs⟩
    rw [(h.outcome out ho).2] at hs
    exact hs.elim nofun nofun
  rw [h.told]
  refine ⟨rfl, rfl, rfl, fun he => ?_, fun out ho => ?_, fun out ho hd => absurd hd (hn out ho),
    fun out ho _ => iff_of_false (hn out ho) fun hu => hu.1 rfl⟩
  · simp [Summary.append_def, he]
  · simp [Summary.append_def, ho, Except.isOk, Except.toBool, (h.outcome out ho).1]

lemma hasScore_append_scoresOnly {points extra : List (ScoredPoint K)} :
    HasScore R (points ++ scoresOnly extra) ↔ HasScore R (points ++ extra) := by
  have he : extractScores (points ++ scoresOnly extra) = extractScores (points ++ extra) := by
    simp [extractScores, scoresOnly, List.foldl_map]
  rw [HasScore, he, HasScore]

lemma backfill_traced {arm : Arm K} {missing : List ℕ}
    {search : Option Filter → ℕ → RecommendM K S D (Arm K)} (tells : Arm K → Summary K)
    (hn : tells (.ok []) = {}) (hs : ∀ filter topK, (search filter topK).Traced fun t x =>
      ∃ arm, x = .ok arm ∧ summary t = tells arm) :
    (backfill arm missing search).Traced fun t x => ∃ arm, x = .ok arm ∧ summary t = tells arm := by
  unfold backfill
  split_ifs
  · exact hs _ _
  · exact ⟨.ok [], rfl, hn.symm⟩

variable [Field K] [LinearOrder K]

lemma sparseRecommend_traced (vec : S) (filter : Option Filter) :
    (sparseRecommend R req lim cfg vec filter : RecommendM K S D (Outcome K)).Traced fun t x =>
      Searched R (summary t) x := by
  refine traced_ask_bind.mpr fun r => ?_
  cases r with
  | error e => exact (descendPopular_traced true).mono fun t x h => Fell.searched false true h
  | ok results =>
    exact fun now => ⟨rfl, rfl, rfl, nofun, fun _ ho => by cases ho; rfl, fun _ _ _ => rfl, nofun⟩

/-- A dense vector comes from the store, where the namespace blends it in. -/
lemma denseVectorOf_traced (ns : String) (n : ℕ) :
    (denseVectorOf cfg ns n : RecommendM K S D (Option D)).Traced fun t x =>
      (∀ e ∈ t, e.1.swallowed = true) ∧ ∃ dv, x = .ok dv ∧ ∀ vec, dv = some vec →
        hybridEligible cfg = true ∧ ⟨.fetchSubjectDenseVector ns n, .ok (some vec)⟩ ∈ t := by
  unfold denseVectorOf
  split_ifs with he
  · refine traced_ask_bind.mpr fun r =>
      ⟨List.forall_mem_singleton.mpr rfl, _, rfl, fun vec hv => ?_⟩
    match r, hv with
    | .ok _, rfl => exact ⟨he, List.mem_cons_self⟩
  · exact ⟨nofun, none, rfl, nofun⟩

lemma alpha_of_eligible (h : hybridEligible cfg = true) : 0 < cfg.alpha ∧ cfg.alpha < 1 := by
  simp only [hybridEligible, Bool.and_eq_true, decide_eq_true_eq] at h
  exact h.1.1

variable [IsStrictOrderedRing K]

lemma effectiveAlpha_mem (he : hybridEligible cfg = true) (sparse dense : Bool) :
    (if sparse && dense then cfg.alpha else if dense then 0 else 1) ∈ Set.Icc (0 : K) 1 := by
  obtain ⟨hp, hlt⟩ := alpha_of_eligible he
  split_ifs
  · exact ⟨hp.le, hlt.le⟩
  · exact ⟨le_refl 0, zero_le_one⟩
  · exact ⟨zero_le_one, le_refl 1⟩

variable (hunit : ∀ x ∈ Set.Icc (0 : K) 1, R.finiteScore x = true)

include hunit

lemma hybridRecommend_traced (hel : hybridEligible cfg = true) (vec : S) (dv : D)
    (filter : Option Filter) :
    (hybridRecommend R req lim cfg vec dv filter : RecommendM K S D (Outcome K)).Traced fun t x =>
      Searched R (summary t) x := by
  refine traced_ask_bind.mpr fun sparse => traced_ask_bind.mpr fun dense => ?_
  simp only [summary_cons, Exchange.summary]
  split
  · next he =>
    -- nothing was found
    obtain ⟨hs, hd⟩ := Bool.and_eq_true_iff.mp he
    have hsum : ∀ t : List (Exchange K S D), ofSparse sparse ++ (ofDense dense ++ summary t) =
        { searchFailed := !Except.isOk sparse || !Except.isOk dense } ++ summary t := by
      intro t
      simp [Summary.append_def, ofSparse, ofDense, List.isEmpty_iff.mp hs, List.isEmpty_iff.mp hd,
        Bool.or_assoc]
    simp only [hsum]
    split
    · next hdeg =>
      exact (descendPopular_traced true).mono fun t x h =>
        Fell.searched false _ (by rwa [hdeg])
    · next hdeg =>
      rw [Bool.not_eq_true] at hdeg
      rw [hdeg]
      exact ⟨rfl, rfl, rfl, nofun, fun _ ho => by cases ho; rfl, fun _ _ _ => rfl, nofun⟩
  · next hr =>
    refine Traced.bind (backfill_traced ofSparse rfl fun _ _ r =>
      ⟨r, rfl, Summary.append_empty _⟩) ?_ (fun _ _ ⟨_, h, _⟩ => nomatch h)
    rintro ts sparseExtra ⟨_, hse, hs⟩
    cases hse
    refine Traced.bind (backfill_traced ofDense rfl fun _ _ r =>
      ⟨r, rfl, Summary.append_empty _⟩) ?_ (fun _ _ ⟨_, h, _⟩ => nomatch h)
    rintro td denseExtra ⟨_, hde, hd⟩
    cases hde
    refine traced_ask_bind.mpr fun now => Program.traced_pure.mpr ?_
    rw [summary_append, summary_append, hs, hd, summary_cons, summary_nil]
    refine ⟨rfl, rfl, rfl, nofun, fun _ ho => ?_, fun _ _ _ => rfl, fun _ ho _ => ?_⟩
    · cases ho
      simp [Summary.append_def, ofSparse, ofDense, Exchange.summary, Bool.or_assoc]
    · cases ho
      simp only [Outcome.Discarded, List.length_eq_zero_iff, hasScore_append_scoresOnly,
        blendHybridScores_eq_nil_iff hunit (effectiveAlpha_mem hel _ _)]
      simp [Summary.Unscored, Summary.append_def, ofSparse, ofDense, Exchange.summary]
      exact fun _ _ hsp _ hde _ => hr (by rw [hsp, hde]; rfl)

lemma collaborativeFiltering_traced :
    (collaborativeFiltering R req lim cfg : RecommendM K S D (Outcome K)).Traced fun t x =>
      Searched R (summary t) x := by
  refine traced_ask_bind.mpr fun found => ?_
  match found with
  | .error _ | .ok none =>
    exact (descendPopular_traced true).mono fun t x h => Fell.searched (s := summary t) true false h
  | .ok (some subjectNumID) =>
    refine traced_ask_bind.mpr fun subjectVec => ?_
    match subjectVec with
    | .error _ =>
      exact (descendPopular_traced true).mono fun t x h =>
        Fell.searched (s := summary t) true false h
    | .ok none =>
      exact (descendPopular_traced false).mono fun t x h =>
        Fell.searched (s := summary t) false false h
    | .ok (some vec) =>
      refine traced_ask_bind.mpr fun seen => ?_
      refine (quiet_excludedObjectIDs _).before (Searched R) fun excluded => ?_
      refine (quiet_buildSeenItemsFilter _ _).before (Searched R) fun filter => ?_
      refine Traced.bind (denseVectorOf_traced _ _) (fun t dv h => ?_) nofun
      obtain ⟨ht, _, hdv, he⟩ := h
      cases hdv
      simp only [summary_append, summary_of_swallowed ht, Summary.empty_append]
      cases dv with
      | none => exact sparseRecommend_traced vec filter
      | some dv => exact hybridRecommend_traced hunit (he dv rfl).1 vec dv filter

/-- The end of a rung, with what its exchanges tell about a subject that is warm or not. -/
structure Told (R : Runtime K) (warm : Bool) (s : Summary K) (x : Except Error (Outcome K)) :
    Prop where
  uncounted : s.warm = false
  reads : s.writes = false
  degraded : ∀ out, x = .ok out → (out.degraded = true ↔ { s with warm := warm }.Degrades R)

omit [Field K] [LinearOrder K] [IsStrictOrderedRing K] hunit in
lemma degrades_append_iff {s : Summary K} (warm marked failed : Bool) (h : s.trending = none) :
    { s ++ ({ marked := marked, trending := some failed } : Summary K) with
        warm := warm }.Degrades R ↔
      s.marked = true ∨ marked = true ∨ failed = true ∨
        s.searchFailed = true ∧ ¬ (warm = true ∧ s.Unscored R) := by
  simp [Summary.Degrades, Summary.append_def, h, Summary.Unscored, or_assoc]

lemma warm_traced : (warm R req lim cfg : RecommendM K S D (Outcome K)).Traced fun t x =>
    Told R true (summary t) x := by
  refine Traced.bind (collaborativeFiltering_traced hunit) (fun t out h => ?_)
    fun _ _ h => ⟨h.warm, h.writes, nofun⟩
  split
  · next hdi =>
    -- the mark of the searches is lost with their outcome
    simp only [summary_append]
    refine quiet_seenObjectSet.before (fun s x => Told R true (summary t ++ s) x) fun seen => ?_
    refine fallbackTrending_traced.mono fun t' x ⟨failed, hx⟩ => ?_
    have hu : (summary t).searchFailed = true → (summary t).Unscored R := fun hs =>
      (h.discarded out rfl hs).mp hdi
    rw [hx.told]
    refine ⟨?_, ?_, fun out' ho => ?_⟩
    · simp [Summary.append_def, h.warm]
    · simp [Summary.append_def, h.writes]
    · rw [degrades_append_iff _ _ _ h.trending, (hx.outcome out' ho).1, ho]
      refine ⟨fun hf => .inr (.inr (.inl hf)), ?_⟩
      rintro (hm | hm | hf | ⟨hs, hn⟩)
      · cases (h.kept out rfl hdi).symm.trans hm
      · cases hm
      · exact hf
      · exact absurd ⟨rfl, hu hs⟩ hn
  · next hdi =>
    rw [Program.traced_pure, List.append_nil]
    refine ⟨h.warm, h.writes, fun _ ho => ?_⟩
    cases ho
    rw [h.degraded out rfl, Bool.or_eq_true, Summary.Degrades, h.trending]
    refine or_congr_right ⟨fun hs => .inr ⟨hs, fun hw => hdi ?_⟩, fun hs => ?_⟩
    · exact (h.discarded out rfl hs).mpr hw.2
    · exact (hs.resolve_left nofun).1

lemma hybridCold_traced :
    (hybridCold R req lim cfg : RecommendM K S D (Outcome K)).Traced fun t x =>
      Told R false (summary t) x := by
  refine quiet_seenObjectSet.before (Told R false) fun seen => ?_
  refine (collaborativeFiltering_traced hunit).attempt_bind fun t cf hcf => ?_
  refine fallbackTrending_traced.attempt_bind fun t' pop ⟨failed, hp⟩ => ?_
  have hs : ∀ x, (∀ out, x = .ok out → (out.degraded = true ↔ (summary t).marked = true ∨
      (!pop.isOk) = true ∨ failed = true ∨ (summary t).searchFailed = true)) →
      Told R false (summary (t ++ (t' ++ []))) x := by
    rw [List.append_nil, summary_append, hp.told]
    refine fun x hx => ⟨?_, ?_, fun out ho => (hx out ho).trans ?_⟩
    · simp [Summary.append_def, hcf.warm]
    · simp [Summary.append_def, hcf.writes]
    · simp [degrades_append_iff _ _ _ hcf.trending]
  -- one share has failed and the outcome is marked, or both are there and it has both their marks
  cases pop with
  | error _ =>
    cases cf with
    | error _ => exact hs _ nofun
    | ok cfOut =>
      exact hs _ fun _ ho => by cases ho; exact iff_of_true rfl (.inr (.inl rfl))
  | ok popOut =>
    cases cf with
    | error _ =>
      exact hs _ fun _ ho => by cases ho; exact iff_of_true rfl (.inl (hcf.error rfl))
    | ok cfOut =>
      have hm : (cfOut.degraded || popOut.degraded) = true ↔ (summary t).marked = true ∨
          (!Except.isOk (.ok popOut : Except Error (Outcome K))) = true ∨ failed = true ∨
            (summary t).searchFailed = true := by
        rw [hcf.degraded cfOut rfl, (hp.outcome popOut rfl).1]
        simp only [Except.isOk, Except.toBool, Bool.or_eq_true]
        tauto
      dsimp only
      split <;> exact hs _ fun _ ho => by cases ho; exact hm

lemma rung_traced (count : ℕ) :
    (rung R req lim cfg count : RecommendM K S D (Outcome K)).Traced fun t x =>
      Told R (coldStartThreshold ≤ count) (summary t) x := by
  unfold rung
  split_ifs with hz hc
  · refine fallbackTrending_traced.mono fun t x ⟨failed, h⟩ => ?_
    rw [h.told]
    refine ⟨rfl, rfl, fun out ho => ?_⟩
    simp [Summary.Degrades, (h.outcome out ho).1, ho, Except.isOk, Except.toBool]
  · rw [decide_eq_false (not_le.mpr hc)]
    exact hybridCold_traced hunit
  · rw [decide_eq_true (not_lt.mp hc)]
    exact warm_traced hunit

lemma doRecommend_traced :
    (doRecommend R req lim cfg : RecommendM K S D (Outcome K)).Traced fun t x =>
      (summary t).writes = false ∧
        ∀ out, x = .ok out → (out.degraded = true ↔ (summary t).Degrades R) := by
  refine traced_ask_bind.mpr fun counted => ?_
  refine Traced.bind (rung_traced hunit _) (fun t out h => ?_) fun t _ h => ⟨h.reads, nofun⟩
  rw [Program.traced_pure, List.append_nil]
  refine ⟨h.reads, fun _ ho => ?_⟩
  cases ho
  rw [Bool.or_eq_true, h.degraded out rfl, summary_cons]
  simp only [Summary.Degrades, Summary.append_def, Exchange.summary, h.uncounted, Bool.or_eq_true,
    Bool.or_false, Bool.false_or, Option.none_or, Summary.Unscored, List.nil_append]
  tauto

lemma compute_traced (r : Request) :
    (compute R r cfg : RecommendM K S D (Response K)).Traced fun t x =>
      ∀ resp, x = .ok resp → ((summary t).writes = false ↔ (summary t).Degrades R) := by
  refine Traced.bind (doRecommend_traced hunit) (fun t out h => ?_) fun _ _ _ => nofun
  have hd := h.2 out rfl
  split
  · next hm =>
    rw [Program.traced_pure, List.append_nil]
    exact fun _ _ => iff_of_true h.1 (hd.mp hm)
  · next hm =>
    refine traced_ask_bind.mpr fun _ => fun _ _ => ?_
    rw [summary_append, summary_cons, summary_nil]
    refine iff_of_false ?_ fun hd' => hm (hd.mpr ?_)
    · simp [Summary.append_def, Exchange.summary]
    · simpa [Summary.Degrades, Summary.append_def, Exchange.summary, Summary.Unscored] using hd'

lemma recommend_traced (r : Request) :
    (recommend R r : RecommendM K S D (Response K)).Traced fun t x =>
      ∀ resp, x = .ok resp → (∃ e ∈ t, Exchange.failed e = true) →
        ((summary t).writes = false ↔ (summary t).Degrades R) := by
  refine traced_ask_bind.mpr fun config => ?_
  match config with
  | .error _ => exact nofun
  | .ok none => exact nofun
  | .ok (some cfg) =>
    refine traced_ask_bind.mpr fun cached => ?_
    split
    · -- a response from the cache comes without a failure
      rintro _ _ ⟨e, he, hf⟩
      rcases List.mem_pair.mp he with rfl | rfl <;> cases hf
    · exact (compute_traced hunit r).mono fun t x hx resp hr _ => hx resp hr

end Rungs

lemma writes_eq_false_iff {e : Exchange K S D} :
    e.summary.writes = false ↔ ∀ key cached, e ≠ ⟨.cacheSet key cached, ()⟩ := by
  obtain ⟨c, r⟩ := e
  cases c with
  | cacheSet key cached => exact ⟨nofun, fun h => absurd rfl (h key cached)⟩
  | _ => exact ⟨fun _ => nofun, fun _ => rfl⟩

lemma writes_summary_iff {t : List (Exchange K S D)} :
    (summary t).writes = false ↔ ∀ key cached, ⟨.cacheSet key cached, ()⟩ ∉ t := by
  induction t with
  | nil => simp
  | cons e t ih =>
    rw [summary_cons, Summary.append_def, Bool.or_eq_false_iff, writes_eq_false_iff, ih]
    simp only [List.mem_cons, not_or, forall_and, ne_eq, eq_comm]

/-- A response in whose making a call has failed is not written to the cache exactly if one of its
failures leaves a mark. -/
theorem failure_not_cached [Field K] [LinearOrder K] [IsStrictOrderedRing K] (R : Runtime K)
    (hunit : ∀ x ∈ Set.Icc (0 : K) 1, R.finiteScore x = true) (r : Request)
    (t : List (Exchange K S D)) (resp : Response K)
    (hrun : (recommend R r : RecommendM K S D (Response K)).Runs t (.ok resp))
    (hfailed : ∃ e ∈ t, e.failed = true) :
    (∀ key cached, ⟨Call.cacheSet key cached, ()⟩ ∉ t) ↔ (summary t).Degrades R :=
  writes_summary_iff.symm.trans ((recommend_traced hunit r).runs hrun resp rfl hfailed)

/-! ### Failures in the shop -/

section Shop

/-- The searches of the dense arm fail. -/
def denseSearchFails : (c : Call ℚ ℚ ℚ) → Answer c
  | .searchObjectsDense _ _ _ _ => .error "unavailable"
  | c => indexedShop.answer c

def seenFails : (c : Call ℚ ℚ ℚ) → Answer c
  | .getSeenItems _ _ _ => ([], some "timeout")
  | c => indexedShop.answer c

def authoredFails : (c : Call ℚ ℚ ℚ) → Answer c
  | .getAuthoredObjects _ _ => .error "timeout"
  | c => indexedShop.answer c

def lookupFails : (c : Call ℚ ℚ ℚ) → Answer c
  | .lookupObjectIDs _ _ => .error "timeout"
  | c => indexedShop.answer c

def denseVectorFails : (c : Call ℚ ℚ ℚ) → Answer c
  | .fetchSubjectDenseVector _ _ => .error "unavailable"
  | c => indexedShop.answer c

/-- The probe of the trending list fails, and the read before it has not. -/
def probeFails : (c : Call ℚ ℚ ℚ) → Answer c
  | .getTrending _ _ 0 1 => .error "connection reset"
  | c => indexedShop.answer c

/-- The dense arm fails, and the one point of the sparse arm names no object. -/
def otherArmUnscored : (c : Call ℚ ℚ ℚ) → Answer c
  | .searchObjectsDense _ _ _ _ => .error "unavailable"
  | c => (shop (fun _ => (∅ : Table ℕ ℚ).insert 1 1) fun _ =>
      (∅ : Collection ℚ).insert 9 ⟨none, none, 1⟩).answer c

/-- A subject without an event asks for its second page. -/
def secondPage : Request := ⟨"w", "shop", 10, 10⟩

def swallowedFailures : List (Request × ((c : Call ℚ ℚ ℚ) → Answer c)) :=
  [(request, seenFails), (request, authoredFails), (request, lookupFails),
    (request, denseVectorFails), (secondPage, probeFails), (request, otherArmUnscored)]

theorem failure_not_cached_denseSearchFails :
    (∃ e ∈ (recommend rationals request).exchanges denseSearchFails, Exchange.failed e = true) ∧
      ((∀ key cached, (⟨Call.cacheSet key cached, ()⟩ : Exchange ℚ ℚ ℚ) ∉
          (recommend rationals request).exchanges denseSearchFails) ↔
        (summary ((recommend rationals request).exchanges denseSearchFails)).Degrades
          rationals) := by
  have hf : ∃ e ∈ (recommend rationals request).exchanges denseSearchFails,
      Exchange.failed e = true := by decide +kernel
  have hok : ((recommend rationals request).eval denseSearchFails).isOk = true := by
    decide +kernel
  obtain ⟨resp, hr⟩ := Program.exists_runs_ok hok
  exact ⟨hf, failure_not_cached rationals (fun _ _ => rfl) request _ resp hr hf⟩

/-- A lookup, the dense vector, the probe and an arm fail, each in a run of its own, and each of
the responses is written to the cache. -/
theorem swallowed_failure_cached : swallowedFailures.Forall fun q =>
    ∃ (t : List (Exchange ℚ ℚ ℚ)) (resp : Response ℚ),
      (recommend rationals q.1).Runs t (.ok resp) ∧ (∃ e ∈ t, e.failed = true) ∧
        ∃ key cached, ⟨.cacheSet key cached, ()⟩ ∈ t := by
  have hr : ∀ q ∈ swallowedFailures, ((recommend rationals q.1).eval q.2).isOk = true ∧
      (∃ e ∈ (recommend rationals q.1).exchanges q.2, Exchange.failed e = true) ∧
        (summary ((recommend rationals q.1).exchanges q.2)).writes = true := by decide +kernel
  refine List.forall_iff_forall_mem.mpr fun q hq => ?_
  obtain ⟨hok, hf, hw⟩ := hr q hq
  obtain ⟨resp, hru⟩ := Program.exists_runs_ok hok
  refine ⟨_, resp, hru, hf, ?_⟩
  by_contra hn
  simp only [not_exists] at hn
  exact Bool.false_ne_true ((writes_summary_iff.mpr hn).symm.trans hw)

end Shop

end Codohue.Recommend
