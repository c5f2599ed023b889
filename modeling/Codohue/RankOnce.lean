import Codohue.RankChunks
import Codohue.RecommendCaching

/-!
`Rank` gives every candidate once.

The scored path leaves out what it has given already. The fallbacks copy the request, and give a
candidate as often as it was sent.
-/

namespace Codohue.Recommend

open IDMap Repair Service
open Program (Traced traced_ask_bind)

variable {K S D : Type}

/-- Every candidate has one item, the items are numbered from one, the scored ones come first, and
the others come as the request first names them. -/
structure RankedOnce (candidates : List String) (items : List (RankedItem K)) : Prop where
  nodup : (itemIDs items).Nodup
  mem : ∀ o, o ∈ itemIDs items ↔ o ∈ candidates
  ranks : ∀ i item, items[i]? = some item → item.rank = i + 1
  scoredFirst : items.Pairwise fun a b => b.scored = true → a.scored = true
  inOrder : (itemIDs (items.filter (!·.scored))).Pairwise fun o o' =>
    candidates.idxOf o < candidates.idxOf o'

/-! ### The items -/

lemma pairwise_distinct (seen ids : List String) :
    (distinct seen ids).Pairwise fun o o' => ids.idxOf o < ids.idxOf o' := by
  induction ids generalizing seen with
  | nil => exact .nil
  | cons id ids ih =>
    -- what comes later is another name, so it stands one place further in the longer list
    have hl : ∀ seen', id ∈ seen' → (distinct seen' ids).Pairwise fun o o' =>
        (id :: ids).idxOf o < (id :: ids).idxOf o' := by
      intro seen' hid
      refine (ih seen').imp_of_mem fun {o o'} ho ho' hlt => ?_
      have hne : ∀ {x}, x ∈ distinct seen' ids → id ≠ x := fun hx heq =>
        (mem_distinct.mp hx).2 (heq ▸ hid)
      rw [List.idxOf_cons_ne _ (hne ho), List.idxOf_cons_ne _ (hne ho')]
      omega
    rw [distinct]
    split_ifs with hid
    · exact hl seen hid
    · refine List.pairwise_cons.mpr ⟨fun o ho => ?_, hl _ List.mem_cons_self⟩
      have hne : id ≠ o := fun heq => (mem_distinct.mp ho).2 (heq ▸ List.mem_cons_self)
      rw [List.idxOf_cons_self, List.idxOf_cons_ne _ hne]
      exact Nat.succ_pos _

variable [Field K]

lemma rankedOnce_rankedItems {scored : List (String × K)} {candidates : List String}
    (hno : (scored.map Prod.fst).Nodup) (hm : ∀ o ∈ scored.map Prod.fst, o ∈ candidates) :
    RankedOnce candidates (rankedItems scored candidates) where
  nodup := by
    rw [itemIDs_rankedItems]
    refine hno.append ?_ fun o ho ho' => (mem_distinct.mp ho').2 ho
    exact (pairwise_distinct _ candidates).imp fun hlt heq => hlt.ne (by rw [heq])
  mem o := by
    rw [itemIDs_rankedItems, List.mem_append, mem_distinct]
    exact ⟨fun h => h.elim (hm o) And.left, fun h => or_iff_not_imp_left.mpr fun hn => ⟨h, hn⟩⟩
  ranks i item hite := by
    rw [rankedItems, List.getElem?_append] at hite
    split_ifs at hite with hi
    · obtain ⟨c, -, rfl⟩ := Option.map_eq_some_iff.mp (List.getElem?_mapIdx ▸ hite)
      rfl
    · rw [unscoredItems, List.getElem?_mapIdx] at hite
      obtain ⟨o, -, rfl⟩ := Option.map_eq_some_iff.mp hite
      dsimp only
      omega
  scoredFirst := by
    refine List.pairwise_append.mpr ⟨?_, ?_, fun a ha b _ _ => scored_of_mem_mapIdx ha⟩
    · exact List.pairwise_of_forall_mem_list fun a ha b _ _ => scored_of_mem_mapIdx ha
    · refine List.pairwise_of_forall_mem_list fun a _ b hb hs => ?_
      cases (not_scored_of_mem_unscoredItems hb).symm.trans hs
  inOrder := by
    have hr : (rankedItems scored candidates).filter (!·.scored) =
        unscoredItems (distinct (scored.map Prod.fst) candidates) scored.length := by
      rw [rankedItems, List.filter_append, List.length_mapIdx, List.filter_eq_nil_iff.mpr,
        List.filter_eq_self.mpr, List.nil_append]
      · intro item hite
        rw [not_scored_of_mem_unscoredItems hite]
        rfl
      · intro item hite
        rw [scored_of_mem_mapIdx hite]
        rintro ⟨⟩
    rw [hr, itemIDs_unscoredItems]
    exact pairwise_distinct _ candidates

/-- What `Rank` serves: the request in its order, or a ranking of some of its candidates. -/
def Serves (candidates : List String) (fallback scorable : Prop) (items : List (RankedItem K)) :
    Prop :=
  (fallback ∧ items = unscoredItems candidates 0) ∨
    (scorable ∧ ∃ scored : List (String × K), (scored.map Prod.fst).Nodup ∧
      (∀ o ∈ scored.map Prod.fst, o ∈ candidates) ∧ items = rankedItems scored candidates)

lemma Serves.once_iff {candidates : List String} {items : List (RankedItem K)}
    (h : Serves candidates fallback scorable items) (hf : fallback → ¬ scorable) :
    RankedOnce candidates items ↔ scorable ∨ candidates.Nodup := by
  rcases h with ⟨hs, rfl⟩ | ⟨hs, scored, hn, hm, rfl⟩
  · refine ⟨fun h => .inr (itemIDs_unscoredItems (K := K) candidates 0 ▸ h.nodup), fun h => ?_⟩
    rw [← rankedItems_nil (h.resolve_left (hf hs))]
    exact rankedOnce_rankedItems List.nodup_nil nofun
  · exact iff_of_true (rankedOnce_rankedItems hn hm) (.inl hs)

/-! ### Runs -/

/-- A lookup gives the ids of some of the names that it is asked for, and a search gives points that
pass its filter, each under the id of its object. -/
def Agrees (ids : Mappings) (ns : String) : Exchange K S D → Prop
  | ⟨.lookupObjectIDs objectIDs _, r⟩ =>
    ∀ found, r = .ok found → Sound ids ns .object found ∧ ∀ o ∈ found, o ∈ objectIDs
  | ⟨.searchObjects _ _ filter _, r⟩ | ⟨.searchObjectsDense _ _ filter _, r⟩ =>
    ∀ found, r = .ok found → ∀ p ∈ found, Admissible ids ns filter p
  | _ => True

/-- A search with the vector is answered. -/
def SearchedSparse (ns : String) (vec : S) (t : List (Exchange K S D)) : Prop :=
  ∃ filter topK points, ⟨.searchObjects ns vec filter topK, .ok points⟩ ∈ t

def SearchedDense (ns : String) (vec : D) (t : List (Exchange K S D)) : Prop :=
  ∃ filter topK points, ⟨.searchObjectsDense ns vec filter topK, .ok points⟩ ∈ t

/-- The lookups find the subject and some of the candidates, and a vector of the subject is read
with which a search is answered. -/
def Scorable (req : RankRequest) (ns : String) (cfg : Config K) (t : List (Exchange K S D)) :
    Prop :=
  let physical := qdrantPhysicalNamespace cfg ns
  ∃ n, ⟨.lookupSubjectID req.subjectID ns, .ok (some n)⟩ ∈ t ∧
    (∃ found, ⟨.lookupObjectIDs req.candidates ns, .ok found⟩ ∈ t ∧ found.entries ≠ []) ∧
    ((∃ vec, ⟨.fetchSubjectVector physical n, .ok (some vec)⟩ ∈ t ∧
        SearchedSparse physical vec t) ∨
      ∃ vec, ⟨.fetchSubjectDenseVector physical n, .ok (some vec)⟩ ∈ t ∧
        SearchedDense physical vec t)

/-- The exchange is not a search that was answered. -/
def Silent : Exchange K S D → Prop
  | ⟨.searchObjects _ _ _ _, r⟩ | ⟨.searchObjectsDense _ _ _ _, r⟩ => r.isOk = false
  | _ => True

omit [Field K] in
lemma not_scorable {req : RankRequest} {t : List (Exchange K S D)} (h : ∀ e ∈ t, Silent e) :
    ¬ Scorable req ns cfg t := by
  rintro ⟨-, -, -, ⟨vec, -, filter, topK, points, hm⟩ | ⟨vec, -, filter, topK, points, hm⟩⟩
  · cases h _ hm
  · cases h _ hm

section Runs

variable {R : Runtime K} {ids : Mappings} {ns : String} {req : RankRequest} {cfg : Config K}
  {candidates : List String} {Q : List (Exchange K S D) → Prop}

/-- The run ends with a response, if its answers agree with the id mappings: with a fallback if
no search was answered, and with a ranking if `Q` holds of the run. -/
def Answered (ids : Mappings) (ns : String) (candidates : List String)
    (Q : List (Exchange K S D) → Prop) (t : List (Exchange K S D))
    (x : Except Error (RankResponse K)) : Prop :=
  (∀ e ∈ t, Agrees ids ns e) →
    ∃ resp, x = .ok resp ∧ Serves candidates (∀ e ∈ t, Silent e) (Q t) resp.items

lemma answered_fallback {t : List (Exchange K S D)} (h : ∀ e ∈ t, Silent e) :
    Answered ids ns req.candidates Q t (.ok (rankFallback req ns)) :=
  fun _ => ⟨_, rfl, .inl ⟨h, rfl⟩⟩

lemma Answered.after {s t : List (Exchange K S D)} {x : Except Error (RankResponse K)}
    (hs : ∀ e ∈ s, Silent e) (h : Answered ids ns candidates (fun t => Q (s ++ t)) t x) :
    Answered ids ns candidates Q (s ++ t) x := by
  intro ha
  obtain ⟨resp, hx, hr⟩ := h fun e he => ha e (List.mem_append_right s he)
  exact ⟨resp, hx, hr.imp_left fun ⟨ht, hi⟩ => ⟨List.forall_mem_append.mpr ⟨hs, ht⟩, hi⟩⟩

lemma traced_of_ask {f : Answer c → RecommendM K S D (RankResponse K)} (hc : ∀ r, Silent ⟨c, r⟩)
    (hf : ∀ r, (f r).Traced (Answered ids ns candidates fun t => Q (⟨c, r⟩ :: t))) :
    (Program.ask c >>= f).Traced (Answered ids ns candidates Q) :=
  fun r => (hf r).mono fun _ _ h => h.after (s := [_]) (List.forall_mem_singleton.mpr (hc r))

omit [Field K] in
lemma silent_of_swallowed {t : List (Exchange K S D)} (h : ∀ e ∈ t, e.1.swallowed = true) :
    ∀ e ∈ t, Silent e := by
  rintro ⟨c, r⟩ he
  have hc : c.swallowed = true := h _ he
  cases c <;> trivial

lemma traced_of_quiet {α : Type} {p : RecommendM K S D α}
    {f : α → RecommendM K S D (RankResponse K)} (hp : Quiet p)
    (hf : ∀ s a, (f a).Traced (Answered ids ns candidates fun t => Q (s ++ t))) :
    (p >>= f).Traced (Answered ids ns candidates Q) :=
  hp.bind fun a s h => (hf s a).mono fun _ _ ha => ha.after (silent_of_swallowed h)

/-- An arm finds points that pass the filter. -/
def Finds (ids : Mappings) (ns : String) (filter : Filter) (t : List (Exchange K S D))
    (points : List (ScoredPoint K)) : Prop :=
  (∀ e ∈ t, Agrees ids ns e) → ∀ p ∈ points, Admissible ids ns (some filter) p

/-- The points of an arm, and whether its search was answered. -/
structure ArmRun {V : Type} (ids : Mappings) (ns : String) (filter : Filter) (vec : Option V)
    (hit : V → List (Exchange K S D) → Prop) (t : List (Exchange K S D)) (arm : Option (Arm K)) :
    Prop where
  finds : Finds ids ns filter t (armResults arm)
  hits : armOK arm = true → ∃ v, vec = some v ∧ hit v t
  silent : armOK arm = false → ∀ e ∈ t, Silent e

omit [Field K] in
lemma searchArm_traced (ids : Mappings) (ns : String) {V : Type} (vec : Option V) (filter : Filter)
    (hit : V → List (Exchange K S D) → Prop) {search : V → RecommendM K S D (Arm K)}
    (hs : ∀ v, (search v).Traced fun t x =>
      ∃ arm, x = .ok arm ∧ ArmRun ids ns filter (some v) hit t (some arm)) :
    (searchArm vec search).Traced fun t x =>
      ∃ arm, x = .ok arm ∧ ArmRun ids ns filter vec hit t arm := by
  cases vec with
  | none => exact ⟨none, rfl, fun _ => nofun, nofun, fun _ => nofun⟩
  | some v =>
    refine Traced.bind (hs v) (fun t arm h => ?_) nofun
    obtain ⟨_, ha, hf⟩ := h
    cases ha
    exact ⟨some arm, rfl, by rwa [List.append_nil]⟩

omit [Field K] in
lemma admissible_results {arm : Arm K}
    (h : ∀ found, arm = .ok found → ∀ p ∈ found, Admissible ids ns filter p) :
    ∀ p ∈ arm.results, Admissible ids ns filter p := by
  cases arm with
  | error e => nofun
  | ok found => exact h found rfl

variable [LinearOrder K]

lemma mem_of_mem_blend (hc : InColumn ids) (hs : Sound ids ns .object found)
    (ha : ∀ o ∈ found, o ∈ candidates) (h : ∀ p ∈ sparse ++ dense,
      Admissible ids ns (some ⟨some (found.entries.map Sigma.snd), mustNot⟩) p)
    (ho : o ∈ (blendHybridScores R sparse dense alpha gamma distance now).map Prod.fst) :
    o ∈ candidates := by
  obtain ⟨x, hx, rfl⟩ := List.mem_map.mp ho
  obtain ⟨p, hp, hob⟩ := mem_blendHybridScores hx
  obtain ⟨hpa, hag⟩ := h p hp
  obtain ⟨⟨o, n⟩, he, hn⟩ := List.mem_map.mp ((hpa _ rfl).1 _ rfl)
  have hl : found.lookup o = some n := Table.lookup_eq_some_iff.mpr he
  obtain rfl := (resolves_iff hc (hs o n hl) (hag _ hob)).mpr hn
  exact ha _ (AList.lookup_isSome.mp (by rw [hl]; rfl))

lemma rankVectors_traced (hc : InColumn ids) (sv : Option S) (dv : Option D)
    (hQ : ∀ t : List (Exchange K S D),
      (∃ found, ⟨.lookupObjectIDs req.candidates ns, .ok found⟩ ∈ t ∧ found.entries ≠ []) →
      (∃ vec, sv = some vec ∧ SearchedSparse (qdrantPhysicalNamespace cfg ns) vec t) ∨
        (∃ vec, dv = some vec ∧ SearchedDense (qdrantPhysicalNamespace cfg ns) vec t) → Q t) :
    (rankVectors R req ns cfg sv dv).Traced (Answered ids ns req.candidates Q) := by
  refine traced_ask_bind.mpr fun r => ?_
  cases r with
  | error e => exact answered_fallback (List.forall_mem_singleton.mpr trivial)
  | ok found =>
    by_cases hf : Sound ids ns .object found ∧ ∀ o ∈ found, o ∈ req.candidates
    swap
    · exact Program.traced_trivial.mono fun t x _ ha =>
        absurd (ha _ List.mem_cons_self found rfl) hf
    dsimp only
    split_ifs with hi
    · exact answered_fallback (List.forall_mem_singleton.mpr trivial)
    refine Traced.mono (Q := Answered ids ns req.candidates fun t => Q (_ :: t)) ?_
      fun t x h => h.after (s := [_]) (List.forall_mem_singleton.mpr trivial)
    refine traced_of_ask (fun _ => trivial) fun seenItems => ?_
    refine traced_of_quiet (quiet_excludedObjectIDs _) fun s excluded => ?_
    refine traced_of_quiet (quiet_buildSeenItemsFilter _ _) fun s' seen => ?_
    let filter : Filter := ⟨some (found.entries.map Sigma.snd), seen.bind Filter.mustNot⟩
    refine Traced.bind (searchArm_traced ids ns sv filter
      (SearchedSparse (qdrantPhysicalNamespace cfg ns)) fun v r => ?_)
      (fun t sparse h => ?_) nofun
    · refine ⟨r, rfl, fun ha => admissible_results (ha _ List.mem_cons_self), fun ho => ?_,
        fun ho => List.forall_mem_singleton.mpr ho⟩
      cases r with
      | error e => cases ho
      | ok points => exact ⟨v, rfl, _, _, points, List.mem_cons_self⟩
    obtain ⟨_, har, hs⟩ := h
    cases har
    refine Traced.bind (searchArm_traced ids ns dv filter
      (SearchedDense (qdrantPhysicalNamespace cfg ns)) fun v r => ?_)
      (fun t' dense h => ?_) nofun
    · refine ⟨r, rfl, fun ha => admissible_results (ha _ List.mem_cons_self), fun ho => ?_,
        fun ho => List.forall_mem_singleton.mpr ho⟩
      cases r with
      | error e => cases ho
      | ok points => exact ⟨v, rfl, _, _, points, List.mem_cons_self⟩
    obtain ⟨_, har, hd⟩ := h
    cases har
    by_cases hfa : (!armOK sparse && !armOK dense) = true
    · rw [if_pos hfa]
      obtain ⟨hso, hdo⟩ : armOK sparse = false ∧ armOK dense = false := by simpa using hfa
      exact Program.traced_pure.mpr (answered_fallback (List.forall_mem_append.mpr
        ⟨hs.silent hso, List.forall_mem_append.mpr ⟨hd.silent hdo, nofun⟩⟩))
    rw [if_neg hfa]
    refine fun now ha => ⟨_, rfl, .inr ⟨?_, _, nodup_blendHybridScores, fun o ho => ?_, rfl⟩⟩
    · refine hQ _ ⟨found, List.mem_cons_self, by simpa using hi⟩ ?_
      obtain hso | hdo : armOK sparse = true ∨ armOK dense = true := by
        cases hso : armOK sparse <;> simp_all
      · obtain ⟨v, hv, filter, topK, points, hm⟩ := hs.hits hso
        exact .inl ⟨v, hv, filter, topK, points, by simp [hm]⟩
      · obtain ⟨v, hv, filter, topK, points, hm⟩ := hd.hits hdo
        exact .inr ⟨v, hv, filter, topK, points, by simp [hm]⟩
    rw [← List.append_assoc] at ha
    obtain ⟨ha, -⟩ := List.forall_mem_append.mp ha
    obtain ⟨ha, ha'⟩ := List.forall_mem_append.mp ha
    exact mem_of_mem_blend hc hf.1 hf.2 (List.forall_mem_append.mpr ⟨hs.finds ha, hd.finds ha'⟩) ho

/-- **Every run of `Rank` with the configuration of a namespace ends with a response. It ranks
every candidate once if a search is answered for the subject and some of the candidates, or if the
request repeats no candidate.** -/
theorem rank_once_iff (R : Runtime K) (ids : Mappings) (req : RankRequest) (ns : String)
    (cfg : Config K) (t : List (Exchange K S D)) (x : Except Error (RankResponse K))
    (hruns : (rank R req ns).Runs (⟨.getConfig ns, .ok (some cfg)⟩ :: t) x)
    (hcolumn : InColumn ids) (hagree : ∀ e ∈ t, Agrees ids ns e) :
    ∃ resp, x = .ok resp ∧ (RankedOnce req.candidates resp.items ↔
        Scorable req ns cfg t ∨ req.candidates.Nodup) := by
  obtain ⟨r, rest, heq, hr⟩ := hruns
  cases heq
  have ht : Answered ids ns req.candidates (Scorable req ns cfg) t x := by
    refine Traced.runs ?_ hr
    split_ifs with hn
    · exact fun _ => ⟨_, rfl, .inl ⟨nofun, by rw [hn]; rfl⟩⟩
    refine traced_of_ask (fun _ => trivial) fun found => ?_
    match found with
    | .error _ | .ok none => exact answered_fallback nofun
    | .ok (some n) =>
      refine traced_of_ask (fun _ => trivial) fun sparseVec => ?_
      refine Traced.bind (denseVectorOf_traced _ n) (fun s denseVec h => ?_) nofun
      obtain ⟨hs, _, heq, hd⟩ := h
      cases heq
      refine Traced.mono ?_ fun _ _ h => Answered.after (silent_of_swallowed hs) h
      split_ifs
      · exact answered_fallback nofun
      · refine rankVectors_traced hcolumn _ denseVec fun t ⟨found, hl, hne⟩ hv => ?_
        refine ⟨n, List.mem_cons_self, ⟨found, by simp [hl], hne⟩, ?_⟩
        rcases hv with ⟨vec, hv, filter, topK, points, hm⟩ | ⟨vec, hv, filter, topK, points, hm⟩
        · obtain ⟨sv, rfl⟩ : ∃ sv, sparseVec = .ok sv := by
            cases sparseVec with
            | error e => cases hv
            | ok sv => exact ⟨sv, rfl⟩
          obtain rfl : sv = some vec := hv
          exact .inl ⟨vec, by simp, filter, topK, points, by simp [hm]⟩
        · exact .inr ⟨vec, by simp [(hd vec hv).2], filter, topK, points, by simp [hm]⟩
  obtain ⟨resp, hx, hs⟩ := ht hagree
  exact ⟨resp, hx, hs.once_iff not_scorable⟩

end Runs

/-! ### One mapped candidate -/

def cupIDs : Mappings := Mappings.empty.set ⟨"shop", .object, "cup"⟩ 2 (by decide)

/-- The search finds the one candidate that is mapped. -/
def cupRun : List (Exchange ℚ ℚ ℚ) :=
  let physical := qdrantPhysicalNamespace sparseConfig "shop"
  [⟨.lookupSubjectID "u" "shop", .ok (some 1)⟩, ⟨.fetchSubjectVector physical 1, .ok (some 1)⟩,
    ⟨.lookupObjectIDs ["tea", "cup", "tea"] "shop", .ok ((∅ : IDs).insert "cup" 2)⟩,
    ⟨.getSeenItems "shop" "u" 30, ([], none)⟩,
    ⟨.searchObjects physical 1 (some ⟨some [2], none⟩) 1, .ok [⟨2, some "cup", none, 1 / 2⟩]⟩,
    ⟨.now, 0⟩]

theorem rank_once_iff_cup : RankedOnce ["tea", "cup", "tea"]
    [(⟨"cup", 1 / 2, 1, true⟩ : RankedItem ℚ), ⟨"tea", 0, 2, false⟩] := by
  have hr : (rank rationals ⟨"u", ["tea", "cup", "tea"]⟩ "shop").Runs
      (⟨.getConfig "shop", .ok (some sparseConfig)⟩ :: cupRun)
      (.ok ⟨"u", "shop", [⟨"cup", 1 / 2, 1, true⟩, ⟨"tea", 0, 2, false⟩], .hybridRank, 2⟩) :=
    ⟨_, _, rfl, _, _, rfl, _, _, rfl, _, _, rfl, _, _, rfl, _, _, rfl, _, _, rfl, rfl,
      by decide +kernel⟩
  have hc : Resolves cupIDs "shop" .object "cup" 2 := ⟨2, by decide, by decide⟩
  have hco : ∀ e ∈ cupIDs.rows.entries, Bigint e.2 := by decide
  have ha : ∀ e ∈ cupRun, Agrees cupIDs "shop" e := by
    refine List.forall_mem_cons.mpr ⟨trivial, List.forall_mem_cons.mpr ⟨trivial, ?_⟩⟩
    refine List.forall_mem_cons.mpr ⟨?_, List.forall_mem_cons.mpr ⟨trivial, ?_⟩⟩
    · rintro _ ⟨⟩
      have he : ∀ x n, ((∅ : IDs).insert "cup" 2).lookup x = some n → x = "cup" ∧ n = 2 :=
        fun x n hx => by simpa using Table.lookup_eq_some_iff.mp hx
      refine ⟨fun x n hx => ?_, fun o ho => ?_⟩
      · obtain ⟨rfl, rfl⟩ := he x n hx
        exact hc
      · obtain ⟨n, hn⟩ := Option.isSome_iff_exists.mp (AList.lookup_isSome.mpr ho)
        rw [(he o n hn).1]
        decide
    · refine List.forall_mem_cons.mpr ⟨?_, List.forall_mem_cons.mpr ⟨trivial, nofun⟩⟩
      rintro _ ⟨⟩ p hp
      obtain rfl := List.mem_singleton.mp hp
      refine ⟨?_, ?_⟩
      · rintro _ ⟨⟩
        decide
      · rintro _ ⟨⟩
        exact hc
  obtain ⟨resp, heq, hon⟩ := rank_once_iff rationals cupIDs _ "shop" sparseConfig cupRun _ hr
    (fun x n hx => hco ⟨x, n⟩ (Table.lookup_eq_some_iff.mp hx)) ha
  cases heq
  have hm : ∀ i e, cupRun[i]? = some e → e ∈ cupRun := fun i e h => List.mem_of_getElem? h
  exact hon.mpr (.inl ⟨1, hm 0 _ rfl, ⟨_, hm 2 _ rfl, by decide⟩,
    .inl ⟨1, hm 1 _ rfl, _, _, _, hm 4 _ rfl⟩⟩)

/-- No vector of the subject is known, and the candidate that was sent twice is given twice. -/
theorem rank_repeats : ∃ resp : RankResponse ℚ,
    (rank rationals ⟨"nobody", ["tea", "tea"]⟩ "shop").eval coldShop.answer = .ok resp ∧
      itemIDs resp.items = ["tea", "tea"] ∧ ¬ RankedOnce ["tea", "tea"] resp.items := by
  have hi : itemIDs (rankFallback (K := ℚ) ⟨"nobody", ["tea", "tea"]⟩ "shop").items =
      ["tea", "tea"] := by decide +kernel
  refine ⟨rankFallback ⟨"nobody", ["tea", "tea"]⟩ "shop", by decide +kernel, hi, fun h => ?_⟩
  exact absurd (hi ▸ h.nodup) (by decide)

end Codohue.Recommend
