import Codohue.RecommendExclusion

/-!
The pages that the fallbacks serve: windows of one list.
-/

namespace Codohue.Recommend

open IDMap Pages Repair Service

section Paging

variable {K S D : Type} [Field K] [LinearOrder K]

variable (w : Stores K S D) (cfg : Config K) (ns subjectID : String)

/-- What is left of a list without the objects that the subject wrote and those in `exclude`. -/
def leftOf (exclude ids : List String) : List String :=
  ids.filter fun id => id ∉ authoredSet w cfg ns subjectID ∧ id ∉ exclude

variable {w cfg ns subjectID}

omit [Field K] [LinearOrder K] in
lemma map_keep {α : Type} (key : α → String) (ex : List String) (l : List α) :
    (keep key (mergeExclusions (authoredSet w cfg ns subjectID) ex) l).map key =
      leftOf w cfg ns subjectID ex (l.map key) := by
  rw [leftOf, List.filter_map]
  refine congrArg (List.map key) (List.filter_congr fun a _ => ?_)
  simp [mem_mergeExclusions]

omit [Field K] [LinearOrder K] in
lemma map_trendingRest (ex : List String) :
    (trendingRest w cfg ns subjectID ex).map TrendingEntry.objectID =
      leftOf w cfg ns subjectID ex ((trendingList w cfg ns).map TrendingEntry.objectID) :=
  map_keep _ _ _

lemma popularRest_eq (ex : List String) : popularRest w cfg ns subjectID ex =
      leftOf w cfg ns subjectID ex (popularList w ns) := by
  simpa only [popularRest, List.map_id] using map_keep id ex (popularList w ns)

/-- The fallback serves a page of what is left of the trending list, or of the popular one if
nothing is left of that. -/
theorem fallbackTrending_page (w : Stores K S D) (cfg : Config K) (req : Inner) (limit : ℕ)
    (exclude : List String) (hlimit : 1 ≤ limit) :
    ∃ out, (fallbackTrending req limit cfg exclude).eval w.answer = .ok out ∧
      let left := leftOf w cfg req.ns req.subjectID exclude
      let T := left ((trendingList w cfg req.ns).map TrendingEntry.objectID)
      let P := left (popularList w req.ns)
      (T ≠ [] → itemIDs out.items = (T.drop req.offset).take limit) ∧
      (T = [] → itemIDs out.items = (P.drop req.offset).take limit) ∧
      ∀ i item, out.items[i]? = some item → item.rank = req.offset + i + 1 := by
  have hr : (fallbackTrending req limit cfg exclude).Ensures w.answer _ :=
    fallbackTrending_returns hlimit exclude
  obtain ⟨out, he, hi, -, -⟩ := Program.ensures_iff.mp hr
  rw [← unscoredItems_page] at hi
  refine ⟨out, he, ?_⟩
  dsimp only
  rw [← map_trendingRest, ← popularRest_eq, Ne, List.map_eq_nil_iff]
  refine ⟨fun hne => ?_, fun hn => ?_, fun i item hite => ?_⟩
  · rw [hi, itemIDs_unscoredItems, fallbackList, if_neg hne, page]
  · rw [hi, itemIDs_unscoredItems, fallbackList, if_pos hn, page]
  · rw [hi, unscoredItems, List.getElem?_mapIdx] at hite
    obtain ⟨id, -, rfl⟩ := Option.map_eq_some_iff.mp hite
    rfl

end Paging

/-! ### Pages of a shop -/

section Shop

/-- A runtime in which an object loses score with its age. -/
def decaying : Runtime ℚ := insertionRuntime (fun _ => true) fun x => 1 / (1 - x)

/-- A namespace that scores with the sparse vectors alone. -/
def sparseConfig : Config ℚ := ⟨1, 50, 30, false, 1, 1, "disabled", "cosine"⟩

/-- A shop in which the subject `u` has touched the object `s` a number of times. -/
def sparseShop (touched : ℕ) (trending : List TrendingEntry)
    (hnodup : (trending.map TrendingEntry.objectID).Nodup) (points : Collection ℚ) :
    Stores ℚ ℚ ℚ where
  configs := (∅ : Table String (Config ℚ)).insert "shop" sparseConfig
  cache := ∅
  events := List.replicate touched ⟨"shop", "u", "s", 1, 0⟩
  objects := []
  ids := uIDs
  trending _ := trending
  trending_nodup _ := hnodup
  subjects _ := (∅ : Table ℕ ℚ).insert 1 1
  subjectsDense _ := ∅
  objectPoints _ := points
  objectPointsDense _ := ∅
  sparseScore v u := some (v * u)
  denseScore _ _ := none
  now := 0

/-- Two objects to recommend beside three that trend. -/
def coldShop : Stores ℚ ℚ ℚ :=
  sparseShop 1 [⟨"p"⟩, ⟨"q"⟩, ⟨"r"⟩] (by decide)
    (((∅ : Collection ℚ).insert 1 ⟨some "c", none, 2⟩).insert 2 ⟨some "d", none, 1⟩)

theorem fallbackTrending_page_cold :
    ∃ out, (fallbackTrending ⟨"u", "shop", 1⟩ 2 sparseConfig ["p", "z"]).eval coldShop.answer =
        .ok out ∧ itemIDs out.items = ["r"] := by
  obtain ⟨out, he, hT, -⟩ :=
    fallbackTrending_page coldShop sparseConfig ⟨"u", "shop", 1⟩ 2 ["p", "z"] (by decide)
  exact ⟨out, he, hT (by decide +kernel)⟩

end Shop

end Codohue.Recommend
