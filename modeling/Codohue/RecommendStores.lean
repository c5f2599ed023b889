import Codohue.IDMapAgreement
import Codohue.Recommend

/-!
The stores behind a recommendation, all of them up: the queries of the repository over the tables,
the ids, the trending lists and the collections of points.
-/

namespace Codohue.Recommend

open IDMap Repair Service
open PhysicalNames (PhysicalKind)

structure Event (K : Type) where
  ns : String
  subjectID : String
  objectID : String
  weight : K
  occurredAt : ℤ

/-- A row of `objects`. -/
structure ObjectRow where
  ns : String
  objectID : String
  authorSubjectID : Option String
  createdAt : ℤ

/-- A point of a collection of objects, under its id. -/
structure Point (V : Type) where
  objectID : Option String
  createdAt : Option ℤ
  vector : V

abbrev Collection (V : Type) := Table ℕ (Point V)

structure Stores (K S D : Type) where
  configs : Table String (Config K)
  cache : Table String (Response K)
  events : List (Event K)
  objects : List ObjectRow
  ids : Mappings
  /-- The members of a trending set, in the order of `ZREVRANGE`. -/
  trending : String → List TrendingEntry
  trending_nodup : ∀ key, ((trending key).map TrendingEntry.objectID).Nodup
  /-- The collections, each under its physical namespace. -/
  subjects : String → Table ℕ S
  subjectsDense : String → Table ℕ D
  objectPoints : String → Collection S
  objectPointsDense : String → Collection D
  /-- The score of a vector for a query, if the index retrieves it at all. -/
  sparseScore : S → S → Option K
  denseScore : D → D → Option K
  now : ℤ

/-! ### Queries -/

section Queries

variable {K S D : Type} (w : Stores K S D)

def eventsOf (ns subjectID : String) : List (Event K) :=
  w.events.filter fun e => e.ns = ns ∧ e.subjectID = subjectID

def countInteractions (ns subjectID : String) : ℕ := (eventsOf w ns subjectID).length

def getSeenItems (ns subjectID : String) (seenItemsDays : ℤ) : List String :=
  (((eventsOf w ns subjectID).filter fun e => w.now - seenItemsDays * day < e.occurredAt).map
    Event.objectID).dedup

def defaultAuthoredObjectsCap : ℕ := 5000

def getAuthoredObjects (ns subjectID : String) : List String :=
  (((w.objects.filter fun o => o.ns = ns ∧ o.authorSubjectID = some subjectID).insertionSort
    fun a b => b.createdAt ≤ a.createdAt).map ObjectRow.objectID).take defaultAuthoredObjectsCap

variable [Field K] [LinearOrder K]

/-- The weight of an object in the events of the last seven days. -/
def popularityScore (ns objectID : String) : K :=
  ((w.events.filter fun e =>
    e.ns = ns ∧ w.now - 7 * day < e.occurredAt ∧ e.objectID = objectID).map Event.weight).sum

def getPopularItems (ns : String) (limit : ℕ) : List String :=
  ((((w.events.filter fun e => e.ns = ns ∧ w.now - 7 * day < e.occurredAt).map
    Event.objectID).dedup.insertionSort
      fun a b => popularityScore w ns b ≤ popularityScore w ns a).take limit)

omit [Field K] [LinearOrder K] in
def getTrending (ns : String) (generation : ℤ) (offset limit : ℕ) : List TrendingEntry :=
  if limit = 0 then []
  else ((w.trending (PhysicalKind.trending.nameOf ns generation)).drop offset).take limit

end Queries

/-! ### Search -/

def Filter.Admits (filter : Filter) (id : ℕ) : Prop :=
  (∀ ids ∈ filter.must, id ∈ ids) ∧ ∀ ids ∈ filter.mustNot, id ∉ ids

instance (filter : Filter) (id : ℕ) : Decidable (filter.Admits id) :=
  inferInstanceAs (Decidable (_ ∧ _))

section Search

variable {K V : Type} [LinearOrder K]

omit [LinearOrder K] in
/-- The points that a search retrieves, with their scores. -/
def retrieve (score : V → Option K) (points : Collection V) (filter : Option Filter) :
    List (ScoredPoint K) :=
  points.entries.filterMap fun e =>
    if ∀ f ∈ filter, f.Admits e.1 then
      (score e.2.vector).map fun s => ⟨e.1, e.2.objectID, e.2.createdAt, s⟩
    else none

def search (score : V → Option K) (points : Collection V) (filter : Option Filter) (topK : ℕ) :
    List (ScoredPoint K) :=
  ((retrieve score points filter).insertionSort fun a b => b.score ≤ a.score).take topK

end Search

/-! ### Answers -/

section Answers

variable {K S D : Type} [Field K] [LinearOrder K]

/-- Every call succeeds, and is answered from the stores. -/
def Stores.answer (w : Stores K S D) : (c : Call K S D) → Answer c
  | .getConfig ns => .ok (w.configs.lookup ns)
  | .cacheGet key => w.cache.lookup key
  | .cacheSet _ _ => ()
  | .countInteractions ns subjectID => .ok (countInteractions w ns subjectID)
  | .getSeenItems ns subjectID days => (getSeenItems w ns subjectID days, none)
  | .getAuthoredObjects ns subjectID => .ok (getAuthoredObjects w ns subjectID)
  | .getPopularItems ns limit => .ok (getPopularItems w ns limit)
  | .lookupSubjectID subjectID ns => .ok ((w.ids.get ⟨ns, .subject, subjectID⟩).map numericID)
  | .lookupObjectIDs objectIDs ns => .ok (IDs.fill ∅ (select w.ids ns .object objectIDs))
  | .fetchSubjectVector ns id => .ok ((w.subjects ns).lookup id)
  | .fetchSubjectDenseVector ns id => .ok ((w.subjectsDense ns).lookup id)
  | .searchObjects ns vec filter topK =>
    .ok (search (w.sparseScore vec) (w.objectPoints ns) filter topK)
  | .searchObjectsDense ns vec filter topK =>
    .ok (search (w.denseScore vec) (w.objectPointsDense ns) filter topK)
  | .getTrending ns generation offset limit => .ok (getTrending w ns generation offset limit)
  | .now => w.now

end Answers

end Codohue.Recommend
