import Mathlib.Data.Int.ConditionallyCompleteOrder
import Mathlib.Data.List.Dedup
import Mathlib.Data.List.Infix
import Mathlib.Data.List.Sort
import Mathlib.Data.String.Basic
import Mathlib.Order.ConditionallyCompleteLattice.Basic

/-!
Runs and items of the id-mapping repair, and what can be read off them.

An item is one audited identity: the numeric ids under which its points were found, the id it
should have, and the collections it was seen in. The points are stored under the numeric ids, so
a repair moves points and then points the mapping at the new id.
-/

namespace Codohue.Repair

inductive EntityType where
  | subject
  | object
  deriving DecidableEq, Repr

def EntityType.name : EntityType → String
  | .subject => "subject"
  | .object => "object"

/-- The key of the payload under which a point of this type carries its string id. -/
def EntityType.idField : EntityType → String
  | .subject => "subject_id"
  | .object => "object_id"

/-! ### Collections -/

inductive CollectionKind where
  | subjects
  | objects
  | subjectsDense
  | objectsDense
  deriving DecidableEq, Repr

def CollectionKind.name : CollectionKind → String
  | .subjects => "subjects"
  | .objects => "objects"
  | .subjectsDense => "subjects_dense"
  | .objectsDense => "objects_dense"

def CollectionKind.entityType : CollectionKind → EntityType
  | .subjects | .subjectsDense => .subject
  | .objects | .objectsDense => .object

def CollectionKind.dense : CollectionKind → Bool
  | .subjectsDense | .objectsDense => true
  | .subjects | .objects => false

/-- The collections of a namespace, in the order in which the audit reads them. -/
def collectionKinds : List CollectionKind := [.subjects, .subjectsDense, .objects, .objectsDense]

/-- The collection of each entity type whose vectors are computed from events. -/
def EntityType.sparseKind : EntityType → CollectionKind
  | .subject => .subjects
  | .object => .objects

def EntityType.denseKind : EntityType → CollectionKind
  | .subject => .subjectsDense
  | .object => .objectsDense

def qdrantNamespace (ns : String) (generation : ℤ) : String :=
  if generation < 2 then ns else ns ++ "_g" ++ toString generation

def collectionName (ns : String) (generation : ℤ) (kind : CollectionKind) : String :=
  qdrantNamespace ns generation ++ "_" ++ kind.name

lemma collectionName_injective (ns : String) (gen : ℤ) :
    Function.Injective (collectionName ns gen) := by
  intro k k' h
  have hn : k.name = k'.name := (String.append_right_inj _).mp h
  cases k <;> cases k' <;> first | rfl | exact absurd hn (by decide)

/-- `payloadIDField`: the key is guessed from the name of the collection. -/
def payloadIDField (collection : String) : String :=
  if "_subjects".toList <:+: collection.toList then "subject_id" else "object_id"

/-! ### Items -/

inductive ItemState where
  | pending
  | copied
  | verified
  | cleaned
  | quarantined
  | failed
  deriving DecidableEq, Repr

/-- A logical identity. -/
structure Identity where
  ns : String
  entityType : EntityType
  stringID : String
  deriving DecidableEq, Repr

def Identity.text (x : Identity) : String :=
  x.ns ++ "/" ++ x.entityType.name ++ "/" ++ x.stringID

/-- Where the audit saw an identity. The dense collections are some of those it was seen in. -/
structure Sources where
  collections : List (String × List ℤ)
  denseCollections : List String
  targetConflictWith : String
  targetReassignedFrom : Option ℤ
  dense_subset : denseCollections ⊆ collections.map Prod.fst
  deriving DecidableEq

structure Item where
  identity : Identity
  oldNumericIDs : List ℤ
  targetNumericID : Option ℤ
  sources : Sources
  payloadHash : String
  vectorHash : String
  state : ItemState
  error : String
  deriving DecidableEq

namespace Item

def resolved (item : Item) : Bool :=
  item.state ≠ .quarantined ∧ item.targetNumericID.isSome

/-- The old ids that are not the target. -/
def stale (item : Item) (target : ℤ) : List ℤ := item.oldNumericIDs.filter (· ≠ target)

lemma mem_stale {item : Item} {target : ℤ} :
    n ∈ item.stale target ↔ n ∈ item.oldNumericIDs ∧ n ≠ target := by
  simp [stale]

def needsCopy (item : Item) : Bool :=
  item.resolved && item.targetNumericID.any fun target => item.oldNumericIDs.any (· ≠ target)

/-- Apply is done with the item. -/
def finished (item : Item) : Bool := item.state = .cleaned ∨ item.state = .verified

def withState (item : Item) (state : ItemState) (error : String) : Item :=
  { item with state := state, error := error }

end Item

def itemCollections (item : Item) : List String :=
  (item.sources.collections.map Prod.fst).insertionSort (· ≤ ·)

/-- The collections that apply moves points in: the dense ones, or all of them where none is
dense. -/
def copyableCollections (item : Item) : List String :=
  if item.sources.denseCollections = [] then itemCollections item
  else item.sources.denseCollections.insertionSort (· ≤ ·)

lemma mem_itemCollections : c ∈ itemCollections item ↔ c ∈ item.sources.collections.map Prod.fst :=
  List.mem_insertionSort _

lemma copyableCollections_subset (item : Item) :
    copyableCollections item ⊆ itemCollections item := by
  unfold copyableCollections
  split_ifs
  · exact List.Subset.refl _
  · intro c hc
    rw [List.mem_insertionSort] at hc
    exact mem_itemCollections.mpr (item.sources.dense_subset hc)

/-! ### Runs -/

inductive RunState where
  | audited
  | snapshotting
  | applying
  | verifying
  | complete
  | failed
  deriving DecidableEq, Repr

def RunState.name : RunState → String
  | .audited => "audited"
  | .snapshotting => "snapshotting"
  | .applying => "applying"
  | .verifying => "verifying"
  | .complete => "complete"
  | .failed => "failed"

/-- The states that the unique index on the runs covers. -/
def RunState.active : RunState → Bool
  | .complete | .failed => false
  | _ => true

def supersedable (state : RunState) : Bool := state ≠ .applying ∧ state ≠ .verifying

structure RepairRun where
  state : RunState
  pgSnapshotRef : String
  qdrantSnapshotRefs : List (String × String)
  manifestHash : String
  rebuiltNamespaces : List String
  error : String
  deriving DecidableEq, Repr

/-! ### The manifest hash -/

/-- The part of an item that the hash covers, with any text for the entity type. -/
structure Entry where
  ns : String
  entityType : String
  stringID : String
  oldNumericIDs : List ℤ
  targetNumericID : Option ℤ
  deriving DecidableEq, Repr

namespace Entry

def target (e : Entry) : String :=
  match e.targetNumericID with
  | none => "none"
  | some id => toString id

def olds (e : Entry) : String :=
  ",".intercalate ((e.oldNumericIDs.insertionSort (· ≤ ·)).map toString)

def fields (e : Entry) : List String := [e.ns, e.entityType, e.stringID, e.olds, e.target]

def key (e : Entry) : String := "\x1f".intercalate e.fields

def manifestHash (sha256 : String → String) (entries : List Entry) : String :=
  sha256 ("\x1e".intercalate ((entries.map key).insertionSort (· ≤ ·)))

end Entry

def Item.entry (item : Item) : Entry where
  ns := item.identity.ns
  entityType := item.identity.entityType.name
  stringID := item.identity.stringID
  oldNumericIDs := item.oldNumericIDs
  targetNumericID := item.targetNumericID

/-- The hash covers the decisions and not the progress of the items. -/
def manifestHash (sha256 : String → String) (items : List Item) : String :=
  Entry.manifestHash sha256 (items.map Item.entry)

lemma manifestHash_map (sha256 : String → String) (items : List Item) (f : Item → Item)
    (hf : ∀ item, (f item).entry = item.entry) :
    manifestHash sha256 (items.map f) = manifestHash sha256 items := by
  rw [manifestHash, manifestHash, List.map_map]
  exact congrArg _ (List.map_congr_left fun item _ => hf item)

/-! ### Snapshots -/

/-- White space as `strings.TrimSpace` has it. -/
def isSpace (c : Char) : Bool :=
  c.val ∈ [0x09, 0x0a, 0x0b, 0x0c, 0x0d, 0x20, 0x85, 0xa0, 0x1680, 0x2028, 0x2029, 0x202f, 0x205f,
    0x3000] ∨ (0x2000 ≤ c.val ∧ c.val ≤ 0x200a)

def blank (text : String) : Bool := text.toList.all isSpace

def snapshotRef (refs : List (String × String)) (collection : String) : String :=
  (refs.lookup collection).getD ""

def missingSnapshotCollections (items : List Item) (refs : List (String × String)) :
    List String :=
  ((items.flatMap itemCollections).dedup.filter fun c => blank (snapshotRef refs c)).insertionSort
    (· ≤ ·)

lemma missing_eq_nil_iff :
    missingSnapshotCollections items refs = [] ↔
      ∀ item ∈ items, ∀ c ∈ itemCollections item, blank (snapshotRef refs c) = false := by
  have hm : ∀ c, c ∈ missingSnapshotCollections items refs ↔
      (∃ item ∈ items, c ∈ itemCollections item) ∧ blank (snapshotRef refs c) := by
    intro c
    rw [missingSnapshotCollections, List.mem_insertionSort, List.mem_filter, List.mem_dedup,
      List.mem_flatMap]
  rw [List.eq_nil_iff_forall_not_mem]
  constructor
  · intro h item hi c hc
    have hn := h c
    rw [hm] at hn
    by_contra hb
    exact hn ⟨⟨item, hi, hc⟩, by simpa using hb⟩
  · intro h c hc
    obtain ⟨⟨item, hi, hm'⟩, hb⟩ := (hm c).mp hc
    rw [h item hi c hm'] at hb
    cases hb

/-! ### Namespaces of a manifest -/

def sortedNamespaces (items : List Item) : List String :=
  (items.map fun item => item.identity.ns).dedup.insertionSort (· ≤ ·)

def unrebuiltNamespaces (items : List Item) (rebuilt : List String) : List String :=
  ((items.map fun item => item.identity.ns).dedup.filter (· ∉ rebuilt)).insertionSort (· ≤ ·)

end Codohue.Repair
