import Codohue.RepairTypes
import Codohue.Script
import Codohue.Table

/-!
The two stores of the repair: the tables in Postgres and the points in Qdrant.

Every operation is one statement of the repository or one call of the Qdrant client, and a reply
of the script decides how it ends. The log is not part of the program: it records what was done
to the points, the mappings and the runs, newest first.
-/

namespace Codohue.Repair

open Script

/-! ### Errors -/

inductive Error where
  | runNotFound
  | runActive (detail : String)
  | manifestChanged (got recorded : String)
  | quarantinedItems (detail : String)
  | snapshotsRequired (detail : String)
  /-- Anything else, by its text. -/
  | other (text : String)
  deriving DecidableEq, Repr

def Error.message : Error → String
  | .runNotFound => "idmap: repair run not found"
  | .runActive detail => "idmap: a repair run is already in progress" ++ detail
  | .manifestChanged got recorded =>
    "idmap: repair manifest changed since audit: manifest hashes to " ++ got ++ ", run recorded " ++
      recorded
  | .quarantinedItems detail => "idmap: repair manifest contains quarantined items: " ++ detail
  | .snapshotsRequired detail =>
    "idmap: coordinated snapshots are required before apply: " ++ detail
  | .other text => text

def Error.wrap (context : String) (e : Error) : Error := .other (context ++ ": " ++ e.message)

/-! ### Mappings -/

/-- `id_mappings`, with the unique key on `(namespace, entity_type, numeric_id)`. -/
structure Mappings where
  rows : Table Identity ℤ
  unique : ∀ x y n, x.ns = y.ns → x.entityType = y.entityType →
    rows.lookup x = some n → rows.lookup y = some n → x = y

namespace Mappings

def empty : Mappings := ⟨∅, nofun⟩

def get (m : Mappings) (x : Identity) : Option ℤ := m.rows.lookup x

/-- Another identity of the same kind has the id. -/
def Taken (m : Mappings) (x : Identity) (n : ℤ) : Prop :=
  ∃ e ∈ m.rows.entries, e.1 ≠ x ∧ e.1.ns = x.ns ∧ e.1.entityType = x.entityType ∧ e.2 = n

instance (m : Mappings) (x : Identity) (n : ℤ) : Decidable (m.Taken x n) :=
  inferInstanceAs (Decidable (∃ e ∈ m.rows.entries, _))

lemma not_taken {m : Mappings} {y : Identity} (h : ¬ m.Taken x n) (hns : y.ns = x.ns)
    (ht : y.entityType = x.entityType) (hy : m.get y = some n) : y = x := by
  by_contra hne
  exact h ⟨⟨y, n⟩, AList.mem_lookup_iff.mp hy, hne, hns, ht, rfl⟩

/-- `UPDATE id_mappings SET numeric_id`, where the key allows it. -/
def set (m : Mappings) (x : Identity) (n : ℤ) (h : ¬ m.Taken x n) : Mappings where
  rows := m.rows.insert x n
  unique := by
    intro y z k hns htype hy hz
    rw [Table.lookup_insert_eq] at hy hz
    split_ifs at hy hz with hyx hzx hzx
    · exact hyx.trans hzx.symm
    · obtain rfl : n = k := Option.some.inj hy
      subst hyx
      exact (not_taken h hns.symm htype.symm hz).symm
    · obtain rfl : n = k := Option.some.inj hz
      subst hzx
      exact not_taken h hns htype hy
    · exact m.unique y z k hns htype hy hz

lemma get_set {m : Mappings} {x : Identity} {n : ℤ} {h : ¬ m.Taken x n} :
    (m.set x n h).get y = if y = x then some n else m.get y :=
  Table.lookup_insert_eq m.rows x y n

def retarget (m : Mappings) (x : Identity) (n : ℤ) : Except Error Mappings :=
  if (m.get x).isNone then
    .error (.other ("retarget mapping " ++ x.text ++ ": no such mapping"))
  else if h : m.Taken x n then
    .error (.other ("retarget mapping " ++ x.text ++
      ": duplicate key value violates unique constraint id_mappings_numeric_id_scoped_key"))
  else .ok (m.set x n h)

end Mappings

/-! ### Runs -/

/-- A run with its items, in the order in which they are listed. -/
structure Row where
  run : RepairRun
  items : List Item
  distinct : (items.map Item.identity).Nodup
  deriving DecidableEq

namespace Row

def setState (row : Row) (state : RunState) (error : String) : Row :=
  { row with run := { row.run with state := state, error := error } }

def setSnapshots (row : Row) (pgRef : String) (refs : List (String × String)) : Row :=
  { row with run := { row.run with pgSnapshotRef := pgRef, qdrantSnapshotRefs := refs } }

def addRebuilt (row : Row) (ns : String) : Row :=
  { row with run := { row.run with
      rebuiltNamespaces := (row.run.rebuiltNamespaces ++ [ns]).dedup } }

def setItem (row : Row) (x : Identity) (state : ItemState) (error : String) : Row where
  run := row.run
  items := row.items.map fun item => if item.identity = x then item.withState state error else item
  distinct := by
    have h : ∀ item : Item, (if item.identity = x then item.withState state error
        else item).identity = item.identity := by
      intro item
      split_ifs <;> rfl
    simpa [List.map_map, Function.comp_def, h] using row.distinct

lemma setItem_setItem (row : Row) (x : Identity) (state state' : ItemState)
    (error error' : String) :
    (row.setItem x state' error').setItem x state error = row.setItem x state error := by
  have h : ∀ item : Item, (if (if item.identity = x then item.withState state' error'
      else item).identity = x then (if item.identity = x then item.withState state' error'
      else item).withState state error else (if item.identity = x then item.withState state' error'
      else item)) = if item.identity = x then item.withState state error else item := by
    intro item
    by_cases hx : item.identity = x
    · simp [hx, Item.withState]
    · simp [hx]
  simp only [setItem, List.map_map, Row.mk.injEq, true_and]
  exact List.map_congr_left fun item _ => h item

end Row

/-- The runs, with the index that allows one run in flight. -/
structure Runs where
  rows : Table ℕ Row
  next : ℕ
  fresh : ∀ id row, rows.lookup id = some row → id < next
  single : ∀ a b rowA rowB, rows.lookup a = some rowA → rows.lookup b = some rowB →
    rowA.run.state.active → rowB.run.state.active → a = b

namespace Runs

variable {rs : Runs} {id : ℕ} {row : Row} {rs' : Runs} {f : Row → Row}

def empty : Runs := ⟨∅, 0, nofun, nofun⟩

def get (rs : Runs) (id : ℕ) : Option Row := rs.rows.lookup id

/-- A run other than `id` is in flight. -/
def Busy (rs : Runs) (id : ℕ) : Prop :=
  ∃ e ∈ rs.rows.entries, e.1 ≠ id ∧ e.2.run.state.active

instance (rs : Runs) (id : ℕ) : Decidable (rs.Busy id) :=
  inferInstanceAs (Decidable (∃ e ∈ rs.rows.entries, _))

lemma not_busy (h : ¬ rs.Busy id) (hr : rs.get other = some row) (ha : row.run.state.active) :
    other = id := by
  by_contra hne
  exact h ⟨⟨other, row⟩, AList.mem_lookup_iff.mp hr, hne, ha⟩

/-- The row of `id` is replaced, where the index allows it. -/
def put (rs : Runs) (id : ℕ) (row : Row) (hid : id < rs.next)
    (h : row.run.state.active → ¬ rs.Busy id) : Runs where
  rows := rs.rows.insert id row
  next := rs.next
  fresh := by
    intro other row' hrow'
    rw [Table.lookup_insert_eq] at hrow'
    split_ifs at hrow' with heq
    · exact heq ▸ hid
    · exact rs.fresh other row' hrow'
  single := by
    intro a b rowA rowB ha hb hactA hactB
    rw [Table.lookup_insert_eq] at ha hb
    split_ifs at ha hb with haid hbid hbid
    · exact haid.trans hbid.symm
    · obtain rfl : row = rowA := Option.some.inj ha
      exact haid.trans (not_busy (h hactA) hb hactB).symm
    · obtain rfl : row = rowB := Option.some.inj hb
      exact (not_busy (h hactB) ha hactA).trans hbid.symm
    · exact rs.single a b rowA rowB ha hb hactA hactB

lemma get_put : (rs.put id row hid h).get other = if other = id then some row else rs.get other :=
  Table.lookup_insert_eq rs.rows id other row

/-- A statement on the row of `id`; it touches nothing if there is no such row, and it is
refused if it would put a second run in flight. -/
def update (rs : Runs) (id : ℕ) (f : Row → Row) : Except Error Runs :=
  match hrow : rs.get id with
  | none => .ok rs
  | some row =>
    if h : (f row).run.state.active → ¬ rs.Busy id then
      .ok (rs.put id (f row) (rs.fresh id row hrow) h)
    else
      .error (.other ("set repair run " ++ toString id ++ " state: " ++
        "duplicate key value violates unique constraint idx_id_mapping_repair_runs_active"))

/-- The row of `id` went through `f`, and no other row changed. -/
structure Updated (id : ℕ) (f : Row → Row) (rs rs' : Runs) : Prop where
  next : rs'.next = rs.next
  own : rs'.get id = (rs.get id).map f
  others : ∀ other, other ≠ id → rs'.get other = rs.get other

lemma Updated.get {id : ℕ} (h : rs.Updated id f rs') (hr : rs.get id = some row) :
    rs'.get id = some (f row) := by
  rw [h.own, hr]
  rfl

lemma Updated.trans (h : rs.Updated id f rs') (h' : rs'.Updated id g rs'') :
    rs.Updated id (fun row => g (f row)) rs'' where
  next := h'.next.trans h.next
  own := by
    rw [h'.own, h.own, Option.map_map]
    rfl
  others other hne := (h'.others other hne).trans (h.others other hne)

lemma Updated.setItem (h : rs.Updated id (·.setItem x state' error') rs')
    (h' : rs'.Updated id (·.setItem x state error) rs'') :
    rs.Updated id (·.setItem x state error) rs'' := by
  have ht := h.trans h'
  simp only [Row.setItem_setItem] at ht
  exact ht

lemma update_ok (h : rs.update id f = .ok rs') : Updated id f rs rs' := by
  unfold update at h
  split at h
  · next hr =>
    cases h
    exact ⟨rfl, by rw [hr]; rfl, fun _ _ => rfl⟩
  · next row hr =>
    split_ifs at h with hb
    cases h
    refine ⟨rfl, ?_, fun other hne => ?_⟩
    · rw [get_put, if_pos rfl, hr]
      rfl
    · rw [get_put, if_neg hne]

lemma not_busy_of_active (hr : rs.get id = some row)
    (ha : row.run.state.active) : ¬ rs.Busy id := by
  rintro ⟨⟨other, row'⟩, hm, hne, ha'⟩
  exact hne (rs.single other id row' row (AList.mem_lookup_iff.mpr hm) hr ha' ha)

lemma busy_iff : rs.Busy id ↔
    ∃ other, other ≠ id ∧ ∃ row, rs.get other = some row ∧ row.run.state.active := by
  constructor
  · rintro ⟨⟨other, row⟩, hm, hne, ha⟩
    exact ⟨other, hne, row, AList.mem_lookup_iff.mpr hm, ha⟩
  · rintro ⟨other, hne, row, hr, ha⟩
    exact ⟨⟨other, row⟩, AList.mem_lookup_iff.mp hr, hne, ha⟩

lemma Updated.busy (h : rs.Updated id f rs') : rs'.Busy id ↔ rs.Busy id := by
  rw [busy_iff, busy_iff]
  refine exists_congr fun other => and_congr_right fun hne => ?_
  rw [h.others other hne]

lemma Updated.not_busy
    (h : rs.Updated id f rs') (hr : rs.get id = some row) (ha : (f row).run.state.active) :
    ¬ rs.Busy id := by
  rw [← h.busy]
  exact not_busy_of_active (h.get hr) ha

def InFlight (rs : Runs) : Prop := ∃ e ∈ rs.rows.entries, e.2.run.state.active

instance (rs : Runs) : Decidable rs.InFlight :=
  inferInstanceAs (Decidable (∃ e ∈ rs.rows.entries, _))

def activeRun (rs : Runs) : Option (ℕ × RepairRun) :=
  (rs.rows.entries.find? fun e => e.2.run.state.active).map fun e => (e.1, e.2.run)

lemma activeRun_eq_none : rs.activeRun = none ↔ ¬ rs.InFlight := by
  simp [activeRun, InFlight, Sigma.forall]

lemma activeRun_some (h : rs.activeRun = some (id, run)) :
    ∃ row, rs.get id = some row ∧ row.run = run ∧ run.state.active := by
  obtain ⟨⟨id', row⟩, hf, heq⟩ := Option.map_eq_some_iff.mp h
  obtain ⟨rfl, rfl⟩ := Prod.mk.inj heq
  have ha := List.find?_some hf
  exact ⟨row, AList.mem_lookup_iff.mpr (List.mem_of_find?_eq_some hf), rfl, ha⟩

/-- A new run, under the next id of the sequence. -/
def create (rs : Runs) (row : Row) (h : ¬ rs.InFlight) : Runs where
  rows := rs.rows.insert rs.next row
  next := rs.next + 1
  fresh := by
    intro id row' hrow'
    rw [Table.lookup_insert_eq] at hrow'
    split_ifs at hrow' with heq
    · omega
    · exact Nat.lt_succ_of_lt (rs.fresh id row' hrow')
  single := by
    have hidle : ∀ id row', rs.rows.lookup id = some row' → ¬ row'.run.state.active :=
      fun id row' hrow' hactive => h ⟨⟨id, row'⟩, AList.mem_lookup_iff.mp hrow', hactive⟩
    intro a b rowA rowB ha hb hactA hactB
    rw [Table.lookup_insert_eq] at ha hb
    split_ifs at ha hb with hanext hbnext hbnext
    · exact hanext.trans hbnext.symm
    · exact absurd hactB (hidle b rowB hb)
    · exact absurd hactA (hidle a rowA ha)
    · exact absurd hactA (hidle a rowA ha)

lemma get_create : (rs.create row h).get id = if id = rs.next then some row else rs.get id :=
  Table.lookup_insert_eq rs.rows rs.next id row

end Runs

/-! ### The world -/

/-- A stored point. The id is the one of Qdrant, as the signed number that the repair makes of
it. -/
structure Point (V : Type) where
  payload : List (String × String)
  vector : V
  deriving DecidableEq

def Point.field {V : Type} (p : Point V) (key : String) : String := (p.payload.lookup key).getD ""

/-- What was done, and for which run and item. -/
inductive Effect (V : Type) where
  | copied (run : ℕ) (item : Identity) (collection : String) (source target : ℤ)
      (overwritten : Option (Point V))
  | deleted (run : ℕ) (item : Identity) (collection : String) (id : ℤ) (removed : Option (Point V))
  | retargeted (run : ℕ) (item : Identity) (id : ℤ)
  | opened (run : ℕ)
  | superseded (run : ℕ)
  | completed (run : ℕ)
  deriving DecidableEq

/-- The run for which a point or a mapping was moved. -/
def Effect.movedBy {V : Type} : Effect V → Option ℕ
  | .copied run .. | .deleted run .. | .retargeted run .. => some run
  | _ => none

/-- The collection in which a point was copied or deleted. -/
def Effect.collection {V : Type} : Effect V → Option String
  | .copied _ _ collection .. | .deleted _ _ collection .. => some collection
  | _ => none

structure World (V : Type) where
  mappings : Mappings
  nextID : ℤ
  points : Table (String × ℤ) (Point V)
  runs : Runs
  log : List (Effect V)

/-- One vector of a recompute, with what else goes into its payload. -/
structure Recomputed (V : Type) where
  entityType : EntityType
  stringID : String
  payload : List (String × String)
  vector : V

/-- What the repair is run with. `recompute` stands for the batch job: it sees the mappings, and
the events of the namespace are fixed. -/
structure Env (V : Type) where
  namespaces : List String
  generation : String → ℤ
  sha256 : String → String
  hashPayload : List (String × String) → String
  hashVectors : V → String
  recompute : String → (Identity → Option ℤ) → List (Recomputed V)

def Env.collection {V : Type} (env : Env V) (ns : String) (kind : CollectionKind) : String :=
  collectionName ns (env.generation ns) kind

/-- A recompute that does not get through: the points it wrote, the stale points it removed, and
how it ended. It ends well even where the sweep of the stale points failed. -/
structure Torn where
  upserted : String × ℤ → Bool
  swept : String × ℤ → Bool
  answer : Except Error Unit

/-- Programs of the repair. -/
abbrev RepairM (V α : Type) := Prog Error Torn (World V) α

section Operations

variable {V : Type}

/-! #### The repository -/

def getRun (id : ℕ) : RepairM V RepairRun :=
  read fun w => match w.runs.get id with
    | none => .error .runNotFound
    | some row => .ok row.run

def listItems (id : ℕ) : RepairM V (List Item) :=
  read fun w => .ok ((w.runs.get id).elim [] Row.items)

def activeRun : RepairM V (Option (ℕ × RepairRun)) :=
  read fun w => .ok w.runs.activeRun

/-- A statement on a run. `note` goes to the log. -/
def updateRun (id : ℕ) (f : Row → Row) (note : List (Effect V)) : RepairM V Unit :=
  op fun w => (w.runs.update id f).map fun runs =>
    ((), { w with runs := runs, log := note ++ w.log })

def setRunState (id : ℕ) (state : RunState) (error : String) : RepairM V Unit :=
  updateRun id (·.setState state error) (if state = .complete then [.completed id] else [])

def supersede (id : ℕ) : RepairM V Unit :=
  updateRun id (·.setState .failed "superseded by a later audit") [.superseded id]

def setItemState (id : ℕ) (x : Identity) (state : ItemState) (error : String) : RepairM V Unit :=
  updateRun id (·.setItem x state error) []

def recordSnapshots (id : ℕ) (pgRef : String) (refs : List (String × String)) : RepairM V Unit :=
  updateRun id (·.setSnapshots pgRef refs) []

def recordRebuiltNamespace (id : ℕ) (ns : String) : RepairM V Unit :=
  updateRun id (·.addRebuilt ns) []

def retargetMapping (id : ℕ) (x : Identity) (n : ℤ) : RepairM V Unit :=
  op fun w => (w.mappings.retarget x n).map fun mappings =>
    ((), { w with mappings := mappings, log := .retargeted id x n :: w.log })

def loadMappings (ns : String) : RepairM V (List ((EntityType × String) × ℤ)) :=
  read fun w => .ok ((w.mappings.rows.entries.filter fun e => e.1.ns = ns).map fun e =>
    ((e.1.entityType, e.1.stringID), e.2))

def nextNumericID : RepairM V ℤ :=
  op fun w => .ok (w.nextID, { w with nextID := w.nextID + 1 })

/-- `ORDER BY namespace, entity_type, string_id`. -/
def Identity.le (x y : Identity) : Prop :=
  x.ns < y.ns ∨ x.ns = y.ns ∧ (x.entityType.name < y.entityType.name ∨
    x.entityType = y.entityType ∧ x.stringID ≤ y.stringID)

instance : DecidableRel Identity.le := fun _ _ => inferInstanceAs (Decidable (_ ∨ _))

/-- The items in the order in which they are listed. -/
def ordered (items : List Item) : List Item :=
  items.insertionSort fun a b => a.identity.le b.identity

/-- Postgres text holds no NUL. -/
def storable (item : Item) : Bool :=
  '\x00' ∉ item.identity.ns.toList ∧ '\x00' ∉ item.identity.stringID.toList

/-- `CreateRun`: the run and its items in one transaction. -/
def createRun (sha256 : String → String) (items : List Item) : RepairM V (ℕ × RepairRun) :=
  op fun w =>
    if hactive : w.runs.InFlight then .error (.runActive "")
    else if hkeys : ((ordered items).map Item.identity).Nodup then
      if items.all storable then
        let run : RepairRun := ⟨.audited, "", [], manifestHash sha256 items, [], ""⟩
        .ok ((w.runs.next, run), { w with
          runs := w.runs.create ⟨run, ordered items, hkeys⟩ hactive
          log := .opened w.runs.next :: w.log })
      else .error (.other "insert repair item: invalid byte sequence for encoding UTF8: 0x00")
    else .error (.other "insert repair item: duplicate key value violates unique constraint")

/-! #### The points -/

/-- Numeric ids are positive. -/
def checkPointID (id : ℤ) : RepairM V Unit :=
  if id < 1 then
    .throw (.other ("invalid numeric point id " ++ toString id ++ ": ids are positive"))
  else pure ()

def readPoint (collection : String) (id : ℤ) : RepairM V (Option (Point V)) :=
  read fun w => .ok (w.points.lookup (collection, id))

def upsertPoint (run : ℕ) (x : Identity) (collection : String) (source target : ℤ) (p : Point V) :
    RepairM V Unit :=
  op fun w => .ok ((), { w with
    points := w.points.insert (collection, target) p
    log := .copied run x collection source target (w.points.lookup (collection, target)) :: w.log })

def erasePoint (run : ℕ) (x : Identity) (collection : String) (id : ℤ) : RepairM V Unit :=
  op fun w => .ok ((), { w with
    points := w.points.erase (collection, id)
    log := .deleted run x collection id (w.points.lookup (collection, id)) :: w.log })

def inventory (collection : String) : RepairM V (List (ℤ × Point V)) :=
  read fun w => .ok ((w.points.entries.filter fun e => e.1.1 = collection).map fun e =>
    (e.1.2, e.2))

/-- The points that a recompute of the namespace writes. -/
def recomputedPoints (env : Env V) (ns : String) (mappings : Identity → Option ℤ) :
    List ((String × ℤ) × Point V) :=
  (env.recompute ns mappings).filterMap fun r =>
    (mappings ⟨ns, r.entityType, r.stringID⟩).map fun id =>
      ((env.collection ns r.entityType.sparseKind, id),
        ⟨(r.entityType.idField, r.stringID) :: r.payload, r.vector⟩)

def sparseCollection (env : Env V) (ns collection : String) : Bool :=
  collection = env.collection ns .subjects ∨ collection = env.collection ns .objects

/-- The points after a recompute that wrote the points `upserted` and removed the stale points
`swept`. -/
def recomputed (env : Env V) (ns : String) (upserted swept : String × ℤ → Bool) (w : World V) :
    World V :=
  let fresh := recomputedPoints env ns w.mappings.get
  { w with
    points := ((fresh.filter fun e => upserted e.1).foldl
        (fun t e => t.insert e.1 e.2) w.points).restrict fun key =>
      ! (sparseCollection env ns key.1 && ! (fresh.map Prod.fst).contains key && swept key) }

def rebuildSparse (env : Env V) (ns : String) : RepairM V Unit :=
  composite (recomputed env ns (fun _ => true) fun _ => true) fun t w =>
    (t.answer, recomputed env ns t.upserted t.swept w)

/-! #### The fence -/

/-- The locks of `WithGlobalExclusive`, and the row that it reads. -/
def fenceCall : RepairM V Unit := read fun _ => .ok ()

def withGlobalExclusive (m : RepairM V Unit) : RepairM V Unit := do
  fenceCall
  Prog.ensuring (do fenceCall; m) fenceCall

end Operations

end Codohue.Repair
