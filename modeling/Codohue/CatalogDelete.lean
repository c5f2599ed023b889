import Codohue.EmbedTruth

/-!
Deleting a catalog item while the embedder works on it.

`DeleteCatalogItem` removes the dense point and then the row; `ProcessItem` writes the point and
then looks whether its row is still there. Both hold a shared lease only, so the four writes
come in any order. A delete lasts in every run where no vector is written once a delete has
passed the point.
-/

namespace Codohue.CatalogDelete

open Catalog Embedder EmbedTruth Transition
open Coordinator (Outcome)

variable {V η : Type} {R : Registry V}

/-! ### The executions -/

/-- The store call that `DeleteCatalogItem` makes next. -/
inductive DeletePc where
  | lease
  | getCatalogItem
  | lookupNumericObjectID
  | deletePoint
  | deleteCatalogItem
  | done (err : Option String)
  deriving DecidableEq, Repr

structure DeleteReply where
  o : Outcome
  /-- The lease: its two locks, and the reads of the system and the namespace row. -/
  lock : Outcome
  system : Outcome
  ns : Outcome

/-- The gates of `WithWriter`. -/
def DeleteReply.leaseOpen (r : DeleteReply) (db : Lifecycle.Store) (ns : String) : Bool :=
  r.lock.error.isNone && r.system.error.isNone && db.system.state = .active &&
    r.ns.error.isNone && (db.row ns).any fun row => row.state = .active

/-- One step of `DeleteCatalogItem`; `mapped` says whether the object has a numeric id. -/
def deleteStep (ns : String) (w : World V η) (mapped : Bool) (r : DeleteReply) :
    DeletePc → Option (World V η × DeletePc)
  | .lease =>
    if r.leaseOpen w.lifecycle ns then some (w, .getCatalogItem)
    else some (w, .done (some "lease"))
  | .getCatalogItem =>
    match r.o.error, w.row with
    | some err, _ => some (w, .done (some ("get catalog item for delete: " ++ err.message)))
    | none, none => some (w, .done none)
    | none, some _ => some (w, .lookupNumericObjectID)
  | .lookupNumericObjectID =>
    match r.o.error with
    | some err => some (w, .done (some ("lookup numeric object id: " ++ err.message)))
    | none => some (w, if mapped then .deletePoint else .deleteCatalogItem)
  | .deletePoint =>
    match r.o with
    | .ok => some ({ w with point := none }, .deleteCatalogItem)
    | .fail text => some (w, .done (some ("delete qdrant point: " ++ text)))
    | .lost text =>
      some ({ w with point := none }, .done (some ("delete qdrant point: " ++ text)))
  | .deleteCatalogItem =>
    match r.o with
    | .ok => some ({ w with row := none }, .done none)
    | .fail text => some (w, .done (some ("delete catalog item: " ++ text)))
    | .lost text => some ({ w with row := none }, .done (some ("delete catalog item: " ++ text)))
  | .done _ => none

/-- The item, the executions of `ProcessItem` and of `DeleteCatalogItem` on it, and whether its
object has a numeric id. -/
structure Scene (V η : Type) where
  fleet : Fleet V η
  mapped : Bool
  deletes : Table ℕ DeletePc

/-- The item is there and nobody works on it; a point is stored under a numeric id. -/
structure Quiet (s : Scene V η) : Prop where
  row : s.fleet.world.row.isSome
  execs : s.fleet.execs = ∅
  deletes : s.deletes = ∅
  mapped : s.fleet.world.point.isSome → s.mapped

inductive Action (R : Registry V) where
  | fleet (a : EmbedTruth.Action R)
  | delete (d : ℕ)
  | advance (d : ℕ) (r : DeleteReply)
  | abort (d : ℕ)

/-- `GetOrCreateObjectID` gives the object a numeric id. -/
def maps (f : Fleet V η) : EmbedTruth.Action R → Bool
  | .advance e r =>
    match f.execs.lookup e, r.o with
    | some (_, .idmap _ _ _), .fail _ => false
    | some (_, .idmap _ _ _), _ => true
    | _, _ => false
  | _ => false

/-- A re-ingest of an object whose item is gone makes another item. -/
def recreates (f : Fleet V η) : EmbedTruth.Action R → Bool
  | .ingest _ _ _ => f.world.row.isNone
  | _ => false

section Step

variable [DecidableEq η] (contentHash : String → η) (ns objectID : String)
  (dim : V → ℕ) (defaultMaxAttempts : ℤ)

def step (s : Scene V η) : Action R → Option (Scene V η)
  | .fleet a =>
    if recreates s.fleet a then none
    else
      (fleetStep contentHash ns objectID dim defaultMaxAttempts s.fleet a).map fun f =>
        { s with fleet := f, mapped := s.mapped || maps s.fleet a }
  | .delete d =>
    if (s.deletes.lookup d).isNone then some { s with deletes := s.deletes.insert d .lease }
    else none
  | .advance d r =>
    (s.deletes.lookup d).bind fun pc =>
      (deleteStep ns s.fleet.world s.mapped r pc).map fun next =>
        { s with
          fleet := { s.fleet with world := next.1 }
          deletes := s.deletes.insert d next.2 }
  | .abort d => some { s with deletes := s.deletes.erase d }

end Step

/-- No vector is written once the row is gone, or while a delete stands between the point and the
row. -/
def Fenced (s : Scene V η) : Action R → Prop
  | .fleet (.advance e r) => ∀ entry item strategy vec,
    s.fleet.execs.lookup e = some (entry, .upsertVector item strategy vec) →
    (∀ text, r.o ≠ .fail text) →
      s.fleet.world.row.isSome ∧ ∀ d, s.deletes.lookup d ≠ some .deleteCatalogItem
  | _ => True

/-! ### The invariant -/

structure Inv (s : Scene V η) : Prop where
  mapped : s.fleet.world.point.isSome → s.mapped
  writing : ∀ e entry item strategy vec,
    s.fleet.execs.lookup e = some (entry, .upsertVector item strategy vec) → s.mapped
  gone : s.fleet.world.row = none → s.fleet.world.point = none
  past : ∀ d, s.deletes.lookup d = some .deleteCatalogItem → s.fleet.world.point = none
  deleted : ∀ d, s.deletes.lookup d = some (.done none) → s.fleet.world.row = none

variable {s : Scene V η}

lemma Quiet.inv (h : Quiet s) : Inv s where
  mapped := h.mapped
  writing e entry item strategy vec he := by
    rw [h.execs] at he
    cases he
  gone hr := by
    have hs := h.row
    rw [hr] at hs
    cases hs
  past d hd := by
    rw [h.deletes] at hd
    cases hd
  deleted d hd := by
    rw [h.deletes] at hd
    cases hd

/-- What one step of `ProcessItem` can do to the row and the point. -/
structure Touches (w : World V η) (pc : Pc V η) (o : Outcome) (w' : World V η) (pc' : Pc V η) :
    Prop where
  row : w'.row.isSome = w.row.isSome
  point : w'.point = w.point ∨ ∃ item s vec, pc = .upsertVector item s vec ∧ ∀ text, o ≠ .fail text
  writing : ∀ item s vec, pc' = .upsertVector item s vec →
    ∃ item' s' vec', pc = .idmap item' s' vec' ∧ o.error = none

variable {w : World V η} {pc : Pc V η}

namespace Touches

variable {o : Outcome}

lemma still (h : ∀ item s vec, pc' ≠ .upsertVector item s vec) : Touches w pc o w pc' :=
  ⟨rfl, .inl rfl, fun item s vec heq => absurd heq (h item s vec)⟩

lemma map (f : Item η → Item η) (h : ∀ item s vec, pc' ≠ .upsertVector item s vec) :
    Touches w pc o { w with row := w.row.map f } pc' :=
  ⟨Option.isSome_map, .inl rfl, fun item s vec heq => absurd heq (h item s vec)⟩

lemma some {row : Item η} (row' : Item η) (hr : w.row = some row)
    (h : ∀ item s vec, pc' ≠ .upsertVector item s vec) :
    Touches w pc o { w with row := some row' } pc' :=
  ⟨by rw [hr]; rfl, .inl rfl, fun item s vec heq => absurd heq (h item s vec)⟩

end Touches

section Embed

variable {dim : V → ℕ} {defaultMaxAttempts : ℤ} {w' : World V η} {r : Reply R}
  {pc' : Pc V η}

lemma stops_ne_upsert (h : Stops pc) (item : Item η) (s : Strategy V) (vec : V) :
    pc ≠ .upsertVector item s vec := by
  cases h <;> nofun

/-- **One step of `ProcessItem`** neither makes nor removes a row, and it touches the point only
where it writes the vector. -/
lemma touches_step [DecidableEq η]
    (h : Embedder.step dim defaultMaxAttempts w r pc = some (w', pc')) :
    Touches w pc r.o w' pc' := by
  cases step_took h with
  | failed | noRow | load | refused | lease | noConfig | otherSource | current | config | embed
  | ensureCollections => exact .still nofun
  | stops _ hs => exact .still (stops_ne_upsert hs)
  | inFlight hn =>
    refine .map _ fun item s vec => ?_
    rcases hn with rfl | hs
    · nofun
    · exact stops_ne_upsert hs item s vec
  | idmap ho => exact ⟨rfl, .inl rfl, fun _ _ _ _ => ⟨_, _, _, rfl, ho⟩⟩
  | upsertVector ho hn =>
    refine ⟨rfl, .inr ⟨_, _, _, rfl, ho⟩, fun item s vec heq => ?_⟩
    rcases hn with rfl | hs
    · cases heq
    · exact absurd heq (stops_ne_upsert hs item s vec)
  | markEmbedded _ hm hn =>
    obtain ⟨row, hr⟩ : ∃ row, w.row = some row := by
      cases hr : w.row with
      | none => simp [hr, Catalog.markEmbedded] at hm
      | some row => exact ⟨row, rfl⟩
    refine .some _ hr fun item s vec => ?_
    rcases hn with rfl | ⟨err, rfl⟩ <;> rintro ⟨⟩
  | markFailed => exact .map _ (by rintro _ _ _ ⟨⟩)
  | markDeadLetter hn =>
    refine .map _ fun item s vec => ?_
    rcases hn with ⟨rfl, -⟩ | ⟨err, rfl⟩ <;> rintro ⟨⟩

end Embed

/-! ### One step -/

section Step

variable {contentHash : String → η} {ns objectID : String} {dim : V → ℕ}
  {defaultMaxAttempts : ℤ}

/-- What a step of the embedder replicas can do to the item. -/
structure FleetTouches (f : Fleet V η) (a : EmbedTruth.Action R) (f' : Fleet V η) : Prop where
  row : f'.world.row.isSome = f.world.row.isSome
  point : f'.world.point = f.world.point ∨ ∃ e r entry item s vec, a = .advance e r ∧
    f.execs.lookup e = some (entry, .upsertVector item s vec) ∧ ∀ text, r.o ≠ .fail text
  writing : ∀ e entry item s vec, f'.execs.lookup e = some (entry, .upsertVector item s vec) →
    f.execs.lookup e = some (entry, .upsertVector item s vec) ∨ maps f a

variable {f' : Fleet V η} {a : EmbedTruth.Action R}

lemma fleetTouches [DecidableEq η] (hk : recreates f a = false)
    (h : fleetStep contentHash ns objectID dim defaultMaxAttempts f a = some f') :
    FleetTouches f a f' := by
  cases a with
  | ingest content entry published =>
    cases h
    obtain ⟨row, hro⟩ : ∃ row, f.world.row = some row := by
      simpa [recreates, Option.isSome_iff_exists] using hk
    exact ⟨by rw [hro]; rfl, .inl rfl, fun _ _ _ _ _ he => .inl he⟩
  | publish entry | configure cfg =>
    cases h
    exact ⟨rfl, .inl rfl, fun _ _ _ _ _ he => .inl he⟩
  | deliver e entry =>
    simp only [fleetStep] at h
    split_ifs at h
    cases h
    refine ⟨rfl, .inl rfl, fun e' entry' item s vec he => ?_⟩
    obtain ⟨-, heq⟩ | he := Table.eq_or_of_lookup_insert he
    · cases heq
    · exact .inl he
  | advance e r =>
    obtain ⟨⟨entry, pc⟩, hex, h⟩ := Option.bind_eq_some_iff.mp h
    obtain ⟨⟨w', pc'⟩, hs, rfl⟩ := Option.map_eq_some_iff.mp h
    have ht := touches_step hs
    refine ⟨ht.row, ?_, fun e' entry' item s vec he => ?_⟩
    · obtain heq | ⟨item, s, vec, rfl, ho⟩ := ht.point
      · exact .inl heq
      · exact .inr ⟨e, r, entry, item, s, vec, rfl, hex, ho⟩
    · obtain ⟨rfl, heq⟩ | he := Table.eq_or_of_lookup_insert he
      · obtain ⟨item', s', vec', rfl, ho⟩ := ht.writing item s vec (Prod.mk.inj heq).2.symm
        refine .inr ?_
        simp only [maps, hex]
        cases hr : r.o with
        | ok | lost text => rfl
        | fail text => simp [hr, Outcome.error] at ho
      · exact .inl he
  | finish e acked =>
    obtain ⟨⟨entry, pc⟩, hex, h⟩ := Option.bind_eq_some_iff.mp h
    split at h
    · cases h
      exact ⟨rfl, .inl rfl, fun _ _ _ _ _ he => .inl (Table.lookup_of_erase he)⟩
    · cases h
  | abort e =>
    cases h
    exact ⟨rfl, .inl rfl, fun _ _ _ _ _ he => .inl (Table.lookup_of_erase he)⟩

lemma inv_fleet (hs : Inv s) (hf : Fenced s (.fleet a)) (ht : FleetTouches s.fleet a f') :
    Inv { s with fleet := f', mapped := s.mapped || maps s.fleet a } := by
  have hn : f'.world.row = none ↔ s.fleet.world.row = none := by
    rw [← Option.isNone_iff_eq_none, ← Option.isNone_iff_eq_none, ← Option.not_isSome,
      ← Option.not_isSome, ht.row]
  refine ⟨?_, fun e entry item strat vec he => ?_, ?_, ?_, fun d hd => hn.mpr (hs.deleted d hd)⟩
  · intro hp
    obtain heq | ⟨e, r, entry, item, strat, vec, -, hex, -⟩ := ht.point
    · simp [hs.mapped (heq ▸ hp)]
    · simp [hs.writing e entry item strat vec hex]
  · obtain he | hm := ht.writing e entry item strat vec he
    · simp [hs.writing e entry item strat vec he]
    · simp [hm]
  · intro hr
    obtain heq | ⟨e, r, entry, item, strat, vec, rfl, hex, ho⟩ := ht.point
    · exact heq.trans (hs.gone (hn.mp hr))
    · obtain ⟨hso, -⟩ := hf entry item strat vec hex ho
      rw [hn.mp hr] at hso
      cases hso
  · intro d hd
    obtain heq | ⟨e, r, entry, item, strat, vec, rfl, hex, ho⟩ := ht.point
    · exact heq.trans (hs.past d hd)
    · exact absurd hd ((hf entry item strat vec hex ho).2 d)

namespace Inv

lemma insert (hs : Inv s) (d : ℕ) {pc : DeletePc}
    (hp : pc = .deleteCatalogItem → s.fleet.world.point = none)
    (hdo : pc = .done none → s.fleet.world.row = none) :
    Inv { s with deletes := s.deletes.insert d pc } where
  mapped := hs.mapped
  writing := hs.writing
  gone := hs.gone
  past d' hd' := by
    obtain ⟨-, heq⟩ | hd' := Table.eq_or_of_lookup_insert hd'
    · exact hp heq.symm
    · exact hs.past d' hd'
  deleted d' hd' := by
    obtain ⟨-, heq⟩ | hd' := Table.eq_or_of_lookup_insert hd'
    · exact hdo heq.symm
    · exact hs.deleted d' hd'

lemma erase (hs : Inv s) (d : ℕ) : Inv { s with deletes := s.deletes.erase d } where
  mapped := hs.mapped
  writing := hs.writing
  gone := hs.gone
  past d' hd' := hs.past d' (Table.lookup_of_erase hd')
  deleted d' hd' := hs.deleted d' (Table.lookup_of_erase hd')

lemma removePoint (hs : Inv s) :
    Inv { s with fleet := { s.fleet with world := { s.fleet.world with point := none } } } where
  mapped h := by cases h
  writing := hs.writing
  gone _ := rfl
  past _ _ := rfl
  deleted := hs.deleted

lemma removeRow (hs : Inv s) (hp : s.fleet.world.point = none) :
    Inv { s with fleet := { s.fleet with world := { s.fleet.world with row := none } } } where
  mapped := hs.mapped
  writing := hs.writing
  gone _ := hp
  past := hs.past
  deleted _ _ := rfl

end Inv

/-- A step of `DeleteCatalogItem` reaches the row only over an empty place of the point, and
succeeds only over an empty place of the row. -/
lemma inv_delete {r : DeleteReply} {pc : DeletePc} (hs : Inv s) (hd : s.deletes.lookup d = some pc)
    (h : deleteStep ns s.fleet.world s.mapped r pc = some (w', pc')) :
    Inv { s with
      fleet := { s.fleet with world := w' }
      deletes := s.deletes.insert d pc' } := by
  cases pc with
  | lease =>
    simp only [deleteStep] at h
    split_ifs at h <;> cases h
    · exact hs.insert d nofun nofun
    · exact hs.insert d nofun nofun
  | getCatalogItem =>
    simp only [deleteStep] at h
    split at h <;> cases h
    · exact hs.insert d nofun nofun
    · next hr => exact hs.insert d nofun fun _ => hr
    · exact hs.insert d nofun nofun
  | lookupNumericObjectID =>
    simp only [deleteStep] at h
    split at h <;> cases h
    · exact hs.insert d nofun nofun
    · -- an object without a numeric id has no point
      refine hs.insert d (fun hpc => ?_) fun hpc => ?_
      · split_ifs at hpc with hm
        exact Option.not_isSome_iff_eq_none.mp fun hp => hm (hs.mapped hp)
      · split_ifs at hpc
  | deletePoint =>
    simp only [deleteStep] at h
    split at h <;> cases h
    · exact hs.removePoint.insert d (fun _ => rfl) nofun
    · exact hs.insert d nofun nofun
    · exact hs.removePoint.insert d nofun nofun
  | deleteCatalogItem =>
    have hp := hs.past d hd
    simp only [deleteStep] at h
    split at h <;> cases h
    · exact (hs.removeRow hp).insert d nofun fun _ => rfl
    · exact hs.insert d nofun nofun
    · exact (hs.removeRow hp).insert d nofun nofun
  | done err => cases h

lemma inv_step [DecidableEq η] {s' : Scene V η} {a : Action R} (hs : Inv s) (hfe : Fenced s a)
    (h : step contentHash ns objectID dim defaultMaxAttempts s a = some s') : Inv s' := by
  cases a with
  | fleet a =>
    simp only [step] at h
    split_ifs at h with hr
    obtain ⟨f', hf', rfl⟩ := Option.map_eq_some_iff.mp h
    exact inv_fleet hs hfe (fleetTouches (Bool.eq_false_iff.mpr hr) hf')
  | delete d =>
    simp only [step] at h
    split_ifs at h
    cases h
    exact hs.insert d nofun nofun
  | advance d r =>
    obtain ⟨pc, hd, h⟩ := Option.bind_eq_some_iff.mp h
    obtain ⟨⟨w', pc'⟩, hst, rfl⟩ := Option.map_eq_some_iff.mp h
    exact inv_delete hs hd hst
  | abort d =>
    cases h
    exact hs.erase d

/-- **A delete that succeeded lasts**: in every run of the item's deletes and of its
`ProcessItem` executions in which no vector is written behind a delete, a delete that returned
success leaves neither the row nor the point, whatever has run since. -/
theorem delete_durable [DecidableEq η] {s u : Scene V η} {as : List (Action R)} (hs : Quiet s)
    (hfenced : Along (step contentHash ns objectID dim defaultMaxAttempts) Fenced s as)
    (hrun : exec (step contentHash ns objectID dim defaultMaxAttempts) s as = some u)
    {d : ℕ} (hd : u.deletes.lookup d = some (.done none)) :
    u.fleet.world.row = none ∧ u.fleet.world.point = none := by
  have hu : Inv u := exec_guarded (fun _ _ _ hs hf h => inv_step hs hf h) hfenced hrun hs.inv
  have hr := hu.deleted d hd
  exact ⟨hr, hu.gone hr⟩

end Step

/-! ### Runs -/

open EmbedAck (textRegistry catalogConfig healthy)

def textScene : Scene String String → Action textRegistry → Option (Scene String String) :=
  step id "n" "o" (fun _ => 64) 0

/-- The item was ingested and its entry is owed to the embedder group. -/
def ingested : Scene String String :=
  ⟨⟨{ emptyFleet.world with row := some (upsert id "n" "o" "one" none).1 }, ∅, [0]⟩, false, ∅⟩

lemma quiet_ingested : Quiet ingested :=
  ⟨rfl, rfl, rfl, nofun⟩

def succeeds : DeleteReply := ⟨.ok, .ok, .ok, .ok⟩

/-- Delete `d` runs to its end in `n` steps. -/
def deletedItem (d n : ℕ) : List (Action textRegistry) :=
  .delete d :: List.replicate n (.advance d succeeds)

/-- The item is embedded and then deleted. -/
def embeddedThenDeleted : List (Action textRegistry) :=
  (processed 0 0 9).map .fleet ++ deletedItem 0 5

/-- Execution `0` stands before its Qdrant write while the item is deleted; its entry is then
redelivered. -/
def deletedUnderEmbed : List (Action textRegistry) :=
  (.deliver 0 0 :: List.replicate 7 (.advance 0 healthy)).map .fleet ++ deletedItem 0 5 ++
    (.advance 0 healthy :: .advance 0 healthy :: .finish 0 true :: processed 1 0 1).map .fleet

/-- Whether the row is there, the point, the number of executions, the owed entries and the
first delete. -/
def view (s : Scene String String) : Bool × Option String × ℕ × List ℕ × Option DeletePc :=
  (s.fleet.world.row.isSome, s.fleet.world.point.map Point.vector,
    s.fleet.execs.entries.length, s.fleet.owed, s.deletes.lookup 0)

/-- `Fenced`, as far as it can be computed. -/
def fenced (s : Scene String String) : Action textRegistry → Bool
  | .fleet (.advance e _) =>
    match s.fleet.execs.lookup e with
    | some (_, .upsertVector _ _ _) => s.fleet.world.row.isSome && s.deletes.entries.isEmpty
    | _ => true
  | _ => true

lemma fenced_of_eq_true {s : Scene String String} {a : Action textRegistry}
    (h : fenced s a = true) : Fenced s a := by
  cases a with
  | fleet a =>
    cases a with
    | advance e r =>
      intro entry item strat vec hex _
      obtain ⟨hr, he⟩ : _ ∧ _ := by simpa [fenced, hex] using h
      refine ⟨hr, fun d hd => ?_⟩
      have hn : s.deletes = ∅ := AList.ext he
      rw [hn] at hd
      cases hd
    | _ => trivial
  | _ => trivial

theorem delete_durable_embedded : ∃ u, exec textScene ingested embeddedThenDeleted = some u ∧
      u.deletes.lookup 0 = some (.done none) ∧ u.fleet.world.row = none ∧
      u.fleet.world.point = none := by
  have hv : (exec textScene ingested embeddedThenDeleted).map view =
      some (false, none, 0, [], some (.done none)) := by decide +kernel
  obtain ⟨u, hr, hu⟩ := Option.map_eq_some_iff.mp hv
  simp only [view, Prod.mk.injEq] at hu
  have hf : Along textScene (fun s a => fenced s a = true) ingested embeddedThenDeleted := by
    decide +kernel
  have hl : u.deletes.lookup 0 = some (.done none) := hu.2.2.2.2
  exact ⟨u, hr, hl, delete_durable quiet_ingested (hf.mono fun _ _ => fenced_of_eq_true) hr hl⟩

/-- **The embedder puts the point of a deleted item back**: the delete returned success and took
the row, every execution has ended and the stream owes nothing, and the point of the item is
stored for good. -/
theorem deleted_item_keeps_point :
    Quiet ingested ∧ ∃ u, exec textScene ingested deletedUnderEmbed = some u ∧
      u.deletes.lookup 0 = some (.done none) ∧ u.fleet.execs.entries = [] ∧ u.fleet.owed = [] ∧
      u.fleet.world.row = none ∧ ∃ p, u.fleet.world.point = some p ∧ p.vector = "one" := by
  have hvi : (exec textScene ingested deletedUnderEmbed).map view =
      some (false, some "one", 0, [], some (.done none)) := by decide +kernel
  obtain ⟨u, hr, hu⟩ := Option.map_eq_some_iff.mp hvi
  simp only [view, Prod.mk.injEq] at hu
  obtain ⟨hro, hpo, he, ho, hl⟩ := hu
  obtain ⟨p, hp, hv⟩ := Option.map_eq_some_iff.mp hpo
  exact ⟨quiet_ingested, u, hr, hl, List.eq_nil_of_length_eq_zero he, ho,
    by simpa using hro, p, hp, hv⟩

end Codohue.CatalogDelete
