import Codohue.EmbedAck

/-!
What an `embedded` row says about the dense point of its object.

Any number of executions of `ProcessItem` work on one item, each at its own pace: the vector is
written to Qdrant first and the row is marked afterwards, under a guard on the content hash.
The guard protects the row, and nothing protects the point. The row tells the truth in every
run where no execution is overtaken: between its `MarkInFlight` and its write no other execution
marks the row under other content or another strategy, and between its write and its mark no
other execution writes such a vector.
-/

namespace Codohue.EmbedTruth

open Catalog Embedder Transition
open Coordinator (Outcome)

variable {V η : Type} {R : Registry V}

/-- The item, the executions of `ProcessItem` on it with the stream entry each of them works
for, and the entries that are not acknowledged. -/
structure Fleet (V η : Type) where
  world : World V η
  execs : Table ℕ (ℕ × Pc V η)
  owed : List ℕ

inductive Action (R : Registry V) where
  /-- A re-ingest; `published` says whether the entry it may need reached the stream. -/
  | ingest (content : String) (entry : ℕ) (published : Bool)
  /-- The recovery sweep publishes the row again. -/
  | publish (entry : ℕ)
  /-- An entry is read, or claimed from another replica, by execution `e`. -/
  | deliver (e entry : ℕ)
  | advance (e : ℕ) (r : Reply R)
  /-- Execution `e` returns; `acked` says whether its acknowledgement, if any, succeeds. -/
  | finish (e : ℕ) (acked : Bool)
  | abort (e : ℕ)
  /-- The operator changes the configuration of the namespace. -/
  | configure (cfg : Option Config)

/-- Before the first ingest. -/
def fresh (cfg : Option Config) (lifecycle : Lifecycle.Store) (point : Option (Point V)) :
    Fleet V η :=
  ⟨⟨none, cfg, lifecycle, point⟩, ∅, []⟩

section Step

variable [DecidableEq η] (contentHash : String → η) (ns objectID : String)
  (dim : V → ℕ) (defaultMaxAttempts : ℤ)

def fleetStep (f : Fleet V η) : Action R → Option (Fleet V η)
  | .ingest content entry published =>
    let upserted := upsert contentHash ns objectID content f.world.row
    some { f with
      world := { f.world with row := some upserted.1 }
      owed := if upserted.2 ∧ published then f.owed ++ [entry] else f.owed }
  | .publish entry => some { f with owed := f.owed ++ [entry] }
  | .deliver e entry =>
    if (f.execs.lookup e).isNone ∧ entry ∈ f.owed then
      some { f with execs := f.execs.insert e (entry, .load) }
    else none
  | .advance e r =>
    (f.execs.lookup e).bind fun x =>
      (step dim defaultMaxAttempts f.world r x.2).map fun next =>
        { f with world := next.1, execs := f.execs.insert e (x.1, next.2) }
  | .finish e acked =>
    (f.execs.lookup e).bind fun x =>
      match x.2 with
      | .done outcome _ =>
        some { f with
          execs := f.execs.erase e
          owed := if outcome.shouldAck ∧ acked then f.owed.filter (· ≠ x.1) else f.owed }
      | _ => none
  | .abort e => some { f with execs := f.execs.erase e }
  | .configure cfg => some { f with world := { f.world with config := cfg } }

end Step

/-! ### The truth of a row -/

/-- A strategy of the registry takes `content` to the vector of the point, and the point says
so. -/
def Embeds (R : Registry V) (id version content : String) (p : Option (Point V)) : Prop :=
  ∃ key s vec, R.build key = .ok s ∧ s.id = id ∧ s.version = version ∧
    s.embed content = .ok vec ∧ p = some ⟨vec, id, version⟩

/-- If the row is embedded, the dense point is the embedding of the content it holds now, under
the strategy it names. -/
def Truthful (R : Registry V) (w : World V η) : Prop :=
  ∀ item, w.row = some item → item.state = .embedded →
    Embeds R item.strategyID item.strategyVersion item.content w.point

/-! ### The order of events -/

/-- The hash of a content, and a strategy. -/
abbrev Stamp (η : Type) := η × String × String

def stamp (item : Item η) (s : Strategy V) : Stamp η := (item.contentHash, s.id, s.version)

/-- What a row says it is embedded as. -/
def rowStamp (row : Item η) : Stamp η := (row.contentHash, row.strategyID, row.strategyVersion)

/-- What execution `e` does to the row and to the point. -/
inductive Event (η : Type) where
  /-- `MarkInFlight` takes effect. -/
  | started (e : ℕ)
  | wrote (e : ℕ) (k : Stamp η)
  | marked (e : ℕ) (k : Stamp η)

def Event.exec : Event η → ℕ
  | .started e | .wrote e _ | .marked e _ => e

/-- The stamps under which others have marked the row since the execution started. -/
def marksSince (e : ℕ) (l : List (Event η)) : List (Stamp η) :=
  l.foldl (fun ks ev => match ev with
    | .started e' => if e' = e then [] else ks
    | .marked e' k => if e' = e then ks else k :: ks
    | .wrote _ _ => ks) []

/-- The stamps under which others have written the point since the execution has. -/
def writesSince (e : ℕ) (l : List (Event η)) : List (Stamp η) :=
  l.foldl (fun ks ev => match ev with
    | .wrote e' k => if e' = e then [] else k :: ks
    | .started _ | .marked _ _ => ks) []

/-- The execution has not been overtaken under another stamp. -/
def Fits (before : List (Event η)) : Event η → Prop
  | .started _ => True
  | .wrote e k => ∀ k' ∈ marksSince e before, k' = k
  | .marked e k => ∀ k' ∈ writesSince e before, k' = k

def InOrder : List (Event η) → List (Event η) → Prop
  | _, [] => True
  | before, ev :: l => Fits before ev ∧ InOrder (before ++ [ev]) l

section Order

instance [DecidableEq η] (before : List (Event η)) : (ev : Event η) → Decidable (Fits before ev)
  | .started _ => .isTrue trivial
  | .wrote e k => inferInstanceAs (Decidable (∀ k' ∈ marksSince e before, k' = k))
  | .marked e k => inferInstanceAs (Decidable (∀ k' ∈ writesSince e before, k' = k))

instance decidableInOrder [DecidableEq η] :
    (before l : List (Event η)) → Decidable (InOrder before l)
  | _, [] => .isTrue trivial
  | before, ev :: l =>
    have := decidableInOrder (before ++ [ev]) l
    inferInstanceAs (Decidable (Fits before ev ∧ InOrder (before ++ [ev]) l))

variable {before l : List (Event η)} {k : Stamp η} {e : ℕ} {o : Option (Event η)}

lemma inOrder_append_toList (h : InOrder before (l ++ o.toList)) :
    InOrder before l ∧ ∀ ev ∈ o, Fits (before ++ l) ev := by
  induction l generalizing before with
  | nil =>
    cases o with
    | none => exact ⟨trivial, nofun⟩
    | some ev =>
      refine ⟨trivial, fun ev' hev => ?_⟩
      obtain rfl := Option.some.inj hev
      simpa using h.1
  | cons ev l ih =>
    obtain ⟨hl, ho⟩ := ih h.2
    exact ⟨⟨h.1, hl⟩, by simpa using ho⟩

/-- What others have done stays on record while the execution itself does nothing. -/
lemma since_append (ho : ∀ ev ∈ o, ev.exec ≠ e) :
    (k ∈ marksSince e l → k ∈ marksSince e (l ++ o.toList)) ∧
      (k ∈ writesSince e l → k ∈ writesSince e (l ++ o.toList)) := by
  cases o with
  | none => simp
  | some ev =>
    have hne := ho ev rfl
    cases ev <;> simp only [Event.exec] at hne <;>
      simp +contextual [marksSince, writesSince, List.foldl_append, hne]

end Order

/-- What a step of execution `e` is seen to do. -/
def eventOf [DecidableEq η] (w : World V η) (r : Reply R) (e : ℕ) (pc : Pc V η) :
    Option (Event η) :=
  match r.o with
  | .fail _ => none
  | _ =>
    match pc with
    | .markInFlight _ _ => some (.started e)
    | .upsertVector item s _ => some (.wrote e (stamp item s))
    | .markEmbedded item s =>
      (Catalog.markEmbedded s.id s.version item.contentHash w.row).map fun _ =>
        .marked e (stamp item s)
    | _ => none

def event [DecidableEq η] (f : Fleet V η) : Action R → Option (Event η)
  | .advance e r => (f.execs.lookup e).bind fun x => eventOf f.world r e x.2
  | _ => none

/-! ### The invariant -/

section Invariant

variable (contentHash : String → η)

def Hashed (item : Item η) : Prop := item.contentHash = contentHash item.content

/-- What an execution carries: a row as it was loaded, and a vector of its content. -/
def Carries (R : Registry V) : Pc V η → Prop
  | .load | .markFailed _ | .markDeadLetter _ | .done _ _ => True
  | .lease item | .config item | .markInFlight item _ | .embed item _ => Hashed contentHash item
  | .ensureCollections item s vec | .idmap item s vec | .upsertVector item s vec =>
    Hashed contentHash item ∧ (∃ key, R.build key = .ok s) ∧ s.embed item.content = .ok vec
  | .markEmbedded item s => Hashed contentHash item ∧ ∃ key, R.build key = .ok s

/-- The point is the embedding of a content with this hash. -/
def Written (R : Registry V) (k : Stamp η) (p : Option (Point V)) : Prop :=
  ∃ content, contentHash content = k.1 ∧ Embeds R k.2.1 k.2.2 content p

structure FleetInv (R : Registry V) (f : Fleet V η) (l : List (Event η)) : Prop where
  hashed : ∀ item, f.world.row = some item → Hashed contentHash item
  carries : ∀ e entry pc, f.execs.lookup e = some (entry, pc) → Carries contentHash R pc
  truthful : Truthful R f.world
  /-- A row that was in flight has been marked by another execution. -/
  marks : ∀ e entry pc, f.execs.lookup e = some (entry, pc) → embedding pc →
    ∀ row, f.world.row = some row → row.state = .embedded → rowStamp row ∈ marksSince e l
  /-- The point is the last vector that was written. -/
  writes : ∀ e entry item s, f.execs.lookup e = some (entry, .markEmbedded item s) →
    ∃ k, Written contentHash R k f.world.point ∧ (k = stamp item s ∨ k ∈ writesSince e l)

/-- What one step of an execution must leave. -/
structure Sound (R : Registry V) (w : World V η) (pc : Pc V η) : Prop where
  hashed : ∀ item, w.row = some item → Hashed contentHash item
  carries : Carries contentHash R pc
  truthful : Truthful R w

end Invariant

section Steps

variable {contentHash : String → η} {w : World V η} {pc : Pc V η}

lemma Sound.mark (mark : Item η → Item η) (hk : ∀ item, (mark item).content = item.content ∧
      (mark item).contentHash = item.contentHash ∧ (mark item).state ≠ .embedded)
    (hh : ∀ item, w.row = some item → Hashed contentHash item)
    (hc : Carries contentHash R pc) :
    Sound contentHash R { w with row := w.row.map mark } pc where
  hashed := by
    intro item hi
    obtain ⟨item', hr, rfl⟩ := Option.map_eq_some_iff.mp hi
    obtain ⟨hco, hha, -⟩ := hk item'
    unfold Hashed
    rw [hco, hha]
    exact hh item' hr
  carries := hc
  truthful := by
    intro item hi hs
    obtain ⟨item', -, rfl⟩ := Option.map_eq_some_iff.mp hi
    exact absurd hs (hk item').2.2

lemma carries_of_stops (h : Stops pc) : Carries contentHash R pc := by
  cases h <;> trivial

variable {item : Item η}

/-- The vector is written over a row that is not embedded, or over one that says the same. -/
lemma written_truthful (hw : Sound contentHash R w pc) (hin : Function.Injective contentHash)
    (hc : Carries contentHash R (.upsertVector item s vec))
    (ho : ∀ row, w.row = some row → row.state = .embedded → rowStamp row = stamp item s) :
    Truthful R { w with point := some ⟨vec, s.id, s.version⟩ } := by
  obtain ⟨hi, ⟨key, hk⟩, hve⟩ := hc
  intro row hr hs
  obtain ⟨hh, hid, hv⟩ : row.contentHash = item.contentHash ∧ row.strategyID = s.id ∧
      row.strategyVersion = s.version := by simpa [rowStamp, stamp] using ho row hr hs
  have hco : row.content = item.content :=
    hin ((hw.hashed row hr).symm.trans (hh.trans hi))
  refine ⟨key, s, vec, hk, hid.symm, hv.symm, ?_, ?_⟩
  · rw [hco]
    exact hve
  · rw [hid, hv]

/-- The row is marked embedded while the stored point is the vector of the content it holds. -/
lemma markEmbedded_truthful [DecidableEq η] (hw : Sound contentHash R w pc)
    (hin : Function.Injective contentHash) (ho : Written contentHash R (stamp item s) w.point)
    (hm : Catalog.markEmbedded s.id s.version item.contentHash w.row = some marked) :
    Hashed contentHash marked ∧ Truthful R { w with row := some marked } := by
  cases hr : w.row with
  | none => simp [hr, Catalog.markEmbedded] at hm
  | some row =>
    simp only [hr, Catalog.markEmbedded] at hm
    split_ifs at hm with hh
    cases hm
    have hrh := hw.hashed row hr
    obtain ⟨content, hc, he⟩ := ho
    obtain rfl : content = row.content := hin (hc.trans (hh.symm.trans hrh))
    refine ⟨hrh, ?_⟩
    intro marked hma _
    cases hma
    exact he

variable [DecidableEq η] {dim : V → ℕ} {defaultMaxAttempts : ℤ} {r : Reply R}

lemma eventOf_upsertVector {vec : V} (ho : ∀ text, r.o ≠ .fail text) :
    eventOf w r e (.upsertVector item s vec) = some (.wrote e (stamp item s)) := by
  cases hr : r.o with
  | fail text => exact absurd hr (ho text)
  | ok | lost text => simp only [eventOf, hr]

lemma eventOf_markEmbedded (ho : ∀ text, r.o ≠ .fail text)
    (hm : Catalog.markEmbedded s.id s.version item.contentHash w.row = some marked) :
    eventOf w r e (.markEmbedded item s) = some (.marked e (stamp item s)) := by
  cases hr : r.o with
  | fail text => exact absurd hr (ho text)
  | ok | lost text => simp only [eventOf, hr, hm, Option.map_some]

lemma rowStamp_marked
    (hm : Catalog.markEmbedded s.id s.version item.contentHash w.row = some marked) :
    rowStamp marked = stamp item s := by
  cases hr : w.row with
  | none => simp [hr, Catalog.markEmbedded] at hm
  | some row =>
    simp only [hr, Catalog.markEmbedded] at hm
    split_ifs at hm with hh
    cases hm
    simp [rowStamp, stamp, hh]

lemma exec_eventOf (h : eventOf w r e pc = some ev) : ev.exec = e := by
  unfold eventOf at h
  split at h
  · cases h
  · split at h
    · cases h
      rfl
    · cases h
      rfl
    · obtain ⟨_, -, rfl⟩ := Option.map_eq_some_iff.mp h
      rfl
    · cases h

/-- **One step of one execution**, taken in order, keeps the row truthful. -/
theorem step_sound (hw : Sound contentHash R w pc) (hi : Function.Injective contentHash)
    (hu : ∀ item s vec, pc = .upsertVector item s vec →
      eventOf w r e pc = some (.wrote e (stamp item s)) →
      ∀ row, w.row = some row → row.state = .embedded → rowStamp row = stamp item s)
    (hma : ∀ item s, pc = .markEmbedded item s →
      eventOf w r e pc = some (.marked e (stamp item s)) →
      Written contentHash R (stamp item s) w.point)
    (h : step dim defaultMaxAttempts w r pc = some (w', pc')) : Sound contentHash R w' pc' := by
  have hca := hw.carries
  -- a step that writes nothing
  have hr : ∀ {pc' : Pc V η}, Carries contentHash R pc' → Sound contentHash R w pc' :=
    fun hc => ⟨hw.hashed, hc, hw.truthful⟩
  cases step_took h with
  | failed | noRow | refused | noConfig | otherSource | current => exact hr trivial
  | stops _ hs => exact hr (carries_of_stops hs)
  | load hro => exact hr (hw.hashed _ hro)
  | lease | config | ensureCollections | idmap => exact hr hca
  | inFlight hn =>
    refine .mark markInFlight (fun _ => ⟨rfl, rfl, by simp [markInFlight]⟩) hw.hashed ?_
    rcases hn with rfl | hs
    · exact hca
    · exact carries_of_stops hs
  | embed hb hv => exact hr ⟨hca, ⟨_, hb⟩, hv⟩
  | upsertVector ho hn =>
    refine ⟨hw.hashed, ?_, written_truthful hw hi hca (hu _ _ _ rfl (eventOf_upsertVector ho))⟩
    rcases hn with rfl | hs
    · exact ⟨hca.1, hca.2.1⟩
    · exact carries_of_stops hs
  | markEmbedded ho hm hn =>
    obtain ⟨hh, ht⟩ := markEmbedded_truthful hw hi (hma _ _ rfl (eventOf_markEmbedded ho hm)) hm
    refine ⟨fun item' hite' => Option.some.inj hite' ▸ hh, ?_, ht⟩
    rcases hn with rfl | ⟨err, rfl⟩ <;> trivial
  | markFailed =>
    exact .mark (markFailed _) (fun _ => ⟨rfl, rfl, by simp [markFailed]⟩) hw.hashed trivial
  | markDeadLetter hn =>
    refine .mark (markDeadLetter _) (fun _ => ⟨rfl, rfl, by simp [markDeadLetter]⟩) hw.hashed ?_
    rcases hn with ⟨rfl, -⟩ | ⟨err, rfl⟩ <;> trivial

/-- What a step of execution `e` means for all of them. -/
structure Shift (contentHash : String → η) (R : Registry V) (e : ℕ) (w : World V η) (pc : Pc V η)
    (ev : Option (Event η)) (w' : World V η) (pc' : Pc V η) : Prop where
  row : ∀ row, w'.row = some row → row.state = .embedded →
    w.row = some row ∨ ev = some (.marked e (rowStamp row))
  point : w'.point = w.point ∨ ∃ k, ev = some (.wrote e k) ∧ Written contentHash R k w'.point
  embedding : embedding pc' → (embedding pc ∧ w'.row = w.row ∧ ev = none) ∨
    ∀ row, w'.row = some row → row.state ≠ .embedded
  writes : ∀ item s, pc' = .markEmbedded item s → Written contentHash R (stamp item s) w'.point

lemma step_shift (hca : Carries contentHash R pc)
    (h : step dim defaultMaxAttempts w r pc = some (w', pc')) :
    Shift contentHash R e w pc (eventOf w r e pc) w' pc' := by
  have hne : ∀ (mark : Item η → Item η) row, (∀ item, (mark item).state ≠ .embedded) →
      w.row.map mark = some row → row.state ≠ .embedded := by
    intro mark row hm hr
    obtain ⟨item, -, rfl⟩ := Option.map_eq_some_iff.mp hr
    exact hm item
  -- a step that neither writes nor goes on to write
  have hst : ∀ {ev} {pc' : Pc V η}, embedding pc' = false → (∀ item s, pc' ≠ .markEmbedded item s) →
      Shift contentHash R e w pc ev w pc' := fun hf hm =>
    ⟨fun _ hr _ => .inl hr, .inl rfl, fun ht => (Bool.false_ne_true (hf.symm.trans ht)).elim,
      fun item s he => absurd he (hm item s)⟩
  have hmk : ∀ {ev} {pc' : Pc V η} (mark : Item η → Item η),
      (∀ item, (mark item).state ≠ .embedded) → (∀ item s, pc' ≠ .markEmbedded item s) →
      Shift contentHash R e w pc ev { w with row := w.row.map mark } pc' := fun mark hk hm =>
    ⟨fun row hr hs => absurd hs (hne mark row hk hr), .inl rfl, fun _ => .inr fun row =>
      hne mark row hk, fun item s he => absurd he (hm item s)⟩
  have hgo : ∀ {pc' : Pc V η}, embedding pc → eventOf w r e pc = none →
      (∀ item s, pc' ≠ .markEmbedded item s) →
      Shift contentHash R e w pc (eventOf w r e pc) w pc' := fun hp hev hm =>
    ⟨fun _ hr _ => .inl hr, .inl rfl, fun _ => .inl ⟨hp, rfl, hev⟩,
      fun item s he => absurd he (hm item s)⟩
  cases step_took h with
  | failed | noRow | refused | noConfig | otherSource | current | load | lease | config =>
    exact hst rfl nofun
  | stops _ hs => cases hs <;> exact hst rfl nofun
  | inFlight hn =>
    refine hmk markInFlight (fun _ => by simp [markInFlight]) ?_
    rcases hn with rfl | hs
    · exact nofun
    · cases hs <;> exact nofun
  | embed | ensureCollections | idmap => exact hgo rfl (by unfold eventOf; split <;> rfl) nofun
  | upsertVector ho hn =>
    obtain ⟨hi, ⟨key, hk⟩, hve⟩ := hca
    have hw : Written contentHash R (stamp _ _) (some (⟨_, _, _⟩ : Point V)) :=
      ⟨_, hi.symm, key, _, _, hk, rfl, rfl, hve, rfl⟩
    refine ⟨fun _ hr _ => .inl hr, .inr ⟨_, eventOf_upsertVector ho, hw⟩, fun ht => ?_,
      fun item' s' he => ?_⟩
    · rcases hn with rfl | hs
      · cases ht
      · cases hs <;> cases ht
    · rcases hn with rfl | hs
      · cases he
        exact hw
      · cases hs <;> cases he
  | markEmbedded ho hm hn =>
    refine ⟨fun row hr hs => .inr ?_, .inl rfl, fun ht => ?_, fun item s he => ?_⟩
    · rw [eventOf_markEmbedded ho hm]
      cases hr
      rw [rowStamp_marked hm]
    · rcases hn with rfl | ⟨err, rfl⟩ <;> cases ht
    · rcases hn with rfl | ⟨err, rfl⟩ <;> cases he
  | markFailed => exact hmk (markFailed _) (fun _ => by simp [markFailed]) nofun
  | markDeadLetter hn =>
    refine hmk (markDeadLetter _) (fun _ => by simp [markDeadLetter]) ?_
    rcases hn with ⟨rfl, -⟩ | ⟨err, rfl⟩ <;> exact nofun

end Steps

section Run

variable [DecidableEq η] {contentHash : String → η} {ns objectID : String} {dim : V → ℕ}
  {defaultMaxAttempts : ℤ} {f f' : Fleet V η}

omit [DecidableEq η] in
lemma FleetInv.erase (e : ℕ) (hf : FleetInv contentHash R f l) (owed : List ℕ) :
    FleetInv contentHash R ⟨f.world, f.execs.erase e, owed⟩ l where
  hashed := hf.hashed
  carries e' entry pc he' := hf.carries e' entry pc (Table.lookup_of_erase he')
  truthful := hf.truthful
  marks e' entry pc he' := hf.marks e' entry pc (Table.lookup_of_erase he')
  writes e' entry item s he' := hf.writes e' entry item s (Table.lookup_of_erase he')

lemma upsert_spec (ns objectID content : String) (hin : Function.Injective contentHash)
    (hf : FleetInv contentHash R f l) :
    let row := (upsert contentHash ns objectID content f.world.row).1
    Hashed contentHash row ∧ Truthful R { f.world with row := some row } ∧
      (row.state = .embedded → ∃ old, f.world.row = some old ∧ old.state = .embedded ∧
        rowStamp old = rowStamp row) := by
  cases hr : f.world.row with
  | none =>
    refine ⟨rfl, fun item hi hs => ?_, fun hs => ?_⟩
    · cases hi
      simp [upsert] at hs
    · simp [upsert] at hs
  | some old =>
    simp only [upsert]
    split_ifs with hh
    · have hc : old.content = content := hin ((hf.hashed old hr).symm.trans hh)
      refine ⟨hh, fun item hi hs => ?_, fun hs => ⟨old, rfl, hs, rfl⟩⟩
      cases hi
      have ht := hf.truthful old hr hs
      rw [hc] at ht
      exact ht
    · refine ⟨rfl, fun item hi hs => ?_, fun hs => ?_⟩
      · cases hi
        simp at hs
      · simp at hs

/-- A step that is taken in order keeps all of it. -/
lemma FleetInv.advance {e entry : ℕ} {pc : Pc V η} {r : Reply R}
    (hi : Function.Injective contentHash) (hf : FleetInv contentHash R f l)
    (he : f.execs.lookup e = some (entry, pc))
    (hor : ∀ ev ∈ eventOf f.world r e pc, Fits l ev)
    (hs : step dim defaultMaxAttempts f.world r pc = some (w', pc')) :
    FleetInv contentHash R ⟨w', f.execs.insert e (entry, pc'), f.owed⟩
      (l ++ (eventOf f.world r e pc).toList) := by
  have hw : Sound contentHash R f.world pc :=
    ⟨hf.hashed, hf.carries e entry pc he, hf.truthful⟩
  have hw' : Sound contentHash R w' pc' := by
    refine step_sound (e := e) hw hi (fun item s vec hpc hev row hr hst => ?_)
      (fun item s hpc hev => ?_) hs
    · subst hpc
      exact hor _ hev _ (hf.marks e entry _ he rfl row hr hst)
    · subst hpc
      obtain ⟨k, hk, hin⟩ := hf.writes e entry item s he
      rcases hin with rfl | hin
      · exact hk
      · exact hor _ hev k hin ▸ hk
  have hsh := step_shift (e := e) hw.carries hs
  have hot : ∀ {e'}, e' ≠ e → ∀ ev ∈ eventOf f.world r e pc, ev.exec ≠ e' :=
    fun hne ev hev => exec_eventOf hev ▸ hne.symm
  refine ⟨hw'.hashed, fun e' entry' pc₁ he' => ?_, hw'.truthful,
    fun e' entry' pc₁ he' hem row hr hst => ?_, fun e' entry' item s he' => ?_⟩
  · by_cases hne : e' = e
    · subst hne
      cases (AList.lookup_insert f.execs).symm.trans he'
      exact hw'.carries
    · exact hf.carries e' entry' pc₁ ((AList.lookup_insert_ne hne).symm.trans he')
  · by_cases hne : e' = e
    · subst hne
      cases (AList.lookup_insert f.execs).symm.trans he'
      rcases hsh.embedding hem with ⟨hp, hro, hev⟩ | hno
      · rw [hev, Option.toList_none, List.append_nil]
        exact hf.marks e' entry pc he hp row (hro ▸ hr) hst
      · exact absurd hst (hno row hr)
    · have he₁ := (AList.lookup_insert_ne hne).symm.trans he'
      rcases hsh.row row hr hst with hro | hev
      · exact (since_append (hot hne)).1 (hf.marks e' entry' pc₁ he₁ hem row hro hst)
      · rw [hev]
        simp [marksSince, List.foldl_append, Ne.symm hne]
  · by_cases hne : e' = e
    · subst hne
      cases (AList.lookup_insert f.execs).symm.trans he'
      exact ⟨_, hsh.writes item s rfl, .inl rfl⟩
    · have he₁ := (AList.lookup_insert_ne hne).symm.trans he'
      rcases hsh.point with hpo | ⟨k, hev, hk⟩
      · obtain ⟨k, hk, hin⟩ := hf.writes e' entry' item s he₁
        exact ⟨k, hpo.symm ▸ hk, hin.imp_right (since_append (hot hne)).2⟩
      · refine ⟨k, hk, .inr ?_⟩
        rw [hev]
        simp [writesSince, List.foldl_append, Ne.symm hne]

lemma fleetInv_step {a : Action R} (hi : Function.Injective contentHash)
    (hf : FleetInv contentHash R f l) (hor : ∀ ev ∈ event f a, Fits l ev)
    (h : fleetStep contentHash ns objectID dim defaultMaxAttempts f a = some f') :
    FleetInv contentHash R f' (l ++ (event f a).toList) := by
  have hl : l ++ [] = l := List.append_nil l
  cases a with
  | ingest content entry published =>
    cases h
    obtain ⟨hh, ht, hst⟩ := upsert_spec ns objectID content hi hf
    refine hl.symm ▸ ⟨fun item hite => Option.some.inj hite ▸ hh, hf.carries, ht,
      fun e entry pc he hem row hr hs => ?_, hf.writes⟩
    obtain rfl := Option.some.inj hr
    obtain ⟨old, hold, hso, heq⟩ := hst hs
    exact heq ▸ hf.marks e entry pc he hem old hold hso
  | publish entry | configure cfg =>
    cases h
    exact hl.symm ▸ ⟨hf.hashed, hf.carries, hf.truthful, hf.marks, hf.writes⟩
  | deliver e entry =>
    simp only [fleetStep] at h
    split_ifs at h
    cases h
    refine hl.symm ▸ ⟨hf.hashed, fun e' entry' pc he' => ?_, hf.truthful,
      fun e' entry' pc he' hem => ?_, fun e' entry' item s he' => ?_⟩ <;>
      obtain ⟨-, heq⟩ | he' := Table.eq_or_of_lookup_insert he'
    · cases heq
      trivial
    · exact hf.carries e' entry' pc he'
    · cases heq
      cases hem
    · exact hf.marks e' entry' pc he' hem
    · cases heq
    · exact hf.writes e' entry' item s he'
  | advance e r =>
    obtain ⟨⟨entry, pc⟩, he, h⟩ := Option.bind_eq_some_iff.mp h
    obtain ⟨⟨w', pc'⟩, hs, rfl⟩ := Option.map_eq_some_iff.mp h
    have hev : event f (.advance e r) = eventOf f.world r e pc := by
      rw [event, he]
      rfl
    rw [hev] at hor ⊢
    exact hf.advance hi he hor hs
  | finish e acked =>
    obtain ⟨⟨entry, pc⟩, he, h⟩ := Option.bind_eq_some_iff.mp h
    split at h
    · cases h
      exact hl.symm ▸ hf.erase e _
    · cases h
  | abort e =>
    cases h
    exact hl.symm ▸ hf.erase e _

/-- **An embedded row tells the truth about its vector**, in every state of every run in which no
execution is overtaken under another stamp. -/
theorem embedded_truthful (hinj : Function.Injective contentHash) (cfg : Option Config)
    (lifecycle : Lifecycle.Store) (point : Option (Point V)) (as : List (Action R))
    (hrun : exec (fleetStep contentHash ns objectID dim defaultMaxAttempts)
      (fresh cfg lifecycle point) as = some f)
    (horder : InOrder [] (observed (fleetStep contentHash ns objectID dim defaultMaxAttempts) event
      (fresh cfg lifecycle point) as)) : Truthful R f.world := by
  refine (observed_invariant (I := fun f l => InOrder [] l → FleetInv contentHash R f l)
    (fun f l a f' hf h ho => ?_) hrun (fun _ => ?_) horder).truthful
  · obtain ⟨hl, hev⟩ := inOrder_append_toList ho
    exact fleetInv_step hinj (hf hl) hev h
  · exact ⟨by simp [fresh], by simp [fresh], by simp [fresh, Truthful], by simp [fresh],
      by simp [fresh]⟩

end Run

/-! ### Runs -/

open EmbedAck (textRegistry catalogConfig healthy)

def textFleet : Fleet String String → Action textRegistry → Option (Fleet String String) :=
  fleetStep id "n" "o" (fun _ => 64) 0

def emptyFleet : Fleet String String :=
  fresh (some catalogConfig) (Fencing.emptyStore.setRow "n" ⟨1, .active, true, none⟩) none

/-- Execution `e` works on `entry` to its end. -/
def processed (e entry n : ℕ) : List (Action textRegistry) :=
  .deliver e entry :: List.replicate n (.advance e healthy) ++ [.finish e true]

/-- Two contents, one after the other. -/
def serialRun : List (Action textRegistry) :=
  .ingest "one" 0 true :: processed 0 0 9 ++ .ingest "two" 1 true :: processed 1 1 9

/-- Execution `0` is overtaken before its Qdrant write; its redelivery is skipped. -/
def overtakenRun : List (Action textRegistry) :=
  .ingest "one" 0 true :: .deliver 0 0 :: List.replicate 7 (.advance 0 healthy) ++
    .ingest "two" 1 true :: processed 1 1 9 ++
    [.advance 0 healthy, .advance 0 healthy, .finish 0 true] ++ processed 2 0 3

/-- The row, the point, the number of executions and the owed entries. -/
def view (f : Fleet String String) :
    Option (State × String × String) × Option String × ℕ × List ℕ :=
  (f.world.row.map fun item => (item.state, item.content, item.strategyID),
    f.world.point.map Point.vector, f.execs.entries.length, f.owed)

theorem embedded_truthful_serialRun : ∃ f, exec textFleet emptyFleet serialRun = some f ∧
      view f = (some (.embedded, "two", "internal-hashing-ngrams"), some "two", 0, []) ∧
      Truthful textRegistry f.world := by
  have hv : (exec textFleet emptyFleet serialRun).map view =
      some (some (.embedded, "two", "internal-hashing-ngrams"), some "two", 0, []) := by
    decide +kernel
  obtain ⟨f, hr, hf⟩ := Option.map_eq_some_iff.mp hv
  have ho : InOrder [] (observed textFleet event emptyFleet serialRun) := by decide +kernel
  exact ⟨f, hr, hf, embedded_truthful Function.injective_id _ _ _ serialRun hr ho⟩

/-- **A slow replica leaves a row that does not tell the truth**: nothing is in progress, the
stream owes nothing, the row holds `two` as embedded, and the point holds the vector of `one`. -/
theorem overtaken_not_truthful :
    ∃ f, exec textFleet emptyFleet overtakenRun = some f ∧ f.execs.entries = [] ∧ f.owed = [] ∧
      (∃ item, f.world.row = some item ∧ item.state = .embedded ∧ item.content = "two") ∧
      ¬ Truthful textRegistry f.world := by
  have hvi : (exec textFleet emptyFleet overtakenRun).map view =
      some (some (.embedded, "two", "internal-hashing-ngrams"), some "one", 0, []) := by
    decide +kernel
  obtain ⟨f, hr, hf⟩ := Option.map_eq_some_iff.mp hvi
  simp only [view, Prod.mk.injEq] at hf
  obtain ⟨hro, hpo, he, ho⟩ := hf
  obtain ⟨item, hi, hfi⟩ := Option.map_eq_some_iff.mp hro
  obtain ⟨hs, hc, -⟩ : item.state = .embedded ∧ item.content = "two" ∧ _ := by
    simpa using hfi
  refine ⟨f, hr, List.eq_nil_of_length_eq_zero he, ho, ⟨item, hi, hs, hc⟩, fun ht => ?_⟩
  obtain ⟨key, s, vec, hb, -, -, hv, hp⟩ := ht item hi hs
  -- the only strategy takes a text to itself
  obtain rfl : "two" = vec := by
    simp only [textRegistry] at hb
    split_ifs at hb
    cases hb
    rw [hc] at hv
    exact Except.ok.inj hv
  rw [hp] at hpo
  simp at hpo

end Codohue.EmbedTruth
