import Codohue.EmbedTruth

/-!
The content on which an execution of `ProcessItem` gives its verdict.

`MarkEmbedded` is guarded by the content hash, while `MarkFailed` and `MarkDeadLetter` name the row
by its id alone. So a failure that was found for the content of the load is written to whatever the
row holds by then. It meets the row as it was loaded if nothing has come in between.
-/

namespace Codohue.EmbedVerdicts

open Catalog Embedder EmbedTruth Transition
open Coordinator (Outcome)

variable {V η : Type} {R : Registry V}

/-- The executions, and what has happened to each since it loaded the row. -/
structure Watch (V η : Type) where
  fleet : Fleet V η
  /-- The row that the execution has loaded. -/
  loaded : ℕ → Option (Item η)
  /-- A re-ingest has replaced the content, or another execution has marked the row embedded. -/
  disturbed : ℕ → Bool

def watch (f : Fleet V η) : Watch V η := ⟨f, fun _ => none, fun _ => false⟩

/-- The statement takes effect, whether its caller hears of it or not. -/
def takesEffect : Outcome → Bool
  | .fail _ => false
  | .ok | .lost _ => true

section Step

variable [DecidableEq η] (contentHash : String → η) (ns objectID : String)
  (dim : V → ℕ) (defaultMaxAttempts : ℤ)

/-- `MarkEmbedded` takes effect on the row. -/
def marksEmbedded (w : World V η) (item : Item η) (s : Strategy V) (o : Outcome) : Bool :=
  takesEffect o && (Catalog.markEmbedded s.id s.version item.contentHash w.row).isSome

/-- What is loaded after a step of `e` at the given store call. -/
def noteLoad (s : Watch V η) (e : ℕ) : Pc V η → ℕ → Option (Item η)
  | .load => Function.update s.loaded e s.fleet.world.row
  | _ => s.loaded

/-- Who is disturbed after a step of `e` at the given store call. -/
def noteDisturbance (s : Watch V η) (e : ℕ) (o : Outcome) : Pc V η → ℕ → Bool
  | .load => Function.update s.disturbed e false
  | .markEmbedded item strategy => fun e' =>
    s.disturbed e' || (e' ≠ e && marksEmbedded s.fleet.world item strategy o)
  | _ => s.disturbed

def note (s : Watch V η) (f : Fleet V η) : Action R → Watch V η
  | .ingest content _ _ => ⟨f, s.loaded, fun e =>
      s.disturbed e || (upsert contentHash ns objectID content s.fleet.world.row).2⟩
  | .advance e r =>
    match s.fleet.execs.lookup e with
    | some (_, pc) => ⟨f, noteLoad s e pc, noteDisturbance s e r.o pc⟩
    | none => ⟨f, s.loaded, s.disturbed⟩
  | _ => ⟨f, s.loaded, s.disturbed⟩

def watchStep (s : Watch V η) (a : Action R) : Option (Watch V η) :=
  (fleetStep contentHash ns objectID dim defaultMaxAttempts s.fleet a).map fun f =>
    note contentHash ns objectID s f a

end Step

/-! ### Verdicts -/

/-- The execution is about to write a failure. -/
def verdict : Pc V η → Bool
  | .markFailed _ | .markDeadLetter _ => true
  | _ => false

/-- The action writes the verdict of execution `e` to `row`. -/
def WritesVerdict (s : Watch V η) (a : Action R) (e : ℕ) (row : Item η) : Prop :=
  ∃ r entry pc, a = .advance e r ∧ s.fleet.execs.lookup e = some (entry, pc) ∧ verdict pc ∧
    takesEffect r.o ∧ s.fleet.world.row = some row

/-- Nothing has come between the load and the verdict of an execution. -/
def Undisturbed (s : Watch V η) (a : Action R) : Prop :=
  ∀ e row, WritesVerdict s a e row → s.disturbed e = false

/-- A verdict is written to the content that was tried, and not to an embedded row. -/
def OnOwnContent (s : Watch V η) (a : Action R) : Prop :=
  ∀ e row, WritesVerdict s a e row →
    ∃ item, s.loaded e = some item ∧ row.contentHash = item.contentHash ∧ row.state ≠ .embedded

/-! ### The row -/

/-- The row holds the content that was loaded. -/
def Kept (w : World V η) (loaded : Option (Item η)) : Prop :=
  ∃ item row, loaded = some item ∧ w.row = some row ∧ row.contentHash = item.contentHash

/-- The row is not embedded. -/
def Open (w : World V η) : Prop := ∀ row, w.row = some row → row.state ≠ .embedded

/-- What an undisturbed execution can rely on at each of its steps. From `MarkInFlight` on the row
is open. -/
def ReliesOn (w : World V η) (loaded : Option (Item η)) : Pc V η → Prop
  | .load | .done _ _ => True
  | .lease _ | .config _ | .markInFlight _ _ => Kept w loaded
  | .embed _ _ | .ensureCollections _ _ _ | .idmap _ _ _ | .upsertVector _ _ _
  | .markEmbedded _ _ | .markFailed _ | .markDeadLetter _ => Kept w loaded ∧ Open w

/-- A change of the row that keeps its content and leaves it open if it was. -/
structure Harmless (w w' : World V η) : Prop where
  kept : ∀ row, w.row = some row → ∃ row', w'.row = some row' ∧ row'.contentHash = row.contentHash
  opened : Open w → Open w'

variable {w w' : World V η} {loaded : Option (Item η)} {pc : Pc V η}

section Rows

lemma Harmless.of_row (h : w'.row = w.row) : Harmless w w' where
  kept row hr := ⟨row, h.trans hr, rfl⟩
  opened ho row hr := ho row (h ▸ hr)

lemma Harmless.mark (mark : Item η → Item η)
    (hm : ∀ item, (mark item).contentHash = item.contentHash ∧ (mark item).state ≠ .embedded) :
    Harmless w { w with row := w.row.map mark } ∧ Open { w with row := w.row.map mark } := by
  have ho : Open { w with row := w.row.map mark } := by
    intro row hr
    obtain ⟨item, -, rfl⟩ := Option.map_eq_some_iff.mp hr
    exact (hm item).2
  refine ⟨⟨fun row hr => ⟨mark row, ?_, (hm row).1⟩, fun _ => ho⟩, ho⟩
  rw [hr]
  rfl

lemma Harmless.keeps (h : Harmless w w') (hk : Kept w loaded) : Kept w' loaded := by
  obtain ⟨item, row, hl, hr, hh⟩ := hk
  obtain ⟨row', hr', hh'⟩ := h.kept row hr
  exact ⟨item, row', hl, hr', hh'.trans hh⟩

lemma Harmless.reliesOn (h : Harmless w w') (hpc : ReliesOn w loaded pc) :
    ReliesOn w' loaded pc := by
  cases pc with
  | load | done => trivial
  | lease | config | markInFlight => exact h.keeps hpc
  | embed | ensureCollections | idmap | upsertVector | markEmbedded | markFailed
  | markDeadLetter => exact ⟨h.keeps hpc.1, h.opened hpc.2⟩

end Rows

/-! ### One step of an execution -/

variable {r : Reply R}

section Steps

variable [DecidableEq η]
variable {dim : V → ℕ} {defaultMaxAttempts : ℤ} {pc' : Pc V η}

lemma step_harmless (hma : ∀ item s, pc = .markEmbedded item s → marksEmbedded w item s r.o = false)
    (h : step dim defaultMaxAttempts w r pc = some (w', pc')) : Harmless w w' := by
  cases step_took h with
  | inFlight => exact (Harmless.mark markInFlight fun _ => ⟨rfl, by simp [markInFlight]⟩).1
  | markEmbedded ho hm =>
    have he : takesEffect r.o = true := by
      cases hr : r.o with
      | fail text => exact absurd hr (ho text)
      | ok | lost => rfl
    have hno := hma _ _ rfl
    rw [marksEmbedded, he, hm] at hno
    cases hno
  | markFailed => exact (Harmless.mark (markFailed _) fun _ => ⟨rfl, by simp [markFailed]⟩).1
  | markDeadLetter =>
    exact (Harmless.mark (markDeadLetter _) fun _ => ⟨rfl, by simp [markDeadLetter]⟩).1
  | _ => exact .of_row rfl

omit [DecidableEq η] in
lemma reliesOn_of_stops (h : Stops pc) (hr : Kept w loaded ∧ Open w) : ReliesOn w loaded pc := by
  cases h with
  | failed => trivial
  | markFailed | markDeadLetter => exact hr

lemma step_reliesOn (hne : pc ≠ .load) (hpc : ReliesOn w loaded pc)
    (h : step dim defaultMaxAttempts w r pc = some (w', pc')) : ReliesOn w' loaded pc' := by
  cases step_took h with
  | load => exact absurd rfl hne
  | failed | noRow | refused | noConfig | otherSource | current | markFailed => trivial
  | stops he hs =>
    refine reliesOn_of_stops hs ?_
    cases pc <;> first | exact hpc | cases he
  | lease | config | embed | ensureCollections | idmap => exact hpc
  | inFlight hn =>
    have hm := Harmless.mark (w := w) markInFlight fun _ => ⟨rfl, by simp [markInFlight]⟩
    have hr := And.intro (hm.1.keeps hpc) hm.2
    rcases hn with rfl | hs
    · exact hr
    · exact reliesOn_of_stops hs hr
  | upsertVector _ hn =>
    rcases hn with rfl | hs
    · exact hpc
    · exact reliesOn_of_stops hs hpc
  | markEmbedded _ _ hn => rcases hn with rfl | ⟨err, rfl⟩ <;> trivial
  | markDeadLetter hn => rcases hn with ⟨rfl, -⟩ | ⟨err, rfl⟩ <;> trivial

lemma load_reliesOn (h : step dim defaultMaxAttempts w r .load = some (w', pc')) :
    w' = w ∧ ReliesOn w w.row pc' := by
  simp only [step] at h
  split at h <;> cases h
  · exact ⟨rfl, trivial⟩
  · exact ⟨rfl, trivial⟩
  · next item _ hr => exact ⟨rfl, item, item, hr, hr, rfl⟩

end Steps

/-! ### Runs -/

section Run

variable [DecidableEq η] {contentHash : String → η} {ns objectID : String} {dim : V → ℕ}
  {defaultMaxAttempts : ℤ} {s : Watch V η} {e e₀ entry : ℕ}

/-- An execution that nothing has disturbed finds the row as it relies on it. -/
def WatchInv (s : Watch V η) : Prop :=
  ∀ e entry pc, s.fleet.execs.lookup e = some (entry, pc) → s.disturbed e = false →
    ReliesOn s.fleet.world (s.loaded e) pc

lemma upsert_harmless (h : (upsert contentHash ns objectID content w.row).2 = false) :
    Harmless w { w with row := some (upsert contentHash ns objectID content w.row).1 } := by
  cases hr : w.row with
  | none =>
    rw [hr] at h
    cases h
  | some item =>
    rw [hr] at h
    simp only [upsert] at h ⊢
    split_ifs at h ⊢
    · refine ⟨fun row hi => ?_, fun ho row hi => ?_⟩
      · obtain rfl := Option.some.inj (hr.symm.trans hi)
        exact ⟨_, rfl, rfl⟩
      · cases hi
        exact ho item hr

lemma note_other (hne : e ≠ e₀) (h : noteDisturbance s e₀ o pc e = false) :
    noteLoad s e₀ pc e = s.loaded e ∧ s.disturbed e = false ∧ ∀ item strat,
      pc = .markEmbedded item strat → marksEmbedded s.fleet.world item strat o = false := by
  cases pc with
  | load =>
    rw [noteDisturbance, Function.update_of_ne hne] at h
    exact ⟨Function.update_of_ne hne _ _, h, nofun⟩
  | markEmbedded item strat =>
    have hor : s.disturbed e = false ∧ marksEmbedded s.fleet.world item strat o = false := by
      simpa [noteDisturbance, hne] using h
    refine ⟨rfl, hor.1, ?_⟩
    rintro _ _ ⟨⟩
    exact hor.2
  | _ => exact ⟨rfl, h, nofun⟩

lemma note_own (hne : pc ≠ .load) (h : noteDisturbance s e₀ o pc e₀ = false) :
    noteLoad s e₀ pc e₀ = s.loaded e₀ ∧ s.disturbed e₀ = false := by
  cases pc with
  | load => exact absurd rfl hne
  | markEmbedded item strat => exact ⟨rfl, by simpa [noteDisturbance] using h⟩
  | _ => exact ⟨rfl, h⟩

lemma watchInv_advance (hs : WatchInv s) (hex : s.fleet.execs.lookup e₀ = some (entry, pc))
    (hst : step dim defaultMaxAttempts s.fleet.world r pc = some (w', pc')) :
    WatchInv ⟨{ s.fleet with world := w', execs := s.fleet.execs.insert e₀ (entry, pc') },
      noteLoad s e₀ pc, noteDisturbance s e₀ r.o pc⟩ := by
  intro e entry' pc₁ he hf
  simp only [Table.lookup_insert_eq] at he hf ⊢
  split_ifs at he with hee
  · subst hee
    cases he
    by_cases hlo : pc = .load
    · subst hlo
      obtain ⟨rfl, hr⟩ := load_reliesOn hst
      rw [noteLoad, Function.update_self]
      exact hr
    · obtain ⟨hl, hf⟩ := note_own hlo hf
      rw [hl]
      exact step_reliesOn hlo (hs e entry pc hex hf) hst
  · obtain ⟨hl, hf, hm⟩ := note_other hee hf
    rw [hl]
    exact (step_harmless hm hst).reliesOn (hs e entry' pc₁ he hf)

lemma watchInv_step (hs : WatchInv s)
    (h : watchStep contentHash ns objectID dim defaultMaxAttempts s a = some s') : WatchInv s' := by
  obtain ⟨f, hf, rfl⟩ := Option.map_eq_some_iff.mp h
  cases a with
  | ingest content entry published =>
    cases hf
    intro e entry' pc he hfr
    obtain ⟨hfr, hsa⟩ := Bool.or_eq_false_iff.mp hfr
    exact (upsert_harmless hsa).reliesOn (hs e entry' pc he hfr)
  | publish entry =>
    cases hf
    exact hs
  | deliver e₀ entry =>
    simp only [fleetStep] at hf
    split_ifs at hf
    cases hf
    intro e entry' pc he hfr
    simp only [note, Table.lookup_insert_eq] at he hfr ⊢
    split_ifs at he with hee
    · cases he
      trivial
    · exact hs e entry' pc he hfr
  | advance e₀ r =>
    obtain ⟨⟨entry, pc⟩, hex, hf⟩ := Option.bind_eq_some_iff.mp hf
    obtain ⟨⟨w', pc'⟩, hst, rfl⟩ := Option.map_eq_some_iff.mp hf
    simp only [note, hex]
    exact watchInv_advance hs hex hst
  | finish e₀ acked =>
    obtain ⟨⟨entry, pc⟩, hex, hf⟩ := Option.bind_eq_some_iff.mp hf
    split at hf
    · cases hf
      exact fun e entry' pc he => hs e entry' pc (Table.lookup_of_erase he)
    · cases hf
  | abort e₀ =>
    cases hf
    exact fun e entry' pc he => hs e entry' pc (Table.lookup_of_erase he)
  | configure cfg =>
    cases hf
    exact fun e entry' pc he hfr => (Harmless.of_row rfl).reliesOn (hs e entry' pc he hfr)

/-- **A verdict meets the content that was tried**, in every run in which nothing comes between
the load and the verdict of an execution. -/
theorem verdict_on_own_content (cfg : Option Config) (lifecycle : Lifecycle.Store)
    (point : Option (Point V)) (as : List (Action R))
    (h : Along (watchStep contentHash ns objectID dim defaultMaxAttempts) Undisturbed
      (watch (fresh cfg lifecycle point)) as) :
    Along (watchStep contentHash ns objectID dim defaultMaxAttempts) OnOwnContent
      (watch (fresh cfg lifecycle point)) as := by
  refine h.imp_of_invariant (I := WatchInv) (fun _ _ _ => watchInv_step) ?_ ?_
  · rintro s a hs hu e row hw
    have hf := hu e row hw
    obtain ⟨r, entry, pc, -, hex, hv, -, hr⟩ := hw
    have hre : Kept s.fleet.world (s.loaded e) ∧ Open s.fleet.world := by
      have hpc := hs e entry pc hex hf
      cases pc with
      | markFailed | markDeadLetter => exact hpc
      | _ => cases hv
    obtain ⟨⟨item, row', hl, hr', hh⟩, ho⟩ := hre
    obtain rfl := Option.some.inj (hr.symm.trans hr')
    exact ⟨item, hl, hh, ho row hr⟩
  · intro e entry pc he
    simp [watch, fresh] at he

end Run

/-! ### Two runs -/

open EmbedAck (textRegistry healthy)

def textWatch : Watch String String → Action textRegistry → Option (Watch String String) :=
  watchStep id "n" "o" (fun _ => 64) 0

def tooLarge : Reply textRegistry := { healthy with embed := some .inputTooLarge }

/-- Execution `0` has found that `one` is too large, and has not written it yet. -/
def judgedRun : List (Action textRegistry) :=
  .ingest "one" 0 true :: .deliver 0 0 :: List.replicate 4 (.advance 0 healthy) ++
    [.advance 0 tooLarge]

/-- Meanwhile `two` is ingested and embedded. -/
def lateRun : List (Action textRegistry) := judgedRun ++ .ingest "two" 1 true :: processed 1 1 9

/-- The verdict is written before `two` is ingested. -/
def promptRun : List (Action textRegistry) :=
  judgedRun ++ [.advance 0 healthy, .finish 0 true] ++ .ingest "two" 1 true :: processed 1 1 9

/-- The hash that execution `0` has loaded and whether it is about to write a failure, the row,
the number of executions and the owed entries. -/
structure Glance where
  loaded : Option String
  verdict : Bool
  row : Option (State × String × Option String)
  execs : ℕ
  owed : List ℕ
  deriving DecidableEq

def glance (s : Watch String String) : Glance where
  loaded := (s.loaded 0).map Item.contentHash
  verdict := (s.fleet.execs.lookup 0).any fun x => verdict x.2
  row := s.fleet.world.row.map fun row => (row.state, row.contentHash, row.lastError)
  execs := s.fleet.execs.entries.length
  owed := s.fleet.owed

/-- **The new content is dead-lettered for the old one**: the row holds `two` as embedded when the
verdict on `one` is written to it, and afterwards nothing is in progress and the stream owes
nothing. -/
theorem late_verdict_on_new_content : (exec textWatch (watch emptyFleet) lateRun).map glance =
        some ⟨some "one", true, some (.embedded, "two", none), 1, [0]⟩ ∧
      (exec textWatch (watch emptyFleet) (lateRun ++ [.advance 0 healthy, .finish 0 true])).map
          glance =
        some ⟨some "one", false, some (.deadLetter, "two",
          some "embedstrategy: content exceeds strategy max input bytes"), 0, []⟩ ∧
      ¬ Along textWatch OnOwnContent (watch emptyFleet) (lateRun ++ [.advance 0 healthy]) := by
  have hl : (exec textWatch (watch emptyFleet) lateRun).map glance =
      some ⟨some "one", true, some (.embedded, "two", none), 1, [0]⟩ := by decide +kernel
  refine ⟨hl, by decide +kernel, fun how => ?_⟩
  obtain ⟨s, hru, hg⟩ := Option.map_eq_some_iff.mp hl
  simp only [glance, Glance.mk.injEq] at hg
  obtain ⟨hlo, hv, hr, -⟩ := hg
  obtain ⟨row, hr, hf⟩ := Option.map_eq_some_iff.mp hr
  obtain ⟨⟨entry, pc⟩, he, hpc⟩ := (Option.any_eq_true _ _).mp hv
  have hw : WritesVerdict s (.advance 0 healthy : Action textRegistry) 0 row :=
    ⟨healthy, entry, pc, rfl, he, hpc, rfl, hr⟩
  -- the row is embedded
  obtain ⟨_, -, -, ho⟩ := how.at hru 0 row hw
  exact ho (Prod.mk.inj hf).1

/-- `Undisturbed`, as far as it can be computed. -/
def undisturbed (s : Watch String String) : Action textRegistry → Bool
  | .advance e _ => (s.fleet.execs.lookup e).all fun x => !verdict x.2 || !s.disturbed e
  | _ => true

lemma undisturbed_of_eq_true (h : undisturbed s a = true) : Undisturbed s a := by
  rintro e row ⟨r, entry, pc, rfl, he, hpc, -⟩
  simpa [undisturbed, he, hpc] using h

theorem verdict_on_own_content_promptRun :
    (exec textWatch (watch emptyFleet) promptRun).map glance =
        some ⟨some "one", false, some (.embedded, "two", none), 0, []⟩ ∧
      Along textWatch OnOwnContent (watch emptyFleet) promptRun := by
  have hu : Along textWatch (fun s a => undisturbed s a = true) (watch emptyFleet) promptRun := by
    decide +kernel
  exact ⟨by decide +kernel, verdict_on_own_content _ _ _ promptRun
    (hu.mono fun _ _ => undisturbed_of_eq_true)⟩

end Codohue.EmbedVerdicts
