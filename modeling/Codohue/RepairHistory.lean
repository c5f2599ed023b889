import Codohue.RepairMoves
import Codohue.RepairVerify
import Codohue.Transition

/-!
Histories of calls, and which run owns the id space.

A run that is being applied or verified keeps an audit from opening another one. A failure takes
it out of the way: the next audit opens a new run over the half-moved points, and nothing but the
index on the runs in flight keeps the old run from being applied once more.
-/

namespace Codohue.Repair

open Script Prog Transition

variable {V : Type} {env : Env V} {run : ℕ} {w : World V}

/-! ### Calls -/

inductive Call where
  | audit
  | prepareSnapshots (run : ℕ) (pgRef : String) (refs : List (String × String))
  | apply (run : ℕ)
  | resume (run : ℕ)
  | verify (run : ℕ)

/-- A call, with the replies that the stores give to it. -/
structure Event where
  call : Call
  script : List (Reply Error Torn)

/-- What a call leaves, however it ends. -/
def step (env : Env V) (w : World V) (e : Event) : Option (World V) :=
  some (match e.call with
    | .audit => ((audit env).run e.script w).world
    | .prepareSnapshots run pgRef refs => ((prepareSnapshots run pgRef refs).run e.script w).world
    | .apply run => ((apply env run).run e.script w).world
    | .resume run => ((resume env run).run e.script w).world
    | .verify run => ((verify env run).run e.script w).world)

/-! ### Ownership -/

/-- The run copied, deleted or retargeted something. -/
def HasMoved (log : List (Effect V)) (run : ℕ) : Prop := ∃ e ∈ log, e.movedBy = some run

/-- The run was superseded, or a later run was opened. -/
def Abandoned (log : List (Effect V)) (run : ℕ) : Prop :=
  .superseded run ∈ log ∨ ∃ later, run < later ∧ .opened later ∈ log

/-- At most one run owns the id space: a run is opened only when every run that has moved
anything is complete, and an abandoned run moves nothing. -/
structure Owned (log : List (Effect V)) : Prop where
  opened : ∀ older run, .opened run :: older <:+ log → ∀ before, HasMoved older before →
    .completed before ∈ older
  moved : ∀ older e run, e :: older <:+ log → e.movedBy = some run → ¬ Abandoned older run

/-- The condition on a call: no audit while a run that has moved something stands in `failed`
without having been complete; and an abandoned run with items left to do is applied or resumed
only while another run is in flight. -/
def Careful (w : World V) (e : Event) : Prop :=
  match e.call with
  | .audit => ∀ before row, HasMoved w.log before → .completed before ∉ w.log →
      w.runs.get before = some row → row.run.state ≠ .failed
  | .apply run | .resume run => Abandoned w.log run →
      w.runs.Busy run ∨ ∀ row, w.runs.get run = some row → ∀ item ∈ row.items, item.finished
  | _ => True

section Log

variable {log new : List (Effect V)} {e : Effect V}

lemma owned_nil : Owned ([] : List (Effect V)) where
  opened older run h := by simp at h
  moved older e run h := by simp at h

lemma Owned.cons (h : Owned log)
    (ho : ∀ run, e = .opened run → ∀ before, HasMoved log before → .completed before ∈ log)
    (hm : ∀ run, e.movedBy = some run → ¬ Abandoned log run) : Owned (e :: log) where
  opened older run hs := by
    rcases List.suffix_cons_iff.mp hs with heq | hs
    · obtain ⟨rfl, rfl⟩ := List.cons.inj heq
      exact ho run rfl
    · exact h.opened older run hs
  moved older e' run hs := by
    rcases List.suffix_cons_iff.mp hs with heq | hs
    · obtain ⟨rfl, rfl⟩ := List.cons.inj heq
      exact hm run
    · exact h.moved older e' run hs

lemma hasMoved_cons_of_ne (he : e.movedBy = none) : HasMoved (e :: log) r ↔ HasMoved log r := by
  simp [HasMoved, he]

lemma Owned.moves (h : Owned log) (hc : ¬ Abandoned log run)
    (hn : ∀ e ∈ new, e.movedBy = some run) :
    Owned (new ++ log) ∧ ¬ Abandoned (new ++ log) run := by
  induction new with
  | nil => exact ⟨h, hc⟩
  | cons e new ih =>
    obtain ⟨how, hc'⟩ := ih fun e' he' => hn e' (List.mem_cons_of_mem _ he')
    have he := hn e List.mem_cons_self
    refine ⟨how.cons ?_ ?_, ?_⟩
    · rintro run' rfl
      cases he
    · intro run' hr'
      obtain rfl : run = run' := Option.some.inj (he.symm.trans hr')
      exact hc'
    · rintro (hs | ⟨later, hlt, ho⟩)
      · rcases List.mem_cons.mp hs with rfl | hs
        · cases he
        · exact hc' (.inl hs)
      · rcases List.mem_cons.mp ho with rfl | ho
        · cases he
        · exact hc' (.inr ⟨later, hlt, ho⟩)

end Log

/-! ### The invariant -/

/-- The run has left its audit behind. -/
def Begun (row : Row) : Prop := row.run.state ≠ .audited ∧ row.run.state ≠ .snapshotting

structure Ownership (w : World V) : Prop where
  owned : Owned w.log
  begun : ∀ r, HasMoved w.log r → ∃ row, w.runs.get r = some row ∧ Begun row
  completed : ∀ r row, w.runs.get r = some row → row.run.state = .complete → .completed r ∈ w.log

/-- A note on the row of a run, which neither takes it back to its audit nor completes it. -/
lemma Ownership.note (h : Ownership w) (hu : w.runs.Updated run f runs)
    (hb : ∀ row, w.runs.get run = some row → Begun row → Begun (f row))
    (hc : ∀ row, w.runs.get run = some row → (f row).run.state = .complete →
      row.run.state = .complete) : Ownership { w with runs := runs } where
  owned := h.owned
  begun r hr := by
    obtain ⟨row, hro, hro'⟩ := h.begun r hr
    by_cases hne : r = run
    · subst hne
      exact ⟨f row, hu.get hro, hb row hro hro'⟩
    · exact ⟨row, (hu.others r hne).trans hro, hro'⟩
  completed r row hro hs := by
    by_cases hne : r = run
    · subst hne
      have ho : (w.runs.get r).map f = some row := hu.own.symm.trans hro
      obtain ⟨row', hro', rfl⟩ := Option.map_eq_some_iff.mp ho
      exact h.completed r row' hro' (hc row' hro' hs)
    · exact h.completed r row ((hu.others r hne).symm.trans hro) hs

/-! ### Audit and snapshots -/

lemma begun_not_supersedable (hb : Begun row) (hac : row.run.state.active) :
    supersedable row.run.state = false := by
  obtain ⟨ha, hs⟩ := hb
  cases hst : row.run.state <;> simp_all [supersedable, RunState.active]

lemma Ownership.cleared (h : Ownership w) (hcl : Cleared w w₁) :
    Ownership w₁ ∧ (∀ r, HasMoved w₁.log r → HasMoved w.log r ∧ w₁.runs.get r = w.runs.get r) ∧
      ∀ r, .completed r ∈ w.log → .completed r ∈ w₁.log := by
  cases hcl with
  | idle _ => exact ⟨h, fun r hr => ⟨hr, rfl⟩, fun _ => id⟩
  | superseded id row runs hro ha hs hu =>
    have hm : ∀ r, HasMoved ([Effect.superseded id] ++ w.log) r → HasMoved w.log r ∧ r ≠ id := by
      intro r hr
      have hr' : HasMoved w.log r := (hasMoved_cons_of_ne rfl).mp hr
      refine ⟨hr', ?_⟩
      rintro rfl
      obtain ⟨row', hro', hb⟩ := h.begun r hr'
      obtain rfl : row = row' := Option.some.inj (hro.symm.trans hro')
      rw [begun_not_supersedable hb ha] at hs
      cases hs
    refine ⟨⟨h.owned.cons nofun nofun, ?_, ?_⟩, fun r hr => ?_,
      fun r hr => List.mem_cons_of_mem _ hr⟩
    · intro r hr
      obtain ⟨hr', hne⟩ := hm r hr
      obtain ⟨row', hro', hb⟩ := h.begun r hr'
      exact ⟨row', (hu.others r hne).trans hro', hb⟩
    · intro r row' hro' hc
      by_cases hne : r = id
      · subst hne
        have ho : (w.runs.get r).map _ = some row' := hu.own.symm.trans hro'
        rw [hro] at ho
        rw [← Option.some.inj ho] at hc
        cases hc
      · exact List.mem_cons_of_mem _ (h.completed r row' ((hu.others r hne).symm.trans hro') hc)
    · obtain ⟨hr', hne⟩ := hm r hr
      exact ⟨hr', hu.others r hne⟩

lemma Ownership.audited (h : Ownership w) (script : List (Reply Error Torn))
    (hca : Careful w ⟨.audit, script⟩) (hl : AuditLeft env w w') : Ownership w' := by
  cases hl with
  | start => exact h
  | cleared w₁ n hc =>
    obtain ⟨h₁, -⟩ := h.cleared hc
    exact ⟨h₁.owned, h₁.begun, h₁.completed⟩
  | opened id items w' ho =>
    obtain ⟨w₁, n, hc, -, hk, hi, rfl⟩ := ho
    obtain ⟨h₁, hsa, hm⟩ := h.cleared hc
    have hd : ∀ r, HasMoved w₁.log r → .completed r ∈ w₁.log := by
      intro r hr
      by_contra hn
      obtain ⟨row, hro, hb⟩ := h₁.begun r hr
      obtain ⟨hr', hg⟩ := hsa r hr
      -- the run is neither in flight nor complete
      have hina : ¬ row.run.state.active :=
        fun ha => hi ⟨⟨r, row⟩, AList.mem_lookup_iff.mp hro, ha⟩
      have hco : row.run.state ≠ .complete :=
        fun hs => hn (h₁.completed r row hro hs)
      refine hca r row hr' (fun hin => hn (hm r hin)) (hg ▸ hro) ?_
      cases hs : row.run.state <;> simp_all [RunState.active]
    refine ⟨h₁.owned.cons (fun _ _ => hd) nofun, ?_, ?_⟩
    · intro r hr
      have hr' : HasMoved w₁.log r := (hasMoved_cons_of_ne rfl).mp hr
      obtain ⟨row, hro, hb⟩ := h₁.begun r hr'
      have hlt := w₁.runs.fresh r row hro
      refine ⟨row, ?_, hb⟩
      rw [Runs.get_create, if_neg (by omega)]
      exact hro
    · intro r row hro hs
      rw [Runs.get_create] at hro
      split_ifs at hro with hid
      · rw [← Option.some.inj hro] at hs
        cases hs
      · exact List.mem_cons_of_mem _ (h₁.completed r row hro hs)

lemma Ownership.snapshotted (h : Ownership w) (hl : Snapshotted run w w') : Ownership w' := by
  obtain ⟨row, f, runs, hr, hs, hf, hu⟩ := hl
  refine h.note hu ?_ ?_
  · intro row' hr' hb
    obtain rfl : row = row' := Option.some.inj (hr.symm.trans hr')
    rcases hs with hs | hs
    · exact absurd hs hb.1
    · exact absurd hs hb.2
  · intro row' _ hc
    rcases hf.state row' with hsa | hsn
    · rwa [hsa] at hc
    · rw [hsn] at hc
      cases hc

/-! ### Apply and verify -/

/-- An item that is applied changes its own state only, as far as the runs are concerned. -/
lemma Halted.runs (h : Halted run item w w') :
    ∃ f : Row → Row, (∀ row, (f row).run = row.run) ∧ w.runs.Updated run f w'.runs := by
  cases h.left with
  | kept _ hr =>
    refine ⟨id, fun _ => rfl, ?_⟩
    rw [hr]
    exact ⟨rfl, by rw [Option.map_id]; rfl, fun _ _ => rfl⟩
  | copied _ hr => exact ⟨(·.setItem item.identity .copied ""), fun _ => rfl, hr⟩
  | applied _ hr _ => exact ⟨(·.setItem item.identity .cleaned ""), fun _ => rfl, hr⟩

/-- What holds of the run in hand while it is applied. -/
structure Owning (run : ℕ) (items : List Item) (w : World V) : Prop where
  ownership : Ownership w
  begun : ∃ row, w.runs.get run = some row ∧ Begun row
  clear : ¬ Abandoned w.log run ∨ ∀ item ∈ items, item.finished

lemma Owning.note (h : Owning run items w) (hu : w.runs.Updated run f runs)
    (hb : ∀ row, Begun row → Begun (f row))
    (hc : ∀ row, (f row).run.state = .complete → row.run.state = .complete) :
    Owning run items { w with runs := runs } := by
  obtain ⟨row, hr, hr'⟩ := h.begun
  refine ⟨h.ownership.note hu (fun row _ => hb row) fun row _ => hc row, ?_, h.clear⟩
  exact ⟨f row, hu.get hr, hb row hr'⟩

lemma lasting_owning (env : Env V) (run : ℕ) (items : List Item) :
    Lasting env run items (Owning run items) where
  notes w runs f hw hu hf := by
    cases hf with
    | state state error hs =>
      refine hw.note hu (fun row _ => ?_) fun row hco => ?_
      · rcases hs with rfl | rfl <;> exact ⟨nofun, nofun⟩
      · rcases hs with rfl | rfl <;> cases hco
    | item x error | rebuilt ns => exact hw.note hu (fun _ => id) fun _ => id
  items w w' item hi hop hw hh := by
    obtain ⟨new, hl, hne⟩ := hh.left.grew
    obtain ⟨f, hf, hu⟩ := hh.runs
    have hc : ¬ Abandoned w.log run :=
      hw.clear.resolve_right fun ha => hop (ha item hi)
    obtain ⟨how, hc'⟩ := hw.ownership.owned.moves hc fun e he => (hne e he).1
    obtain ⟨row, hro, hb⟩ := hw.begun
    have hn := hw.ownership.note hu (fun row _ => by rw [Begun, Begun, hf]; exact id)
      fun row _ => by rw [hf]; exact id
    have ho : w'.runs.get run = some (f row) := hu.get hro
    have hb' : Begun (f row) := by
      rw [Begun, hf]
      exact hb
    refine ⟨⟨hl ▸ how, ?_, ?_⟩, ⟨f row, ho, hb'⟩, .inl (hl ▸ hc')⟩
    · rintro r ⟨e, he, hr⟩
      rw [hl, List.mem_append] at he
      rcases he with he | he
      · obtain rfl : run = r := Option.some.inj ((hne e he).1.symm.trans hr)
        exact ⟨f row, ho, hb'⟩
      · exact hn.begun r ⟨e, he, hr⟩
    · intro r row' hro' hs
      rw [hl]
      exact List.mem_append_right _ (hn.completed r row' hro' hs)
  rebuild _ _ _ _ hw := ⟨⟨hw.ownership.owned, hw.ownership.begun, hw.ownership.completed⟩,
    hw.begun, hw.clear⟩

section Calls

variable {G : Reply Error Torn → Prop} (hG : G .ok)

include hG

lemma wp_apply_ownership (h : Ownership w) (hc : Abandoned w.log run →
      w.runs.Busy run ∨ ∀ row, w.runs.get run = some row → ∀ item ∈ row.items, item.finished) :
    Wp G (apply env run) Ownership (fun _ => Ownership) w := by
  refine wp_apply hG h (fun _ => id) fun row hr _ => ?_
  refine wp_mono (wp_applyManifest_lasting hG (lasting_owning env run row.items) h ?_
    fun _ hw => hw.ownership) (fun _ => id) fun _ _ hw => hw.ownership
  intro runs hu
  refine ⟨h.note hu (fun _ _ _ => ⟨nofun, nofun⟩) nofun, ?_, ?_⟩
  · exact ⟨row.setState .applying "", hu.get hr, nofun, nofun⟩
  · -- the run came into flight, so no other one was there
    rw [or_iff_not_imp_left, not_not]
    intro ha
    exact (hc ha).resolve_left (hu.not_busy hr rfl) row hr

lemma wp_verify_ownership (h : Ownership w) :
    Wp G (verify env run) Ownership (fun _ => Ownership) w := by
  refine wp_verify hG h ?_ ?_ ?_
  · exact fun _ _ _ _ _ w runs hw hu => hw.note hu (fun _ _ => id) fun _ _ => id
  · exact fun w runs text hw hu => hw.note hu (fun _ _ _ => ⟨nofun, nofun⟩) nofun
  · intro w' runs row hw' _ _ _ _ hu
    refine ⟨hw'.owned.cons nofun nofun, ?_, ?_⟩
    · intro r hr
      obtain ⟨row', hro', hb⟩ := hw'.begun r ((hasMoved_cons_of_ne rfl).mp hr)
      by_cases hne : r = run
      · subst hne
        exact ⟨row'.setState .complete "", hu.get hro', nofun, nofun⟩
      · exact ⟨row', (hu.others r hne).trans hro', hb⟩
    · intro r row' hro' hs
      by_cases hne : r = run
      · exact hne ▸ List.mem_cons_self
      · exact List.mem_cons_of_mem _ (hw'.completed r row' ((hu.others r hne).symm.trans hro') hs)

end Calls

lemma Ownership.step (h : Ownership w) (hc : Careful w e) (hs : step env w e = some w') :
    Ownership w' := by
  have ha : ∀ r ∈ e.script, (fun _ : Reply Error Torn => True) r := fun _ _ => trivial
  obtain ⟨call, script⟩ := e
  cases hs
  cases call with
  | audit =>
    refine (wp_mono (wp_audit (G := fun _ => True) trivial)
      (fun w' hl => h.audited script hc hl) ?_).world ha
    rintro _ w' ⟨id, items, ho, -⟩
    exact h.audited script hc (.opened id items w' ho)
  | prepareSnapshots run pgRef refs =>
    refine (wp_mono (wp_prepareSnapshots (G := fun _ => True) trivial) ?_
      fun _ w' hl => h.snapshotted hl).world ha
    rintro w' (rfl | hl)
    · exact h
    · exact h.snapshotted hl
  | apply run => exact (wp_apply_ownership (G := fun _ => True) trivial h hc).world ha
  | resume run => exact (wp_resume (G := fun _ => True) trivial h (fun _ _ _ => h)
    fun _ _ _ _ => wp_apply_ownership trivial h hc).world ha
  | verify run => exact (wp_verify_ownership (G := fun _ => True) trivial h).world ha

/-- **Ownership.** From stores without any run, in every history of careful calls and under every
pattern of failures, at most one run owns the id space. -/
theorem repair_owned (env : Env V) (w u : World V) (events : List Event) (hlog : w.log = [])
    (hruns : ∀ r, w.runs.get r = none) (hcareful : Along (step env) Careful w events)
    (hrun : exec (step env) w events = some u) : Owned u.log := by
  have hi : Ownership w := by
    refine ⟨by rw [hlog]; exact owned_nil, fun r hr => ?_, fun r row hro => ?_⟩
    · obtain ⟨e, he, -⟩ := hr
      simp [hlog] at he
    · rw [hruns r] at hro
      cases hro
  exact (exec_guarded (fun _ _ _ h hc hs => h.step hc hs) hcareful hrun hi).owned

/-! ### Three histories -/

/-- The effects by which a run is abandoned. -/
def Effect.abandons (run : ℕ) : Effect V → Bool
  | .superseded r => r = run
  | .opened r => run < r
  | _ => false

lemma abandoned_iff : Abandoned log run ↔ ∃ e ∈ log, e.abandons run := by
  constructor
  · rintro (hs | ⟨later, hlt, ho⟩)
    · exact ⟨_, hs, by simp [Effect.abandons]⟩
    · exact ⟨_, ho, by simpa [Effect.abandons] using hlt⟩
  · rintro ⟨e, he, ha⟩
    cases e with
    | superseded r =>
      obtain rfl : r = run := by simpa [Effect.abandons] using ha
      exact .inl he
    | opened r => exact .inr ⟨r, by simpa [Effect.abandons] using ha, he⟩
    | copied | deleted | retargeted | completed => cases ha

/-- A run that moved something, did not complete and failed. -/
def halfMoved [DecidableEq V] (w : World V) (e : Effect V) : Bool :=
  e.movedBy.any fun r => .completed r ∉ w.log ∧
    (w.runs.get r).any fun row => row.run.state = .failed

/-- `Careful`, as a check. -/
def careful [DecidableEq V] (w : World V) (e : Event) : Bool :=
  match e.call with
  | .audit => !w.log.any (halfMoved w)
  | .apply run | .resume run => w.log.any (Effect.abandons run) →
      w.runs.Busy run ∨ (w.runs.get run).all fun row => row.items.all Item.finished
  | _ => true

lemma careful_iff [DecidableEq V] : careful w e = true ↔ Careful w e := by
  obtain ⟨call, script⟩ := e
  have ha : ∀ run, (w.log.any (Effect.abandons run) →
      w.runs.Busy run ∨ (w.runs.get run).all fun row => row.items.all Item.finished) ↔
      (Abandoned w.log run → w.runs.Busy run ∨
        ∀ row, w.runs.get run = some row → ∀ item ∈ row.items, item.finished) := by
    intro run
    rw [abandoned_iff, List.any_eq_true]
    cases w.runs.get run <;> simp
  cases call with
  | audit =>
    rw [careful, Bool.not_eq_true', List.any_eq_false]
    constructor
    · rintro h r row ⟨e, he, hr⟩ hn hro hf
      refine h e he ?_
      simp [halfMoved, hr, hn, hro, hf]
    · intro h e he hh
      cases hr : e.movedBy with
      | none => simp [halfMoved, hr] at hh
      | some r =>
        cases hro : w.runs.get r with
        | none => simp [halfMoved, hr, hro] at hh
        | some row =>
          simp only [halfMoved, hr, hro, Option.any_some, decide_eq_true_eq] at hh
          exact h r row ⟨e, he, hr⟩ hh.1 hro hh.2
  | apply run | resume run => exact decide_eq_true_iff.trans (ha run)
  | prepareSnapshots | verify => exact ⟨fun _ => trivial, fun _ => rfl⟩

instance [DecidableEq V] (w : World V) (e : Event) : Decidable (Careful w e) :=
  decidable_of_iff _ careful_iff

/-- A repair to the end, and the audit after it. -/
def wholeHistory : List Event :=
  [⟨.audit, []⟩, ⟨.prepareSnapshots 0 "pg" smallRefs, []⟩, ⟨.apply 0, []⟩, ⟨.verify 0, []⟩,
    ⟨.audit, []⟩]

/-- The delete fails, and the run with it; then the next audit. -/
def failedHistory : List Event :=
  [⟨.audit, []⟩, ⟨.prepareSnapshots 0 "pg" smallRefs, []⟩,
    ⟨.apply 0, List.replicate 10 .ok ++ [.fail (.other "connection reset")]⟩, ⟨.audit, []⟩]

/-- The first run is superseded. The second one does not verify, and leaves the way free. -/
def supersededHistory : List Event :=
  [⟨.audit, []⟩, ⟨.prepareSnapshots 0 "pg" smallRefs, []⟩, ⟨.audit, []⟩, ⟨.verify 1, []⟩,
    ⟨.apply 0, []⟩]

theorem repair_owned_wholeHistory : ∃ u, alignedWorld.log = [] ∧
    (∀ r, alignedWorld.runs.get r = none) ∧
    Along (step smallEnv) Careful alignedWorld wholeHistory ∧
    exec (step smallEnv) alignedWorld wholeHistory = some u ∧ Owned u.log := by
  have hr : ∀ r, alignedWorld.runs.get r = none := fun _ => rfl
  have hc : Along (step smallEnv) Careful alignedWorld wholeHistory := by decide +kernel
  have hs : (exec (step smallEnv) alignedWorld wholeHistory).isSome := by decide +kernel
  obtain ⟨u, hru⟩ := Option.isSome_iff_exists.mp hs
  exact ⟨u, rfl, hr, hc, hru, repair_owned smallEnv alignedWorld u wholeHistory rfl hr hc hru⟩

/-- A run is opened over the half-moved points of another one, and a superseded run moves points
and mappings. -/
theorem repair_not_owned : (∃ u older, exec (step smallEnv) alignedWorld failedHistory = some u ∧
      .opened 1 :: older <:+ u.log ∧ HasMoved older 0 ∧ .completed 0 ∉ older) ∧
    (∃ u older e, exec (step smallEnv) alignedWorld supersededHistory = some u ∧
      e :: older <:+ u.log ∧ e.movedBy = some 0 ∧ .superseded 0 ∈ older) := by
  constructor
  · have hv : (exec (step smallEnv) alignedWorld failedHistory).map World.log =
        some [.opened 1, .retargeted 0 ⟨"n", .object, "x"⟩ 7,
          .copied 0 ⟨"n", .object, "x"⟩ "n_objects_dense" 5 7 none, .opened 0] := by
      decide +kernel
    obtain ⟨u, hr, hl⟩ := Option.map_eq_some_iff.mp hv
    refine ⟨u, u.log.tail, hr, ?_⟩
    rw [hl]
    exact ⟨List.suffix_refl _, ⟨_, List.mem_cons_self, rfl⟩, by decide⟩
  · have hv : (exec (step smallEnv) alignedWorld supersededHistory).map World.log =
        some [.deleted 0 ⟨"n", .object, "x"⟩ "n_objects_dense" 5
            (some (objectPoint "x" "dense x")), .retargeted 0 ⟨"n", .object, "x"⟩ 7,
          .copied 0 ⟨"n", .object, "x"⟩ "n_objects_dense" 5 7 none, .opened 1, .superseded 0,
          .opened 0] := by
      decide +kernel
    obtain ⟨u, hr, hl⟩ := Option.map_eq_some_iff.mp hv
    refine ⟨u, u.log.tail, .deleted 0 ⟨"n", .object, "x"⟩ "n_objects_dense" 5
      (some (objectPoint "x" "dense x")), hr, ?_⟩
    rw [hl]
    exact ⟨List.suffix_refl _, rfl, by decide⟩

end Codohue.Repair
