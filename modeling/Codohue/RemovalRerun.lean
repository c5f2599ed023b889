import Codohue.Removal

/-!
A deletion or a reset that was cut short is run again.

With the stores in order, and nobody in the way of its locks, the call goes through every statement
and every store call of the cleanup, and completes.
-/

namespace Codohue.Removal

open Lifecycle LockTable Coordinator CallSteps LeaseInvariant Fencing RowWrites Transition
open PhysicalNames Repair Service Cleanup

/-- The next statement or store call of call `t`, without a failure. -/
def Healthy (t : ℕ) : Action → Prop
  | .sys (.advance u o) => u = t ∧ o = .ok
  | .store u o => u = t ∧ o = .ok
  | _ => False

/-- Every call succeeds, and the program raises no error. -/
def healthy : Contract Stores StoreCall Cleanup.Outcome String :=
  ⟨fun o => o = .ok, fun _ _ => True, fun _ => False⟩

lemma lenient_healthy : Lenient healthy := fun _ ho hne => absurd ho hne

/-- Call `t` stands at `k`, with these rows and stores. -/
structure Stands (clients : Clients) (t : ℕ) (k : Task) (db : Store) (s : Stores) (w : World) :
    Prop where
  task : w.sys.tasks t = some k
  db : w.sys.db = db
  stores : w.stores = s
  cleaning : ∀ p, cleanupOf clients k = some p → w.cleaning t = some p

/-- By its own statements and store calls, none of which fails, call `t` gets to `Q`. -/
abbrev Gets (clients : Clients) (t : ℕ) (Q : World → Prop) (w : World) : Prop :=
  Leads (step clients) (Healthy t) Q w

variable {session : Session}

variable {op : Op}
variable {t : ℕ} {db : Store} {s : Stores} {w : World} {Q : World → Prop} {held : List HeldKey}

section Steps

variable {clients : Clients} {k j : Task} {d : Store}

lemma leads_advance (hw : Stands clients t k db s w) (hc : cleanupOf clients k = none)
    (ha : advance w.sys t k .ok = some y) (ht : y.tasks t = some j) (hdb : y.db = d)
    (h : ∀ w', w'.sys = y → Stands clients t j d s w' → Gets clients t Q w') :
    Gets clients t Q w := by
  have hs : Coordinator.step w.sys (.advance t .ok) = some y := by
    simp only [Coordinator.step, hw.task, Option.bind_some, ha]
  have hn : ((w.sys.tasks t).bind (cleanupOf clients)).isSome → ended (w.cleaning t) = some .ok :=
    by simp [hw.task, hc]
  refine Leads.cons (a := .sys (.advance t .ok)) ⟨rfl, rfl⟩ ?_ (h { w with
          sys := y
          cleaning := Function.update w.cleaning t ((y.tasks t).bind (cleanupOf clients)) } rfl
      ⟨ht, hdb, hw.stores, ?_⟩)
  · simp only [step, if_pos hn, hs, Option.map_some]
  · intro p hp
    simp only [Function.update_self, ht, Option.bind_some, hp]

lemma advance_of_locked (h : locked k.pc) (sys : Sys) (o : Coordinator.Outcome) :
    advance sys t k o = (k.step sys.db o).map fun r => { sys.put t r.2 with db := r.1 } := by
  unfold advance
  split <;> simp_all [locked]

lemma leads_statement (hw : Stands clients t k db s w) (hc : cleanupOf clients k = none)
    (hl : locked k.pc) (hs : k.step db .ok = some (d, j))
    (h : ∀ w', Stands clients t j d s w' → Gets clients t Q w') :
    Gets clients t Q w := by
  refine leads_advance (y := { w.sys.put t j with db := d }) hw hc ?_ (put_self ..) rfl
    fun w' _ hw' => h w' hw'
  rw [advance_of_locked hl, hw.db, hs]
  rfl

variable {P : Change → Prop} {p : CleanupM Unit} {R : Stores → Prop}

lemma leads_program (hc : (w.sys.tasks t).bind (cleanupOf clients) = some p₀)
    (hp : w.cleaning t = some p) (hwp : Wp (stores P) healthy p (fun _ => R) w.stores) :
    Gets clients t (fun w' => w'.sys = w.sys ∧ w'.cleaning t = some (.pure ()) ∧
      R w'.stores ∧ Shrinks w.stores w'.stores) w := by
  induction p generalizing w with
  | pure a => exact .refl ⟨rfl, hp, hwp, .refl _⟩
  | throw e => exact hwp.elim
  | call c cont ih =>
    have hs : serve c w.stores .ok =
        some (.ok (w.stores.execute c).1, (w.stores.execute c).2) := rfl
    have hn := (hwp w.stores (.refl w.stores)).2 .ok _ _ rfl hs
    set w₁ : World :=
      { w with
        stores := (w.stores.execute c).2
        cleaning := Function.update w.cleaning t (some (cont (.ok (w.stores.execute c).1))) }
    have hp₁ : w₁.cleaning t = some (cont (.ok (w.stores.execute c).1)) := Function.update_self ..
    refine Leads.cons (a := .store t .ok) (m := w₁) ⟨rfl, rfl⟩ ?_ ?_
    · simp only [step, hc, hp, hs, Option.map_some, w₁]
    · refine (ih (w := w₁) (.ok (w.stores.execute c).1) hc hp₁ hn).bind ?_
      rintro w' ⟨hsy, he, hR, hsh⟩
      exact .refl ⟨hsy, he, hR, (shrinks_execute _ c).trans hsh⟩

lemma leads_cleanup (hw : Stands clients t k db s w) (hc : cleanupOf clients k = some p)
    (hwp : Wp (stores P) healthy p (fun _ => R) s) (hl : locked k.pc)
    (hst : k.step db .ok = some (d, j))
    (h : ∀ s' w', R s' → Shrinks s s' → Stands clients t j d s' w' →
      Gets clients t Q w') : Gets clients t Q w := by
  have hb : (w.sys.tasks t).bind (cleanupOf clients) = some p := by
    rw [hw.task, Option.bind_some, hc]
  refine (leads_program hb (hw.cleaning p hc) (hw.stores ▸ hwp)).bind ?_
  rintro w' ⟨hsy, he, hR, hs⟩
  rw [hw.stores] at hs
  obtain ⟨sys, ha, ht, hdb⟩ : ∃ sys, Coordinator.step w'.sys (.advance t .ok) = some sys ∧
      sys.tasks t = some j ∧ sys.db = d := by
    refine ⟨{ w.sys.put t j with db := d }, ?_, put_self .., rfl⟩
    rw [hsy]
    simp only [Coordinator.step, hw.task, Option.bind_some, advance_of_locked hl, hw.db, hst,
      Option.map_some]
  refine Leads.cons (a := .sys (.advance t .ok)) ⟨rfl, rfl⟩ ?_ (h w'.stores { w' with
      sys := sys
      cleaning := Function.update w'.cleaning t (cleanupOf clients j) } hR hs
    ⟨ht, hdb, rfl, fun p hp => (Function.update_self ..).trans hp⟩)
  simp only [step, he, ended, ha, Option.map_some, implies_true, if_true, ht, Option.bind_some]

variable {todo : List HeldKey}

lemma leads_locking (hw : Stands clients t ⟨session, op, held, .locking todo⟩ db s w)
    (hf : ∀ x ∈ todo, ∀ g ∈ w.sys.locks.grants, compatible ⟨session, x.key, x.mode⟩ g)
    (h : ∀ w', Stands clients t ⟨session, op, held ++ todo, .getSystem⟩ db s w' →
      Gets clients t Q w') : Gets clients t Q w := by
  induction todo generalizing held w with
  | nil =>
    refine leads_advance hw rfl rfl (put_self ..) hw.db fun w' _ hw' => h w' ?_
    rwa [List.append_nil]
  | cons x todo ih =>
    obtain ⟨locks, ha⟩ : ∃ locks, acquire w.sys.locks ⟨session, x.key, x.mode⟩ = some locks :=
      ⟨_, dif_pos (hf x List.mem_cons_self)⟩
    refine leads_advance (y := { w.sys.put t ⟨session, op, held ++ [x], .locking todo⟩ with
        locks := locks }) hw rfl ?_ (put_self ..) hw.db fun w' hs hw' => ih hw' ?_ ?_
    · simp only [advance, lockStep, Task.grant, ha, Option.map_some]
    · intro y hy g hg
      rw [hs] at hg
      rcases (acquire_some ha).mp hg with rfl | hg
      · exact .inl rfl
      · exact hf y (List.mem_cons_of_mem _ hy) g hg
    · intro w'' hw''
      exact h w'' (by simpa using hw'')

lemma leads_releasing (hw : Stands clients t ⟨session, op, held, .releasing todo none⟩ db s w)
    (h : ∀ w', Stands clients t ⟨session, op, held, .returned none⟩ db s w' → Q w') :
    Gets clients t Q w := by
  induction todo generalizing w with
  | nil => exact leads_advance hw rfl rfl (put_self ..) hw.db fun w' _ hw' => .refl (h w' hw')
  | cons x todo ih =>
    exact leads_advance hw rfl rfl (put_self ..) hw.db fun w' _ hw' => ih hw'

end Steps

/-! ### A deletion -/

variable {job : Bool} {ns : String}

section Deletion

variable {row : NamespaceLifecycle}

/-- The deletion stands at `pc`. -/
abbrev deletion (session : Session) (ns : String) (held : List HeldKey) (pc : Pc) : Task :=
  ⟨session, .withNamespaceExclusive ns, held, pc⟩

lemma startDelete_of_row (hr : db.row ns = some row) (hs : row.state ≠ .deleted) :
    startDelete db ns = .ok (db.setRow ns { row with state := .deleting, lastError := none },
      { row with state := .deleting, lastError := none }) := by
  have hor : row.state = .active ∨ row.state = .deleting := by
    cases h : row.state with
    | active => exact .inl rfl
    | deleting => exact .inr rfl
    | deleted => exact absurd h hs
  simp only [startDelete, hr, if_pos hor]

lemma completeDelete_of_row (hr : db.row ns = some row) (hs : row.state = .deleting) :
    completeDelete db ns row.generation =
      .ok (db.setRow ns { row with state := .deleted, lastError := none }) := by
  simp only [completeDelete, hr, hs, and_self, if_true]

/-- **A deletion that is run again completes.** -/
theorem leads_deletion
    (hw : Stands ⟨true, true, job⟩ t (deletion session ns held .getSystem) db s w)
    (hac : db.system.state = .active) (hr : db.row ns = some row)
    (hs : row.state ≠ .deleted) (hns : ns ≠ "") (hg : 1 ≤ row.generation) :
    Gets ⟨true, true, job⟩ t (fun w' =>
      w'.sys.tasks t = some (deletion session ns held (.returned none)) ∧
      DeletedAt w'.sys.db ns row.generation ∧ Absent ns row.generation w'.stores) w := by
  set deleting : NamespaceLifecycle := { row with state := .deleting, lastError := none }
  have hst := startDelete_of_row hr hs
  have hd : (db.setRow ns deleting).row ns = some deleting := by rw [setRow_row, if_pos rfl]
  have hc := completeDelete_of_row hd rfl
  refine leads_statement hw rfl rfl (j := deletion session ns held .getNamespace) (d := db) ?_
    fun w hw => ?_
  · simp [Task.step, getSystemStep, Outcome.error, hac, Task.goto]
  refine leads_statement hw rfl rfl (j := deletion session ns held (.deleting (.startDelete row)))
    (d := db) ?_ fun w hw => ?_
  · simp [Task.step, getNamespaceStep, Outcome.error, getNamespace, hr, Task.goto]
  refine leads_statement hw rfl rfl (d := db.setRow ns deleting)
    (j := deletion session ns held (.deleting (.cleanup row.generation))) ?_ fun w hw => ?_
  · simp [Task.step, deleteStep, Outcome.run, hst, hs, Task.goto, deleting]
  have hwp : Wp (stores (Spares ns row.generation)) healthy
      (do let _ ← deleteNamespaceGeneration ⟨true, true, job⟩ ns row.generation; pure ())
      (fun _ => Absent ns row.generation) s :=
    wp_bind (wp_mono (wp_deleteNamespaceGeneration lenient_healthy (fun _ _ => trivial) job
      (.inl ⟨hns, hg⟩)) fun _ _ ha => wp_pure ha)
  refine leads_cleanup hw rfl hwp rfl rfl fun s' w ha _ hw => ?_
  refine leads_statement hw rfl rfl (j := deletion session ns held (.releasing held.reverse none))
    (d := (db.setRow ns deleting).setRow ns { deleting with state := .deleted, lastError := none })
    ?_ fun w hw => ?_
  · have hc' : completeDelete (db.setRow ns deleting) ns row.generation = _ := hc
    simp [Task.step, deleteStep, Outcome.run, hc', Except.map, Task.finish, Task.goto]
  refine leads_releasing hw fun w' hw' => ⟨hw'.task, ?_, hw'.stores ▸ ha⟩
  rw [hw'.db]
  exact ⟨{ deleting with state := .deleted, lastError := none }, by rw [setRow_row, if_pos rfl],
    rfl, rfl⟩

end Deletion

/-! ### A reset -/

section Reset

lemma mem_listNonDeleted :
    (ns, row) ∈ listNonDeleted db ↔ db.row ns = some row ∧ row.state ≠ .deleted := by
  have hl : db.row ns = some row ↔ (⟨ns, row⟩ : Sigma fun _ => NamespaceLifecycle) ∈
      db.namespaces.entries := AList.mem_lookup_iff
  rw [listNonDeleted, List.mem_insertionSort, hl]
  simp [Table.select]

lemma nodup_listNonDeleted (db : Store) : ((listNonDeleted db).map Prod.fst).Nodup := by
  have hp : ((listNonDeleted db).map Prod.fst).Perm
      ((Table.select (fun row => row.state ≠ .deleted) db.namespaces).map Prod.fst) :=
    (List.perm_insertionSort _ _).map _
  refine hp.nodup_iff.mpr ?_
  have hk : (Table.select (fun row => row.state ≠ .deleted) db.namespaces).map Prod.fst =
      ((db.namespaces.entries.filter fun e => decide (e.2.state ≠ .deleted)).map Sigma.fst) := by
    simp [Table.select, Function.comp_def]
  rw [hk]
  exact db.namespaces.nodupKeys.sublist List.filter_sublist

/-- The rows of `db'` are those of `db`, up to the namespaces in `names`, and of their
generations. -/
structure Only (names : List String) (db db' : Store) : Prop where
  system : db'.system = db.system
  others : ∀ ns, ns ∉ names → db'.row ns = db.row ns
  within : Within db db'

lemma Only.refl (db : Store) : Only [] db db := ⟨rfl, fun _ _ => rfl, .refl db⟩

lemma Only.cons (h : InRow ns db db') (h' : Only names db' db'') :
    Only (ns :: names) db db'' where
  system := h'.system.trans h.system
  others ns' hns' := by
    rw [List.mem_cons, not_or] at hns'
    rw [h'.others ns' hns'.2, h.others ns' hns'.1]
  within ns' row hr := by
    obtain ⟨row', hr', hg', hra'⟩ := h.within ns' row hr
    obtain ⟨row'', hr'', hg'', hra''⟩ := h'.within ns' row' hr'
    exact ⟨row'', hr'', hg''.trans hg', hra'.trans hra''⟩

/-- The reset stands at `pc`. -/
abbrev resetting (session : Session) (held : List HeldKey) (pc : GlobalPc) : Task :=
  ⟨session, .withGlobalExclusive .resetApp, held, .global pc⟩

lemma leads_fence (hw : Stands ⟨true, true, job⟩ t
      (resetting session held (.fence todo fenced)) db s w)
    (ht : ∀ ns ∈ todo, ∃ row, db.row ns = some row ∧ row.state ≠ .deleted)
    (hf : ∀ item ∈ fenced, DeletingAt db item.1 item.2)
    (h : ∀ db' fenced' w', fenced'.map Prod.fst = fenced.map Prod.fst ++ todo →
      (∀ item ∈ fenced', DeletingAt db' item.1 item.2) → Only todo db db' →
      (Named db → Named db') →
      Stands ⟨true, true, job⟩ t (resetting session held (.wipe fenced')) db' s w' →
      Gets ⟨true, true, job⟩ t Q w') : Gets ⟨true, true, job⟩ t Q w := by
  induction todo generalizing fenced db w with
  | nil =>
    refine leads_statement hw rfl rfl rfl fun w' hw' => ?_
    exact h db fenced w' (by simp) hf (.refl db) id hw'
  | cons ns todo ih =>
    obtain ⟨row, hr, hs⟩ := ht ns List.mem_cons_self
    have hst := startDelete_of_row hr hs
    set deleting : NamespaceLifecycle := { row with state := .deleting, lastError := none }
    refine leads_statement hw rfl rfl (d := db.setRow ns deleting)
      (j := resetting session held (.fence todo (fenced ++ [(ns, row.generation)]))) ?_
      fun w' hw' => ih hw' ?_ ?_ ?_
    · simp [Task.step, globalStep, Outcome.run, hst, Task.goto, deleting]
    · intro ns' hns'
      obtain ⟨row', hr', hs'⟩ := ht ns' (List.mem_cons_of_mem _ hns')
      rw [setRow_row]
      split_ifs
      · exact ⟨deleting, rfl, by rintro ⟨⟩⟩
      · exact ⟨row', hr', hs'⟩
    · intro item hi
      rcases List.mem_append.mp hi with hol | hne
      · obtain ⟨row', hr', hs', hg'⟩ := hf item hol
        by_cases hns : item.1 = ns
        · obtain rfl : row = row' := Option.some.inj (hr.symm.trans (hns ▸ hr'))
          exact ⟨deleting, by rw [setRow_row, if_pos hns], rfl, hg'⟩
        · exact ⟨row', by rw [setRow_row, if_neg hns, hr'], hs', hg'⟩
      · rw [List.mem_singleton.mp hne]
        exact ⟨deleting, by rw [setRow_row, if_pos rfl], rfl, rfl⟩
    · intro db' fenced' w'' hn hd ho hna hw''
      exact h db' fenced' w'' (by simpa using hn) hd
        (.cons (startDelete_inRow hst) ho) (fun hdb => hna (hdb.update hr rfl)) hw''

lemma Wiped.shrinks (h : Wiped s) (hs : Shrinks s s') : Wiped s' where
  rows := List.subset_nil.mp (h.rows ▸ hs.rows)
  keys start hst key hm := h.keys start hst key (hs.keys hm)
  collections name hm := h.collections name (hs.collections hm)

lemma leads_verify (hw : Stands ⟨true, true, job⟩ t
      (resetting session held (.verifyAbsent todo)) db s w) (hwi : Wiped s)
    (hn : (todo.map Prod.fst).Nodup) (hdb : Named db)
    (ht : ∀ item ∈ todo, DeletingAt db item.1 item.2)
    (h : ∀ db' s' w', Wiped s' → (∀ item ∈ todo, DeletedAt db' item.1 item.2) →
      Only (todo.map Prod.fst) db db' →
      Stands ⟨true, true, job⟩ t (resetting session held .completeReset) db' s' w' →
      Gets ⟨true, true, job⟩ t Q w') : Gets ⟨true, true, job⟩ t Q w := by
  induction todo generalizing db s w with
  | nil =>
    refine leads_statement hw rfl rfl rfl fun w' hw' => ?_
    exact h db s w' hwi (by simp) (.refl db) hw'
  | cons item todo ih =>
    obtain ⟨ns, gen⟩ := item
    obtain ⟨row, hr, hs, rfl⟩ := ht (ns, gen) List.mem_cons_self
    obtain ⟨hns, hg⟩ := hdb ns row hr
    obtain ⟨hf, hn⟩ := List.nodup_cons.mp hn
    have hwp := wp_verifyNamespaceAbsent lenient_healthy (fun _ _ => trivial) job
      (.inl ⟨hns, hg⟩) (.inl (hwi.absent ns row.generation))
    refine leads_cleanup hw rfl hwp rfl rfl fun s' w' _ hsh hw' => ?_
    have hc := completeDelete_of_row hr hs
    set deleted : NamespaceLifecycle := { row with state := .deleted, lastError := none }
    refine leads_statement hw' rfl rfl (d := db.setRow ns deleted)
      (j := resetting session held (.verifyAbsent todo)) ?_ fun w'' hw'' =>
      ih hw'' (Wiped.shrinks hwi hsh) hn (hdb.update hr rfl) ?_ ?_
    · simp [Task.step, globalStep, Outcome.run, hc, Except.map, Task.goto]
    · intro item hi
      obtain ⟨row', hr', hs', hg'⟩ := ht item (List.mem_cons_of_mem _ hi)
      have hne : item.1 ≠ ns := fun heq => hf (List.mem_map.mpr ⟨item, hi, heq⟩)
      exact ⟨row', by rw [setRow_row, if_neg hne, hr'], hs', hg'⟩
    · intro db' s'' w₁ hwi' hd ho hw₁
      refine h db' s'' w₁ hwi' (fun item hi => ?_) (.cons (completeDelete_inRow hc) ho) hw₁
      rcases List.mem_cons.mp hi with rfl | hi
      · exact ⟨deleted, by rw [ho.others ns hf, setRow_row, if_pos rfl], rfl, rfl⟩
      · exact hd item hi

/-- **A reset that is run again completes**: the system is active again, every namespace is deleted,
and nothing is left of any of them. -/
theorem leads_reset (hdb : Named db) (hw : Stands ⟨true, true, job⟩ t
      ⟨session, .withGlobalExclusive .resetApp, held, .getSystem⟩ db s w) :
    Gets ⟨true, true, job⟩ t (fun w' =>
      w'.sys.tasks t = some ⟨session, .withGlobalExclusive .resetApp, held, .returned none⟩ ∧
      w'.sys.db.system.state = .active ∧
      (∀ ns row, db.row ns = some row → DeletedAt w'.sys.db ns row.generation) ∧
      ∀ ns gen, Absent ns gen w'.stores) w := by
  set names := (listNonDeleted (startReset db)).map Prod.fst
  have hl : ∀ ns row, db.row ns = some row → ns ∉ names → row.state = .deleted := by
    intro ns row hr hn
    by_contra hs
    exact hn (List.mem_map_of_mem (mem_listNonDeleted.mpr
      ⟨(hr : (startReset db).row ns = some row), hs⟩))
  refine leads_statement hw rfl rfl rfl fun w hw => ?_
  refine leads_statement hw rfl rfl rfl fun w hw => ?_
  refine leads_statement hw rfl rfl rfl fun w hw => ?_
  refine leads_fence hw ?_ (by simp) fun db₁ fenced w hf hd ho hna hw => ?_
  · intro ns hns
    obtain ⟨⟨ns', row⟩, hm, rfl⟩ := List.mem_map.mp hns
    exact ⟨row, mem_listNonDeleted.mp hm⟩
  change fenced.map Prod.fst = names at hf
  refine leads_cleanup hw rfl (wp_wipe lenient_healthy (fun _ _ => trivial) job) rfl rfl
    fun s₁ w hwi _ hw => ?_
  refine leads_verify hw hwi ?_ (hna hdb) hd fun db₂ s₂ w hwi hde ho' hw => ?_
  · rw [hf]
    exact nodup_listNonDeleted _
  refine leads_statement hw rfl rfl rfl fun w hw => ?_
  have hsy : db₂.system.state = .resetting := by rw [ho'.system, ho.system]; rfl
  refine leads_releasing hw fun w' hw' => ⟨hw'.task, ?_, ?_, fun ns gen => ?_⟩
  · rw [hw'.db, completeReset, if_pos hsy]
  · intro ns row hr
    rw [hw'.db, completeReset, if_pos hsy]
    show DeletedAt db₂ ns row.generation
    by_cases hns : ns ∈ names
    · obtain ⟨⟨ns', gen⟩, hm, rfl⟩ := List.mem_map.mp (hf ▸ hns)
      obtain ⟨row₂, hr₂, hs₂, hg₂⟩ := hde _ hm
      obtain ⟨row₁, hr₁, hg₁, -⟩ := ho.within ns' row hr
      obtain ⟨row₃, hr₃, hg₃, -⟩ := ho'.within ns' row₁ hr₁
      obtain rfl := Option.some.inj (hr₂.symm.trans hr₃)
      exact ⟨row₂, hr₂, hs₂, hg₃.trans hg₁⟩
    · refine ⟨row, ?_, hl ns row hr hns, rfl⟩
      rw [ho'.others ns (hf ▸ hns), ho.others ns hns]
      exact hr
  · exact hw'.stores ▸ hwi.absent ns gen

end Reset

/-! ### Delete and reset are resumable -/

/-- The server can grant the locks of the operation to this session. -/
def Grantable (sys : Sys) (session : Session) (op : Op) : Prop :=
  ∀ x ∈ op.wants, ∀ g ∈ sys.locks.grants, compatible ⟨session, x.key, x.mode⟩ g

/-- The operation is called, and by its own statements and store calls alone, none of which fails,
it returns without an error in a state that meets `Q`. -/
def Completing (clients : Clients) (w : World) (t : ℕ) (session : Session) (op : Op)
    (Q : World → Prop) : Prop :=
  ∃ w₁, step clients w (.sys (.start t session op)) = some w₁ ∧
    Leads (step clients) (Healthy t) (fun w' =>
      (∃ k, w'.sys.tasks t = some k ∧ k.pc = .returned none) ∧ Q w') w₁

lemma completing_of_locked {Q : World → Prop} (ht : w.sys.tasks t = none)
    (ho : w.sys.owner session = none) (he : op.entry = .locking op.wants)
    (hf : Grantable w.sys session op)
    (h : ∀ w', Stands clients t ⟨session, op, op.wants, .getSystem⟩ w.sys.db w.stores w' →
      Leads (step clients) (Healthy t) (fun w' =>
        (∃ k, w'.sys.tasks t = some k ∧ k.pc = .returned none) ∧ Q w') w') :
    Completing clients w t session op Q := by
  have hs : Coordinator.step w.sys (.start t session op) =
      some { w.sys.put t ⟨session, op, [], op.entry⟩ with
        owner := Function.update w.sys.owner session (some t) } := by
    simp only [Coordinator.step, ht, ho, Option.isNone_none, and_self, if_true]
  refine ⟨_, by simp only [step, hs, Option.map_some]; rfl, ?_⟩
  refine leads_locking (show Stands clients t ⟨session, op, [], .locking op.wants⟩ w.sys.db w.stores
    _ from ⟨?_, rfl, rfl, by rintro _ ⟨⟩⟩) hf h
  rw [← he]
  exact put_self ..

/-- **Deletions and resets are resumable and never finish early**, as long as no namespace can be
taken for another one. In every state that any number of processes reach, with any failures and
crashes: a namespace that is being deleted stays so, and a reset lasts, until the statement that
completes it, and meanwhile no writer callback runs; when a namespace is marked deleted, nothing of
its generation is left; and the operation that was cut short completes when it is run again. -/
theorem removal_resumable (job : Bool) (db : Store) (hdb : Named db) (s : Stores)
    (as : List Action) (has : ∀ a ∈ as, PlainStart a) (w : World)
    (h : exec (step ⟨true, true, job⟩) (boot db s) as = some w) :
    (∀ a w', step ⟨true, true, job⟩ w a = some w' →
      (∀ ns g, DeletingAt w.sys.db ns g → (∀ t g', ¬ WriterRuns w.sys t ns g') ∧
        (DeletingAt w'.sys.db ns g ∨ DeletedAt w'.sys.db ns g ∧
          ∃ t o k, a = .sys (.advance t o) ∧ w.sys.tasks t = some k ∧ Completes k ns g)) ∧
      (w.sys.db.system.state = .resetting → (∀ t ns g, ¬ WriterRuns w.sys t ns g) ∧
        (w'.sys.db.system.state = .resetting ∨
          ∃ t o k, a = .sys (.advance t o) ∧ w.sys.tasks t = some k ∧
            k.pc = .global .completeReset)) ∧
      ∀ ns g, ¬ DeletedAt w.sys.db ns g → DeletedAt w'.sys.db ns g → Absent ns g w'.stores) ∧
    ∀ t session, w.sys.tasks t = none → w.sys.owner session = none →
      (∀ ns g, DeletingAt w.sys.db ns g → w.sys.db.system.state = .active →
        Grantable w.sys session (.withNamespaceExclusive ns) →
        Completing ⟨true, true, job⟩ w t session (.withNamespaceExclusive ns) fun w' =>
          DeletedAt w'.sys.db ns g ∧ Absent ns g w'.stores) ∧
      (Grantable w.sys session (.withGlobalExclusive .resetApp) →
        Completing ⟨true, true, job⟩ w t session (.withGlobalExclusive .resetApp) fun w' =>
          w'.sys.db.system.state = .active ∧
          ∀ ns row, w.sys.db.row ns = some row →
            DeletedAt w'.sys.db ns row.generation ∧ Absent ns row.generation w'.stores) := by
  have hw : WorldInv w :=
    exec_guarded (fun _ _ _ hw ha hs => worldInv_step hw ha hs)
      (along_of_forall (fun a ha _ => has a ha) _) h (worldInv_boot hdb s)
  refine ⟨fun a w' hs => ⟨fun ns g hd => ?_, fun hre => ?_, fun ns g => ?_⟩,
    fun t session ht ho => ⟨fun ns g hd hac hf => ?_, fun hf => ?_⟩⟩
  · exact ⟨not_writer_of_deleting hw hd, step_deleting hw hs hd⟩
  · refine ⟨fun t ns g hwr => ?_, step_resetting hs hre⟩
    cases hre.symm.trans (writer_active hw.sys hwr).1
  · exact absent_of_deleted hw hs
  · refine completing_of_locked ht ho rfl hf fun w' hw' => ?_
    obtain ⟨row, hr, hst, rfl⟩ := hd
    obtain ⟨hns, hg⟩ := hw.named ns row hr
    refine (leads_deletion hw' hac hr (by simp [hst]) hns hg).bind ?_
    rintro w'' ⟨ht'', hde, hab⟩
    exact .refl ⟨⟨_, ht'', rfl⟩, hde, hab⟩
  · refine completing_of_locked ht ho rfl hf fun w' hw' => ?_
    refine (leads_reset hw.named hw').bind ?_
    rintro w'' ⟨ht'', hsy, hde, hab⟩
    exact .refl ⟨⟨_, ht'', rfl⟩, hsy, fun ns row hr => ⟨hde ns row hr, hab ns _⟩⟩

/-- `n` is created, and its deletion fails at Redis. -/
def cutShort : List Action :=
  (call 0 ⟨0, 0⟩ (.activate "n") 8 ++ call 1 ⟨1, 0⟩ (.withNamespaceExclusive "n") 6).map .sys ++
    [.store 1 .ok, .store 1 (.fail "timeout"),
      .sys (.advance 1 (.fail "clear redis data for \"n\": scan recommendation cache: timeout")),
      .sys (.crash 1)]

lemma plainStart_call (hop : PlainOp op) (t : ℕ) (session : Session) (n : ℕ) :
    ∀ a ∈ (call t session op n).map Action.sys, PlainStart a := by
  intro a ha
  obtain ⟨b, hb, rfl⟩ := List.mem_map.mp ha
  rcases List.mem_cons.mp hb with rfl | hb
  · exact hop
  · rw [List.eq_of_mem_replicate hb]
    trivial

theorem removal_resumable_cutShort :
    ∃ w, exec (step ⟨true, true, false⟩) (boot emptyStore ⟨[], [], []⟩) cutShort = some w ∧
      DeletingAt w.sys.db "n" 1 ∧
      Completing ⟨true, true, false⟩ w 1 ⟨1, 0⟩ (.withNamespaceExclusive "n") fun w' =>
        DeletedAt w'.sys.db "n" 1 ∧ Absent "n" 1 w'.stores := by
  have hv : (exec (step ⟨true, true, false⟩) (boot emptyStore ⟨[], [], []⟩) cutShort).map
      (fun w => (w.sys.db.row "n", w.sys.db.system.state, (w.sys.tasks 1).isNone,
        (w.sys.owner ⟨1, 0⟩).isNone, w.sys.locks.grants.isEmpty)) =
      some (some ⟨1, .deleting, true, none⟩, .active, true, true, true) := by decide +kernel
  obtain ⟨w, hw, hv⟩ := Option.map_eq_some_iff.mp hv
  simp only [Prod.mk.injEq, Option.isNone_iff_eq_none, List.isEmpty_iff] at hv
  obtain ⟨hr, ha, ht, ho, hl⟩ := hv
  have hd : DeletingAt w.sys.db "n" 1 := ⟨_, hr, rfl, rfl⟩
  have hn : ("n" : String) ≠ "" ∧ Plain "n" :=
    ⟨by decide, plain_of_end (by decide +kernel) (by decide +kernel)⟩
  have hp : ∀ a ∈ cutShort, PlainStart a := by
    rw [cutShort, List.map_append]
    refine List.forall_mem_append.mpr ⟨List.forall_mem_append.mpr ⟨?_, ?_⟩, by simp [PlainStart]⟩
    · exact plainStart_call (show PlainOp (.activate "n") from hn) 0 _ 8
    · exact plainStart_call (show PlainOp (.withNamespaceExclusive "n") from hn) 1 _ 6
  have hre := (removal_resumable false emptyStore (fun ns row hr => by cases hr) ⟨[], [], []⟩
    cutShort hp w hw).2 1 ⟨1, 0⟩ ht ho
  exact ⟨w, hw, hd, hre.1 "n" 1 hd ha fun x _ g hg => by simp [hl] at hg⟩

/-- `a` is deleted at its second generation while a writer of `a:g2` runs. -/
def overtaken : List Action :=
  let deletion (t : ℕ) : List Action :=
    (call t ⟨t, 0⟩ (.withNamespaceExclusive "a") 6).map .sys ++ List.replicate 14 (.store t .ok) ++
      [.sys (.advance t .ok)]
  (call 0 ⟨0, 0⟩ (.activate "a") 8).map .sys ++ deletion 1 ++
    (List.replicate 4 (Coordinator.Action.advance 1 .ok) ++
      call 2 ⟨2, 0⟩ (.activate "a") 8 ++ call 3 ⟨3, 0⟩ (.activate "a:g2") 8 ++
      call 4 ⟨4, 0⟩ (.withWriter "a:g2") 5).map .sys ++
    deletion 5 ++ [.write 4 .trending]

/-- The trending set of `a:g2` at its first generation is called like that of `a` at its second. -/
theorem deleted_although_key_remains :
    ∃ w w', exec (step ⟨true, true, false⟩) (boot emptyStore ⟨[], [], []⟩) overtaken = some w ∧
      step ⟨true, true, false⟩ w (.sys (.advance 5 .ok)) = some w' ∧
      ¬ DeletedAt w.sys.db "a" 2 ∧ DeletedAt w'.sys.db "a" 2 ∧
      PhysicalKind.nameOf .trending "a" 2 ∈ w'.stores.keys ∧ ¬ Absent "a" 2 w'.stores := by
  have hv : (exec (step ⟨true, true, false⟩) (boot emptyStore ⟨[], [], []⟩) overtaken).bind
      (fun w => (step ⟨true, true, false⟩ w (.sys (.advance 5 .ok))).map fun w' =>
        (w.sys.db.row "a", w'.sys.db.row "a", w'.stores.keys)) =
      some (some ⟨2, .deleting, false, none⟩, some ⟨2, .deleted, false, none⟩,
        ["trending:a:g2"]) := by decide +kernel
  obtain ⟨w, hw, hv⟩ := Option.bind_eq_some_iff.mp hv
  obtain ⟨w', hw', hv⟩ := Option.map_eq_some_iff.mp hv
  simp only [Prod.mk.injEq] at hv
  obtain ⟨hb, haf, hk⟩ := hv
  have hn : PhysicalKind.nameOf .trending "a" 2 ∈ w'.stores.keys := by
    rw [hk]
    decide +kernel
  refine ⟨w, w', hw, hw', ?_, ⟨_, haf, rfl, rfl⟩, hn, fun ha => ?_⟩
  · rintro ⟨row, hr, hs, -⟩
    obtain rfl := Option.some.inj (hb.symm.trans hr)
    cases hs
  · exact ha.keys _ hn (.inl rfl) trivial

end Codohue.Removal
