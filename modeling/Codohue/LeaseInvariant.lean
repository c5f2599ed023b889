import Codohue.CallSteps

/-!
The invariant that ties the locks of the calls to the rows they have read.

The locks alone say nothing about the rows. A call that has passed the system gate holds the
global lock shared, so only a global exclusive callback could close the gate; a writer
callback holds its namespace shared, so only an exclusive callback or an activation of that
namespace could move its row.
-/

namespace Codohue.LeaseInvariant

open Lifecycle LockTable Coordinator RowWrites CallSteps Transition

/-! ### The invariant -/

structure TaskInv (s : Sys) (t : ℕ) (k : Task) : Prop where
  owner : (∀ err, k.pc ≠ .returned err) → s.owner k.session = some t
  held : holding k.pc → ∀ w ∈ k.held, k.grant w ∈ s.locks
  wants : holding k.pc → ∀ w ∈ k.op.wants, w ∈ k.held ∨ w ∈ pending k.pc
  fits : Fits k.op k.pc
  gate : gated k.pc → s.db.system.state = .active
  row : ∀ lease received, k.pc = .writing lease received →
    ∃ ns row, k.op = .withWriter ns ∧ s.db.row ns = some row ∧ row.state = .active ∧
      row.generation = lease ∧ ∀ g ∈ received, g = lease

def Inv (s : Sys) : Prop := ∀ t k, s.tasks t = some k → TaskInv s t k

lemma inv_boot (db : Store) : Inv (boot db) := by
  intro t k h
  simp [boot] at h

variable {k' : Task} {ns : String}

variable {s s' : Sys} {t u : ℕ} {k l : Task}

section Others

lemma TaskInv.grant_mem (h : TaskInv s t k) (hl : locked k.pc) (hw : w ∈ k.op.wants) :
    k.grant w ∈ s.locks := by
  have hh := holding_of_locked hl
  refine h.held hh w ?_
  rcases h.wants hh w hw with hhe | hp
  · exact hhe
  · simp [pending_of_locked hl] at hp

lemma ne_returned_of_holding (h : holding pc) (err : Option Error) : pc ≠ .returned err := by
  rintro rfl
  simp [holding] at h

section

variable (hk : TaskInv s t k) (hl : TaskInv s u l) (hne : t ≠ u)

include hk hl hne

/-- Two calls that have not returned have different sessions. -/
lemma session_ne (hli : ∀ err, k.pc ≠ .returned err) (hli' : ∀ err, l.pc ≠ .returned err) :
    k.session ≠ l.session := by
  intro heq
  have hu := hl.owner hli'
  rw [← heq, hk.owner hli] at hu
  exact hne (Option.some.inj hu)

/-- **Exclusion between calls.** If one call holds a key exclusively, no other call that has
its locks holds that key. -/
theorem not_both (hlk : locked k.pc) (hll : locked l.pc) (hw : w ∈ k.op.wants)
    (hw' : w' ∈ l.op.wants) (hke : w.key = w'.key) (hx : w.mode = .exclusive) : False :=
  session_ne hk hl hne (ne_returned_of_holding (holding_of_locked hlk))
    (ne_returned_of_holding (holding_of_locked hll))
    (session_eq_of_exclusive (hk.grant_mem hlk hw) (hl.grant_mem hll hw') hke hx)

lemma spares_row (hlk : locked k.pc)
    (hw : namespaceLock ns .exclusive ∈ k.op.wants) (h : OnlyRow ns s.db db') :
    (gated l.pc → db'.system.state = s.db.system.state) ∧
    (∀ ns' lease recv, l.op = .withWriter ns' → l.pc = .writing lease recv →
      db'.row ns' = s.db.row ns') := by
  refine ⟨fun _ => by rw [h.system], fun ns' lease recv hop hpc => h.others ns' ?_⟩
  rintro rfl
  have hll : locked l.pc := by rw [hpc]; rfl
  have hs : namespaceLock ns' .shared ∈ l.op.wants := by simp [hop, Op.wants]
  exact not_both hk hl hne hlk hll hw hs rfl rfl

lemma effect_spares (hlk : locked k.pc) (he : Effect k s.db db') :
    (gated l.pc → db'.system.state = s.db.system.state) ∧
    (∀ ns lease recv, l.op = .withWriter ns → l.pc = .writing lease recv →
      db'.row ns = s.db.row ns) := by
  cases he with
  | none hdb => subst hdb; simp
  | row ns hw h => exact spares_row hk hl hne hlk hw h.toOnlyRow
  | activate ns hop hpc row h =>
    rw [(activate_ok h).1]
    exact spares_row hk hl hne hlk (by simp [hop, Op.wants]) (onlyRow_setRow s.db ns row)
  | any hw h =>
    have hga : ¬ gated l.pc := fun hg =>
      not_both hk hl hne hlk (locked_of_gated hg) hw (global_mem_wants hl.fits hg) rfl rfl
    refine ⟨fun hg => absurd hg hga, fun ns lease recv hop hpc => ?_⟩
    exact absurd (by rw [hpc]; rfl) hga

end

/-- A step of another call that keeps the session, the locks and the rows this call relies
on keeps its invariant. -/
lemma TaskInv.frame (h : TaskInv s u l)
    (ho : (∀ err, l.pc ≠ .returned err) → s'.owner l.session = s.owner l.session)
    (hl : ∀ g, g.session = l.session → holding l.pc → g ∈ s.locks → g ∈ s'.locks)
    (hdb : (gated l.pc → s'.db.system.state = s.db.system.state) ∧
      ∀ ns lease recv, l.op = .withWriter ns → l.pc = .writing lease recv →
        s'.db.row ns = s.db.row ns) : TaskInv s' u l where
  owner := fun hr => (ho hr).trans (h.owner hr)
  held := fun hh w hw => hl _ rfl hh (h.held hh w hw)
  wants := h.wants
  fits := h.fits
  gate := fun hg => (hdb.1 hg).trans (h.gate hg)
  row := fun lease recv hpc => by
    obtain ⟨ns, row, hop, hro, hre⟩ := h.row lease recv hpc
    exact ⟨ns, row, hop, (hdb.2 ns lease recv hop hpc).trans hro, hre⟩

lemma Inv.of_put (hs : Inv s) (ht : s'.tasks = Function.update s.tasks t (some k'))
    (how : TaskInv s' t k') (ho : ∀ u l, u ≠ t → TaskInv s u l → TaskInv s' u l) :
    Inv s' := by
  intro u l hl
  rw [ht] at hl
  by_cases hu : u = t
  · subst hu
    rw [Function.update_self] at hl
    exact Option.some.inj hl ▸ how
  · rw [Function.update_of_ne hu] at hl
    exact ho u l hu (hs u l hl)

end Others

/-! ### Preservation -/

section Preservation

variable {o : Outcome}
variable {a : Action}

lemma TaskInv.finish (hk : TaskInv s t k) (hl : ∀ err, k.pc ≠ .returned err)
    (ho : s'.owner = s.owner) :
    TaskInv s' t (k.goto (.releasing todo err)) where
  owner := fun _ => by rw [ho]; exact hk.owner hl
  held := by simp [Task.goto, holding]
  wants := by simp [Task.goto, holding]
  fits := trivial
  gate := by simp [Task.goto, gated]
  row := by simp [Task.goto]

lemma TaskInv.shifts (hk : TaskInv s t k) (h : Shifts k k') (hdb : s'.db = s.db)
    (hc : Clears s s' k k') (hl : ∀ err, k.pc ≠ .returned err) : TaskInv s' t k' := by
  have hhe : holding k.pc → holding k'.pc → ∀ w ∈ k'.held, k.grant w ∈ s'.locks :=
    fun hh hh' w hw => (hc.held hh' w hw).elim
      (fun hol => hc.locks _ (hk.held hh w hol) (.inr hh')) id
  have ho : (∀ err, k'.pc ≠ .returned err) → s'.owner k.session = some t := fun hr =>
    (hc.owner _ (.inr hr)).trans (hk.owner hl)
  cases h with
  | locked hpc =>
    refine ⟨ho, hhe (by rw [hpc]; rfl), fun _ w hw => ?_, trivial, nofun, nofun⟩
    have hwa := hk.wants (by rw [hpc]; rfl) w hw
    rwa [hpc] at hwa
  | lock hpc =>
    refine ⟨ho, hhe (by rw [hpc]; rfl), fun _ w hw => ?_, trivial, nofun, nofun⟩
    rcases hk.wants (by rw [hpc]; rfl) w hw with hol | ht
    · exact .inl (List.mem_append_left _ hol)
    · rw [hpc] at ht
      rcases List.mem_cons.mp ht with rfl | hre
      · exact .inl (by simp)
      · exact .inr hre
  | refused | unlock | done => exact ⟨ho, nofun, nofun, trivial, nofun, nofun⟩
  | returned => exact ⟨fun hr => absurd rfl (hr _), nofun, nofun, trivial, nofun, nofun⟩
  | writing hpc hs =>
    refine ⟨ho, hhe (by rw [hpc]; rfl), fun _ w hw => ?_, ?_, fun _ => ?_, ?_⟩
    · have hwa := hk.wants (by rw [hpc]; rfl) w hw
      rwa [hpc] at hwa
    · have hf := hk.fits
      rwa [hpc] at hf
    · rw [hdb]
      exact hk.gate (by rw [hpc]; rfl)
    · intro lease' received'' hpc'
      obtain ⟨rfl, rfl⟩ := Pc.writing.inj hpc'
      obtain ⟨ns, row, hop, hro, ha, hge, hal⟩ := hk.row _ _ hpc
      exact ⟨ns, row, hop, hdb ▸ hro, ha, hge, fun g hg => (hs g hg).elim id (hal g)⟩

lemma inv_shift (hs : Inv s) (hk : s.tasks t = some k) (h : Shifts k k')
    (ht : s'.tasks = (s.put t k').tasks) (hdb : s'.db = s.db) (hc : Clears s s' k k') :
    Inv s' := by
  have hli : ∀ err, k.pc ≠ .returned err := by
    cases h <;> simp_all
  refine hs.of_put ht ((hs t k hk).shifts h hdb hc hli) fun u l hne hl => ?_
  refine hl.frame (fun hr => ?_) (fun g hg hh hm => ?_)
    ⟨fun _ => by rw [hdb], fun _ _ _ _ _ => by rw [hdb]⟩
  · exact hc.owner _ (.inl (session_ne hl (hs t k hk) hne hr hli))
  · exact hc.locks g hm (.inl (hg ▸ session_ne hl (hs t k hk) hne (ne_returned_of_holding hh) hli))

lemma TaskInv.goto (hk : TaskInv s t k) (hl : locked k.pc) (hf : Fits k.op pc)
    (hg : gated pc → db'.system.state = .active)
    (hr : ∀ lease recv, pc = .writing lease recv → ∃ ns row, k.op = .withWriter ns ∧
      db'.row ns = some row ∧ row.state = .active ∧ row.generation = lease ∧
        ∀ g ∈ recv, g = lease) :
    TaskInv { s.put t (k.goto pc) with db := db' } t (k.goto pc) := by
  refine ⟨fun _ => hk.owner (ne_returned_of_holding (holding_of_locked hl)),
    fun _ => hk.held (holding_of_locked hl),
    fun _ w hw => ?_, hf, hg, hr⟩
  rcases hk.wants (holding_of_locked hl) w hw with hh | hp
  · exact .inl hh
  · simp [pending_of_locked hl] at hp

lemma TaskInv.turns (hk : TaskInv s t k) (h : Turns s.db k o db' pc) :
    TaskInv { s.put t (k.goto pc) with db := db' } t (k.goto pc) := by
  have hl := h.locked
  cases h with
  | finish => exact hk.finish (ne_returned_of_holding (holding_of_locked hl)) rfl
  | callback _ hop | global hop => exact hk.goto hl ⟨_, hop⟩ nofun nofun
  | gate _ ha hg hf =>
    refine hk.goto hl hf (fun _ => ha) ?_
    rcases hg with rfl | rfl <;> nofun
  | lease hpc hop hr ha =>
    refine hk.goto hl ⟨_, hop⟩ (fun _ => hk.gate (by rw [hpc]; rfl)) fun lease recv hpc' => ?_
    obtain ⟨rfl, rfl⟩ := Pc.writing.inj hpc'
    exact ⟨_, _, hop, hr, ha, rfl, by simp⟩
  | startDelete hpc hop => exact hk.goto hl ⟨_, hop⟩ (fun _ => hk.gate (by rw [hpc]; rfl)) nofun
  | delete hop hpc h =>
    exact hk.goto hl ⟨_, hop⟩ (fun _ => h.1.system ▸ hk.gate (by rw [hpc]; rfl)) nofun

lemma inv_start (hs : Inv s) (hf : (s.tasks t).isNone ∧ (s.owner session).isNone) :
    Inv { s.put t ⟨session, op, [], op.entry⟩ with
      owner := Function.update s.owner session (some t) } := by
  refine hs.of_put rfl ?_ fun u l hne hl => ?_
  · rcases entry_cases op with he | he
    · rw [he]
      exact ⟨fun _ => Function.update_self .., by simp, fun _ w hw => .inr hw, trivial, nofun,
        nofun⟩
    · rw [he]
      exact ⟨fun _ => Function.update_self .., by simp, nofun, trivial, nofun, nofun⟩
  · refine hl.frame (fun hr => ?_) (fun _ _ _ hg => hg) ⟨fun _ => rfl, fun _ _ _ _ _ => rfl⟩
    -- the borrowed session was free
    refine Function.update_of_ne (fun heq => ?_) _ _
    have hu := hl.owner hr
    rw [heq, Option.isNone_iff_eq_none.mp hf.2] at hu
    cases hu

lemma upsertConfig_rows (hk : TaskInv s t k) (hpc : k.pc = .writing lease recv)
    (hop : k.op = .withWriter ns) :
    (upsertConfig s.db ns).system = s.db.system ∧
      ∀ ns', (upsertConfig s.db ns).row ns' = s.db.row ns' := by
  obtain ⟨ns', row, hop', hr, ha, -⟩ := hk.row lease recv hpc
  obtain rfl : ns' = ns := Op.withWriter.inj (hop'.symm.trans hop)
  exact upsertConfig_of_active hr ha

lemma inv_rows (hs : Inv s) (hsy : db'.system = s.db.system)
    (hr : ∀ ns, db'.row ns = s.db.row ns) : Inv { s with db := db' } :=
  fun u l hl => (hs u l hl).frame (fun _ => rfl) (fun _ _ _ hg => hg)
    ⟨fun _ => congrArg SystemLifecycle.state hsy, fun ns _ _ _ _ => hr ns⟩

section

variable (hs : Inv s) (h : step s a = some s')

include hs h

/-- **Every step keeps the invariant.** -/
theorem inv_step : Inv s' := by
  cases step_took h with
  | start hf => exact inv_start hs hf
  | shift hk hsh hta hdb hc => exact inv_shift hs hk hsh hta hdb hc
  | statement hk ht =>
    refine hs.of_put rfl ((hs _ _ hk).turns ht) fun u l hne hl => ?_
    exact hl.frame (fun _ => rfl) (fun _ _ _ hg => hg)
      (effect_spares (hs _ _ hk) hl hne.symm ht.locked ht.effect)
  | upsertConfig hk hpc hop =>
    refine run_of (P := fun db => Inv { s with db := db }) _ _ hs fun db' a he => ?_
    cases he
    obtain ⟨hsy, hr⟩ := upsertConfig_rows (hs _ _ hk) hpc hop
    exact inv_rows hs hsy hr
  | @crash proc =>
    intro u l hl
    obtain ⟨hl', ha⟩ := Option.filter_eq_some_iff.mp hl
    have hp : l.session.proc ≠ proc := by simpa using ha
    refine (hs u l hl').frame (fun _ => if_neg hp) (fun g hg _ hm => ?_)
      ⟨fun _ => rfl, fun _ _ _ _ _ => rfl⟩
    exact mem_drop.mpr ⟨hm, by simp [hg, hp]⟩

/-- One step is an activation of `ns` that takes it from a deleted generation to the next. -/
def Recreates (s : Sys) (a : Action) (ns : String) : Prop :=
  ∃ t o k row, a = .advance t o ∧ s.tasks t = some k ∧ k.op = .activate ns ∧
    k.pc = .activating ∧ s.db.row ns = some row ∧ row.state = .deleted

/-- **What one step does to the rows**: it takes an effect of a call that has its locks, or
leaves every row as it is. -/
theorem step_effect :
    (∃ t o k, a = .advance t o ∧ s.tasks t = some k ∧ locked k.pc ∧ Effect k s.db s'.db) ∨
    ∀ ns, s'.db.row ns = s.db.row ns := by
  cases step_took h with
  | start | crash => exact .inr fun _ => rfl
  | shift _ _ _ hdb => exact .inr fun _ => by rw [hdb]
  | statement hk ht => exact .inl ⟨_, _, _, rfl, hk, ht.locked, ht.effect⟩
  | upsertConfig hk hpc hop =>
    refine .inr (run_of (P := fun db => ∀ ns, db.row ns = s.db.row ns) _ _ (fun _ => rfl)
      fun db' a he => ?_)
    cases he
    exact (upsertConfig_rows (hs _ _ hk) hpc hop).2

lemma step_forward : Forward s.db s'.db := by
  rcases step_effect hs h with ⟨t, o, k, -, -, -, he⟩ | hr
  · exact he.forward
  · intro ns
    rw [hr ns]

/-- Only a re-creation takes a namespace to another generation. -/
theorem step_generation (hr : s.db.row ns = some row) (hno : ¬ Recreates s a ns) :
    ∃ row', s'.db.row ns = some row' ∧ row'.generation = row.generation := by
  have hwi : Within s.db s'.db →
      ∃ row', s'.db.row ns = some row' ∧ row'.generation = row.generation := fun hw => by
    obtain ⟨row', hr', hg, -⟩ := hw ns row hr
    exact ⟨row', hr', hg⟩
  rcases step_effect hs h with ⟨t, o, k, rfl, hk, -, he⟩ | hro
  · cases he with
    | none hdb => exact ⟨row, hdb ▸ hr, rfl⟩
    | row ns' hw h => exact hwi h.within
    | any hw h => exact hwi h
    | activate ns' hop hpc new ha =>
      obtain ⟨hdb, -, hc⟩ := activate_ok ha
      rw [hdb, setRow_row]
      split_ifs with hns
      · subst hns
        rcases hc with hn | hsa | ⟨old, ho, hd, -⟩
        · rw [hn] at hr
          cases hr
        · obtain rfl : new = row := Option.some.inj (hsa.symm.trans hr)
          exact ⟨new, rfl, rfl⟩
        · exact absurd ⟨t, o, k, old, rfl, hk, hop, hpc, ho, hd⟩ hno
      · exact ⟨row, hr, rfl⟩
  · exact ⟨row, (hro ns).trans hr, rfl⟩

end

/-- How a call moves on: it reads its row once, and a writer callback keeps its lease. -/
structure Next (k k' : Task) : Prop where
  op : k'.op = k.op
  session : k'.session = k.session
  enter : entering k'.pc → entering k.pc
  lease : ∀ lease received, k'.pc = .writing lease received →
    entering k.pc ∨ ∃ received', k.pc = .writing lease received'

lemma Next.refl (k : Task) : Next k k := ⟨rfl, rfl, id, fun _ recv h => .inr ⟨recv, h⟩⟩

lemma Next.goto (k : Task) (he : entering pc = false)
    (hw : ∀ lease recv, pc ≠ .writing lease recv) : Next k (k.goto pc) :=
  ⟨rfl, rfl, fun h => absurd h (by simp [Task.goto, he]),
    fun lease recv h => absurd h (hw lease recv)⟩

lemma Next.put (h : Next k k') (ht : s'.tasks = (s.put t k').tasks) (hk : s.tasks t = some k)
    (hl : s.tasks u = some l) : ∃ l', s'.tasks u = some l' ∧ Next l l' := by
  rw [ht]
  by_cases hu : u = t
  · subst hu
    obtain rfl : k = l := Option.some.inj (hk.symm.trans hl)
    exact ⟨k', put_self .., h⟩
  · exact ⟨l, (put_of_ne s k' hu).trans hl, .refl l⟩

lemma Next.shifts (h : Shifts k k') : Next k k' := by
  cases h with
  | locked hpc | lock hpc => exact ⟨rfl, rfl, fun _ => by rw [hpc]; rfl, nofun⟩
  | refused | unlock | returned | done => exact .goto k rfl nofun
  | writing hpc =>
    refine ⟨rfl, rfl, nofun, fun lease recv h => ?_⟩
    obtain ⟨rfl, -⟩ := Pc.writing.inj h
    exact .inr ⟨_, hpc⟩

lemma Next.turns (h : Turns s.db k o db' pc) : Next k (k.goto pc) := by
  cases h with
  | finish | callback | startDelete | delete | global => exact .goto k rfl nofun
  | gate hpc _ hg =>
    refine ⟨rfl, rfl, fun _ => by rw [hpc]; rfl, ?_⟩
    rcases hg with rfl | rfl <;> nofun
  | lease hpc => exact ⟨rfl, rfl, nofun, fun _ _ _ => .inl (by rw [hpc]; rfl)⟩

/-- **What one step does to a call**: it goes on, or dies with its process. -/
theorem step_next (h : step s a = some s') (hl : s.tasks u = some l) :
    (∃ l', s'.tasks u = some l' ∧ Next l l') ∨ a = .crash l.session.proc ∧ s'.tasks u = none := by
  cases step_took h with
  | @start t _ _ hf =>
    have hne : u ≠ t := by
      rintro rfl
      simp [hl] at hf
    exact .inl ⟨l, (put_of_ne s _ hne).trans hl, .refl l⟩
  | shift hk hs ht => exact .inl ((Next.shifts hs).put ht hk hl)
  | statement hk htu => exact .inl ((Next.turns htu).put rfl hk hl)
  | upsertConfig => exact .inl ⟨l, hl, .refl l⟩
  | @crash proc =>
    by_cases hp : l.session.proc = proc
    · exact .inr ⟨by rw [hp], by simp [hl, hp]⟩
    · exact .inl ⟨l, by simp [hl, hp], .refl l⟩

end Preservation

/-- The invariant holds in every state that a run from a fresh lock server reaches. -/
theorem inv_exec (h : exec step (boot db) as = some s) : Inv s :=
  exec_invariant (fun _ _ _ => inv_step) h (inv_boot db)

/-- No row moves back in the rest of a run. -/
theorem forward_exec (hs : Inv s) (h : exec step s as = some s') : Forward s.db s'.db := by
  have hb : Inv s' ∧ Forward s.db s'.db :=
    exec_invariant (I := fun m => Inv m ∧ Forward s.db m.db)
      (fun m a m' hm hst => ⟨inv_step hm.1 hst, hm.2.trans (step_forward hm.1 hst)⟩) h
      ⟨hs, .refl s.db⟩
  exact hb.2

end Codohue.LeaseInvariant
