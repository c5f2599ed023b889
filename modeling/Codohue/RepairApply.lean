import Codohue.RepairService

/-!
What applying one item does to the two stores, under any pattern of failures.

An item only touches its own cells: the points it copies from, the cells it copies to, its own
mapping and its own row. `Progress` is what holds wherever the item stops, and `Moved` is what
holds once it has been moved. With healthy stores the item moves exactly if `CanMove`.
-/

namespace Codohue.Repair

open Script Prog

variable {V : Type} {w : World V}

/-! ### Single operations -/

variable {S : World V → Prop} {c : String} {run : ℕ} {x : Identity}

variable {id : ℤ}
lemma wp_updateRun {id : ℕ} (hG : G .ok) (hs : S w) (hok : ∀ runs, w.runs.Updated id f runs →
      D () { w with runs := runs, log := note ++ w.log } ∧
        S { w with runs := runs, log := note ++ w.log }) :
    Wp G (updateRun id f note) S D w := by
  refine wp_op hG hs fun a w' h => ?_
  rcases hu : w.runs.update id f with e | runs
  · simp [hu, Except.map] at h
  · simp only [hu, Except.map, Except.ok.injEq, Prod.mk.injEq] at h
    obtain ⟨-, rfl⟩ := h
    exact hok runs (Runs.update_ok hu)

lemma wp_updateRun_healthy {id : ℕ}
    (ha : ∀ row, w.runs.get id = some row → (f row).run.state.active → ¬ w.runs.Busy id)
    (hok : ∀ runs, w.runs.Updated id f runs → D () { w with runs := runs, log := note ++ w.log }) :
    Wp Healthy (updateRun id f note) S D w := by
  obtain ⟨runs, hu⟩ : ∃ runs, w.runs.update id f = .ok runs := by
    unfold Runs.update
    split
    · exact ⟨_, rfl⟩
    · next row hr => exact ⟨_, dif_pos (ha row hr)⟩
  exact wp_op_healthy (by rw [hu]; rfl) (hok runs (Runs.update_ok hu))

lemma wp_checkPointID
    (hs : id < 1 → S w) (hok : 1 ≤ id → D () w) : Wp G (checkPointID id) S D w := by
  unfold checkPointID
  split_ifs with hid
  · exact wp_throw (hs hid)
  · exact wp_pure (hok (by omega))

lemma wp_readPoint {D : Option (Point V) → World V → Prop} (hG : G .ok) (hs : S w)
    (hok : D (w.points.lookup (c, id)) w) : Wp G (readPoint c id) S D w := by
  refine wp_read hG hs fun a h => ?_
  rwa [← Except.ok.inj h]

/-! ### Copies and deletions -/

/-- The point of `source` is written to `target`. -/
def World.copy (w : World V) (run : ℕ) (x : Identity) (c : String) (source target : ℤ)
    (p : Point V) : World V :=
  { w with
    points := w.points.insert (c, target) p
    log := .copied run x c source target (w.points.lookup (c, target)) :: w.log }

def World.delete (w : World V) (run : ℕ) (x : Identity) (c : String) (id : ℤ) : World V :=
  { w with
    points := w.points.erase (c, id)
    log := .deleted run x c id (w.points.lookup (c, id)) :: w.log }

variable {target : ℤ}

lemma wp_copyPointVerified (hG : G .ok) (hne : source ≠ target) (hst : S w)
    (hco : ∀ p, w.points.lookup (c, source) = some p → 1 ≤ source → 1 ≤ target →
      S (w.copy run x c source target p) ∧ D () (w.copy run x c source target p)) :
    Wp G (copyPointVerified env run x c source target) S D w := by
  refine wp_bind (wp_checkPointID (fun _ => hst) fun hs => ?_)
  refine wp_bind (wp_checkPointID (fun _ => hst) fun ht => ?_)
  simp only [if_neg hne]
  refine wp_bind (wp_readPoint hG hst ?_)
  cases hp : w.points.lookup (c, source) with
  | none => exact wp_throw hst
  | some p =>
    obtain ⟨hc, hd⟩ := hco p hp hs ht
    refine wp_bind (wp_op hG hst fun a w' h => ?_)
    obtain ⟨-, rfl⟩ : _ ∧ w.copy run x c source target p = w' := Prod.mk.inj (Except.ok.inj h)
    refine ⟨?_, hc⟩
    refine wp_bind (wp_readPoint hG hc ?_)
    -- what is read back is what was written
    have hr : (w.copy run x c source target p).points.lookup (c, target) = some p :=
      AList.lookup_insert w.points
    rw [hr]
    refine wp_bind (wp_require (fun _ => ?_) fun h => absurd rfl h)
    exact wp_require (fun _ => hd) fun h => absurd rfl h

lemma wp_deletePoint (hG : G .ok) (hs : S w)
    (hd : S (w.delete run x c id) ∧ D () (w.delete run x c id)) :
    Wp G (deletePoint run x c id) S D w := by
  refine wp_bind (wp_checkPointID (fun _ => hs) fun _ => ?_)
  refine wp_op hG hs fun a w' h => ?_
  obtain ⟨-, rfl⟩ : _ ∧ w.delete run x c id = w' := Prod.mk.inj (Except.ok.inj h)
  exact hd.symm

lemma retarget_ok {m : Mappings} (h : m.retarget x n = .ok m') :
    (m.get x).isSome ∧ ∃ hf : ¬ m.Taken x n, m' = m.set x n hf := by
  unfold Mappings.retarget at h
  split_ifs at h with hn hf
  refine ⟨?_, hf, (Except.ok.inj h).symm⟩
  rcases hx : m.get x with _ | n'
  · simp [hx] at hn
  · rfl

lemma wp_retargetMapping (hG : G .ok) (hs : S w)
    (hok : (w.mappings.get x).isSome → ∀ hf : ¬ w.mappings.Taken x n,
      D () { w with mappings := w.mappings.set x n hf, log := .retargeted run x n :: w.log } ∧
        S { w with mappings := w.mappings.set x n hf, log := .retargeted run x n :: w.log }) :
    Wp G (retargetMapping run x n) S D w := by
  refine wp_op hG hs fun a w' h => ?_
  rcases hr : w.mappings.retarget x n with e | m
  · simp [hr, Except.map] at h
  · obtain ⟨hso, hf, rfl⟩ := retarget_ok hr
    simp only [hr, Except.map, Except.ok.injEq, Prod.mk.injEq] at h
    obtain ⟨-, rfl⟩ := h
    exact hok hso hf

/-! ### One item -/

/-- The id an item should have. -/
def Item.goal (item : Item) : ℤ := item.targetNumericID.getD 0

/-- A cell that the item copies to. -/
def IsTarget (item : Item) (target : ℤ) (key : String × ℤ) : Prop :=
  key.1 ∈ copyableCollections item ∧ key.2 = target

lemma mem_moves : m ∈ moves item target ↔
      m.1 ∈ copyableCollections item ∧ m.2 ∈ item.oldNumericIDs ∧ m.2 ≠ target := by
  simp [moves, Item.stale, List.product, Prod.ext_iff, and_assoc]

lemma getLast?_filter_product {α β : Type} [DecidableEq α] {as : List α} {bs : List β} {a : α}
    {b : β} (ha : a ∈ as) (hb : bs.getLast? = some b) :
    ((as.product bs).filter fun m => m.1 = a).getLast? = some (a, b) := by
  induction as with
  | nil => cases ha
  | cons a' as ih =>
    have hc : (a' :: as).product bs = bs.map (a', ·) ++ as.product bs := rfl
    rw [hc, List.filter_append, List.getLast?_append]
    by_cases hme : a ∈ as
    · rw [ih hme]
      rfl
    · obtain rfl : a = a' := (List.mem_cons.mp ha).resolve_right hme
      have hr : (as.product bs).filter (fun m => m.1 = a) = [] := by
        rw [List.filter_eq_nil_iff]
        intro m hm
        obtain ⟨a', ha', b', -, rfl⟩ : ∃ a' ∈ as, ∃ b' ∈ bs, (a', b') = m := by
          simpa [List.product] using hm
        have hne : a' ≠ a := fun heq => hme (heq ▸ ha')
        simpa using hne
      have hal : (bs.map (a, ·)).filter (fun m => m.1 = a) = bs.map (a, ·) := by
        simp
      rw [hr, hal, List.getLast?_map, hb]
      rfl

/-- An effect of the item, with what it displaced: the old content of one of its own cells. -/
def Own (run : ℕ) (item : Item) (target : ℤ) (w : World V) : Effect V → Prop
  | .copied r x c s t displaced =>
    r = run ∧ x = item.identity ∧ t = target ∧ (c, s) ∈ moves item target ∧
      (displaced = w.points.lookup (c, target) ∨
        ∃ old, (c, old) ∈ moves item target ∧ displaced = w.points.lookup (c, old))
  | .deleted r x c id gone =>
    r = run ∧ x = item.identity ∧ (c, id) ∈ moves item target ∧
      (gone = w.points.lookup (c, id) ∨ gone = none)
  | .retargeted r x n => r = run ∧ x = item.identity ∧ n = target
  | _ => False

/-- What an item does to the mappings and the points, wherever it stops. -/
structure Progress (run : ℕ) (item : Item) (target : ℤ) (w w' : World V) : Prop where
  nextID : w'.nextID = w.nextID
  mapping : w'.mappings.get = w.mappings.get ∨
    w'.mappings.get = Function.update w.mappings.get item.identity (some target)
  frame : ∀ key, ¬ IsTarget item target key → key ∉ moves item target →
    w'.points.lookup key = w.points.lookup key
  sources : ∀ m ∈ moves item target,
    w'.points.lookup m = w.points.lookup m ∨ w'.points.lookup m = none
  targets : ∀ c, w'.points.lookup (c, target) = w.points.lookup (c, target) ∨
    ∃ old, (c, old) ∈ moves item target ∧ w'.points.lookup (c, target) = w.points.lookup (c, old)
  log : ∃ new, w'.log = new ++ w.log ∧ ∀ e ∈ new, Own run item target w e

/-- With healthy stores, the item can be moved. -/
structure CanMove (item : Item) (target : ℤ) (w : World V) : Prop where
  positive : ∀ m ∈ moves item target, 1 ≤ m.2 ∧ 1 ≤ target
  present : ∀ m ∈ moves item target, (w.points.lookup m).isSome
  mapped : (w.mappings.get item.identity).isSome
  free : ¬ w.mappings.Taken item.identity target

/-- The item has been moved. -/
structure Moved (run : ℕ) (item : Item) (target : ℤ) (w w' : World V) : Prop where
  can : CanMove item target w
  mapping : w'.mappings.get = Function.update w.mappings.get item.identity (some target)
  landed : ∀ c ∈ copyableCollections item, ∀ old, (item.stale target).getLast? = some old →
    w'.points.lookup (c, target) = w.points.lookup (c, old)
  gone : ∀ m ∈ moves item target, w'.points.lookup m = none
  logged : ∃ new, w'.log = new ++ w.log ∧ ∀ m ∈ moves item target,
    .deleted run item.identity m.1 m.2 (w.points.lookup m) ∈ new

variable {item : Item} {w' : World V}

namespace Progress

lemma refl (w : World V) : Progress run item target w w where
  nextID := rfl
  mapping := .inl rfl
  frame _ _ _ := rfl
  sources _ _ := .inl rfl
  targets _ := .inl rfl
  log := ⟨[], rfl, by simp⟩

lemma log_cons {log : List (Effect V)} {e : Effect V}
    (h : ∃ new, log = new ++ w.log ∧ ∀ e ∈ new, Own run item target w e)
    (he : Own run item target w e) :
    ∃ new, e :: log = new ++ w.log ∧ ∀ e ∈ new, Own run item target w e := by
  obtain ⟨new, hl, hn⟩ := h
  exact ⟨e :: new, by rw [hl]; rfl, List.forall_mem_cons.mpr ⟨he, hn⟩⟩

section

variable (h : Progress run item target w w')

include h

lemma copy (hm : (c, source) ∈ moves item target) (hp : w.points.lookup (c, source) = some p) :
    Progress run item target w (w'.copy run item.identity c source target p) where
  nextID := h.nextID
  mapping := h.mapping
  frame := by
    intro key ht hk
    have hne : key ≠ (c, target) := by
      rintro rfl
      exact ht ⟨(mem_moves.mp hm).1, rfl⟩
    exact (AList.lookup_insert_ne hne).trans (h.frame key ht hk)
  sources := by
    intro m hm'
    have hne : m ≠ (c, target) := by
      rintro rfl
      exact (mem_moves.mp hm').2.2 rfl
    exact (h.sources m hm').imp (AList.lookup_insert_ne hne).trans
      (AList.lookup_insert_ne hne).trans
  targets := by
    intro c'
    by_cases hc : c' = c
    · subst hc
      exact .inr ⟨source, hm, (AList.lookup_insert w'.points).trans hp.symm⟩
    · have hne : (c', target) ≠ (c, target) := fun heq => hc (Prod.mk.inj heq).1
      exact (h.targets c').imp (AList.lookup_insert_ne hne).trans fun ⟨id, hi, he⟩ =>
        ⟨id, hi, (AList.lookup_insert_ne hne).trans he⟩
  log := log_cons h.log ⟨rfl, rfl, rfl, hm, h.targets c⟩

lemma delete (hm : (c, id) ∈ moves item target) :
    Progress run item target w (w'.delete run item.identity c id) where
  nextID := h.nextID
  mapping := h.mapping
  frame := by
    intro key ht hk
    have hne : key ≠ (c, id) := fun heq => hk (heq ▸ hm)
    exact (AList.lookup_erase_ne hne).trans (h.frame key ht hk)
  sources := by
    intro m hm'
    by_cases heq : m = (c, id)
    · exact .inr (heq ▸ AList.lookup_erase (c, id) w'.points)
    · exact (h.sources m hm').imp (AList.lookup_erase_ne heq).trans
        (AList.lookup_erase_ne heq).trans
  targets := by
    intro c'
    have hne : (c', target) ≠ (c, id) := fun heq =>
      (mem_moves.mp hm).2.2 (Prod.mk.inj heq).2.symm
    exact (h.targets c').imp (AList.lookup_erase_ne hne).trans fun ⟨id, hi, he⟩ =>
      ⟨id, hi, (AList.lookup_erase_ne hne).trans he⟩
  log := log_cons h.log ⟨rfl, rfl, hm, h.sources _ hm⟩

lemma retarget (hf : ¬ w'.mappings.Taken item.identity target) :
    Progress run item target w { w' with
      mappings := w'.mappings.set item.identity target hf
      log := .retargeted run item.identity target :: w'.log } where
  nextID := h.nextID
  mapping := by
    right
    funext y
    rw [Mappings.get_set, Function.update_apply]
    split_ifs with hy
    · rfl
    · rcases h.mapping with hm | hm
      · rw [hm]
      · rw [hm, Function.update_of_ne hy]
  frame := h.frame
  sources := h.sources
  targets := h.targets
  log := log_cons h.log ⟨rfl, rfl, rfl⟩

lemma withRuns (runs : Runs) :
    Progress run item target w { w' with runs := runs, log := [] ++ w'.log } :=
  ⟨h.nextID, h.mapping, h.frame, h.sources, h.targets, h.log⟩

end

end Progress

/-- The copies `done` have been made and nothing else. -/
structure Copied (target : ℤ) (done : List (String × ℤ)) (w w' : World V) : Prop where
  runs : w'.runs = w.runs
  mappings : w'.mappings = w.mappings
  kept : ∀ key, key.2 ≠ target → w'.points.lookup key = w.points.lookup key
  landed : ∀ c m, (done.filter fun m => m.1 = c).getLast? = some m →
    w'.points.lookup (c, target) = w.points.lookup m
  present : ∀ m ∈ done, (w.points.lookup m).isSome ∧ 1 ≤ m.2 ∧ 1 ≤ target

/-- The points `done` are gone, and nothing else. -/
structure Deleted (run : ℕ) (x : Identity) (done : List (String × ℤ)) (w w' : World V) : Prop where
  runs : w'.runs = w.runs
  mappings : w'.mappings = w.mappings
  points : ∀ key, w'.points.lookup key = if key ∈ done then none else w.points.lookup key
  logged : ∃ new, w'.log = new ++ w.log ∧
    ∀ m ∈ done, .deleted run x m.1 m.2 (w.points.lookup m) ∈ new

section Phases

variable {done : List (String × ℤ)}

lemma Copied.copy (h : Copied target done w w') (hp : w.points.lookup (c, source) = some p)
    (hpo : 1 ≤ source ∧ 1 ≤ target) :
    Copied target (done ++ [(c, source)]) w (w'.copy run x c source target p) where
  runs := h.runs
  mappings := h.mappings
  kept := by
    intro key hk
    have hne : key ≠ (c, target) := fun heq => hk (heq ▸ rfl)
    exact (AList.lookup_insert_ne hne).trans (h.kept key hk)
  landed := by
    intro c' m hm
    by_cases hc : c = c'
    · subst hc
      obtain rfl : (c, source) = m := by simpa using hm
      exact (AList.lookup_insert w'.points).trans hp.symm
    · have hne : (c', target) ≠ (c, target) := fun heq => hc (Prod.mk.inj heq).1.symm
      refine (AList.lookup_insert_ne hne).trans (h.landed c' m ?_)
      simpa [hc] using hm
  present := by
    intro m hm
    rcases List.mem_append.mp hm with hm | hm
    · exact h.present m hm
    · obtain rfl := List.mem_singleton.mp hm
      exact ⟨by rw [hp]; rfl, hpo⟩

lemma Deleted.delete (h : Deleted run x done w w') (c : String) (id : ℤ) :
    Deleted run x (done ++ [(c, id)]) w (w'.delete run x c id) where
  runs := h.runs
  mappings := h.mappings
  points := by
    intro key
    by_cases heq : key = (c, id)
    · subst heq
      have hg : (w'.delete run x c id).points.lookup (c, id) = none :=
        AList.lookup_erase (c, id) w'.points
      simp [hg]
    · have hl : (w'.delete run x c id).points.lookup key = w'.points.lookup key :=
        AList.lookup_erase_ne heq
      rw [hl, h.points key]
      simp [heq]
  logged := by
    obtain ⟨new, hlo, hn⟩ := h.logged
    refine ⟨.deleted run x c id (w'.points.lookup (c, id)) :: new, congrArg _ hlo, ?_⟩
    intro m hm
    by_cases hd : m ∈ done
    · exact List.mem_cons_of_mem _ (hn m hd)
    · obtain rfl : m = (c, id) := by simpa [hd] using hm
      have hl : w'.points.lookup (c, id) = w.points.lookup (c, id) := by
        rw [h.points, if_neg hd]
      rw [← hl]
      exact List.mem_cons_self

lemma wp_copies (hG : G .ok) :
    Wp G (forEach (fun m => copyPointVerified env run item.identity m.1 m.2 target)
      (moves item target)) (fun w' => Progress run item target w w' ∧ w'.runs = w.runs)
      (fun _ w' => Progress run item target w w' ∧ Copied target (moves item target) w w') w := by
  refine wp_forEach_done (I := fun done w' => Progress run item target w w' ∧
    Copied target done w w') ?_ ⟨.refl w, rfl, rfl, fun _ _ => rfl, by simp, by simp⟩
  rintro done ⟨c, source⟩ w' hm ⟨hpr, hc⟩
  have hne : source ≠ target := (mem_moves.mp hm).2.2
  refine wp_copyPointVerified hG hne ⟨hpr, hc.runs⟩ fun p hp hs ht => ?_
  rw [hc.kept (c, source) hne] at hp
  exact ⟨⟨hpr.copy hm hp, hc.runs⟩, hpr.copy hm hp, hc.copy hp ⟨hs, ht⟩⟩

lemma wp_deletes (hG : G .ok) (hp : Progress run item target w w₁) :
    Wp G (forEach (fun m => deletePoint run item.identity m.1 m.2) (moves item target))
      (fun w' => Progress run item target w w' ∧ w'.runs = w₁.runs) (fun _ w' =>
        Progress run item target w w' ∧
          Deleted run item.identity (moves item target) w₁ w') w₁ := by
  refine wp_forEach_done (I := fun done w' => Progress run item target w w' ∧
    Deleted run item.identity done w₁ w') ?_ ⟨hp, rfl, rfl, by simp, [], rfl, by simp⟩
  rintro done ⟨c, id⟩ w' hm ⟨hp', hd⟩
  exact wp_deletePoint hG ⟨hp', hd.runs⟩ ⟨⟨hp'.delete hm, hd.runs⟩, hp'.delete hm, hd.delete c id⟩

/-- Where an item stops: its row is as it was, it says that the copies are made, or the item has
been moved. -/
inductive Left (run : ℕ) (item : Item) (applied : World V → Prop) (w w' : World V) : Prop where
  | kept (progress : Progress run item item.goal w w') (runs : w'.runs = w.runs)
  | copied (progress : Progress run item item.goal w w')
      (runs : w.runs.Updated run (·.setItem item.identity .copied "") w'.runs)
  | applied (progress : Progress run item item.goal w w')
      (runs : w.runs.Updated run (·.setItem item.identity .cleaned "") w'.runs)
      (done : applied w')

/-- **Moving an item.** -/
theorem wp_moveItem (hG : G .ok) :
    Wp G (moveItem env run item item.goal) (Left run item (Moved run item item.goal w) w)
      (fun _ w' => Progress run item item.goal w w' ∧
        w.runs.Updated run (·.setItem item.identity .cleaned "") w'.runs ∧
        Moved run item item.goal w w') w := by
  refine wp_bind (wp_mono (wp_copies hG) (fun w' h => .kept h.1 h.2) ?_)
  rintro - w₁ ⟨hp₁, hco⟩
  refine wp_bind (wp_updateRun hG (.kept hp₁ hco.runs) fun runs hu => ?_)
  have hp₂ := hp₁.withRuns runs
  rw [hco.runs] at hu
  refine ⟨?_, .copied hp₂ hu⟩
  refine wp_bind (wp_retargetMapping hG (.copied hp₂ hu) fun hso hf => ?_)
  have hp₃ := hp₂.retarget hf
  refine ⟨?_, .copied hp₃ hu⟩
  refine wp_bind (wp_mono (wp_deletes hG hp₃) (fun w' h => .copied h.1 (h.2 ▸ hu)) ?_)
  rintro - w₄ ⟨hp₄, hd⟩
  have hr : w₄.runs = runs := hd.runs
  refine wp_updateRun hG (.copied hp₄ (hr ▸ hu)) fun runs' hu' => ?_
  rw [hr] at hu'
  have hu₂ : w.runs.Updated run (·.setItem item.identity .cleaned "") runs' :=
    hu.setItem hu'
  have hp₅ := hp₄.withRuns runs'
  have hma₁ : w₁.mappings = w.mappings := hco.mappings
  have hpo : ∀ key, key ∉ moves item item.goal → w₄.points.lookup key = w₁.points.lookup key := by
    intro key hk
    rw [hd.points key, if_neg hk]
  have hs : ∀ m ∈ moves item item.goal, w₁.points.lookup m = w.points.lookup m :=
    fun m hm => hco.kept m (mem_moves.mp hm).2.2
  have hmo : Moved run item item.goal w { w₄ with runs := runs', log := [] ++ w₄.log } := by
    refine ⟨⟨fun m hm => (hco.present m hm).2, fun m hm => (hco.present m hm).1,
      hma₁ ▸ hso, hma₁ ▸ hf⟩, ?_, ?_, ?_, ?_⟩
    · have hma : w₄.mappings = w₁.mappings.set item.identity item.goal hf := hd.mappings
      funext y
      rw [hma, Mappings.get_set, Function.update_apply, hma₁]
    · intro c hc old ho
      have hk : (c, item.goal) ∉ moves item item.goal := fun h => (mem_moves.mp h).2.2 rfl
      exact (hpo _ hk).trans (hco.landed c _ (getLast?_filter_product hc ho))
    · intro m hm
      rw [hd.points m, if_pos hm]
    · obtain ⟨before, hb, -⟩ := hp₃.log
      obtain ⟨new, hn, hde⟩ := hd.logged
      refine ⟨new ++ before, ?_, fun m hm => List.mem_append_left _ ?_⟩
      · rw [List.append_assoc, ← hb]
        exact hn
      · rw [← hs m hm]
        exact hde m hm
  exact ⟨⟨hp₅, hu₂, hmo⟩, .applied hp₅ hu₂ hmo⟩

/-! ### Healthy stores -/

lemma wp_setItemState_healthy (h : ∀ runs, w.runs.Updated run (·.setItem x state error) runs →
      D () { w with runs := runs, log := [] ++ w.log }) :
    Wp Healthy (setItemState run x state error) S D w :=
  wp_updateRun_healthy (fun _ hr ha => Runs.not_busy_of_active hr ha) h

lemma wp_copyPointVerified_healthy (hne : source ≠ target) (hpo : 1 ≤ source ∧ 1 ≤ target)
    (hp : w.points.lookup (c, source) = some p) (h : D () (w.copy run x c source target p)) :
    Wp Healthy (copyPointVerified env run x c source target) S D w := by
  refine wp_bind (wp_checkPointID (fun hs => by omega) fun _ => ?_)
  refine wp_bind (wp_checkPointID (fun ht => by omega) fun _ => ?_)
  simp only [if_neg hne]
  refine wp_bind (wp_read_healthy (a := some p) (by rw [hp]) ?_)
  refine wp_bind (wp_op_healthy rfl ?_)
  refine wp_bind (wp_read_healthy (a := some p) ?_ ?_)
  · exact congrArg _ (AList.lookup_insert w.points)
  · refine wp_bind (wp_require (fun _ => ?_) fun h => absurd rfl h)
    exact wp_require (fun _ => h) fun h => absurd rfl h

lemma wp_deletePoint_healthy (hid : 1 ≤ id) (h : D () (w.delete run x c id)) :
    Wp Healthy (deletePoint run x c id) S D w :=
  wp_bind (wp_checkPointID (fun hlt => by omega) fun _ => wp_op_healthy rfl h)

lemma wp_retargetMapping_healthy (hs : (w.mappings.get x).isSome) (hf : ¬ w.mappings.Taken x n)
    (h : D () { w with mappings := w.mappings.set x n hf, log := .retargeted run x n :: w.log }) :
    Wp Healthy (retargetMapping run x n) S D w := by
  refine wp_op_healthy ?_ h
  have hn : (w.mappings.get x).isNone = false := by
    cases hx : w.mappings.get x with
    | none => simp [hx] at hs
    | some n => rfl
  simp [Mappings.retarget, hn, hf, Except.map]

/-- With healthy stores an item that can be moved is moved. -/
theorem wp_moveItem_healthy (h : CanMove item target w) :
    Wp Healthy (moveItem env run item target) (fun _ => False) (fun _ _ => True) w := by
  refine wp_bind (wp_mono (wp_forEach_done (I := fun _ w' => w'.mappings = w.mappings ∧
    ∀ key, key.2 ≠ target → w'.points.lookup key = w.points.lookup key) ?_ ⟨rfl, fun _ _ => rfl⟩)
    (fun _ => id) ?_)
  · rintro - ⟨c, source⟩ w' hm ⟨hma, hke⟩
    have hne : source ≠ target := (mem_moves.mp hm).2.2
    obtain ⟨p, hp⟩ := Option.isSome_iff_exists.mp (h.present _ hm)
    refine wp_copyPointVerified_healthy hne (h.positive _ hm) ((hke (c, source) hne).trans hp)
      ⟨hma, fun key hk => ?_⟩
    have hk' : key ≠ (c, target) := fun heq => hk (heq ▸ rfl)
    exact (AList.lookup_insert_ne hk').trans (hke key hk)
  · rintro - w₁ ⟨hma, -⟩
    refine wp_bind (wp_setItemState_healthy fun runs _ => ?_)
    refine wp_bind (wp_retargetMapping_healthy (hma ▸ h.mapped) (hma ▸ h.free) ?_)
    refine wp_bind (wp_mono (wp_forEach_done (I := fun _ _ => True) ?_ trivial) (fun _ => id) ?_)
    · exact fun _ m _ hm _ => wp_deletePoint_healthy (h.positive m hm).1 trivial
    · exact fun _ _ _ => wp_setItemState_healthy fun _ _ => trivial

end Phases

/-! ### Items that move and items that do not -/

/-- An item that need not move is marked, and that is all. -/
structure Untouched (w w' : World V) : Prop where
  mappings : w'.mappings = w.mappings
  points : w'.points = w.points
  log : w'.log = w.log

def Applied (run : ℕ) (item : Item) (w w' : World V) : Prop :=
  if item.needsCopy then Moved run item item.goal w w' else Untouched w w'

section Items

lemma applyItem_eq (env : Env V) (run : ℕ) (item : Item) :
    applyItem env run item = if item.needsCopy then moveItem env run item item.goal
      else setItemState run item.identity .cleaned "" := by
  unfold applyItem Item.goal
  cases ht : item.targetNumericID with
  | some target => rfl
  | none => simp [Item.needsCopy, ht]

/-- What an item that was applied leaves. -/
structure Finished (run : ℕ) (item : Item) (w w' : World V) : Prop where
  progress : Progress run item item.goal w w'
  runs : w.runs.Updated run (·.setItem item.identity .cleaned "") w'.runs
  applied : Applied run item w w'

/-- What an item leaves that was stopped. -/
structure Halted (run : ℕ) (item : Item) (w w' : World V) : Prop where
  left : Left run item (Applied run item w) w w'
  still : ¬ item.needsCopy → Untouched w w'

lemma Finished.moved (h : Finished run item w w') (hm : item.needsCopy) :
    Moved run item item.goal w w' := by
  have ha := h.applied
  rwa [Applied, if_pos hm] at ha

lemma Finished.halted (h : Finished run item w w') : Halted run item w w' where
  left := .applied h.progress h.runs h.applied
  still hs := by
    have ha := h.applied
    rwa [Applied, if_neg hs] at ha

/-- **Applying an item.** -/
theorem wp_applyItem (hG : G .ok) :
    Wp G (applyItem env run item) (Halted run item w) (fun _ => Finished run item w) w := by
  rw [applyItem_eq]
  by_cases hm : item.needsCopy
  · have ha : Applied run item w = Moved run item item.goal w := by
      funext w'
      rw [Applied, if_pos hm]
    rw [if_pos hm]
    refine wp_mono (wp_moveItem hG) (fun w' h => ⟨ha ▸ h, absurd hm⟩) fun _ w' h => ?_
    exact ⟨h.1, h.2.1, by rw [ha]; exact h.2.2⟩
  · rw [if_neg hm]
    refine wp_updateRun hG ⟨.kept (.refl w) rfl, fun _ => ⟨rfl, rfl, rfl⟩⟩ fun runs hu => ?_
    have hp : Progress run item item.goal w { w with runs := runs, log := [] ++ w.log } :=
      (Progress.refl w).withRuns runs
    have ha : Applied run item w { w with runs := runs, log := [] ++ w.log } := by
      rw [Applied, if_neg hm]
      exact ⟨rfl, rfl, rfl⟩
    exact ⟨⟨hp, hu, ha⟩, (Finished.mk hp hu ha).halted⟩

/-- With healthy stores, an item is applied unless it should move and cannot. -/
theorem wp_applyItem_healthy (h : item.needsCopy → CanMove item item.goal w) :
    Wp Healthy (applyItem env run item) (fun _ => False) (fun _ => Finished run item w) w := by
  have he : Wp Healthy (applyItem env run item) (fun _ => False) (fun _ _ => True) w := by
    rw [applyItem_eq]
    by_cases hm : item.needsCopy
    · rw [if_pos hm]
      exact wp_moveItem_healthy (h hm)
    · rw [if_neg hm]
      exact wp_setItemState_healthy fun _ _ => trivial
  exact wp_mono (wp_and he (wp_applyItem trivial)) (fun _ => And.left) fun _ _ => And.right

/-! ### Failures on record -/

/-- `S` outlives the notes that a failure leaves. -/
structure Notable (run : ℕ) (item : Option Identity) (S : World V → Prop) : Prop where
  item : ∀ x ∈ item, ∀ w runs text, S w → w.runs.Updated run (·.setItem x .failed text) runs →
    S { w with runs := runs, log := [] ++ w.log }
  run : ∀ w runs text, S w → w.runs.Updated run (·.setState .failed text) runs →
    S { w with runs := runs, log := [] ++ w.log }

lemma wp_recordFailure {who : Option Identity} {S : World V → Prop} {e : Error}
    (hG : G .ok) (hS : Notable run who S) (hw : S w) :
    Wp G (recordFailure run who e) S (fun _ => S) w := by
  have hl : ∀ w', S w' → Wp G (ignore (setRunState run .failed e.message)) S (fun _ => S) w' := by
    intro w' hw'
    refine wp_ignore (wp_updateRun hG hw' fun runs hu => ?_) (fun _ => id) fun _ => id
    exact ⟨hS.run w' runs _ hw' hu, hS.run w' runs _ hw' hu⟩
  cases who with
  | none => exact wp_bind (wp_pure (hl w hw))
  | some x =>
    refine wp_bind (wp_ignore (wp_updateRun hG hw fun runs hu => ?_) (fun w' hw' => hl w' hw')
      fun _ => id)
    have hw' := hS.item x rfl w runs _ hw hu
    exact ⟨hl _ hw', hw'⟩

lemma wp_recording {S : World V → Prop} {D : Unit → World V → Prop} (hG : G .ok)
    (hS : Notable run who S) (h : Wp G m S D w) : Wp G (recording run who m) S D w :=
  wp_catchErr h (fun _ _ hw' => wp_bind (wp_mono (wp_recordFailure hG hS hw') (fun _ => id)
    fun _ _ hS' => wp_throw hS')) fun _ => id

end Items

end Codohue.Repair
