import Codohue.Table

/-!
Transactions that read committed rows.

A statement sees what is committed when it runs, under the writes of its own transaction. A write
keeps its row, or the lock that it stands for, to the end of the transaction; a statement that would
write what another transaction keeps has to wait. A statement outside a transaction commits at once.
-/

namespace Codohue.ReadCommitted

/-- What a write does to the rows, and what it keeps from others. -/
structure Rows (D W K : Type) where
  apply : W → D → D
  keys : W → List K

variable {D W K : Type}

def Rows.applyAll (R : Rows D W K) (ws : List W) (d : D) : D := ws.foldl (fun d w => R.apply w d) d

/-- The committed rows, and the writes of the transactions that are open. -/
structure Database (R : Rows D W K) where
  committed : D
  pending : Table ℕ (List W)
  exclusive : ∀ {t u ws ws' w w' k}, pending.lookup t = some ws → pending.lookup u = some ws' →
    w ∈ ws → w' ∈ ws' → k ∈ R.keys w → k ∈ R.keys w' → t = u

namespace Rows

variable (R : Rows D W K)

@[simp] lemma applyAll_nil (d : D) : R.applyAll [] d = d := rfl

@[simp] lemma applyAll_cons (w : W) (ws : List W) (d : D) :
    R.applyAll (w :: ws) d = R.applyAll ws (R.apply w d) := rfl

variable {R}

/-- What single writes keep, all of them keep. -/
lemma applyAll_invariant {I : D → Prop} (h : ∀ w ∈ ws, ∀ d, I d → I (R.apply w d)) (hd : I d) :
    I (R.applyAll ws d) := by
  induction ws generalizing d with
  | nil => exact hd
  | cons w ws ih =>
    exact ih (fun w' hw' => h w' (List.mem_cons_of_mem w hw')) (h w List.mem_cons_self d hd)

/-- Of the writes to one row of a table the last one stays. -/
lemma applyAll_put {A V : Type} [DecidableEq A] {T : D → Table A V} {put : A → V → W}
    (hpu : ∀ a v d, T (R.apply (put a v) d) = (T d).insert a v)
    (ho : ∀ w d, (∀ a v, w ≠ put a v) → T (R.apply w d) = T d) (a : A) (ws : List W)
    (d : D) :
    ((T (R.applyAll ws d)).lookup a = (T d).lookup a ∧ ∀ v, put a v ∉ ws) ∨
      ∃ v, put a v ∈ ws ∧ (T (R.applyAll ws d)).lookup a = some v := by
  induction ws generalizing d with
  | nil => exact .inl ⟨rfl, nofun⟩
  | cons w ws ih =>
    rcases ih (R.apply w d) with ⟨hs, hn⟩ | ⟨v, hv, hl⟩
    swap
    · exact .inr ⟨v, List.mem_cons_of_mem w hv, hl⟩
    rw [applyAll_cons, hs]
    by_cases hw : ∃ v, w = put a v
    · obtain ⟨v, rfl⟩ := hw
      exact .inr ⟨v, List.mem_cons_self, by rw [hpu, AList.lookup_insert]⟩
    refine .inl ⟨?_, fun v hv => ?_⟩
    · by_cases hp : ∃ b v, w = put b v
      · obtain ⟨b, v, rfl⟩ := hp
        rw [hpu, AList.lookup_insert_ne fun hab => hw ⟨v, by rw [hab]⟩]
      · rw [ho w d fun b v hb => hp ⟨b, v, hb⟩]
    · exact (List.mem_cons.mp hv).elim (fun hv => hw ⟨v, hv.symm⟩) (hn v)

end Rows

namespace Database

variable {R : Rows D W K}

def start (d : D) : Database R := ⟨d, ∅, nofun⟩

/-- What a statement of `t` sees. -/
def view (db : Database R) (t : ℕ) : D := R.applyAll ((db.pending.lookup t).getD []) db.committed

/-- Nobody else keeps what the writes need. -/
def Available (db : Database R) (t : ℕ) (ws : List W) : Prop :=
  ∀ e ∈ db.pending.entries, e.1 ≠ t → ∀ w ∈ e.2, ∀ w' ∈ ws, ∀ k ∈ R.keys w, k ∉ R.keys w'

instance [DecidableEq K] (db : Database R) (t : ℕ) (ws : List W) :
    Decidable (db.Available t ws) :=
  inferInstanceAs (Decidable (∀ e ∈ db.pending.entries, e.1 ≠ t → ∀ w ∈ e.2, ∀ w' ∈ ws,
    ∀ k ∈ R.keys w, k ∉ R.keys w'))

lemma Available.not_mem {db : Database R} (h : db.Available t ws)
    (hu : db.pending.lookup u = some ws') (hne : u ≠ t) (hw' : w' ∈ ws') (hk : k ∈ R.keys w')
    (hw : w ∈ ws) : k ∉ R.keys w :=
  h _ (Table.lookup_eq_some_iff.mp hu) hne w' hw' w hw k hk

/-- `BEGIN`. -/
def begin (db : Database R) (t : ℕ) : Database R where
  committed := db.committed
  pending := db.pending.insert t []
  exclusive ht hu hw hw' hk hk' := by
    rcases Table.eq_or_of_lookup_insert ht with ⟨-, rfl⟩ | ht
    · cases hw
    · rcases Table.eq_or_of_lookup_insert hu with ⟨-, rfl⟩ | hu
      · cases hw'
      · exact db.exclusive ht hu hw hw' hk hk'

/-- The writes of a statement, if it does not have to wait. -/
def write [DecidableEq K] (db : Database R) (t : ℕ) (ws : List W) : Option (Database R) :=
  if h : db.Available t ws then
    match hopen : db.pending.lookup t with
    | none => some { db with committed := R.applyAll ws db.committed }
    | some ws₀ => some
      { committed := db.committed
        pending := db.pending.insert t (ws₀ ++ ws)
        exclusive := fun {t' u' l l' w w' k} ht hu hw hw' hk hk' => by
          have hold : ∀ {v l w}, db.pending.lookup v = some l → v ≠ t → w ∈ l → k ∈ R.keys w →
              ∀ w' ∈ ws₀ ++ ws, k ∉ R.keys w' := by
            intro v l w hv hne hw hk w' hw' hk'
            rcases List.mem_append.mp hw' with hmem | hmem
            · exact hne (db.exclusive hv hopen hw hmem hk hk')
            · exact h.not_mem hv hne hw hk hmem hk'
          rw [Table.lookup_insert_eq] at ht hu
          split_ifs at ht hu with htt hut hut
          · rw [htt, hut]
          · cases ht
            exact absurd hk (hold hu hut hw' hk' w hw)
          · cases hu
            exact absurd hk' (hold ht htt hw hk w' hw')
          · exact db.exclusive ht hu hw hw' hk hk' }
  else none

/-- `COMMIT`. -/
def commit (db : Database R) (t : ℕ) : Database R where
  committed := db.view t
  pending := db.pending.erase t
  exclusive ht hu := db.exclusive (Table.lookup_of_erase ht) (Table.lookup_of_erase hu)

/-- `ROLLBACK`. -/
def rollback (db : Database R) (t : ℕ) : Database R where
  committed := db.committed
  pending := db.pending.erase t
  exclusive ht hu := db.exclusive (Table.lookup_of_erase ht) (Table.lookup_of_erase hu)

variable {db db' : Database R} {t : ℕ} {ws : List W} {k : K}

lemma view_of_none (h : db.pending.lookup t = none) : db.view t = db.committed := by
  rw [view, h]
  rfl

lemma view_of_some (h : db.pending.lookup t = some ws) :
    db.view t = R.applyAll ws db.committed := by
  rw [view, h]
  rfl

@[simp] lemma lookup_begin : (db.begin t).pending.lookup t = some [] := AList.lookup_insert _

@[simp] lemma lookup_commit : (db.commit t).pending.lookup t = none := AList.lookup_erase _ _

@[simp] lemma lookup_rollback : (db.rollback t).pending.lookup t = none := AList.lookup_erase _ _

/-- What the writes of a statement do: at once outside a transaction, later inside. -/
lemma write_eq_some [DecidableEq K] (h : db.write t ws = some db') :
    db.Available t ws ∧
      ((db.pending.lookup t = none ∧ db'.committed = R.applyAll ws db.committed ∧
          db'.pending = db.pending) ∨
        ∃ ws₀, db.pending.lookup t = some ws₀ ∧ db'.committed = db.committed ∧
          db'.pending = db.pending.insert t (ws₀ ++ ws)) := by
  unfold write at h
  split at h
  · next ha =>
    refine ⟨ha, ?_⟩
    split at h
    · next hn =>
      cases h
      exact .inl ⟨hn, rfl, rfl⟩
    · next ws₀ hs =>
      cases h
      exact .inr ⟨ws₀, hs, rfl, rfl⟩
  · cases h

/-- Inside a transaction a statement sees the writes of the statements before it. -/
lemma view_write [DecidableEq K] (h : db.write t ws = some db')
    (ho : (db.pending.lookup t).isSome = true) : db'.view t = R.applyAll ws (db.view t) := by
  rcases (write_eq_some h).2 with ⟨hn, -, -⟩ | ⟨ws₀, hs, hc, hp⟩
  · rw [hn] at ho
    cases ho
  · have hl : db'.pending.lookup t = some (ws₀ ++ ws) := by
      rw [hp, AList.lookup_insert]
    rw [view_of_some hl, view_of_some hs, hc, Rows.applyAll, List.foldl_append]
    rfl

/-! ### Keeping a key -/

/-- The open transaction of `t` keeps `k`. -/
def Holds (db : Database R) (t : ℕ) (k : K) : Prop :=
  ∃ ws w, db.pending.lookup t = some ws ∧ w ∈ ws ∧ k ∈ R.keys w

lemma Holds.unique (h : db.Holds t k) (h' : db.Holds u k) : t = u := by
  obtain ⟨ws, w, hws, hw, hk⟩ := h
  obtain ⟨ws', w', hws', hw', hk'⟩ := h'
  exact db.exclusive hws hws' hw hw' hk hk'

/-- How a call of `t` can move the database. -/
inductive Moves [DecidableEq K] (t : ℕ) (db db' : Database R) : Prop
  | stays (h : db' = db)
  | begins (h : db' = db.begin t)
  | writes (ws : List W) (h : db.write t ws = some db')
  | commits (h : db' = db.commit t)
  | rollsBack (h : db' = db.rollback t)

variable [DecidableEq K]

lemma Moves.pending_of_ne (h : Moves t db db') (hne : u ≠ t) :
    db'.pending.lookup u = db.pending.lookup u := by
  cases h with
  | stays h => rw [h]
  | begins h => rw [h, begin, Table.lookup_insert_eq, if_neg hne]
  | writes ws h =>
    rcases (write_eq_some h).2 with ⟨-, -, hp⟩ | ⟨ws₀, -, -, hp⟩
    · rw [hp]
    · rw [hp, Table.lookup_insert_eq, if_neg hne]
  | commits h => rw [h, commit, AList.lookup_erase_ne hne]
  | rollsBack h => rw [h, rollback, AList.lookup_erase_ne hne]

/-- **What a transaction keeps from others, they leave alone**: a property that only writes under
the key can break holds on. -/
theorem Moves.guarded {I : D → Prop} (h : Moves t db db')
    (hI : ∀ w d, k ∉ R.keys w → I d → I (R.apply w d)) (hne : u ≠ t) (hk : db.Holds u k)
    (hd : I db.committed) : I db'.committed := by
  obtain ⟨ws, w, hws, hw, hm⟩ := hk
  cases h with
  | stays h | begins h | rollsBack h => rwa [h]
  | writes ws' h =>
    obtain ⟨ha, ⟨-, hc, -⟩ | ⟨ws₀, -, hc, -⟩⟩ := write_eq_some h
    · rw [hc]
      exact Rows.applyAll_invariant
        (fun w' hw' d => hI w' d (ha.not_mem hws hne hw hm hw')) hd
    · rwa [hc]
  | commits h =>
    rw [h, commit]
    cases ho : db.pending.lookup t with
    | none => rwa [view_of_none ho]
    | some ws' =>
      rw [view_of_some ho]
      refine Rows.applyAll_invariant (fun w' hw' d => hI w' d fun hk' => ?_) hd
      exact hne (db.exclusive hws ho hw hw' hm hk')

end Database

end Codohue.ReadCommitted
