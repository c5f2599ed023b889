import Codohue.Table

/-!
Tables whose key is drawn from a sequence: a key is handed out once, so a deleted row never
comes back under its key.
-/

namespace Codohue

/-- A table with a `BIGSERIAL` key. -/
structure SerialTable (V : Type*) where
  rows : Table ℕ V
  /-- The next value of the sequence. -/
  next : ℕ
  lt_next : ∀ {k v}, rows.lookup k = some v → k < next

namespace SerialTable

variable {V : Type*}

def empty : SerialTable V := ⟨∅, 1, nofun⟩

def lookup (t : SerialTable V) (k : ℕ) : Option V := t.rows.lookup k

/-- `INSERT`; the new row stands under `t.next`. -/
def insert (v : V) (t : SerialTable V) : SerialTable V where
  rows := t.rows.insert t.next v
  next := t.next + 1
  lt_next h := by
    obtain ⟨rfl, -⟩ | h := Table.eq_or_of_lookup_insert h
    · exact Nat.lt_succ_self _
    · exact Nat.lt_succ_of_lt (t.lt_next h)

def updateWhere (p : ℕ → V → Bool) (f : V → V) (t : SerialTable V) : SerialTable V where
  rows := t.rows.updateWhere p f
  next := t.next
  lt_next h := by
    rw [Table.lookup_updateWhere] at h
    obtain ⟨v, hv, -⟩ := Option.map_eq_some_iff.mp h
    exact t.lt_next hv

def deleteWhere (p : ℕ → V → Bool) (t : SerialTable V) : SerialTable V where
  rows := t.rows.deleteWhere p
  next := t.next
  lt_next h := t.lt_next (Table.lookup_deleteWhere_eq_some.mp h).1

def selectWhere (p : ℕ → V → Bool) (t : SerialTable V) : List (ℕ × V) := t.rows.selectWhere p

variable {t : SerialTable V} {p : ℕ → V → Bool} {f : V → V} {k : ℕ} {v : V}

lemma lookup_lt_next (h : t.lookup k = some v) : k < t.next := t.lt_next h

lemma lookup_insert : (t.insert v).lookup k = if k = t.next then some v else t.lookup k :=
  Table.lookup_insert_eq t.rows t.next k v

lemma lookup_insert_of_some (h : t.lookup k = some v) : (t.insert u).lookup k = some v := by
  rw [lookup_insert, if_neg (Nat.ne_of_lt (lookup_lt_next h)), h]

@[simp] lemma lookup_updateWhere :
    (t.updateWhere p f).lookup k = (t.lookup k).map fun v => if p k v then f v else v :=
  Table.lookup_updateWhere p f t.rows k

lemma lookup_deleteWhere_eq_some :
    (t.deleteWhere p).lookup k = some v ↔ t.lookup k = some v ∧ p k v = false :=
  Table.lookup_deleteWhere_eq_some

lemma mem_selectWhere : (k, v) ∈ t.selectWhere p ↔ t.lookup k = some v ∧ p k v = true :=
  Table.mem_selectWhere

lemma nodup_selectWhere : ((t.selectWhere p).map Prod.fst).Nodup := t.rows.nodup_selectWhere p

end SerialTable

end Codohue
