import Mathlib.Data.List.Basic

/-!
Shared and exclusive locks held by sessions, as a database server grants them.

A session may hold one key several times and in both modes: its own grants never stand in
its way, and each release takes back one of them. The table carries the exclusion law, so
that no sequence of grants, releases and lost sessions can break it.
-/

namespace Codohue.LockTable

inductive Mode where
  | shared
  | exclusive
  deriving DecidableEq, Repr

structure Grant (S K : Type*) where
  session : S
  key : K
  mode : Mode
  deriving DecidableEq, Repr

variable {S K : Type*} [DecidableEq S] [DecidableEq K]

/-- The two grants can stand side by side. -/
def compatible (g h : Grant S K) : Prop :=
  g.session = h.session ∨ g.key ≠ h.key ∨ g.mode = .shared ∧ h.mode = .shared

instance (g h : Grant S K) : Decidable (compatible g h) :=
  inferInstanceAs (Decidable (_ ∨ _ ∨ _ ∧ _))

variable {h g : Grant S K}

omit [DecidableEq S] [DecidableEq K] in
lemma compatible_comm : compatible g h ↔ compatible h g := by
  unfold compatible
  tauto

/-- The grants of the server; any two of them are compatible. -/
structure Locks (S K : Type*) where
  grants : List (Grant S K)
  excl : ∀ g ∈ grants, ∀ h ∈ grants, compatible g h

def empty : Locks S K := ⟨[], by simp⟩

/-- Granting `g`; `none` while another session stands in the way. -/
def acquire (L : Locks S K) (g : Grant S K) : Option (Locks S K) :=
  if hg : ∀ h ∈ L.grants, compatible g h then
    some
      { grants := g :: L.grants
        excl := by
          intro a ha b hb
          rcases List.mem_cons.mp ha with rfl | ha' <;> rcases List.mem_cons.mp hb with rfl | hb'
          · exact .inl rfl
          · exact hg b hb'
          · exact compatible_comm.mp (hg a ha')
          · exact L.excl a ha' b hb' }
  else none

/-- Taking back one grant equal to `g`. -/
def release (L : Locks S K) (g : Grant S K) : Locks S K where
  grants := L.grants.erase g
  excl := fun a ha b hb => L.excl a (List.mem_of_mem_erase ha) b (List.mem_of_mem_erase hb)

omit [DecidableEq S] [DecidableEq K] in
/-- The end of every session that meets `dead`. -/
def drop (L : Locks S K) (dead : S → Bool) : Locks S K where
  grants := L.grants.filter fun g => !dead g.session
  excl := fun a ha b hb => L.excl a (List.mem_of_mem_filter ha) b (List.mem_of_mem_filter hb)

instance : Membership (Grant S K) (Locks S K) := ⟨fun L g => g ∈ L.grants⟩

variable {L : Locks S K}

lemma acquire_some (hL : acquire L g = some L') : h ∈ L' ↔ h = g ∨ h ∈ L := by
  unfold acquire at hL
  split at hL
  · cases hL
    exact List.mem_cons
  · simp at hL

lemma mem_release (hne : h.session ≠ g.session) :
    h ∈ release L g ↔ h ∈ L :=
  List.mem_erase_of_ne fun he => hne (congrArg Grant.session he)

omit [DecidableEq S] [DecidableEq K] in
lemma mem_drop : h ∈ drop L dead ↔ h ∈ L ∧ dead h.session = false :=
  List.mem_filter.trans (and_congr Iff.rfl (by simp))

omit [DecidableEq S] [DecidableEq K] in
/-- **Exclusion.** An exclusive grant and any other grant of the same key belong to one
session. -/
theorem session_eq_of_exclusive (hg : g ∈ L) (hh : h ∈ L) (hk : g.key = h.key)
    (hx : g.mode = .exclusive) : g.session = h.session := by
  rcases L.excl g hg h hh with heq | hne | ⟨hs, -⟩
  · exact heq
  · exact absurd hk hne
  · simp [hx] at hs

end Codohue.LockTable
