import Codohue.Transition
import Mathlib.Data.List.GetD
import Mathlib.Data.List.Sort
import Mathlib.Data.String.Basic

/-!
The trending list of a namespace generation: a sorted set that one client replaces and others read.

A replacement is a pipeline of up to three commands, which is not a transaction: the server runs
the commands of different connections interleaved.
-/

namespace Codohue.Trending

open Transition

abbrev Members (K : Type) := List (String × K)

variable {K : Type} [LinearOrder K]

/-- From the highest score down, members of one score in reverse lexical order. -/
def Above (x y : String × K) : Prop := y.2 < x.2 ∨ y.2 = x.2 ∧ y.1 ≤ x.1

instance : DecidableRel (Above (K := K)) := fun _ _ => inferInstanceAs (Decidable (_ ∨ _))

def zAdd (set members : Members K) : Members K :=
  members.foldl (fun set m => (set.filter (·.1 ≠ m.1)).orderedInsert Above m) set

/-- `ZREVRANGE`: a negative index counts from the end. -/
def zRevRange (set : Members K) (start stop : ℤ) : Members K :=
  let index := fun i : ℤ => if i < 0 then i + set.length else i
  let first := max (index start) 0
  (set.drop first.toNat).take (index stop - first + 1).toNat

def getTrending (set : Members K) (offset limit : ℤ) : Members K :=
  if limit ≤ 0 then [] else zRevRange set offset (offset + limit - 1)

inductive Command (K : Type) where
  | del
  | zAdd (members : Members K)
  | expire (ttl : ℤ)
  deriving DecidableEq

/-- The commands that the pipeline of one call sends. -/
def storeTrending (scores : Members K) (ttl : ℤ) : List (Command K) :=
  .del :: if scores = [] then [] else [.zAdd scores, .expire ttl]

/-- The key of the trending set. It is there as long as the set has a member. -/
structure Key (K : Type) where
  members : Members K
  expiry : Option ℤ
  deriving DecidableEq

def Key.none : Key K := ⟨[], Option.none⟩

def Key.perform (key : Key K) : Command K → Key K
  | .del => .none
  | .zAdd members => { key with members := Trending.zAdd key.members members }
  | .expire ttl =>
    if key.members = [] ∨ ttl ≤ 0 then .none else { key with expiry := some ttl }

/-- The key, what every connection has still to send, and the lists that were to be stored. The
list that was stored last as a whole is kept beside the key, until it expires. -/
structure World (K : Type) where
  key : Key K
  pipelines : List (List (Command K))
  lists : List (Members K)
  stored : Members K

def boot : World K := ⟨.none, [], [], []⟩

/-- What a pipeline has stored when its last command has run. -/
def storedBy (list : Members K) : Command K → Members K
  | .expire ttl => if ttl ≤ 0 then [] else list
  | _ => list

/-- A call of `StoreTrending` begins, the server runs the next command of a connection or has lost
it, the key expires, or a call of `GetTrending` reads. -/
inductive Action (K : Type) where
  | store (scores : Members K) (ttl : ℤ)
  | run (i : ℕ)
  | lose (i : ℕ)
  | expires
  | get (offset limit : ℤ)
  deriving DecidableEq

def step (w : World K) : Action K → Option (World K)
  | .store scores ttl =>
    some { w with
      pipelines := w.pipelines ++ [storeTrending scores ttl]
      lists := w.lists ++ [zAdd [] scores] }
  | .run i =>
    match w.pipelines[i]? with
    | some (c :: rest) =>
      some { w with
        key := w.key.perform c
        pipelines := w.pipelines.set i rest
        stored := if rest = [] then storedBy (w.lists.getD i []) c else w.stored }
    | _ => none
  | .lose i => some { w with pipelines := w.pipelines.set i [] }
  | .expires => if w.key.expiry.isSome then some { w with key := .none, stored := [] } else none
  | .get _ _ => some w

/-- What is left of a pipeline whose `DEL` has run. -/
def underWay : List (Command K) → Bool
  | [] | .del :: _ => false
  | _ => true

/-- Between the commands of one pipeline the server runs no other command, and it does not lose the
connection there. -/
def Undivided (w : World K) (a : Action K) : Prop :=
  ∀ i : Fin w.pipelines.length, underWay w.pipelines[i] = true → a = .run i

instance (w : World K) (a : Action K) : Decidable (Undivided w a) :=
  inferInstanceAs (Decidable (∀ _ : Fin _, _ → _))

/-- How far a pipeline has come: not begun, or with the key as its commands have made it. -/
inductive Comes (list : Members K) (key : Key K) : List (Command K) → Prop where
  | ended : Comes list key []
  | waits {scores : Members K} {ttl : ℤ} (h : list = zAdd [] scores) :
    Comes list key (storeTrending scores ttl)
  | deleted {scores : Members K} {ttl : ℤ} (h : list = zAdd [] scores) (hk : key = .none) :
    Comes list key [.zAdd scores, .expire ttl]
  | added {ttl : ℤ} (hk : key = ⟨list, none⟩) : Comes list key [.expire ttl]

/-- Where no pipeline is under way, the set is the list that was stored last, and expires. -/
structure Inv (w : World K) : Prop where
  length_eq : w.pipelines.length = w.lists.length
  comes : ∀ i cs, w.pipelines[i]? = some cs → Comes (w.lists.getD i []) w.key cs
  settled : (∀ cs ∈ w.pipelines, underWay cs = false) →
    w.key.members = w.stored ∧ (w.key.members ≠ [] → w.key.expiry.isSome)

section Steps

variable {w w' : World K} {cs : List (Command K)}

lemma Comes.waiting {list : Members K} {key : Key K} (h : Comes list key cs)
    (hw : underWay cs = false) (key' : Key K) : Comes list key' cs := by
  cases h with
  | ended => exact .ended
  | waits h => exact .waits h
  | deleted | added => cases hw

/-- The command that a pipeline has come to takes it one further, and the last one leaves its list
in the key. -/
lemma Comes.perform {list : Members K} {key : Key K} (h : Comes list key (c :: cs)) :
    Comes list (key.perform c) cs ∧ (cs ≠ [] → underWay cs = true) ∧
      (cs = [] → (key.perform c).members = storedBy list c ∧
        ((key.perform c).members ≠ [] → (key.perform c).expiry.isSome)) := by
  generalize hcs : c :: cs = ds at h
  cases h with
  | ended => cases hcs
  | waits h =>
    unfold storeTrending at hcs
    split_ifs at hcs with hs <;> cases hcs
    · subst hs
      exact ⟨.ended, nofun, fun _ => ⟨h.symm, absurd rfl⟩⟩
    · exact ⟨.deleted h rfl, fun _ => rfl, nofun⟩
  | deleted h hk =>
    cases hcs
    subst h hk
    exact ⟨.added rfl, fun _ => rfl, nofun⟩
  | added hk =>
    cases hcs
    subst hk
    refine ⟨.ended, nofun, fun _ => ?_⟩
    simp only [Key.perform, storedBy]
    split_ifs <;> simp_all [Key.none]

/-- Where the key changes, no other pipeline is under way. -/
lemma inv_run (h : Inv w) (hu : Undivided w (.run i)) (hi : w.pipelines[i]? = some (c :: cs)) :
    Inv { w with
      key := w.key.perform c
      pipelines := w.pipelines.set i cs
      stored := if cs = [] then storedBy (w.lists.getD i []) c else w.stored } := by
  obtain ⟨hc, hway, hend⟩ := (h.comes i _ hi).perform
  refine ⟨by simpa using h.length_eq, fun j ds hj => ?_, fun hw => ?_⟩
  · rw [List.getElem?_set] at hj
    split_ifs at hj with hij
    · subst hij
      exact Option.some.inj hj ▸ hc
    · obtain ⟨hlt, rfl⟩ := List.getElem?_eq_some_iff.mp hj
      refine (h.comes j _ hj).waiting (Bool.eq_false_iff.mpr fun ht => hij ?_) _
      exact Action.run.inj (hu ⟨j, hlt⟩ ht)
  · have hcs := hw cs (List.mem_set (List.getElem?_eq_some_iff.mp hi).1 cs)
    have hnil : cs = [] := by_contra fun hne => by simp [hway hne] at hcs
    simpa [hnil] using hend hnil

omit [LinearOrder K] in
lemma Undivided.waiting (hu : Undivided w a) (ha : ∀ i, a ≠ .run i) :
    ∀ cs ∈ w.pipelines, underWay cs = false := by
  intro cs hc
  obtain ⟨i, hi, rfl⟩ := List.getElem_of_mem hc
  exact Bool.eq_false_iff.mpr fun ht => ha i (hu ⟨i, hi⟩ ht)

lemma inv_step (h : Inv w) (hu : Undivided w a) (hs : step w a = some w') : Inv w' := by
  cases a with
  | run i =>
    simp only [step] at hs
    split at hs
    · next c cs hi => exact Option.some.inj hs ▸ inv_run h hu hi
    · cases hs
  | store scores ttl =>
    cases hs
    refine ⟨by simpa using h.length_eq, fun i cs hi => ?_, fun _ => h.settled (hu.waiting nofun)⟩
    rw [List.getElem?_append] at hi
    split_ifs at hi with hlt
    · rw [List.getD_append _ _ _ _ (h.length_eq ▸ hlt)]
      exact h.comes i cs hi
    · rw [List.getElem?_singleton, Option.ite_none_right_eq_some] at hi
      obtain ⟨h0, hcs⟩ := hi
      have hle : w.lists.length ≤ i := by
        have := h.length_eq
        omega
      rw [List.getD_append_right _ _ _ _ hle, ← h.length_eq, h0, ← Option.some.inj hcs]
      exact .waits rfl
  | lose i =>
    cases hs
    refine ⟨by simpa using h.length_eq, fun j cs hj => ?_, fun _ => h.settled (hu.waiting nofun)⟩
    rw [List.getElem?_set] at hj
    split_ifs at hj
    · exact Option.some.inj hj ▸ .ended
    · exact h.comes j cs hj
  | expires =>
    simp only [step] at hs
    split_ifs at hs
    cases hs
    exact ⟨h.length_eq, fun i cs hi => (h.comes i cs hi).waiting
      (hu.waiting nofun cs (List.mem_of_getElem? hi)) _, fun _ => ⟨rfl, absurd rfl⟩⟩
  | get => exact Option.some.inj hs ▸ h

end Steps

lemma inv_exec {as : List (Action K)} {w : World K} (hu : Along step Undivided boot as)
    (h : exec step boot as = some w) : Inv w :=
  exec_guarded (fun _ _ _ hi => inv_step hi) hu h
    ⟨rfl, by simp [boot], fun _ => ⟨rfl, absurd rfl⟩⟩

/-- A first list is stored, then two calls are under way when the trending list is read. -/
def threeLists : List (Action ℤ) :=
  [.store [("a", 1)] 600, .run 0, .run 0, .run 0, .store [("b", 2)] 600, .store [("c", 3)] 600]

end Codohue.Trending
