import Codohue.Table
import Mathlib.Algebra.GroupWithZero.Nat
import Mathlib.Data.Prod.Lex
import Mathlib.Order.Fin.Basic

/-!
Redis streams with consumer groups, as far as deliveries and acknowledgements go.

A group delivers every entry above its last delivered id once, in the order of the ids, and an
entry that was delivered is pending until it is acknowledged. The id that a group was created at
and the list of the acknowledged ids are not part of Redis: they record what the commands did.
-/

namespace Codohue.Redis

/-! ### Stream ids -/

structure StreamID where
  ms : Fin (2 ^ 64)
  seq : Fin (2 ^ 64)
  deriving DecidableEq, Repr

instance neZero_two_pow : NeZero (2 ^ 64 : ℕ) := ⟨by decide⟩

namespace StreamID

def key (id : StreamID) : Lex (Fin (2 ^ 64) × Fin (2 ^ 64)) := toLex (id.ms, id.seq)

lemma key_injective : Function.Injective key := by
  intro a b h
  obtain ⟨hms, hs⟩ := Prod.mk.inj (toLex.injective h)
  cases a
  cases b
  simp_all

/-- The order is numeric, by the milliseconds and then by the sequence number. -/
instance : LinearOrder StreamID := LinearOrder.lift' key key_injective

lemma lt_iff {a b : StreamID} : a < b ↔ a.ms < b.ms ∨ (a.ms = b.ms ∧ a.seq < b.seq) :=
  Prod.Lex.toLex_lt_toLex

def zero : StreamID := ⟨0, 0⟩

def text (id : StreamID) : String := toString id.ms.val ++ "-" ++ toString id.seq.val

end StreamID

/-! ### Groups -/

structure PendingEntry where
  id : StreamID
  consumer : String
  deriving DecidableEq, Repr

structure ConsumerGroup where
  start : StreamID
  lastDelivered : StreamID
  pending : List PendingEntry
  acknowledged : List StreamID
  sorted : (pending.map PendingEntry.id).Pairwise (· < ·)
  delivered : ∀ p ∈ pending, p.id ≤ lastDelivered
  deriving DecidableEq

/-- Every entry above the id that the group was created at, up to the last delivered one, is pending
or acknowledged. -/
structure Accounts (entries : List StreamID) (lastID : StreamID) (g : ConsumerGroup) : Prop where
  behind : g.lastDelivered ≤ lastID ∨ g.lastDelivered = g.start
  accounted : ∀ id ∈ entries, g.start < id → id ≤ g.lastDelivered →
    (∃ p ∈ g.pending, p.id = id) ∨ id ∈ g.acknowledged

/-- What a group keeps, whatever is done to it: the last delivered id does not go down, and what
becomes pending is above it. -/
structure Advances (g g' : ConsumerGroup) : Prop where
  last : g.lastDelivered ≤ g'.lastDelivered
  pending : ∀ p' ∈ g'.pending, (∃ p ∈ g.pending, p.id = p'.id) ∨ g.lastDelivered < p'.id

lemma Advances.refl (g : ConsumerGroup) : Advances g g :=
  ⟨le_refl _, fun p hp => .inl ⟨p, hp, rfl⟩⟩

namespace ConsumerGroup

variable {entries : List StreamID}

variable {g : ConsumerGroup} {count : ℕ}

/-- A group that delivers what is above `start`. -/
def startingAt (start : StreamID) : ConsumerGroup := ⟨start, start, [], [], .nil, by simp⟩

/-- The next entries that the group has to deliver. -/
def next (g : ConsumerGroup) (entries : List StreamID) (count : ℕ) : List StreamID :=
  (entries.filter fun id => g.lastDelivered < id).take count

lemma mem_next {id : StreamID} (h : id ∈ g.next entries count) :
    id ∈ entries ∧ g.lastDelivered < id := by
  simpa using List.mem_of_mem_take h

lemma sorted_next (h : entries.Pairwise (· < ·)) :
    (g.next entries count).Pairwise (· < ·) :=
  h.sublist ((List.take_sublist count _).trans List.filter_sublist)

lemma mem_next_of_le (h : entries.Pairwise (· < ·)) {id : StreamID}
    (hl : last ∈ g.next entries count) (hid : id ∈ entries) (hn : g.lastDelivered < id)
    (hle : id ≤ last) : id ∈ g.next entries count := by
  have hm : id ∈ entries.filter fun id => g.lastDelivered < id := by simp [hid, hn]
  have hs : (entries.filter fun id => g.lastDelivered < id).Pairwise (· < ·) :=
    h.sublist List.filter_sublist
  rw [← List.take_append_drop count (entries.filter _)] at hm hs
  refine (List.mem_append.mp hm).resolve_right fun hd => ?_
  exact absurd hle (not_le.mpr ((List.pairwise_append.mp hs).2.2 last hl id hd))

/-- `XREADGROUP` with the id `>`. -/
def read (g : ConsumerGroup) (entries : List StreamID) (h : entries.Pairwise (· < ·))
    (consumer : String) (count : ℕ) (noack : Bool) : ConsumerGroup :=
  match hlast : (g.next entries count).getLast? with
  | none => g
  | some last =>
    have hmem : last ∈ g.next entries count := List.mem_of_getLast? hlast
    { start := g.start
      lastDelivered := last
      pending := if noack then g.pending
        else g.pending ++ (g.next entries count).map (⟨·, consumer⟩)
      acknowledged := if noack then g.next entries count ++ g.acknowledged else g.acknowledged
      sorted := by
        split_ifs
        · exact g.sorted
        · rw [List.map_append, List.map_map, List.pairwise_append]
          refine ⟨g.sorted, by simpa [Function.comp_def] using sorted_next h, ?_⟩
          intro a ha b hb
          obtain ⟨p, hp, rfl⟩ := List.mem_map.mp ha
          obtain ⟨id, hid, rfl⟩ := List.mem_map.mp hb
          exact (g.delivered p hp).trans_lt (mem_next hid).2
      delivered := by
        have hold : ∀ p ∈ g.pending, p.id ≤ last :=
          fun p hp => (g.delivered p hp).trans (mem_next hmem).2.le
        split_ifs
        · exact hold
        · intro p hp
          rcases List.mem_append.mp hp with hp | hp
          · exact hold p hp
          · obtain ⟨id, hid, rfl⟩ := List.mem_map.mp hp
            have hinit : g.next entries count = (g.next entries count).dropLast ++ [last] :=
              (List.dropLast_append_getLast? last hlast).symm
            have hsorted : (g.next entries count).Pairwise (· < ·) := sorted_next h
            rw [hinit] at hid hsorted
            rcases List.mem_append.mp hid with hinit' | hend
            · exact ((List.pairwise_append.mp hsorted).2.2 id hinit' last (by simp)).le
            · exact (List.mem_singleton.mp hend).le }

/-- What a read leaves: the group as it was, or moved on to the last of the next entries. -/
lemma read_cases (g : ConsumerGroup) (h : entries.Pairwise (· < ·)) (con : String)
    (count : ℕ) (noack : Bool) : g.read entries h con count noack = g ∨
      ∃ last ∈ g.next entries count,
        (g.read entries h con count noack).start = g.start ∧
        (g.read entries h con count noack).lastDelivered = last ∧
        (g.read entries h con count noack).pending = (if noack then g.pending
          else g.pending ++ (g.next entries count).map (⟨·, con⟩)) ∧
        (g.read entries h con count noack).acknowledged =
          if noack then g.next entries count ++ g.acknowledged else g.acknowledged := by
  unfold read
  split
  · exact .inl rfl
  · next last hl => exact .inr ⟨last, List.mem_of_getLast? hl, rfl, rfl, rfl, rfl⟩

lemma advances_read (g : ConsumerGroup) (h : entries.Pairwise (· < ·)) (con : String)
    (count : ℕ) (noack : Bool) : Advances g (g.read entries h con count noack) := by
  rcases read_cases g h con count noack with heq | ⟨last, hm, -, hl, hpe, -⟩
  · rw [heq]
    exact .refl g
  · refine ⟨?_, fun p hp => ?_⟩
    · rw [hl]
      exact (mem_next hm).2.le
    · rw [hpe] at hp
      split_ifs at hp
      · exact .inl ⟨p, hp, rfl⟩
      · rcases List.mem_append.mp hp with hp | hp
        · exact .inl ⟨p, hp, rfl⟩
        · obtain ⟨id, hid, rfl⟩ := List.mem_map.mp hp
          exact .inr (mem_next hid).2

lemma accounts_read (hg : Accounts entries lastID g)
    (hlid : ∀ id ∈ entries, id ≤ lastID) (h : entries.Pairwise (· < ·)) (con : String)
    (count : ℕ) (noack : Bool) :
    Accounts entries lastID (g.read entries h con count noack) := by
  rcases read_cases g h con count noack with heq | ⟨last, hm, hst, hl, hpe, ha⟩
  · rw [heq]
    exact hg
  · refine ⟨.inl ?_, fun id hid hs hle => ?_⟩
    · rw [hl]
      exact hlid last (mem_next hm).1
    · rw [hpe, ha]
      rw [hl] at hle
      rw [hst] at hs
      rcases le_or_gt id g.lastDelivered with ho | hne
      · rcases hg.accounted id hid hs ho with ⟨p, hp, rfl⟩ | hd
        · exact .inl ⟨p, by split_ifs <;> simp [hp], rfl⟩
        · exact .inr (by split_ifs <;> simp [hd])
      · have hn := mem_next_of_le h hm hid hne hle
        split_ifs
        · exact .inr (List.mem_append_left _ hn)
        · refine .inl ⟨⟨id, con⟩, List.mem_append_right _ ?_, rfl⟩
          exact List.mem_map.mpr ⟨id, hn, rfl⟩

/-- `XACK`: what is pending under these ids is acknowledged. -/
def ack (g : ConsumerGroup) (ids : List StreamID) : ConsumerGroup where
  start := g.start
  lastDelivered := g.lastDelivered
  pending := g.pending.filter fun p => p.id ∉ ids
  acknowledged := ((g.pending.filter fun p => p.id ∈ ids).map PendingEntry.id) ++ g.acknowledged
  sorted := g.sorted.sublist (List.filter_sublist.map _)
  delivered p hp := g.delivered p (List.mem_of_mem_filter hp)

lemma advances_ack (g : ConsumerGroup) (ids : List StreamID) : Advances g (g.ack ids) :=
  ⟨le_refl _, fun p hp => .inl ⟨p, List.mem_of_mem_filter hp, rfl⟩⟩

lemma accounts_ack (hg : Accounts entries lastID g) (ids : List StreamID) :
    Accounts entries lastID (g.ack ids) where
  behind := hg.behind
  accounted id hid hs hle := by
    rcases hg.accounted id hid hs hle with ⟨p, hp, rfl⟩ | hd
    · by_cases ha : p.id ∈ ids
      · refine .inr (List.mem_append_left _ (List.mem_map.mpr ⟨p, ?_, rfl⟩))
        simp [hp, ha]
      · exact .inl ⟨p, by simp [ack, hp, ha], rfl⟩
    · exact .inr (List.mem_append_right _ hd)

/-- `XAUTOCLAIM` of the entries that have been idle for long enough: they get another consumer,
and those that are not in the stream any more are dropped. -/
def claim (g : ConsumerGroup) (entries : List StreamID) (consumer : String)
    (idle : List StreamID) : ConsumerGroup where
  start := g.start
  lastDelivered := g.lastDelivered
  pending := (g.pending.filter fun p => p.id ∉ idle ∨ p.id ∈ entries).map fun p =>
    if p.id ∈ idle then { p with consumer := consumer } else p
  acknowledged := g.acknowledged
  sorted := by
    have hids : ∀ p : PendingEntry, (if p.id ∈ idle then { p with consumer := consumer } else p :
        PendingEntry).id = p.id := by
      intro p
      split_ifs <;> rfl
    rw [List.map_map]
    simp only [Function.comp_def, hids]
    exact g.sorted.sublist (List.filter_sublist.map _)
  delivered := by
    intro p hp
    obtain ⟨q, hq, rfl⟩ := List.mem_map.mp hp
    split_ifs
    · exact g.delivered q (List.mem_of_mem_filter hq)
    · exact g.delivered q (List.mem_of_mem_filter hq)

lemma advances_claim (g : ConsumerGroup) (entries : List StreamID) (con : String)
    (idle : List StreamID) : Advances g (g.claim entries con idle) := by
  refine ⟨le_refl _, fun p hp => ?_⟩
  obtain ⟨q, hq, rfl⟩ := List.mem_map.mp hp
  refine .inl ⟨q, List.mem_of_mem_filter hq, ?_⟩
  split_ifs <;> rfl

lemma accounts_claim (hg : Accounts entries lastID g) (con : String)
    (idle : List StreamID) : Accounts entries lastID (g.claim entries con idle) where
  behind := hg.behind
  accounted id hid hs hle := by
    refine (hg.accounted id hid hs hle).imp_left ?_
    rintro ⟨p, hp, rfl⟩
    refine ⟨_, List.mem_map.mpr ⟨p, ?_, rfl⟩, ?_⟩
    · simp [hp, hid]
    · split_ifs <;> rfl

end ConsumerGroup

/-! ### Streams -/

structure Stream where
  entries : List StreamID
  lastID : StreamID
  groups : Table String ConsumerGroup
  sorted : entries.Pairwise (· < ·)
  generated : ∀ id ∈ entries, id ≤ lastID
  accounts : ∀ name g, groups.lookup name = some g → Accounts entries lastID g

/-- Every entry and every group is still there, and the groups have gone nowhere but forward. -/
structure Later (st st' : Stream) : Prop where
  entries : st.entries ⊆ st'.entries
  groups : ∀ name g, st.groups.lookup name = some g →
    ∃ g', st'.groups.lookup name = some g' ∧ Advances g g'

lemma Later.refl (st : Stream) : Later st st := ⟨List.Subset.refl _, fun _ g hg => ⟨g, hg, .refl g⟩⟩

namespace Stream

def empty : Stream := ⟨[], .zero, ∅, .nil, by simp, nofun⟩

/-- The group is replaced. -/
def setGroup (st : Stream) (name : String) (g : ConsumerGroup)
    (h : Accounts st.entries st.lastID g) : Stream :=
  { st with
    groups := st.groups.insert name g
    accounts := by
      intro other g' hg'
      rw [Table.lookup_insert_eq] at hg'
      split_ifs at hg'
      · exact Option.some.inj hg' ▸ h
      · exact st.accounts other g' hg' }

/-- A command on one group; without the group, it is refused and nothing changes. -/
def onGroup (st : Stream) (name : String) (f : ConsumerGroup → ConsumerGroup)
    (h : ∀ g, Accounts st.entries st.lastID g → Accounts st.entries st.lastID (f g)) : Stream :=
  match hg : st.groups.lookup name with
  | none => st
  | some g => st.setGroup name (f g) (h g (st.accounts name g hg))

lemma later_onGroup (h : ∀ g, Accounts st.entries st.lastID g → Accounts st.entries st.lastID (f g))
    (hf : ∀ g, Advances g (f g)) : Later st (st.onGroup name f h) := by
  unfold onGroup
  split
  · exact .refl st
  · next g hg =>
    refine ⟨List.Subset.refl _, fun other g' hg' => ?_⟩
    change ∃ g'', (st.groups.insert name (f g)).lookup other = some g'' ∧ _
    rw [Table.lookup_insert_eq]
    by_cases heq : other = name
    · subst heq
      obtain rfl : g = g' := Option.some.inj (hg.symm.trans hg')
      exact ⟨f g, if_pos rfl, hf g⟩
    · exact ⟨g', by rw [if_neg heq]; exact hg', .refl g'⟩

/-- `XADD` with an id above every earlier one; any other is refused. -/
def add (st : Stream) (id : StreamID) : Stream :=
  if h : st.lastID < id then
    { st with
      entries := st.entries ++ [id]
      lastID := id
      sorted := by
        rw [List.pairwise_append]
        refine ⟨st.sorted, List.pairwise_singleton _ _, fun a ha b hb => ?_⟩
        rw [List.mem_singleton.mp hb]
        exact (st.generated a ha).trans_lt h
      generated := by
        intro a ha
        rcases List.mem_append.mp ha with ha | ha
        · exact (st.generated a ha).trans h.le
        · exact (List.mem_singleton.mp ha).le
      accounts := by
        intro name g hg
        have hold := st.accounts name g hg
        refine ⟨hold.behind.imp_left (·.trans h.le), fun a ha hs hle => ?_⟩
        rcases List.mem_append.mp ha with ha | ha
        · exact hold.accounted a ha hs hle
        · -- the new entry is above everything that was delivered
          rw [List.mem_singleton.mp ha] at hs hle
          rcases hold.behind with hb | hb
          · exact absurd (hle.trans hb) (not_le.mpr h)
          · exact absurd (hb ▸ hle) (not_le.mpr hs) }
  else st

lemma later_add (st : Stream) (id : StreamID) : Later st (st.add id) := by
  unfold add
  split_ifs
  · exact ⟨List.subset_append_left _ _, fun _ g hg => ⟨g, hg, .refl g⟩⟩
  · exact .refl st

/-- `XGROUP CREATE` at some id: the workers of the fleet do it at the start of the stream, others
may do it at `$`, the last id, or anywhere. -/
def createGroup (st : Stream) (name : String) (start : StreamID) : Stream :=
  if st.groups.lookup name = none then
    st.setGroup name (.startingAt start) ⟨.inr rfl, fun _ _ hs hle => absurd hle (not_le.mpr hs)⟩
  else st

lemma later_createGroup (st : Stream) (name : String) (start : StreamID) :
    Later st (st.createGroup name start) := by
  unfold createGroup
  split_ifs with hn
  · refine ⟨List.Subset.refl _, fun other g hg => ⟨g, ?_, .refl g⟩⟩
    change (st.groups.insert name (.startingAt start)).lookup other = some g
    rw [Table.lookup_insert_eq, if_neg]
    · exact hg
    · rintro rfl
      rw [hn] at hg
      cases hg
  · exact .refl st

/-- `XTRIM MINID`: the entries below the bound go. -/
def trim (st : Stream) (bound : StreamID) : Stream :=
  { st with
    entries := st.entries.filter fun id => bound ≤ id
    sorted := st.sorted.sublist List.filter_sublist
    generated := fun id hid => st.generated id (List.mem_of_mem_filter hid)
    accounts := fun name g hg => ⟨(st.accounts name g hg).behind, fun id hid =>
      (st.accounts name g hg).accounted id (List.mem_of_mem_filter hid)⟩ }

/-! ### Commands -/

inductive Op where
  | add (id : StreamID)
  | readGroup (group consumer : String) (count : ℕ) (noack : Bool)
  | ack (group : String) (ids : List StreamID)
  | autoClaim (group consumer : String) (idle : List StreamID)
  | createGroup (group : String) (start : StreamID)

def perform (st : Stream) : Op → Stream
  | .add id => st.add id
  | .readGroup group consumer count noack =>
    st.onGroup group (·.read st.entries st.sorted consumer count noack) fun _ hg =>
      ConsumerGroup.accounts_read hg st.generated st.sorted consumer count noack
  | .ack group ids => st.onGroup group (·.ack ids) fun _ hg => ConsumerGroup.accounts_ack hg ids
  | .autoClaim group consumer idle =>
    st.onGroup group (·.claim st.entries consumer idle) fun _ hg =>
      ConsumerGroup.accounts_claim hg consumer idle
  | .createGroup group start => st.createGroup group start

/-- **Entries stay, and groups only move forward.** -/
theorem later_perform (st : Stream) (op : Op) : Later st (st.perform op) := by
  cases op with
  | add id => exact later_add st id
  | readGroup group con count noack =>
    refine later_onGroup (fun _ hg => ?_) fun g => g.advances_read st.sorted con count noack
    exact ConsumerGroup.accounts_read hg st.generated st.sorted con count noack
  | ack group ids =>
    exact later_onGroup (fun _ hg => ConsumerGroup.accounts_ack hg ids) fun g => g.advances_ack ids
  | autoClaim group con idle =>
    refine later_onGroup (fun _ hg => ?_) fun g => g.advances_claim st.entries con idle
    exact ConsumerGroup.accounts_claim hg con idle
  | createGroup group start => exact later_createGroup st group start

/-- The command brings the stream into being if it is not there. -/
def Op.creates : Op → Bool
  | .add _ | .createGroup _ _ => true
  | _ => false

end Stream

/-- The streams of a server, by their keys. -/
abbrev Server := Table String Stream

structure Command where
  stream : String
  op : Stream.Op

def Server.perform (s : Server) (command : Command) : Server :=
  match s.lookup command.stream with
  | some st => s.insert command.stream (st.perform command.op)
  | none =>
    if command.op.creates then s.insert command.stream (Stream.empty.perform command.op) else s

lemma Server.later_perform {s : Server} (hst : s.lookup name = some st) (cmd : Command) :
    ∃ st', (s.perform cmd).lookup name = some st' ∧ Later st st' := by
  unfold perform
  by_cases heq : name = cmd.stream
  · subst heq
    rw [hst]
    exact ⟨_, AList.lookup_insert s, st.later_perform cmd.op⟩
  · refine ⟨st, ?_, .refl st⟩
    split
    · rw [Table.lookup_insert_eq, if_neg heq]
      exact hst
    · split_ifs
      · rw [Table.lookup_insert_eq, if_neg heq]
        exact hst
      · exact hst

end Codohue.Redis
