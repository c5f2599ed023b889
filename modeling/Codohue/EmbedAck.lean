import Codohue.EmbedSteps
import Codohue.Fencing

/-!
When the embedder acknowledges a stream entry.

An acknowledged entry is gone, so the call that acknowledges it should have seen the item
settled: embedded under the active strategy, dead-lettered, deleted, or no longer a matter of
the catalog. The outcome of `ProcessItem` is a variable that the callback of the lease assigns;
if the lease is refused the callback never runs and the variable says `embedded`.
-/

namespace Codohue.EmbedAck

open Catalog Embedder Transition
open Coordinator (Outcome)

variable {V η : Type} {R : Registry V}

/-- A call of `ProcessItem`, with every state of the stores that it has seen. -/
structure Call (V η : Type) where
  world : World V η
  pc : Pc V η
  history : List (World V η)

def start (w : World V η) : Call V η := ⟨w, .load, [w]⟩

section Step

variable [DecidableEq η] (dim : V → ℕ) (defaultMaxAttempts : ℤ)

def callStep (c : Call V η) (r : Reply R) : Option (Call V η) :=
  (step dim defaultMaxAttempts c.world r c.pc).map fun next =>
    ⟨next.1, next.2, c.history ++ [next.1]⟩

end Step

/-- Nothing is left to do for the item. -/
def Settled (w : World V η) : Prop :=
  w.row = none ∨ (∃ item, w.row = some item ∧ item.state = .deadLetter) ∨
  (∃ item cfg, w.row = some item ∧ w.config = some cfg ∧ item.state = .embedded ∧
    item.strategyID = cfg.catalogStrategyID ∧ item.strategyVersion = cfg.catalogStrategyVersion) ∨
  w.config = none ∨ ∃ cfg, w.config = some cfg ∧ cfg.denseSource ≠ "catalog"

/-- The strategy is the one that the namespace has active. -/
def Active (w : World V η) (s : Strategy V) : Prop :=
  ∃ cfg, w.config = some cfg ∧ s.id = cfg.catalogStrategyID ∧ s.version = cfg.catalogStrategyVersion

/-- What the callback of the lease knows at each of its steps. -/
def Knows (w : World V η) : Pc V η → Prop
  | .load | .lease _ => False
  | .config item => w.row = some item
  | .markInFlight _ cfg | .embed _ cfg => w.config = some cfg
  | .ensureCollections _ s _ | .idmap _ s _ | .upsertVector _ s _ | .markEmbedded _ s => Active w s
  | .markFailed _ | .markDeadLetter _ | .done _ _ => True

structure CallInv (c : Call V η) : Prop where
  knows : Knows c.world c.pc
  settled : ∀ outcome err, c.pc = .done outcome err → outcome.shouldAck → ∃ w ∈ c.history, Settled w

/-- A step that leaves the call under way, or ends it with the item settled, or with the entry
pending. -/
lemma CallInv.next {c : Call V η} (hk : Knows w' pc')
    (hd : ∀ outcome err, pc' = .done outcome err → outcome.shouldAck →
      Settled w' ∨ ∃ w ∈ c.history, Settled w) :
    CallInv ⟨w', pc', c.history ++ [w']⟩ where
  knows := hk
  settled := by
    intro outcome err hpc ha
    rcases hd outcome err hpc ha with hn | ⟨w, hw, hb⟩
    · exact ⟨w', by simp, hn⟩
    · exact ⟨w, by simp [hw], hb⟩

lemma markEmbedded_eq_some [DecidableEq η] {id version : String} {hash : η}
    {row : Option (Item η)} {item' : Item η}
    (h : Catalog.markEmbedded id version hash row = some item') :
    item'.state = .embedded ∧ item'.strategyID = id ∧ item'.strategyVersion = version := by
  cases row with
  | none => cases h
  | some item =>
    simp only [Catalog.markEmbedded] at h
    split_ifs at h
    cases h
    exact ⟨rfl, rfl, rfl⟩

section Run

variable [DecidableEq η] {dim : V → ℕ} {defaultMaxAttempts : ℤ}

/-- **Inside the callback of the lease** no step acknowledges an item that is not settled. -/
lemma knows_step {w w' : World V η} {r : Reply R} {pc pc' : Pc V η} (hk : Knows w pc)
    (h : step dim defaultMaxAttempts w r pc = some (w', pc')) :
    Knows w' pc' ∧ ∀ outcome err, pc' = .done outcome err → outcome.shouldAck → Settled w' := by
  have hs : ∀ {w' : World V η} {pc' : Pc V η}, Stops pc' →
      Knows w' pc' ∧ ∀ outcome err, pc' = .done outcome err → outcome.shouldAck → Settled w' :=
    fun hst => by cases hst <;> simp [Knows, ProcessOutcome.shouldAck]
  cases step_took h with
  | load | refused | lease => exact hk.elim
  | failed err | markFailed err => exact hs (.failed err)
  | stops _ hst => exact hs hst
  | noRow hr => exact ⟨trivial, fun _ _ _ _ => .inl hr⟩
  | noConfig hc => exact ⟨trivial, fun _ _ _ _ => .inr (.inr (.inr (.inl hc)))⟩
  | otherSource hc hso =>
    exact ⟨trivial, fun _ _ _ _ => .inr (.inr (.inr (.inr ⟨_, hc, hso⟩)))⟩
  | current hc hcu =>
    exact ⟨trivial, fun _ _ _ _ => .inr (.inr (.inl ⟨_, _, hk, hc, hcu⟩))⟩
  | config hc => exact ⟨hc, by simp⟩
  | inFlight hn | upsertVector _ hn =>
    rcases hn with rfl | hst
    · exact ⟨hk, by simp⟩
    · exact hs hst
  | embed hb => exact ⟨⟨_, hk, R.registered _ _ hb⟩, by simp⟩
  | ensureCollections | idmap => exact ⟨hk, by simp⟩
  | markEmbedded _ hm hn =>
    rcases hn with rfl | ⟨err, rfl⟩
    · obtain ⟨cfg, hc, hid, hv⟩ := hk
      obtain ⟨hsta, hid', hv'⟩ := markEmbedded_eq_some hm
      exact ⟨trivial, fun _ _ _ _ => .inr (.inr (.inl
        ⟨_, cfg, rfl, hc, hsta, hid'.trans hid, hv'.trans hv⟩))⟩
    · exact hs (.failed err)
  | markDeadLetter hn =>
    rcases hn with ⟨rfl, hr⟩ | ⟨err, rfl⟩
    · obtain ⟨row, hr⟩ := Option.isSome_iff_exists.mp hr
      exact ⟨trivial, fun _ _ _ _ =>
        .inr (.inl ⟨_, Option.map_eq_some_iff.mpr ⟨row, hr, rfl⟩, rfl⟩)⟩
    · exact hs (.failed err)

lemma callInv_step {c c' : Call V η} {r : Reply R} (hc : CallInv c)
    (h : callStep dim defaultMaxAttempts c r = some c') : CallInv c' := by
  obtain ⟨⟨w', pc'⟩, hst, rfl⟩ := Option.map_eq_some_iff.mp h
  obtain ⟨hk, hs⟩ := knows_step hc.knows hst
  exact CallInv.next hk fun outcome err hpc ha => .inl (hs outcome err hpc ha)

lemma exec_done {c : Call V η} (hc : c.pc = .done outcome err)
    (h : exec (callStep dim defaultMaxAttempts) c rs = some c') : c' = c := by
  cases rs with
  | nil => exact (Option.some.inj h).symm
  | cons r rs =>
    obtain ⟨c'', hs, -⟩ := (exec_cons _).mp h
    simp [callStep, hc, step] at hs

/-- The row is loaded, and the lease that the call then asks for is refused: a lock or a
lifecycle read fails, or the system or the namespace is not active. -/
def LeaseRefused (w : World V η) (rs : List (Reply R)) : Prop :=
  ∃ load lease rest item, rs = load :: lease :: rest ∧ load.o = .ok ∧ w.row = some item ∧
    leaseOpen w.lifecycle item.ns lease = false

section Return

variable {w : World V η} {rs : List (Reply R)} {c : Call V η} {outcome : ProcessOutcome}
  {err : Option String}

/-- How a call gets to its return: the row could not be loaded, or there is none, or the lease
was refused, or the callback of the lease ran. -/
lemma return_cases (hr : exec (callStep dim defaultMaxAttempts) (start w) rs = some c)
    (hd : c.pc = .done outcome err) :
    (outcome = .failed ∧ ¬ LeaseRefused w rs) ∨
    (w.row = none ∧ c.world = w ∧ w ∈ c.history ∧ ¬ LeaseRefused w rs) ∨
    (outcome = .embedded ∧ LeaseRefused w rs) ∨
    (¬ LeaseRefused w rs ∧ ∃ item, ∃ rest : List (Reply R), ∃ history, w.row = some item ∧
      exec (callStep dim defaultMaxAttempts) ⟨w, .config item, history⟩ rest = some c) := by
  cases rs with
  | nil =>
    obtain rfl : start w = c := Option.some.inj hr
    cases hd
  | cons load rs =>
    obtain ⟨c1, hlo, hr⟩ := (exec_cons _).mp hr
    obtain ⟨⟨w1, pc1⟩, hs, rfl⟩ := Option.map_eq_some_iff.mp hlo
    simp only [start, step] at hs
    split at hs
    · next hf =>
      cases hs
      obtain rfl := exec_done rfl hr
      obtain ⟨rfl, -⟩ := Pc.done.inj hd
      refine .inl ⟨rfl, ?_⟩
      rintro ⟨load', _, _, _, heq, hok, -⟩
      obtain ⟨rfl, -⟩ := List.cons.inj heq
      simp [hok, Outcome.error] at hf
    · next hn =>
      cases hs
      obtain rfl := exec_done rfl hr
      refine .inr (.inl ⟨hn, rfl, by simp [start], ?_⟩)
      rintro ⟨_, _, _, _, -, -, hro, -⟩
      simp [hn] at hro
    · next item hok hro =>
      cases hs
      cases rs with
      | nil =>
        cases hr
        cases hd
      | cons lease rs =>
        obtain ⟨c2, hle, hr⟩ := (exec_cons _).mp hr
        obtain ⟨⟨w2, pc2⟩, hs2, rfl⟩ := Option.map_eq_some_iff.mp hle
        simp only [step] at hs2
        split_ifs at hs2 with hop
        · cases hs2
          refine .inr (.inr (.inr ⟨?_, item, rs, _, hro, hr⟩))
          rintro ⟨_, _, _, item', heq, -, hro', hc⟩
          obtain ⟨-, hre⟩ := List.cons.inj heq
          obtain ⟨rfl, -⟩ := List.cons.inj hre
          obtain rfl : item = item' := Option.some.inj (hro.symm.trans hro')
          simp [hop] at hc
        · -- the outcome still has its zero value
          cases hs2
          obtain rfl := exec_done rfl hr
          obtain ⟨rfl, -⟩ := Pc.done.inj hd
          have hl : load.o = .ok := by
            cases ho : load.o <;> simp_all [Outcome.error]
          exact .inr (.inr (.inl ⟨rfl, load, lease, rs, item, rfl, hl, hro, by simpa using hop⟩))

/-- **When the acknowledgement of an entry is safe.** A call that acknowledges its entry has
seen the item settled, and a refused lease leaves the entry pending: both hold exactly when the
lease of the call was not refused. -/
theorem ack_safe_iff (w : World V η) (rs : List (Reply R)) (c : Call V η)
    (outcome : ProcessOutcome) (err : Option String)
    (hrun : exec (callStep dim defaultMaxAttempts) (start w) rs = some c)
    (hdone : c.pc = .done outcome err) :
    ((outcome.shouldAck → ∃ w' ∈ c.history, Settled w') ∧
      (LeaseRefused w rs → ¬ outcome.shouldAck)) ↔ ¬ LeaseRefused w rs := by
  obtain ⟨rfl, hno⟩ | ⟨hn, -, hm, hno⟩ | ⟨rfl, hr⟩ |
    ⟨hno, item, rest, history, hro, hrun⟩ := return_cases hrun hdone
  · simp [ProcessOutcome.shouldAck, hno]
  · exact ⟨fun _ => hno, fun _ => ⟨fun _ => ⟨w, hm, .inl hn⟩, fun h => absurd h hno⟩⟩
  · have ha : ProcessOutcome.embedded.shouldAck := rfl
    exact ⟨fun h => absurd ha (h.2 hr), fun h => absurd hr h⟩
  · have hi : CallInv c := exec_invariant (fun _ _ _ => callInv_step) hrun ⟨hro, by simp⟩
    exact ⟨fun _ => hno, fun _ => ⟨hi.settled outcome err hdone, fun h => absurd h hno⟩⟩

lemma settled_of_ack (hr : exec (callStep dim defaultMaxAttempts) (start w) rs = some c)
    (hd : c.pc = .done outcome err) (ha : outcome.shouldAck)
    (hg : ¬ LeaseRefused w rs) : Settled c.world := by
  obtain ⟨rfl, -⟩ | ⟨hn, hw, -⟩ | ⟨-, hre⟩ |
    ⟨-, item, rest, history, hro, hr⟩ := return_cases hr hd
  · cases ha
  · exact hw ▸ .inl hn
  · exact absurd hre hg
  · have hi : Knows c.world c.pc ∧ ∀ outcome err, c.pc = .done outcome err →
        outcome.shouldAck → Settled c.world := by
      refine exec_invariant (I := fun c : Call V η => Knows c.world c.pc ∧ ∀ outcome err,
        c.pc = .done outcome err → outcome.shouldAck → Settled c.world) ?_ hr ⟨hro, by simp⟩
      rintro c r c' ⟨hk, -⟩ h
      obtain ⟨⟨w', pc'⟩, hs, rfl⟩ := Option.map_eq_some_iff.mp h
      exact knows_step hk hs
    exact hi.2 outcome err hd ha

end Return

end Run

/-! ### Runs -/

/-- One strategy, whose vectors are the texts themselves. -/
def textRegistry : Registry String where
  build := fun key =>
    if key.id = "internal-hashing-ngrams" ∧ key.version = "v1" then
      .ok ⟨"internal-hashing-ngrams", "v1", .ok⟩
    else .error "embedstrategy: unknown id/version"
  registered := by
    intro key s h
    split_ifs at h with hkey
    cases h
    exact ⟨hkey.1.symm, hkey.2.symm⟩

def catalogConfig : Config := ⟨"catalog", "internal-hashing-ngrams", "v1", "", 0, 64⟩

def pendingItem : Item String := ⟨"n", "o", .pending, "text", "text", "", "", 0, none⟩

/-- A pending item of an active namespace. -/
def pendingWorld : World String String :=
  { row := some pendingItem, config := some catalogConfig, point := none,
    lifecycle := Fencing.emptyStore.setRow "n" ⟨1, .active, true, none⟩ }

def healthy : Reply textRegistry := ⟨.ok, .ok, .ok, .ok, none, .empty textRegistry⟩

/-- The lock session of the lease cannot be had. -/
def refused : Reply textRegistry := { healthy with lock := .fail "connection refused" }

def textStep : Call String String → Reply textRegistry → Option (Call String String) :=
  callStep (fun _ => 64) 0

lemma not_leaseRefused_healthy (n : ℕ) :
    ¬ LeaseRefused pendingWorld (List.replicate n healthy) := by
  rintro ⟨load, lease, rest, item, heq, -, hr, hc⟩
  have hm : lease ∈ List.replicate n healthy := by rw [heq]; simp
  obtain rfl := List.eq_of_mem_replicate hm
  obtain rfl : pendingItem = item := Option.some.inj hr
  exact absurd hc (by decide +kernel)

/-- The entry is acknowledged as embedded. -/
def ackedEmbedded {V η : Type} : Pc V η → Bool
  | .done .embedded none => true
  | _ => false

/-- With a granted lease the entry is acknowledged for an embedded item. -/
theorem ack_safe_iff_granted :
    ∃ c, exec textStep (start pendingWorld) (List.replicate 9 healthy) = some c ∧
      c.pc = .done .embedded none ∧ ∃ w' ∈ c.history, Settled w' := by
  have hd : (exec textStep (start pendingWorld) (List.replicate 9 healthy)).map
      (fun c => ackedEmbedded c.pc) = some true := by decide +kernel
  obtain ⟨c, hr, hpc⟩ := Option.map_eq_some_iff.mp hd
  have hc : c.pc = .done .embedded none := by
    unfold ackedEmbedded at hpc
    split at hpc
    · assumption
    · cases hpc
  exact ⟨c, hr, hc, ((ack_safe_iff pendingWorld (List.replicate 9 healthy) c .embedded none
    hr hc).mpr (not_leaseRefused_healthy 9)).1 rfl⟩

/-- **A refused lease acknowledges the entry of a pending item.** -/
theorem refused_lease_acks : ∃ c, exec textStep (start pendingWorld) [healthy, refused] = some c ∧
      (∃ err, c.pc = .done .embedded err) ∧ ProcessOutcome.embedded.shouldAck ∧
      LeaseRefused pendingWorld [healthy, refused] ∧ ∀ w' ∈ c.history, ¬ Settled w' := by
  refine ⟨⟨pendingWorld, .done .embedded (some "lease"),
    [pendingWorld, pendingWorld, pendingWorld]⟩,
    rfl, ⟨_, rfl⟩, rfl, ⟨healthy, refused, [], pendingItem, rfl, rfl, rfl, rfl⟩, ?_⟩
  intro w' hw'
  obtain rfl : w' = pendingWorld := by simpa using hw'
  simp [Settled, pendingWorld, pendingItem, catalogConfig]

end Codohue.EmbedAck
