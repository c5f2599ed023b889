import Codohue.Embedder

/-!
What one step of `ProcessItem` can do, said once: every later argument about executions is a case
analysis of `Took`.
-/

namespace Codohue.Embedder

open Catalog (Item)
open Coordinator (Outcome)

variable {V η : Type} {R : Registry V}

/-- The execution is between `MarkInFlight` and the state write that ends it. -/
def embedding : Pc V η → Bool
  | .embed _ _ | .ensureCollections _ _ _ | .idmap _ _ _ | .upsertVector _ _ _ => true
  | _ => false

/-- The execution writes a failure next, or has returned with one. -/
inductive Stops : Pc V η → Prop where
  | markFailed (reason : String) : Stops (.markFailed reason)
  | markDeadLetter (reason : String) : Stops (.markDeadLetter reason)
  | failed (err : Option String) : Stops (.done .failed err)

/-- One step of `ProcessItem`, by what it reads and writes. -/
inductive Took [DecidableEq η] (w : World V η) (r : Reply R) :
    Pc V η → World V η → Pc V η → Prop where
  | failed {pc : Pc V η} (err : Option String) : Took w r pc w (.done .failed err)
  | stops {pc pc' : Pc V η} (hpc : embedding pc) (h : Stops pc') : Took w r pc w pc'
  | noRow {pc : Pc V η} (hrow : w.row = none) : Took w r pc w (.done .skipped none)
  | load {item : Item η} (hrow : w.row = some item) : Took w r .load w (.lease item)
  | refused {item : Item η} : Took w r (.lease item) w (.done .embedded (some "lease"))
  | lease {item : Item η} : Took w r (.lease item) w (.config item)
  | noConfig {item : Item η} (hcfg : w.config = none) :
      Took w r (.config item) w (.done .skipped none)
  | otherSource {item : Item η} {cfg : Config} (hcfg : w.config = some cfg)
      (h : cfg.denseSource ≠ "catalog") : Took w r (.config item) w (.done .skipped none)
  | current {item : Item η} {cfg : Config} (hcfg : w.config = some cfg)
      (h : item.state = .embedded ∧ item.strategyID = cfg.catalogStrategyID ∧
        item.strategyVersion = cfg.catalogStrategyVersion) :
      Took w r (.config item) w (.done .skipped none)
  | config {item : Item η} {cfg : Config} (hcfg : w.config = some cfg) :
      Took w r (.config item) w (.markInFlight item cfg)
  | inFlight {item : Item η} {cfg : Config} {pc' : Pc V η} (h : pc' = .embed item cfg ∨ Stops pc') :
      Took w r (.markInFlight item cfg) { w with row := w.row.map Catalog.markInFlight } pc'
  | embed {item : Item η} {cfg : Config} {s : Strategy V} {vec : V}
      (hbuild : R.build (strategyCacheKey cfg) = .ok s)
      (hvec : s.embed item.content = .ok vec) :
      Took w r (.embed item cfg) w (.ensureCollections item s vec)
  | ensureCollections {item : Item η} {s : Strategy V} {vec : V} :
      Took w r (.ensureCollections item s vec) w (.idmap item s vec)
  | idmap {item : Item η} {s : Strategy V} {vec : V} (ho : r.o.error = none) :
      Took w r (.idmap item s vec) w (.upsertVector item s vec)
  | upsertVector {item : Item η} {s : Strategy V} {vec : V} {pc' : Pc V η}
      (ho : ∀ text, r.o ≠ .fail text) (h : pc' = .markEmbedded item s ∨ Stops pc') :
      Took w r (.upsertVector item s vec) { w with point := some ⟨vec, s.id, s.version⟩ } pc'
  | markEmbedded {item row : Item η} {s : Strategy V} {pc' : Pc V η} (ho : ∀ text, r.o ≠ .fail text)
      (hmark : Catalog.markEmbedded s.id s.version item.contentHash w.row = some row)
      (h : pc' = .done .embedded none ∨ ∃ err, pc' = .done .failed err) :
      Took w r (.markEmbedded item s) { w with row := some row } pc'
  | markFailed {reason : String} (err : Option String) :
      Took w r (.markFailed reason) { w with row := w.row.map (Catalog.markFailed reason) }
        (.done .failed err)
  | markDeadLetter {reason : String} {pc' : Pc V η}
      (h : pc' = .done .deadLetter none ∧ w.row.isSome ∨ ∃ err, pc' = .done .failed err) :
      Took w r (.markDeadLetter reason)
        { w with row := w.row.map (Catalog.markDeadLetter reason) } pc'

section Step

variable [DecidableEq η] {dim : V → ℕ} {dma : ℤ} {w w' : World V η} {r : Reply R}
  {pc pc' : Pc V η} {item : Item η} {cfg : Config}

lemma took_config : Took w r (.config item) w (configStep w item r.o) := by
  unfold configStep
  split
  · exact .failed _
  · next hc => exact .noConfig hc
  · next cfg _ hc =>
    split_ifs with hs hcu
    · exact .otherSource hc hs
    · exact .current hc hcu
    · exact .config hc

lemma took_inFlight : Took w r (.markInFlight item cfg)
    (inFlightStep dma w item cfg r.o).1
    (inFlightStep dma w item cfg r.o).2 := by
  unfold inFlightStep
  split
  · exact .failed _
  · exact .inFlight (.inr (.failed _))
  · next hr => exact .noRow hr
  · next row _ hr =>
    have hm : some (Catalog.markInFlight row) = w.row.map Catalog.markInFlight := by rw [hr]; rfl
    simp only [hm]
    refine .inFlight ?_
    split_ifs
    · exact .inr (.markDeadLetter _)
    · exact .inl rfl

lemma took_embed : Took w r (.embed item cfg) w (embedStep dim item cfg r) := by
  unfold embedStep
  rw [resolveStrategy_fst]
  split
  · exact .stops rfl (.markDeadLetter _)
  · next s hs =>
    split
    · split_ifs
      · exact .stops rfl (.markDeadLetter _)
      · exact .stops rfl (.markFailed _)
    · next vec hv =>
      split_ifs
      · exact .stops rfl (.markDeadLetter _)
      · refine .embed hs ?_
        cases hr : r.embed with
        | none => simpa [hr] using hv
        | some err => simp [hr] at hv

lemma took_markEmbedded : Took w r (.markEmbedded item s)
    (markEmbeddedStep w item s r.o).1 (markEmbeddedStep w item s r.o).2 := by
  unfold markEmbeddedStep
  split
  · exact .failed _
  · exact .failed _
  · next ho hm => exact .markEmbedded (by simp [ho]) hm (.inl rfl)
  · next ho hm => exact .markEmbedded (by simp [ho]) hm (.inr ⟨_, rfl⟩)

lemma took_markDeadLetter : Took w r (.markDeadLetter reason)
    (deadLetterStep w reason r.o).1 (deadLetterStep w reason r.o).2 := by
  unfold deadLetterStep
  split
  · exact .failed _
  · exact .markDeadLetter (.inr ⟨_, rfl⟩)
  · exact .failed _
  · next row _ hr =>
    have hm : some (Catalog.markDeadLetter reason row) =
        w.row.map (Catalog.markDeadLetter reason) := by rw [hr]; rfl
    simp only [hm]
    exact .markDeadLetter (.inl ⟨rfl, by rw [hr]; rfl⟩)

/-- **One step of `ProcessItem`.** -/
theorem step_took (h : step dim dma w r pc = some (w', pc')) :
    Took w r pc w' pc' := by
  cases pc with
  | load =>
    simp only [step] at h
    split at h <;> cases h
    · exact .failed _
    · next hr => exact .noRow hr
    · next hr => exact .load hr
  | lease item =>
    simp only [step] at h
    split_ifs at h <;> cases h
    · exact .lease
    · exact .refused
  | config item =>
    cases h
    exact took_config
  | markInFlight item cfg =>
    obtain ⟨rfl, rfl⟩ := Prod.mk.inj (Option.some.inj h)
    exact took_inFlight
  | embed item cfg =>
    cases h
    exact took_embed
  | ensureCollections item s vec =>
    simp only [step] at h
    split at h <;> cases h
    · exact .stops rfl (.markFailed _)
    · exact .ensureCollections
  | idmap item s vec =>
    simp only [step] at h
    split at h <;> cases h
    · exact .stops rfl (.markFailed _)
    · next ho => exact .idmap ho
  | upsertVector item s vec =>
    simp only [step, upsertStep] at h
    split at h <;> cases h
    · next ho => exact .upsertVector (by simp [ho]) (.inl rfl)
    · exact .stops rfl (.markFailed _)
    · next ho => exact .upsertVector (by simp [ho]) (.inr (.markFailed _))
  | markEmbedded item s =>
    obtain ⟨rfl, rfl⟩ := Prod.mk.inj (Option.some.inj h)
    exact took_markEmbedded
  | markFailed reason =>
    cases h
    unfold failedStep
    split
    · exact .failed _
    · exact .markFailed _
  | markDeadLetter reason =>
    obtain ⟨rfl, rfl⟩ := Prod.mk.inj (Option.some.inj h)
    exact took_markDeadLetter
  | done outcome err => cases h

end Step

end Codohue.Embedder
