import Codohue.RepairGate

/-!
What verify establishes.

Verify reads the points and writes notes only. A run is marked complete when every namespace has
been rebuilt and every item is confirmed: apply is done with it and, if it moved, the target holds
its point in every collection it moved in and the old ids are empty there.
-/

namespace Codohue.Repair

open Script Prog

variable {V : Type} {G : Reply Error Torn → Prop} {w : World V} {env : Env V} {run : ℕ}
  {item : Item}

/-- The collection holds the point of the item at the target, and nothing at its old ids. -/
structure Landed (env : Env V) (w : World V) (item : Item) (c : String) : Prop where
  target : ∃ p, w.points.lookup (c, item.goal) = some p ∧
    p.field (payloadIDField c) = item.identity.stringID ∧
    (item.vectorHash ≠ "" → env.hashVectors p.vector = item.vectorHash) ∧
    (item.payloadHash ≠ "" → env.hashPayload p.payload = item.payloadHash)
  olds : ∀ old ∈ item.stale item.goal, w.points.lookup (c, old) = none

structure Confirmed (env : Env V) (w : World V) (item : Item) : Prop where
  finished : item.finished
  moved : item.needsCopy → ∀ c ∈ copyableCollections item, Landed env w item c

/-! ### Checks without problems -/

/-- A check that changes nothing, and that establishes `P` if it finds no problem. -/
def Checks (G : Reply Error Torn → Prop) (w : World V) (m : RepairM V (List String)) (P : Prop) :
    Prop :=
  Wp G m (· = w) (fun problems w' => w' = w ∧ (problems = [] → P)) w

lemma checks_mapEach {α : Type} {f : α → RepairM V (List String)} {P : α → Prop} {xs : List α}
    (hf : ∀ x ∈ xs, Checks G w (f x) (P x)) :
    Wp G (mapEach f xs) (· = w)
      (fun found w' => w' = w ∧ (found.flatten = [] → ∀ x ∈ xs, P x)) w := by
  induction xs with
  | nil => exact wp_pure ⟨rfl, by simp⟩
  | cons x xs ih =>
    refine wp_bind (wp_mono (hf x List.mem_cons_self) (fun _ => id) ?_)
    rintro problems w' ⟨rfl, hx⟩
    refine wp_bind (wp_mono (ih fun y hy => hf y (List.mem_cons_of_mem _ hy)) (fun _ => id) ?_)
    rintro found w' ⟨rfl, hxs⟩
    refine wp_pure ⟨rfl, fun hn => ?_⟩
    rw [List.flatten_cons, List.append_eq_nil_iff] at hn
    exact List.forall_mem_cons.mpr ⟨hx hn.1, hxs hn.2⟩

lemma checks_verifyOld (hG : G .ok) :
    Checks G w (verifyOld x c old) (w.points.lookup (c, old) = none) := by
  refine wp_bind (wp_attempt (T := (· = w)) ?_ ?_ fun _ => id)
  · refine wp_bind (wp_checkPointID (fun _ => rfl) fun _ => ?_)
    refine wp_bind (wp_readPoint hG rfl (wp_pure (wp_pure ⟨rfl, fun hn => ?_⟩)))
    cases hp : w.points.lookup (c, old) with
    | none => rfl
    | some p => simp [hp] at hn
  · rintro e w' rfl
    exact wp_pure ⟨rfl, fun hn => by cases hn⟩

lemma checks_verifyCollection {c : String} (hG : G .ok) :
    Checks G w (verifyCollection env item item.goal c) (Landed env w item c) := by
  refine wp_bind (wp_attempt (T := (· = w)) ?_ ?_ fun _ => id)
  · refine wp_bind (wp_checkPointID (fun _ => rfl) fun _ => ?_)
    refine wp_bind (wp_readPoint hG rfl (wp_pure ?_))
    cases hp : w.points.lookup (c, item.goal) with
    | none => exact wp_pure ⟨rfl, fun hn => by cases hn⟩
    | some p =>
      simp only [Option.map_some]
      split_ifs with hl
      · exact wp_pure ⟨rfl, fun hn => by cases hn⟩
      · refine wp_bind (wp_mono (checks_mapEach fun old _ => checks_verifyOld hG) (fun _ => id) ?_)
        rintro olds w' ⟨rfl, holds⟩
        refine wp_pure ⟨rfl, fun hn => ?_⟩
        obtain ⟨hh, hf⟩ := List.append_eq_nil_iff.mp hn
        rw [hashProblems, List.append_eq_nil_iff] at hh
        obtain ⟨hv, hpa⟩ := hh
        refine ⟨⟨p, hp, not_not.mp hl, ?_, ?_⟩, holds hf⟩
        · simpa using hv
        · simpa using hpa
  · rintro e w' rfl
    exact wp_pure ⟨rfl, fun hn => by cases hn⟩

lemma checks_verifyItem (hG : G .ok) : Checks G w (verifyItem env item)
    (item.needsCopy → ∀ c ∈ copyableCollections item, Landed env w item c) := by
  unfold verifyItem
  cases ht : item.targetNumericID with
  | none => exact wp_pure ⟨rfl, fun _ hm => by simp [Item.needsCopy, ht] at hm⟩
  | some target =>
    obtain rfl : item.goal = target := by simp [Item.goal, ht]
    by_cases hm : item.needsCopy
    · simp only [hm, if_true]
      refine wp_bind (wp_mono (checks_mapEach fun c _ => checks_verifyCollection hG)
        (fun _ => id) ?_)
      rintro found w' ⟨rfl, hf⟩
      exact wp_pure ⟨rfl, fun hn _ => hf hn⟩
    · simp only [hm, Bool.false_eq_true, if_false]
      exact wp_pure ⟨rfl, fun _ => False.elim⟩

/-! ### Verify -/

lemma wp_checkItem (hG : G .ok) (hw : S w₁) (hn : item.finished → ∀ w runs, S w →
      w.runs.Updated run (·.setItem item.identity .verified "") runs → S { w with runs := runs }) :
    Wp G (checkItem env run item) S (fun verdict w' => S w' ∧ w'.points = w₁.points ∧
      ((∃ problems, verdict = .unmoved problems) ∨ verdict = .remaining ∨
        (verdict = .verified ∧ Confirmed env w₁ item))) w₁ := by
  unfold checkItem
  by_cases hf : item.finished
  · simp only [hf, if_true]
    refine wp_bind (wp_mono (checks_verifyItem hG) (fun w' hw' => hw' ▸ hw) ?_)
    rintro problems w' ⟨rfl, hc⟩
    split_ifs with hni
    · refine wp_bind (wp_updateRun hG hw fun runs hu => ?_)
      have hw' := hn hf w' runs hw hu
      exact ⟨wp_pure ⟨hw', rfl, .inr (.inr ⟨rfl, hf, hc hni⟩)⟩, hw'⟩
    · exact wp_pure ⟨hw, rfl, .inl ⟨problems, rfl⟩⟩
  · simp only [hf, Bool.false_eq_true, if_false]
    exact wp_pure ⟨hw, rfl, .inr (.inl rfl)⟩

lemma Confirmed.of_points (h : Confirmed env w₁ item) (hp : w₁.points = w₂.points) :
    Confirmed env w₂ item := by
  refine ⟨h.finished, fun hm c hc => ?_⟩
  obtain ⟨ht, holds⟩ := h.moved hm c hc
  rw [hp] at ht holds
  exact ⟨ht, holds⟩

lemma wp_checkItems (hG : G .ok) (hn : ∀ item ∈ items, item.finished → ∀ w runs, S w →
      w.runs.Updated run (·.setItem item.identity .verified "") runs → S { w with runs := runs }) :
    ∀ w₁ : World V, S w₁ → w₁.points = w.points →
    Wp G (mapEach (checkItem env run) items) S (fun verdicts w' => S w' ∧ w'.points = w.points ∧
      ((∀ v ∈ verdicts, v = .verified) → ∀ item ∈ items, Confirmed env w item)) w₁ := by
  induction items with
  | nil =>
    intro w₁ hw₁ hp
    exact wp_pure ⟨hw₁, hp, by simp⟩
  | cons item items ih =>
    intro w₁ hw₁ hp
    refine wp_bind (wp_mono (wp_checkItem hG hw₁ (hn item List.mem_cons_self)) (fun _ => id) ?_)
    rintro verdict w₂ ⟨hw₂, hp₂, hve⟩
    refine wp_bind (wp_mono (ih (fun i hi => hn i (List.mem_cons_of_mem _ hi)) w₂ hw₂
      (hp₂.trans hp)) (fun _ => id) ?_)
    rintro verdicts w₃ ⟨hw₃, hp₃, hr⟩
    refine wp_pure ⟨hw₃, hp₃, fun ha => ?_⟩
    obtain ⟨hv, ha⟩ := List.forall_mem_cons.mp ha
    refine List.forall_mem_cons.mpr ⟨?_, hr ha⟩
    rcases hve with ⟨problems, rfl⟩ | rfl | ⟨-, hc⟩
    · cases hv
    · cases hv
    · exact hc.of_points hp

lemma verifyReport_clean : ((verifyReport run unbuilt verdicts).remaining = 0 ∧
      (verifyReport run unbuilt verdicts).unmoved = 0 ∧
      (verifyReport run unbuilt verdicts).problems = []) ↔
    unbuilt = [] ∧ ∀ v ∈ verdicts, v = .verified := by
  simp only [verifyReport, List.length_eq_zero_iff, List.filter_eq_nil_iff,
    List.append_eq_nil_iff, List.flatMap_eq_nil_iff]
  constructor
  · rintro ⟨hre, hun, hb, -⟩
    refine ⟨hb, fun v hv => ?_⟩
    cases v with
    | verified => rfl
    | remaining => exact absurd rfl (hre _ hv)
    | unmoved problems => exact absurd rfl (hun _ hv)
  · rintro ⟨hb, hv⟩
    exact ⟨fun v h => by simp [hv v h], fun v h => by simp [hv v h], hb, fun v h => hv v h ▸ rfl⟩

/-- **The end of a run.** Wherever verify stops `S` holds, and the run is marked complete only if
every namespace has been rebuilt and every item is confirmed. -/
theorem wp_verify (hG : G .ok) (hw : S w)
    (hn : ∀ row, w.runs.get run = some row → ∀ item ∈ row.items, item.finished →
      ∀ w runs, S w → w.runs.Updated run (·.setItem item.identity .verified "") runs →
        S { w with runs := runs })
    (hf : ∀ w runs text, S w → w.runs.Updated run (·.setState .failed text) runs →
      S { w with runs := runs })
    (hco : ∀ w' runs row, S w' → w'.points = w.points → w.runs.get run = some row →
      unrebuiltNamespaces row.items row.run.rebuiltNamespaces = [] →
      (∀ item ∈ row.items, Confirmed env w item) →
      w'.runs.Updated run (·.setState .complete "") runs →
      S { w' with runs := runs, log := .completed run :: w'.log }) :
    Wp G (verify env run) S (fun _ => S) w := by
  refine wp_bind (wp_read hG hw fun items hi => ?_)
  refine wp_bind (wp_read hG hw fun r hr => ?_)
  cases hro : w.runs.get run with
  | none => simp [hro] at hr
  | some row =>
    obtain rfl : row.run = r := by simpa [hro] using hr
    obtain rfl : row.items = items := by simpa [hro] using hi
    refine wp_bind (wp_mono (wp_checkItems hG (hn row hro) w hw rfl) (fun _ => id) ?_)
    rintro verdicts w₁ ⟨hw₁, hpo, hc⟩
    dsimp only
    split_ifs with hg
    · obtain ⟨hb, hve⟩ := verifyReport_clean.mp hg
      refine wp_bind (wp_updateRun hG hw₁ fun runs hu => ?_)
      have hw₂ := hco w₁ runs row hw₁ hpo hro (List.map_eq_nil_iff.mp hb) (hc hve) hu
      exact ⟨wp_pure hw₂, hw₂⟩
    · refine wp_bind (wp_setRunState hG nofun hw₁ fun runs hu => ?_)
      have hw₂ := hf w₁ runs _ hw₁ hu
      exact ⟨wp_pure hw₂, hw₂⟩

end Codohue.Repair
