import Codohue.Coordinator

/-!
The statements by which a step writes the lifecycle rows, and the call that issues them.

What holds of the rows along a run is read off from this list, one statement at a time.
-/

namespace Codohue.RowWrites

open Lifecycle Coordinator

/-- The call is about to complete the deletion of the namespace at this generation. -/
def Completes (k : Task) (ns : String) (generation : ℤ) : Prop :=
  (k.op = .withNamespaceExclusive ns ∧ k.pc = .deleting (.completeDelete generation)) ∨
  ∃ callback todo, k.op = .withGlobalExclusive callback ∧
    k.pc = .global (.completeDelete ns generation todo)

/-- The statements by which a call writes the lifecycle rows. -/
inductive Writes (k : Task) (db : Store) : Store → Prop where
  | none : Writes k db db
  | activate {ns : String} {db' : Store} {row : NamespaceLifecycle} (hk : k.op = .activate ns)
      (h : activate db ns = .ok (db', row)) : Writes k db db'
  | startDelete {ns : String} {db' : Store} {row : NamespaceLifecycle}
      (h : startDelete db ns = .ok (db', row)) : Writes k db db'
  | completeDelete {ns : String} {generation : ℤ} {db' : Store} (hk : Completes k ns generation)
      (h : completeDelete db ns generation = .ok db') : Writes k db db'
  | recordNamespaceError (ns : String) (generation : ℤ) (message : String) :
      Writes k db (recordNamespaceError db ns generation message)
  | startReset : Writes k db (startReset db)
  | completeReset (hk : k.pc = .global .completeReset) : Writes k db (completeReset db)
  | recordResetError (message : String) : Writes k db (recordResetError db message)
  | disableLegacy {adoptionEvidence : String} {db' : Store} {changed : Bool}
      (h : disableLegacy db adoptionEvidence = .ok (db', changed)) : Writes k db db'
  | upsertConfig {ns : String} (hk : k.op = .withWriter ns) : Writes k db (upsertConfig db ns)

section Steps

variable {db : Store} {k : Task}
variable {α : Type} {P : Store → Prop} {stmt : Except Error (Store × α)}

lemma run_of (o : Outcome) (ctx : String) (hdb : P db)
    (hs : ∀ db' a, stmt = .ok (db', a) → P db') : P (o.run ctx db stmt).1 := by
  cases o with
  | ok | lost text =>
    match stmt with
    | .ok (db', a) => exact hs db' a rfl
    | .error err => exact hdb
  | fail text => exact hdb

lemma run_ok {o : Outcome} (h : o.run ctx db stmt = (db', .ok a)) : stmt = .ok (db', a) := by
  cases o with
  | ok =>
    match stmt, h with
    | .ok _, rfl => rfl
  | fail text => cases h
  | lost text => cases stmt <;> cases h

/-- A statement keeps to what holds of it, whatever becomes of its reply. -/
lemma ran (o : Outcome) (ctx : String) (hdb : P db)
    (hs : ∀ db' a, stmt = .ok (db', a) → P db' ∧ Writes k db db') :
    P (o.run ctx db stmt).1 ∧ Writes k db (o.run ctx db stmt).1 :=
  run_of (P := fun db' => P db' ∧ Writes k db db') o ctx ⟨hdb, .none⟩ hs

lemma ran_set (o : Outcome) (ctx : String) (hdb : P db) (h : P db') (hw : Writes k db db') :
    P (o.run ctx db (.ok (db', ()))).1 ∧
      Writes k db (o.run ctx db (.ok (db', ()))).1 :=
  ran o ctx hdb fun _ _ he => (Prod.mk.inj (Except.ok.inj he)).1 ▸ ⟨h, hw⟩

lemma ran_startDelete (k : Task) (db : Store) (o : Outcome) (ctx ns : String) :
    let db' := (o.run ctx db (Lifecycle.startDelete db ns)).1
    InRow ns db db' ∧ Writes k db db' :=
  ran o ctx (.refl ns db) fun _ _ h => ⟨startDelete_inRow h, .startDelete h⟩

lemma ran_completeDelete (hk : Completes k ns gen) (db : Store) (o : Outcome) (ctx : String) :
    let db' := (o.run ctx db
      ((Lifecycle.completeDelete db ns gen).map fun db' => (db', ()))).1
    InRow ns db db' ∧ Writes k db db' := by
  refine ran o ctx (.refl ns db) fun db' a h => ?_
  cases hc : Lifecycle.completeDelete db ns gen with
  | error err => simp [hc, Except.map] at h
  | ok db'' =>
    obtain rfl : db'' = db' := by simpa [hc, Except.map] using h
    exact ⟨completeDelete_inRow hc, .completeDelete hk hc⟩

end Steps

end Codohue.RowWrites
