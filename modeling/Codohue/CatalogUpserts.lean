import Codohue.Catalog
import Codohue.Table
import Codohue.Transition

/-!
Concurrent `Upsert` statements on one row of `catalog_items`.

The statement reads the row twice. Its first common table expression reads the snapshot that the
statement has taken when it began, and decides whether the item is published; `ON CONFLICT` waits
for the transaction that holds the row and acts on what is committed then, and decides whether the
row becomes pending. The two agree as long as no other `Upsert` has changed the content hash.
-/

namespace Codohue.CatalogUpserts

open Catalog Transition

variable {η : Type}

/-- A statement that has taken its snapshot and has not written yet. -/
structure Upsert (η : Type) where
  content : String
  /-- The `content_hash` of the expression `existing`; `none` if it has no row. -/
  existing : Option η
  deriving DecidableEq, Repr

/-- The row that an open transaction has written, with the result of its statement. -/
structure Held (η : Type) where
  txn : ℕ
  row : Item η
  needsPublish : Bool
  deriving DecidableEq, Repr

structure Server (η : Type) where
  /-- The row as it was last committed. -/
  row : Option (Item η)
  upserts : Table ℕ (Upsert η)
  held : Option (Held η)
  deriving DecidableEq

def start (row : Option (Item η)) : Server η := ⟨row, ∅, none⟩

/-- A statement of the embedder on the row. -/
inductive Update (η : Type) where
  | markInFlight
  | markEmbedded (strategyID strategyVersion : String) (hash : η)
  | markFailed (lastError : String)
  | markDeadLetter (lastError : String)

inductive Action (η : Type) where
  /-- Transaction `t` takes the snapshot for its `Upsert`. -/
  | snapshot (t : ℕ) (content : String)
  /-- The `Upsert` of `t` gets hold of the row. -/
  | write (t : ℕ)
  | commit (t : ℕ)
  | rollback (t : ℕ)
  | update (u : Update η)

section Step

variable [DecidableEq η] (contentHash : String → η) (ns objectID : String)

/-- `NOT EXISTS (SELECT 1 FROM existing) OR (SELECT content_hash FROM existing) <>
u.content_hash`. -/
def needsPublish (existing : Option η) (hash : η) : Bool :=
  match existing with
  | none => true
  | some old => old ≠ hash

def Update.run (row : Option (Item η)) : Update η → Option (Item η)
  | .markInFlight => row.map Catalog.markInFlight
  | .markEmbedded strategyID strategyVersion hash =>
    (Catalog.markEmbedded strategyID strategyVersion hash row).or row
  | .markFailed lastError => row.map (Catalog.markFailed lastError)
  | .markDeadLetter lastError => row.map (Catalog.markDeadLetter lastError)

def step (s : Server η) : Action η → Option (Server η)
  | .snapshot t content =>
    if (s.upserts.lookup t).isSome || s.held.any (·.txn = t) then none
    else some { s with upserts := s.upserts.insert t ⟨content, s.row.map (·.contentHash)⟩ }
  | .write t =>
    match s.upserts.lookup t, s.held with
    | some u, none => some
      { s with
        upserts := s.upserts.erase t
        held := some
          { txn := t
            row := (upsert contentHash ns objectID u.content s.row).1
            needsPublish := needsPublish u.existing (contentHash u.content) } }
    | _, _ => none
  | .commit t =>
    match s.held with
    | some h => if h.txn = t then some { s with row := some h.row, held := none } else none
    | none => none
  | .rollback t =>
    match s.held with
    | some h => if h.txn = t then some { s with held := none } else none
    | none => none
  -- the statement waits for the transaction that holds the row
  | .update u => if s.held.isSome then none else some { s with row := u.run s.row }

end Step

/-! ### The content hash of the committed row -/

def Server.hash (s : Server η) : Option η := s.row.map (·.contentHash)

/-- If the action commits an `Upsert`, it leaves the content hash of the row as it was. -/
def KeepsHash (s : Server η) : Action η → Prop
  | .commit _ => ∀ h, s.held = some h → some h.row.contentHash = s.hash
  | _ => True

/-- What `t` has read before its write is what is committed now. -/
def Agrees (t : ℕ) (s : Server η) : Prop := ∀ u, s.upserts.lookup t = some u → u.existing = s.hash

variable [DecidableEq η] {contentHash : String → η} {ns objectID : String}

lemma Update.hash_run (u : Update η) (row : Option (Item η)) :
    (u.run row).map (·.contentHash) = row.map (·.contentHash) := by
  cases row with
  | none => cases u <;> rfl
  | some item =>
    cases u with
    | markInFlight | markFailed | markDeadLetter => rfl
    | markEmbedded sid ver hash =>
      by_cases h : item.contentHash = hash <;> simp [Update.run, Catalog.markEmbedded, h]

lemma needsPublish_iff {hash : η} : needsPublish existing hash = true ↔ existing ≠ some hash := by
  cases existing with
  | none | some old => simp [needsPublish]

/-- The statement inserts the row, or replaces its content hash by another one. -/
def Replaces (contentHash : String → η) (content : String) (row : Option (Item η)) : Prop :=
  ∀ item, row = some item → item.contentHash ≠ contentHash content

variable {content : String} {row : Option (Item η)}

omit [DecidableEq η] in
lemma replaces_iff :
    Replaces contentHash content row ↔ row.map (·.contentHash) ≠ some (contentHash content) := by
  cases row with
  | none | some item => simp [Replaces]

/-! ### Steps -/

section Steps

lemma agrees_snapshot (hs : step contentHash ns objectID s (.snapshot t content) = some s') :
    Agrees t s' := by
  simp only [step] at hs
  split_ifs at hs with hb
  cases hs
  intro u hu
  rw [AList.lookup_insert] at hu
  cases hu
  rfl

lemma agrees_step (hs : Agrees t s) (hk : KeepsHash s a)
    (hst : step contentHash ns objectID s a = some s') : Agrees t s' := by
  cases a with
  | snapshot t' content =>
    by_cases htt : t' = t
    · subst htt
      exact agrees_snapshot hst
    · simp only [step] at hst
      split_ifs at hst with hb
      cases hst
      intro u hu
      rw [AList.lookup_insert_ne (Ne.symm htt)] at hu
      exact hs u hu
  | write t' =>
    simp only [step] at hst
    split at hst
    · cases hst
      intro u hu
      exact hs u (Table.lookup_of_erase hu)
    · cases hst
  | commit t' =>
    simp only [step] at hst
    split at hst
    · next h hh =>
      split_ifs at hst with ht
      cases hst
      intro u hu
      exact (hs u hu).trans (hk h hh).symm
    · cases hst
  | rollback t' =>
    simp only [step] at hst
    split at hst
    · split_ifs at hst with ht
      cases hst
      exact hs
    · cases hst
  | update up =>
    simp only [step] at hst
    split_ifs at hst with hh
    cases hst
    intro u hu
    exact (hs u hu).trans (up.hash_run s.row).symm

lemma write_eq_some (hs : step contentHash ns objectID s (.write t) = some s') :
    ∃ u, s.upserts.lookup t = some u ∧ s'.row = s.row ∧
      s'.held = some
        { txn := t
          row := (upsert contentHash ns objectID u.content s.row).1
          needsPublish := needsPublish u.existing (contentHash u.content) } := by
  simp only [step] at hs
  split at hs
  · next u hu _ =>
    cases hs
    exact ⟨u, hu, rfl, rfl⟩
  · cases hs

end Steps

/-! ### Rows for new content -/

/-- The row waits to be embedded for the content, from its first attempt. -/
structure Fresh (contentHash : String → η) (content : String) (row : Item η) : Prop where
  content_eq : row.content = content
  hash_eq : row.contentHash = contentHash content
  pending : row.state = .pending
  attempts : row.attemptCount = 0
  noError : row.lastError = none

lemma upsert_fresh (h : Replaces contentHash content row) :
    Fresh contentHash content (upsert contentHash ns objectID content row).1 := by
  cases row with
  | none => exact ⟨rfl, rfl, rfl, rfl, rfl⟩
  | some item =>
    have hne := h item rfl
    constructor <;> simp [upsert, hne]

lemma upsert_same (h : ¬ Replaces contentHash content row) :
    ∃ item, row = some item ∧
      (upsert contentHash ns objectID content row).1 = { item with content := content } := by
  rw [replaces_iff, not_not] at h
  obtain ⟨item, rfl, hh⟩ := Option.map_eq_some_iff.mp h
  exact ⟨item, rfl, by simp [upsert, hh]⟩

/-- The statement reports a publication exactly if it makes work: it then leaves the row pending for
the new content, and otherwise it leaves everything but the text as it was. -/
def Announces (contentHash : String → η) (content : String) (row : Option (Item η)) (h : Held η) :
    Prop :=
  (h.needsPublish = true ↔ Replaces contentHash content row) ∧
    (h.needsPublish = true → Fresh contentHash content h.row) ∧
    (h.needsPublish = false → ∃ item, row = some item ∧ h.row = { item with content := content })

lemma announces_of_existing :
    Announces contentHash content row
      { txn := t
        row := (upsert contentHash ns objectID content row).1
        needsPublish := needsPublish (row.map (·.contentHash)) (contentHash content) } := by
  have hi : needsPublish (row.map (·.contentHash)) (contentHash content) = true ↔
      Replaces contentHash content row := needsPublish_iff.trans replaces_iff.symm
  refine ⟨hi, fun h => upsert_fresh (hi.mp h), fun h => upsert_same fun hr => ?_⟩
  rw [hi.mpr hr] at h
  cases h

/-- An `Upsert` announces the work it makes, if no other `Upsert` that changes the content hash of
the row has committed between its snapshot and its write. -/
theorem upsert_announces {s s₁ s₂ s₃ : Server η} {t : ℕ} {content : String} {as : List (Action η)}
    (hsnapshot : step contentHash ns objectID s (.snapshot t content) = some s₁)
    (hrun : exec (step contentHash ns objectID) s₁ as = some s₂)
    (hkeeps : Along (step contentHash ns objectID) KeepsHash s₁ as)
    (hwrite : step contentHash ns objectID s₂ (.write t) = some s₃) :
    ∃ u h, s₂.upserts.lookup t = some u ∧ s₃.held = some h ∧ h.txn = t ∧
      Announces contentHash u.content s₂.row h := by
  have ha : Agrees t s₂ :=
    exec_guarded (fun _ _ _ hs hk hst => agrees_step hs hk hst) hkeeps hrun
      (agrees_snapshot hsnapshot)
  obtain ⟨u, hu, -, hh⟩ := write_eq_some hwrite
  refine ⟨u, _, hu, hh, rfl, ?_⟩
  rw [ha u hu]
  exact announces_of_existing

/-! ### Runs -/

/-- The row is embedded for the text "b". -/
def embeddedRow : Item String where
  ns := "shop"
  objectID := "1"
  state := .embedded
  content := "b"
  contentHash := "b"
  strategyID := "bow"
  strategyVersion := "1"
  attemptCount := 0
  lastError := none

/-- The server after a run on the embedded row. -/
def after (as : List (Action String)) : Server String :=
  (exec (step id "shop" "1") (start (some embeddedRow)) as).getD (start none)

/-- Transaction 0 re-ingests "b" while transaction 1 holds the row with "a". -/
def overtakenRun : List (Action String) :=
  [.snapshot 1 "a", .write 1, .snapshot 0 "b", .commit 1]

/-- An `Upsert` that has waited for another one makes the row pending and does not announce it. -/
theorem overtaken_upsert_silent :
    (exec (step id "shop" "1") (start (some embeddedRow)) (overtakenRun ++ [.write 0])).isSome ∧
      (after overtakenRun).hash = some "a" ∧
      (after (overtakenRun ++ [.write 0])).held =
        some ⟨0, { embeddedRow with state := .pending }, false⟩ ∧
      ¬ Announces id "b" (after overtakenRun).row
        ⟨0, { embeddedRow with state := .pending }, false⟩ := by
  refine ⟨by decide +kernel, by decide +kernel, by decide +kernel, fun h => ?_⟩
  have hr : Replaces id "b" (after overtakenRun).row :=
    replaces_iff.mpr (by decide +kernel)
  exact Bool.noConfusion (h.1.mpr hr)

/-- Transaction 1 has re-ingested "b" when transaction 0 begins. -/
def promptRun : List (Action String) := [.snapshot 1 "b", .write 1]

/-- The other transaction commits and the embedder marks the row, and transaction 0 still knows what
it replaces. -/
theorem upsert_announces_promptRun :
    let s := after (promptRun ++ [.snapshot 0 "a", .commit 1, .update .markInFlight])
    ∃ u h s', step id "shop" "1" s (.write 0) = some s' ∧ s.upserts.lookup 0 = some u ∧
      s'.held = some h ∧ h.txn = 0 ∧ Announces id u.content s.row h := by
  intro s
  have hsn : step id "shop" "1" (after promptRun) (.snapshot 0 "a") =
      some (after (promptRun ++ [.snapshot 0 "a"])) := rfl
  have hr : exec (step id "shop" "1") (after (promptRun ++ [.snapshot 0 "a"]))
      [.commit 1, .update .markInFlight] = some s := rfl
  have hk : Along (step id "shop" "1") KeepsHash (after (promptRun ++ [.snapshot 0 "a"]))
      [.commit 1, .update .markInFlight] := by
    refine ⟨fun h hh => ?_, fun s' hs' => ⟨trivial, fun _ _ => trivial⟩⟩
    obtain rfl : (⟨1, embeddedRow, false⟩ : Held String) = h := Option.some.inj hh
    rfl
  have hw : step id "shop" "1" s (.write 0) =
      some (after (promptRun ++ [.snapshot 0 "a", .commit 1, .update .markInFlight, .write 0])) :=
    rfl
  obtain ⟨u, h, hu, hhe, ht, ha⟩ := upsert_announces hsn hr hk hw
  exact ⟨u, h, _, hw, hu, hhe, ht, ha⟩

end Codohue.CatalogUpserts
