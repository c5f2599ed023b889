import Codohue.CatalogRows
import Codohue.Keyset
import Codohue.Transition
import Mathlib.Data.Prod.Lex

/-!
The reconciliation read of a namespace's catalog, page by page along `(updated_at, id)`.

`updated_at` is the `NOW()` of the transaction that has written the row, and that is the time at
which the transaction has begun. Transactions may commit in another order. So a write can carry a
row that the walk has not reached yet to a place that the walk has passed, and the walk does not
return the row. A row that nobody writes is returned once in any case.
-/

namespace Codohue.CatalogWalk

open CatalogRows Transition

/-! ### Cursors -/

structure ObjectCursor where
  version : ℤ
  ns : String
  changedSince : String
  updatedAt : ℤ
  id : ℤ
  deriving DecidableEq, Repr

/-- How cursors and times are written: `encode` is the cursor as JSON in base64, `decode` fails if
the text is not of this form. Times are in microseconds. -/
structure Formats (T : Type) where
  empty : T
  encode : ObjectCursor → T
  decode : T → Option ObjectCursor
  rfc3339 : ℤ → String
  rfc3339Nano : ℤ → String
  encode_ne_empty : ∀ c, encode c ≠ empty
  decode_encode : ∀ c, decode (encode c) = some c

inductive Error where
  | invalidRequest (detail : String)
  | namespaceNotFound
  deriving DecidableEq, Repr

/-- The first of January of year 1, which `IsZero` tests for. -/
def zeroTime : ℤ := -62135596800000000

variable {T η γ : Type} [DecidableEq T] (F : Formats T)

def decodeObjectCursor (raw : T) (ns changedSince : String) : Except Error (Option ObjectCursor) :=
  if raw = F.empty then .ok none
  else
    match F.decode raw with
    | none => .error (.invalidRequest "malformed cursor")
    | some cursor =>
      if cursor.version ≠ 1 ∨ cursor.id < 1 ∨ cursor.updatedAt = zeroTime then
        .error (.invalidRequest "malformed cursor")
      else if cursor.ns ≠ ns ∨ cursor.changedSince ≠ changedSince then
        .error (.invalidRequest "cursor does not match namespace or changed_since")
      else .ok (some cursor)

/-! ### Pages -/

/-- `(updated_at, id)`, in the order of rows in SQL. -/
abbrev Key := ℤ ×ₗ ℤ

structure ObjectRow where
  id : ℕ
  objectID : String
  updatedAt : ℤ
  deriving DecidableEq, Repr

def ObjectCursor.key (cursor : ObjectCursor) : Key := toLex (cursor.updatedAt, cursor.id)

def ObjectRow.key (row : ObjectRow) : Key := toLex (row.updatedAt, (row.id : ℤ))

/-- `namespace = $1 AND ($2::timestamptz IS NULL OR updated_at > $2)`. -/
def inScope (ns : String) (changedSince : Option ℤ) (row : Row η) : Bool :=
  row.ns = ns && changedSince.all (· < row.updatedAt)

def objectRow (id : ℕ) (row : Row η) : ObjectRow := ⟨id, row.objectID, row.updatedAt⟩

/-- The rows in scope, in no order. -/
def scope (ns : String) (changedSince : Option ℤ) (t : Items η) : List ObjectRow :=
  (t.selectWhere fun _ => inScope ns changedSince).map fun e => objectRow e.1 e.2

/-- The rows of a page and the number of all rows in scope. The count is a statement of its own and
reads the table before. -/
def listObjects (counted listed : Items η) (ns : String) (changedSince : Option ℤ)
    (limit offset : ℕ) (cursor : Option ObjectCursor) : List ObjectRow × ℕ :=
  (Keyset.page ObjectRow.key (cursor.map ObjectCursor.key) limit offset
    (scope ns changedSince listed), (scope ns changedSince counted).length)

structure CatalogObjectSummary where
  objectID : String
  updatedAt : String
  deriving DecidableEq, Repr

structure CatalogObjectsResponse (T : Type) where
  ns : String
  items : List CatalogObjectSummary
  total : ℕ
  limit : ℕ
  offset : ℕ
  nextCursor : T

def summary (row : ObjectRow) : CatalogObjectSummary := ⟨row.objectID, F.rfc3339 row.updatedAt⟩

def sinceKey (changedSince : Option ℤ) : String := (changedSince.map F.rfc3339Nano).getD ""

/-- The cursor of the next page, if the page is full. -/
def nextCursor (ns : String) (changedSince : Option ℤ) (limit : ℕ) (rows : List ObjectRow) : T :=
  if rows.length = limit then
    match rows.getLast? with
    | none => F.empty
    | some last => F.encode
      { version := 1, ns := ns, changedSince := sinceKey F changedSince,
        updatedAt := last.updatedAt, id := last.id }
  else F.empty

def listObjectsPage (cfg : Option γ) (counted listed : Items η) (ns : String)
    (changedSince : Option ℤ) (limit offset : ℕ) (rawCursor : T) :
    Except Error (CatalogObjectsResponse T) :=
  if ns = "" then .error (.invalidRequest "namespace is required")
  else if cfg.isNone then .error .namespaceNotFound
  else
    match decodeObjectCursor F rawCursor ns (sinceKey F changedSince) with
    | .error err => .error err
    | .ok cursor =>
      if cursor.isSome ∧ offset ≠ 0 then
        .error (.invalidRequest "cursor and offset cannot be combined")
      else
        let (rows, total) := listObjects counted listed ns changedSince limit offset cursor
        .ok
          { ns := ns, items := rows.map (summary F), total := total, limit := limit,
            offset := offset, nextCursor := nextCursor F ns changedSince limit rows }

/-! ### The walk -/

/-- A client that walks through one namespace. -/
structure Client (T η γ : Type) where
  formats : Formats T
  contentHash : String → η
  cfg : Option γ
  ns : String
  changedSince : Option ℤ
  limit : ℕ
  limit_pos : 0 < limit

structure Walk (η T : Type) where
  items : Items η
  /-- The cursor of the next request; `none` once a page has come without one. -/
  next : Option T
  returned : List CatalogObjectSummary

variable (C : Client T η γ)

def begin (items : Items η) : Walk η T := ⟨items, some C.formats.empty, []⟩

inductive Action (η : Type) where
  /-- The next page, with the table that its count has read. -/
  | page (counted : Items η)
  /-- A transaction that has run the statement commits. -/
  | stmt (s : Stmt η)

def Walk.follow (w : Walk η T) (resp : CatalogObjectsResponse T) : Walk η T where
  items := w.items
  next := if resp.nextCursor = C.formats.empty then none else some resp.nextCursor
  returned := w.returned ++ resp.items

variable [DecidableEq η]

def step (w : Walk η T) : Action η → Option (Walk η T)
  | .page counted =>
    match w.next with
    | none => none
    | some raw =>
      match listObjectsPage C.formats C.cfg counted w.items C.ns C.changedSince C.limit 0 raw with
      | .ok resp => some (w.follow C resp)
      | .error _ => none
  | .stmt s => some { w with items := s.run C.contentHash w.items }

/-! ### What one step does -/

/-- Where the walk stands: `none` once it is over, and `some none` at its start. -/
def Walk.position (w : Walk η T) : Option (Option Key) :=
  w.next.map fun raw =>
    if raw = C.formats.empty then none else (C.formats.decode raw).map ObjectCursor.key

/-- The rows of the next page. -/
def pageRows (after : Option Key) (t : Items η) : List ObjectRow :=
  Keyset.page ObjectRow.key after C.limit 0 (scope C.ns C.changedSince t)

section Steps

variable {C} {w w' : Walk η T}

omit [DecidableEq η] in
lemma position_follow (h : resp.nextCursor = nextCursor C.formats C.ns C.changedSince C.limit rows)
    :
    (w.follow C resp).position C = Keyset.nextCursor ObjectRow.key C.limit rows := by
  simp only [Walk.position, Walk.follow, h, nextCursor, Keyset.nextCursor]
  by_cases hf : rows.length = C.limit
  · cases hl : rows.getLast? with
    | none =>
      rw [List.getLast?_eq_none_iff.mp hl] at hf
      exact absurd hf C.limit_pos.ne
    | some last =>
      simp [hf, C.formats.encode_ne_empty, C.formats.decode_encode, ObjectCursor.key,
        ObjectRow.key]
  · simp [hf]

lemma step_page (h : step C w (.page counted) = some w') :
    ∃ after, w.position C = some after ∧ w'.items = w.items ∧
      w'.returned.map (·.objectID) = w.returned.map (·.objectID) ++
        (pageRows C after w.items).map (·.objectID) ∧
      w'.position C = Keyset.nextCursor ObjectRow.key C.limit (pageRows C after w.items) := by
  simp only [step] at h
  split at h
  · cases h
  · next raw hra =>
    split at h
    · next resp hr =>
      obtain rfl := Option.some.inj h
      simp only [listObjectsPage] at hr
      split_ifs at hr
      split at hr
      · cases hr
      · next cursor hcu =>
        split_ifs at hr
        obtain rfl := Except.ok.inj hr
        refine ⟨cursor.map ObjectCursor.key, ?_, rfl, ?_, ?_⟩
        · rw [Walk.position, hra, Option.map_some]
          unfold decodeObjectCursor at hcu
          split_ifs at hcu with he
          · obtain rfl := Except.ok.inj hcu
            rw [if_pos he]
            rfl
          · rw [if_neg he]
            split at hcu
            · cases hcu
            · next c hc =>
              split_ifs at hcu
              obtain rfl := Except.ok.inj hcu
              rw [hc]
        · simp [Walk.follow, listObjects, pageRows, summary, Function.comp_def]
        · exact position_follow rfl
    · cases h

end Steps

/-! ### Rows and pages -/

/-- A walk that stands at the cursor still comes to the row. -/
def Ahead (position : Option (Option Key)) (id : ℕ) (row : Row η) : Prop :=
  inScope C.ns C.changedSince row = true ∧ Keyset.Ahead position (objectRow id row).key

section Rows

omit [DecidableEq T]

variable {C} {t : Items η} {after : Option Key} {id : ℕ} {row : Row η}

omit [DecidableEq η]

lemma mem_scope : r ∈ scope C.ns C.changedSince t ↔
    ∃ id row, t.lookup id = some row ∧ inScope C.ns C.changedSince row = true ∧
      r = objectRow id row := by
  simp only [scope, List.mem_map, Prod.exists, SerialTable.mem_selectWhere, and_assoc]
  exact exists_congr fun _ => exists_congr fun _ => and_congr_right fun _ =>
    and_congr_right fun _ => eq_comm

lemma eq_of_id (hro : t.lookup id = some row) (hr : r ∈ scope C.ns C.changedSince t)
    (hid : r.id = id) : r = objectRow id row ∧ inScope C.ns C.changedSince row = true := by
  obtain ⟨_, row', hro', hs, rfl⟩ := mem_scope.mp hr
  obtain rfl : _ = id := hid
  obtain rfl := Option.some.inj (hro.symm.trans hro')
  exact ⟨rfl, hs⟩

/-- After a page the rows ahead are those that it has left out. -/
lemma ahead_page (hr : t.lookup id = some row) :
    Ahead C (Keyset.nextCursor ObjectRow.key C.limit (pageRows C after t)) id row ↔
      Ahead C (some after) id row ∧ objectRow id row ∉ pageRows C after t := by
  rw [Ahead, Ahead, and_assoc]
  refine and_congr_right fun hs => ?_
  refine Keyset.ahead_nextCursor C.limit_pos (mem_scope.mpr ⟨id, row, hr, hs, rfl⟩) ?_
  intro x hx hk
  exact (eq_of_id hr hx (Int.ofNat.inj (Prod.mk.inj (toLex.injective hk)).2)).1

/-- The unique index on `(namespace, object_id)`. -/
def UniqueObjects (t : Items η) : Prop :=
  ∀ id id' row row', t.lookup id = some row → t.lookup id' = some row' → row.ns = row'.ns →
    row.objectID = row'.objectID → id = id'

lemma eq_of_objectID (hu : UniqueObjects t) (hro : t.lookup id = some row) (hns : row.ns = C.ns)
    (hr : r ∈ pageRows C after t) (hid : r.objectID = row.objectID) : r = objectRow id row := by
  obtain ⟨id', row', hro', hs, rfl⟩ := mem_scope.mp (Keyset.page_spec hr).1
  simp only [inScope, Bool.and_eq_true, decide_eq_true_eq] at hs
  obtain rfl := hu id' id row' row hro' hro (hs.1.trans hns.symm) hid
  rw [Option.some.inj (hro'.symm.trans hro)]

lemma nodup_scope : (scope C.ns C.changedSince t).Nodup := by
  refine List.Nodup.of_map ObjectRow.id ?_
  rw [scope, List.map_map]
  exact SerialTable.nodup_selectWhere

/-- A page names an object once, if it holds its row. -/
lemma count_pageRows (hu : UniqueObjects t) (hro : t.lookup id = some row)
    (hns : row.ns = C.ns) :
    ((pageRows C after t).map (·.objectID)).count row.objectID =
      if objectRow id row ∈ pageRows C after t then 1 else 0 := by
  have hc : ((pageRows C after t).map (·.objectID)).count row.objectID =
      (pageRows C after t).count (objectRow id row) := by
    rw [List.count, List.countP_map]
    refine List.countP_congr fun r hr => ?_
    simp only [Function.comp_apply, beq_iff_eq]
    exact ⟨fun h => eq_of_objectID hu hro hns hr h, fun h => by rw [h]; rfl⟩
  rw [hc]
  split_ifs with hin
  · exact List.count_eq_one_of_mem (Keyset.nodup_page nodup_scope) hin
  · exact List.count_eq_zero.mpr hin

end Rows

/-! ### Statements -/

section Statements

variable (contentHash : String → η) {t : Items η} {id : ℕ} (s : Stmt η)

/-- A key that has been handed out stands for its object, as long as there is a row. -/
lemma lookup_run (hid : id < t.next) : id < (s.run contentHash t).next ∧
    ∀ row', (s.run contentHash t).lookup id = some row' →
      ∃ row, t.lookup id = some row ∧ row'.objectID = row.objectID := by
  obtain ⟨p, f, hf, hru⟩ | ⟨p, hru⟩ | ⟨new, -, hru⟩ := s.run_cases contentHash t
  · rw [hru]
    refine ⟨hid, fun row' hr' => ?_⟩
    rw [SerialTable.lookup_updateWhere] at hr'
    obtain ⟨row, hr, rfl⟩ := Option.map_eq_some_iff.mp hr'
    refine ⟨row, hr, ?_⟩
    split_ifs
    · exact (hf row).2
    · rfl
  · rw [hru]
    exact ⟨hid, fun row' hr' => ⟨row', (SerialTable.lookup_deleteWhere_eq_some.mp hr').1, rfl⟩⟩
  · rw [hru]
    refine ⟨Nat.lt_succ_of_lt hid, fun row' hr' => ?_⟩
    rw [SerialTable.lookup_insert, if_neg hid.ne] at hr'
    exact ⟨row', hr', rfl⟩

lemma UniqueObjects.run (h : UniqueObjects t) : UniqueObjects (s.run contentHash t) := by
  obtain ⟨p, f, hf, hru⟩ | ⟨p, hru⟩ | ⟨new, hne, hru⟩ := s.run_cases contentHash t
  · rw [hru]
    intro id id' row row' hr hr' hns ho
    rw [SerialTable.lookup_updateWhere] at hr hr'
    obtain ⟨old, hol, rfl⟩ := Option.map_eq_some_iff.mp hr
    obtain ⟨old', hol', rfl⟩ := Option.map_eq_some_iff.mp hr'
    have hn : ∀ k (row : Row η), (if p k row then f row else row).ns = row.ns ∧
        (if p k row then f row else row).objectID = row.objectID := fun k row => by
      split_ifs
      · exact hf row
      · exact ⟨rfl, rfl⟩
    rw [(hn id old).1, (hn id' old').1] at hns
    rw [(hn id old).2, (hn id' old').2] at ho
    exact h id id' old old' hol hol' hns ho
  · rw [hru]
    intro id id' row row' hr hr'
    exact h id id' row row' (SerialTable.lookup_deleteWhere_eq_some.mp hr).1
      (SerialTable.lookup_deleteWhere_eq_some.mp hr').1
  · rw [hru]
    intro id id' row row' hr hr' hns ho
    rw [SerialTable.lookup_insert] at hr hr'
    split_ifs at hr hr' with hid hid' hid'
    · rw [hid, hid']
    · obtain rfl := Option.some.inj hr
      exact absurd ho.symm (hne id' row' hr' hns.symm)
    · obtain rfl := Option.some.inj hr'
      exact absurd ho (hne id row hr hns)
    · exact h id id' row row' hr hr' hns ho

end Statements

/-! ### Whole walks -/

/-- No write takes a row that is ahead of the walk to a place behind its cursor. -/
def KeepsAhead (w : Walk η T) : Action η → Prop
  | .page _ => True
  | .stmt s => ∀ id row row', w.items.lookup id = some row →
      (s.run C.contentHash w.items).lookup id = some row' → Ahead C (w.position C) id row →
      Ahead C (w.position C) id row'

/-- The row under `id` is not written. -/
def Leaves (id : ℕ) (w : Walk η T) : Action η → Prop
  | .page _ => True
  | .stmt s => (s.run C.contentHash w.items).lookup id = w.items.lookup id

/-- The object has been returned, or its row is gone or still ahead. -/
def Reached (id : ℕ) (objectID : String) (w : Walk η T) : Prop :=
  id < w.items.next ∧
    (objectID ∈ w.returned.map (·.objectID) ∨ ∀ row, w.items.lookup id = some row →
    row.objectID = objectID ∧ Ahead C (w.position C) id row)

/-- The row is ahead and has not been returned, or it has been returned once and is not ahead. -/
def Once (id : ℕ) (row : Row η) (w : Walk η T) : Prop :=
  UniqueObjects w.items ∧ w.items.lookup id = some row ∧
    (((w.returned.map (·.objectID)).count row.objectID = 0 ∧ Ahead C (w.position C) id row) ∨
      ((w.returned.map (·.objectID)).count row.objectID = 1 ∧ ¬ Ahead C (w.position C) id row))

section Runs

variable {C} {w w' : Walk η T} {a : Action η} {id : ℕ}

lemma reached_step (h : Reached C id obj w) (hk : KeepsAhead C w a) (hs : step C w a = some w') :
    Reached C id obj w' := by
  obtain ⟨hid, hp⟩ := h
  cases a with
  | page counted =>
    obtain ⟨after, haf, hi, hre, hne⟩ := step_page hs
    rw [Reached, hi, hre, hne]
    refine ⟨hid, ?_⟩
    rcases hp with hm | ha
    · exact .inl (List.mem_append_left _ hm)
    · rw [or_iff_not_imp_left]
      intro hou row hr
      obtain ⟨rfl, hn⟩ := ha row hr
      rw [haf] at hn
      refine ⟨rfl, (ahead_page hr).mpr ⟨hn, fun hin => hou ?_⟩⟩
      exact List.mem_append_right _ (List.mem_map_of_mem hin)
  | stmt s =>
    obtain rfl := Option.some.inj hs
    obtain ⟨hid', hl⟩ := lookup_run C.contentHash s hid
    refine ⟨hid', hp.imp_right fun ha row' hr' => ?_⟩
    obtain ⟨row, hr, ho⟩ := hl row' hr'
    obtain ⟨hol, ha⟩ := ha row hr
    exact ⟨ho.trans hol, hk id row row' hr hr' ha⟩

lemma once_step (hns : row.ns = C.ns) (h : Once C id row w) (hl : Leaves C id w a)
    (hs : step C w a = some w') : Once C id row w' := by
  obtain ⟨hu, hr, hc⟩ := h
  cases a with
  | page counted =>
    obtain ⟨after, ha, hi, hre, hn⟩ := step_page hs
    rw [Once, hi, hre, hn, List.count_append, count_pageRows hu hr hns,
      ahead_page hr]
    rw [ha] at hc
    refine ⟨hu, hr, ?_⟩
    by_cases hin : objectRow id row ∈ pageRows C after w.items
    · rcases hc with ⟨hz, -⟩ | ⟨-, hp⟩
      · exact .inr ⟨by rw [hz, if_pos hin], fun h => h.2 hin⟩
      · obtain ⟨hm, hb⟩ := Keyset.page_spec hin
        exact absurd ⟨(eq_of_id hr hm rfl).2, hb⟩ hp
    · rw [if_neg hin]
      exact hc.imp (fun h => ⟨h.1, h.2, hin⟩) fun h => ⟨h.1, fun h' => h.2 h'.1⟩
  | stmt s =>
    obtain rfl := Option.some.inj hs
    exact ⟨hu.run C.contentHash s, hl.trans hr, hc⟩

omit [DecidableEq η] in
lemma ahead_begin (hs : inScope C.ns C.changedSince row = true) :
    Ahead C ((begin C items).position C) id row := by
  simpa [Ahead, Walk.position, begin, Keyset.Ahead, Keyset.Beyond] using hs

/-- A walk that has come to its end has returned every row that has been there all the time, if no
write has taken a row ahead of it to a place behind its cursor; a row that has not been written it
has returned once in any case. -/
theorem walk_misses_nothing {items : Items η} {as : List (Action η)}
    (hunique : UniqueObjects items)
    (hrun : exec (step C) (begin C items) as = some w)
    (hdone : w.next = none) :
    (Along (step C)
        (KeepsAhead C) (begin C items) as →
      ∀ id row row', items.lookup id = some row → inScope C.ns C.changedSince row = true →
        w.items.lookup id = some row' → row.objectID ∈ w.returned.map (·.objectID)) ∧
    ∀ id row, items.lookup id = some row → inScope C.ns C.changedSince row = true →
      Along (step C) (Leaves C id)
        (begin C items) as →
      (w.returned.map (·.objectID)).count row.objectID = 1 := by
  have ho : ∀ id row, ¬ Ahead C (w.position C) id row := fun id row h => by
    rw [Walk.position, hdone] at h
    exact h.2
  constructor
  · intro hke id row row' hr hs hr'
    have hst : Reached C id row.objectID (begin C items) := by
      refine ⟨SerialTable.lookup_lt_next hr, .inr fun row₀ hr₀ => ?_⟩
      obtain rfl := Option.some.inj (hr.symm.trans hr₀)
      exact ⟨rfl, ahead_begin hs⟩
    have he := exec_guarded (fun _ _ _ h hk hste => reached_step h hk hste) hke hrun hst
    exact he.2.resolve_right fun h => ho id row' (h row' hr').2
  · intro id row hr hs hl
    have hns : row.ns = C.ns := by
      simp only [inScope, Bool.and_eq_true, decide_eq_true_eq] at hs
      exact hs.1
    have hst : Once C id row (begin C items) := ⟨hunique, hr, .inl ⟨rfl, ahead_begin hs⟩⟩
    have he := exec_guarded (fun _ _ _ h hk hste => once_step hns h hk hste) hl hrun hst
    exact (he.2.2.resolve_left fun h => ho id row h.2).1

lemma keepsAhead_of_le (h : ∀ id row row', w.items.lookup id = some row →
    (s.run C.contentHash w.items).lookup id = some row' →
    row'.ns = row.ns ∧ row.updatedAt ≤ row'.updatedAt) : KeepsAhead C w (.stmt s) := by
  rintro id row row' hr hr' ⟨hs, ha⟩
  obtain ⟨hns, hle⟩ := h id row row' hr hr'
  simp only [inScope, Bool.and_eq_true, Option.all_eq_true, decide_eq_true_eq] at hs
  refine ⟨?_, ha.mono (Prod.Lex.toLex_mono (Prod.mk_le_mk.mpr ⟨hle, le_rfl⟩))⟩
  simp only [inScope, hns, Bool.and_eq_true, Option.all_eq_true, decide_eq_true_eq]
  exact ⟨hs.1, fun since hsi => (hs.2 since hsi).trans_le hle⟩

end Runs

/-! ### Runs -/

def plainFormats : Formats (Option ObjectCursor) where
  empty := none
  encode := some
  decode := id
  rfc3339 := toString
  rfc3339Nano := toString
  encode_ne_empty := nofun
  decode_encode _ := rfl

def reader : Client (Option ObjectCursor) String Unit where
  formats := plainFormats
  contentHash := id
  cfg := some ()
  ns := "shop"
  changedSince := none
  limit := 1
  limit_pos := Nat.one_pos

/-- Two objects, written at the times 10 and 20. -/
def twoObjects : Items String :=
  (SerialTable.empty.insert (newRow id "shop" "a" "x" 10)).insert (newRow id "shop" "b" "y" 20)

lemma lookup_twoObjects (h : twoObjects.lookup k = some row) :
    (k = 2 ∧ row = newRow id "shop" "b" "y" 20) ∨ (k = 1 ∧ row = newRow id "shop" "a" "x" 10) := by
  rw [twoObjects, SerialTable.lookup_insert, SerialTable.lookup_insert] at h
  split_ifs at h with h₂ h₁
  · exact .inl ⟨h₂, (Option.some.inj h).symm⟩
  · exact .inr ⟨h₁, (Option.some.inj h).symm⟩
  · cases h

/-- An `Upsert` whose transaction has begun at the given time commits after the first page. -/
def walkAround (began : ℤ) : List (Action String) :=
  [.page twoObjects, .stmt (.upsert "shop" "b" "z" began), .page twoObjects]

/-- A transaction that began before the first row was written commits in the middle of the walk: its
row is missed. -/
theorem late_commit_missed :
    (twoObjects.lookup 2).map (·.objectID) = some "b" ∧
      (exec (step reader) (begin reader twoObjects)
          (walkAround 5)).map
        (fun w => (w.next, w.returned.map (·.objectID), (w.items.lookup 2).map (·.objectID))) =
      some (none, ["a"], some "b") := by
  decide +kernel

/-- The same walk, with a transaction that began after the rows were written. -/
theorem walk_misses_nothing_prompt : ∃ w,
    exec (step reader) (begin reader twoObjects)
        (walkAround 30 ++ [.page twoObjects]) = some w ∧
      "b" ∈ w.returned.map (·.objectID) ∧ (w.returned.map (·.objectID)).count "a" = 1 := by
  obtain ⟨w, hw, he⟩ := (Option.any_eq_true
    (fun w => w.next.isNone && (w.items.lookup 2).isSome) _).mp (show (exec
      (step reader) (begin reader twoObjects)
      (walkAround 30 ++ [.page twoObjects])).any _ = true by decide +kernel)
  obtain ⟨hne, ht⟩ := Bool.and_eq_true_iff.mp he
  obtain ⟨row', hr'⟩ := Option.isSome_iff_exists.mp ht
  have hu : UniqueObjects twoObjects := by
    intro k k' row row' hr hr' _ ho
    rcases lookup_twoObjects hr with ⟨rfl, rfl⟩ | ⟨rfl, rfl⟩ <;>
      rcases lookup_twoObjects hr' with ⟨rfl, rfl⟩ | ⟨rfl, rfl⟩ <;> simp [newRow] at ho ⊢
  obtain ⟨ha, hon⟩ :=
    walk_misses_nothing hu hw (Option.isNone_iff_eq_none.mp hne)
  have hf : ∀ {w₁ : Walk String (Option ObjectCursor)},
      step reader (begin reader twoObjects) (.page twoObjects) = some w₁ →
      w₁.items = twoObjects := fun h => by
    obtain ⟨_, -, hi, -⟩ := step_page h
    exact hi
  refine ⟨w, hw, ha ?_ 2 (newRow id "shop" "b" "y" 20) row' rfl rfl hr',
    hon 1 (newRow id "shop" "a" "x" 10) rfl rfl ?_⟩
  · refine ⟨trivial, fun w₁ h₁ => ⟨keepsAhead_of_le fun k row row' hr hn => ?_,
      fun _ _ => ⟨trivial, fun _ _ => ⟨trivial, fun _ _ => trivial⟩⟩⟩⟩
    rw [hf h₁] at hr hn
    rcases lookup_twoObjects hr with ⟨rfl, rfl⟩ | ⟨rfl, rfl⟩
    · obtain rfl := Option.some.inj hn
      decide +kernel
    · obtain rfl := Option.some.inj hn
      decide +kernel
  · refine ⟨trivial, fun w₁ h₁ => ⟨?_, fun _ _ => ⟨trivial, fun _ _ => ⟨trivial, fun _ _ =>
      trivial⟩⟩⟩⟩
    rw [Leaves, hf h₁]
    decide +kernel

end Codohue.CatalogWalk
