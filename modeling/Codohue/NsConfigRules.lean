import Codohue.NsConfig

/-!
The checks of `internal/nsconfig` that need no store: of an upsert, of a patch, and of the strategy
registry.
-/

namespace Codohue.NsConfig

/-- Go beyond the core: JSON, bcrypt and SHA-256. -/
structure Runtime (P : Type) where
  /-- The empty JSON object. -/
  empty : P
  /-- `json.Unmarshal` into `map[string]float64`. -/
  weights : P → Option (List (String × ℚ))
  ofWeights : List (String × ℚ) → P
  /-- `%v` of a number. -/
  format : ℚ → String
  /-- The SHA-256 of the JSON of a base and a catalog request. -/
  digest : UpsertRequest P × Option (UpdateCatalogRequest P) → String
  /-- `bcrypt.GenerateFromPassword`, with the salt. -/
  hash : String → ℕ → String
  compareHashAndPassword : String → String → Bool

/-- `embedstrategy.Registry`: what a factory builds is known by its dimension. -/
structure Registry (P : Type) where
  factories : String → String → Option (P → Except String ℤ)

variable {P : Type} (R : Runtime P)

def Registry.build (registry : Registry P) (id version : String) (params : P) :
    Except (Error P) ℤ :=
  match registry.factories id version with
  | none => .error (.unknownStrategy id version)
  | some factory => (factory params).mapError .external

/-! ### An upsert -/

def schemaEmbeddingDim : ℤ := 64

def catalog : String := "catalog"

def upsertDenseSources : List String := ["disabled", "item2vec", "svd", "byoe"]

def denseDistances : List String := ["cosine", "dot"]

def isHex (c : Char) : Bool :=
  ('0' ≤ c ∧ c ≤ '9') ∨ ('a' ≤ c ∧ c ≤ 'f') ∨ ('A' ≤ c ∧ c ≤ 'F')

/-- The range check of one field. -/
def check {α : Type} (given : Option α) (illegal : α → Bool) (detail : α → String) :
    Except (Error P) Unit :=
  match given with
  | none => .ok ()
  | some a => if illegal a then .error (.invalidConfig (detail a)) else .ok ()

def checkDenseSource (req : UpsertRequest P) : Except (Error P) Unit :=
  match req.denseSource with
  | none => .ok ()
  | some source =>
    if source = catalog then
      if req.catalogStrategyID.getD "" = "" ∨ req.catalogStrategyVersion.getD "" = "" then
        .error .catalogViaUpsert
      else .ok ()
    else if source ∉ upsertDenseSources then
      .error (.invalidConfig ("dense_source must be one of disabled|item2vec|svd|byoe|catalog, " ++
        "got \"" ++ source ++ "\""))
    else .ok ()

/-- Weights may have any sign; those that are not finite have no JSON. -/
def validateUpsert (req : UpsertRequest P) : Except (Error P) Unit := do
  check (some req.provisionAPIKey)
    (fun key => key ≠ "" ∧ ¬ (key.length = 64 ∧ key.toList.all isHex))
    fun _ => "provision_api_key must be 64 hex characters encoding 32 random bytes"
  check req.lambda (· ≤ 0) fun x => "lambda must be > 0, got " ++ R.format x
  check req.gamma (· < 0) fun x => "gamma must be >= 0, got " ++ R.format x
  check req.maxResults (· ≤ 0) fun n => "max_results must be > 0, got " ++ toString n
  check req.seenItemsDays (· ≤ 0) fun n => "seen_items_days must be > 0, got " ++ toString n
  check req.alpha (fun x => x < 0 ∨ 1 < x) fun x =>
    "alpha must be within [0, 1], got " ++ R.format x
  checkDenseSource req
  check req.embeddingDim (· ≤ 0) fun n => "embedding_dim must be > 0, got " ++ toString n
  check req.denseDistance (fun d => d ≠ "" ∧ d ∉ denseDistances) fun d =>
    "dense_distance must be one of cosine|dot, got \"" ++ d ++ "\""
  check req.trendingWindow (· ≤ 0) fun n => "trending_window must be > 0, got " ++ toString n
  check req.trendingTTL (· ≤ 0) fun n => "trending_ttl must be > 0, got " ++ toString n
  check req.lambdaTrending (· ≤ 0) fun x => "lambda_trending must be > 0, got " ++ R.format x

/-- The two halves of a request that selects the catalog. -/
def UpsertRequest.split (req : UpsertRequest P) :
    UpsertRequest P × Option (UpdateCatalogRequest P) :=
  if req.denseSource = some catalog then
    ({ req with denseSource := none },
      some ⟨true, req.catalogStrategyID.getD "", req.catalogStrategyVersion.getD "",
        req.catalogStrategyParams, 0, 0⟩)
  else (req, none)

/-! ### A patch -/

def configurationInvalid (group field message : String) : Error P :=
  .configuration ⟨422, "invalid_configuration", message, [(group ++ "." ++ field, message)], none⟩

def int32 (n : ℤ) : Option ℤ := if -2 ^ 31 ≤ n ∧ n < 2 ^ 31 then some n else none

def float64 : Json P → Option ℚ
  | .integer n => some n
  | .decimal x => some x
  | _ => none

/-- The value of a field, if it has the type of the field. -/
def decode : (f : ConfigurationField) → Json P → Option (Column P f)
  | .excludeAuthored, .bool b => some b
  | .denseSource, .string s | .denseDistance, .string s => some s
  | .catalogStrategyID, .string s | .catalogStrategyVersion, .string s => some (some s)
  | .actionWeights, .object p => if (R.weights p).isSome then some p else none
  | .catalogStrategyParams, .object p => some p
  | .alpha, v | .gamma, v | .lambda, v | .lambdaTrending, v => float64 v
  | .maxResults, .integer n | .seenItemsDays, .integer n | .trendingWindow, .integer n
  | .trendingTTL, .integer n | .embeddingDim, .integer n => int32 n
  | .catalogMaxAttempts, .integer n | .catalogMaxContentBytes, .integer n => (int32 n).map some
  | .catalogMaxAttempts, .null | .catalogMaxContentBytes, .null => some none
  | _, _ => none

/-- The new value of a field. -/
def ConfigurationPatch.change (req : ConfigurationPatch P) (f : ConfigurationField) :
    Option (Column P f) :=
  (req.changes.lookup f.name).bind (decode R f)

def Json.isNull : Json P → Bool
  | .null => true
  | _ => false

def checkChange (group : Group) (name : String) (v : Json P) : Except (Error P) Unit :=
  match (configurationFields group).find? fun f => f.name = name with
  | none => .error (configurationInvalid group.name name "Field does not belong to this group")
  | some f =>
    if v.isNull ∧ f ≠ .catalogMaxAttempts ∧ f ≠ .catalogMaxContentBytes then
      .error (configurationInvalid group.name name "This field cannot inherit a system default")
    else if (decode R f v).isNone then
      .error (configurationInvalid group.name name "Invalid value type")
    else .ok ()

def checkChanges (group : Group) : List ((_ : String) × Json P) → Except (Error P) Unit
  | [] => .ok ()
  | change :: rest => do
    checkChange R group change.1 change.2
    checkChanges group rest

/-- The group of the patch, if it is well formed. -/
def validateConfigurationPatch (req : ConfigurationPatch P) : Except (Error P) Group :=
  match Group.ofName req.group with
  | none => .error (configurationInvalid req.group "group" "Unknown configuration group")
  | some group =>
    if req.generation < 1 ∨ req.baseRevision < 1 then
      .error (configurationInvalid req.group "base_revision"
        "Positive generation and base_revision are required")
    else do
      checkChanges R group req.changes.entries
      return group

/-! ### The field that a message names -/

def identifier (b : UInt8) : Bool :=
  b = 95 ∨ (48 ≤ b ∧ b ≤ 57) ∨ (97 ≤ b ∧ b ≤ 122) ∨ (65 ≤ b ∧ b ≤ 90)

/-- `strings.Index`, on bytes. -/
def index (s sub : List UInt8) : Option ℕ :=
  if sub.isPrefixOf s then some 0
  else match s with
    | [] => none
    | _ :: s => (index s sub).map (· + 1)

/-- The loop of `fieldAt` from the offset `start`; an occurrence moves it on by at least one
byte. -/
def fieldAtFrom (message field : List UInt8) : ℕ → ℕ → Option ℕ
  | 0, _ => none
  | fuel + 1, start =>
    if start + field.length ≤ message.length then
      match index (message.drop start) field with
      | none => none
      | some i =>
        let i := i + start
        let after := i + field.length
        if (i = 0 ∨ !(message[i - 1]?.any identifier)) ∧ !(message[after]?.any identifier) then
          some i
        else fieldAtFrom message field fuel (i + 1)
    else none

def fieldAt (message field : String) : Option ℕ :=
  if field = "" then none
  else fieldAtFrom message.toUTF8.toList field.toUTF8.toList (message.toUTF8.size + 1) 0

/-- The message names the field at `i`, as a whole identifier. -/
def NamedAt (message field : List UInt8) (i : ℕ) : Prop :=
  field <+: message.drop i ∧ (i = 0 ∨ message[i - 1]?.any identifier = false) ∧
    message[i + field.length]?.any identifier = false

instance (message field : List UInt8) (i : ℕ) : Decidable (NamedAt message field i) :=
  inferInstanceAs (Decidable (_ ∧ _))

/-- The answer is the first offset that names the field. -/
def First (message field : List UInt8) (r : Option ℕ) : Prop :=
  (∀ i, r = some i ↔ NamedAt message field i ∧ ∀ j < i, ¬ NamedAt message field j) ∧
    (r = none ↔ ∀ i, ¬ NamedAt message field i)

section FieldAt

variable {message field : List UInt8}

lemma index_eq_none (h : index s sub = none) (j : ℕ) : ¬ sub <+: s.drop j := by
  induction s generalizing j with
  | nil =>
    intro hp
    rw [List.drop_nil] at hp
    rw [index, if_pos (List.isPrefixOf_iff_prefix.mpr hp)] at h
    cases h
  | cons b s ih =>
    rw [index] at h
    split_ifs at h with hp
    cases j with
    | zero => rwa [List.isPrefixOf_iff_prefix] at hp
    | succ j => exact ih (Option.map_eq_none_iff.mp h) j

lemma index_eq_some (h : index s sub = some i) :
    sub <+: s.drop i ∧ ∀ j < i, ¬ sub <+: s.drop j := by
  induction s generalizing i with
  | nil =>
    rw [index] at h
    split_ifs at h with hp
    cases h
    exact ⟨List.isPrefixOf_iff_prefix.mp hp, nofun⟩
  | cons b s ih =>
    rw [index] at h
    split_ifs at h with hp
    · cases h
      exact ⟨List.isPrefixOf_iff_prefix.mp hp, nofun⟩
    · obtain ⟨k, hk, rfl⟩ := Option.map_eq_some_iff.mp h
      refine ⟨(ih hk).1, fun j hj => ?_⟩
      cases j with
      | zero => rwa [List.isPrefixOf_iff_prefix] at hp
      | succ j => exact (ih hk).2 j (Nat.lt_of_succ_lt_succ hj)

lemma NamedAt.add_le (h : NamedAt message field i) (hf : field ≠ []) :
    i + field.length ≤ message.length := by
  have hl := h.1.length_le
  have hp := List.length_pos_iff.mpr hf
  rw [List.length_drop] at hl
  omega

lemma First.none (h : ∀ i, ¬ NamedAt message field i) : First message field none :=
  ⟨fun i => ⟨nofun, fun hi => absurd hi.1 (h i)⟩, iff_of_true rfl h⟩

lemma First.some (hn : NamedAt message field i) (h : ∀ j < i, ¬ NamedAt message field j) :
    First message field (some i) := by
  refine ⟨fun k => ⟨?_, fun hk => ?_⟩, nofun, fun hno => absurd hn (hno i)⟩
  · rintro ⟨⟩
    exact ⟨hn, h⟩
  · obtain hlt | rfl | hgt := lt_trichotomy i k
    · exact absurd hn (hk.2 i hlt)
    · rfl
    · exact absurd hk.1 (h k hgt)

/-- The loop has rejected every offset before `start`. What it answers from there is the first one:
each occurrence that it rejects moves `start` on, so the fuel lasts to the end of the message. -/
lemma first_fieldAtFrom (hf : field ≠ []) (hfu : message.length < fuel + start)
    (hk : ∀ j < start, ¬ NamedAt message field j) :
    First message field (fieldAtFrom message field fuel start) := by
  induction fuel generalizing start with
  | zero => exact First.none fun i hi => hk i (by have := hi.add_le hf; omega) hi
  | succ fuel ih =>
    rw [fieldAtFrom]
    split_ifs with hl
    · cases hx : index (message.drop start) field with
      | none =>
        refine First.none fun i hi => ?_
        obtain hlt | ⟨d, rfl⟩ := (lt_or_ge i start).imp_right Nat.exists_eq_add_of_le
        · exact hk i hlt hi
        · exact index_eq_none hx d (List.drop_drop ▸ hi.1)
      | some d =>
        obtain ⟨ho, hm⟩ := index_eq_some hx
        rw [List.drop_drop, Nat.add_comm] at ho
        have hbe : ∀ j < d + start, ¬ NamedAt message field j := fun j hj hn => by
          obtain hlt | ⟨e, rfl⟩ := (lt_or_ge j start).imp_right Nat.exists_eq_add_of_le
          · exact hk j hlt hn
          · exact hm e (by omega) (List.drop_drop ▸ hn.1)
        dsimp only
        split_ifs with hb
        · have hn : NamedAt message field (d + start) := ⟨ho, by simpa using hb⟩
          exact First.some hn hbe
        · refine ih (by omega) fun j hj hn => ?_
          -- the occurrence that was found is the one rejected
          obtain rfl | hj := (Nat.lt_succ_iff.mp hj).eq_or_lt
          · exact hb (by simpa using hn.2)
          · exact hbe j hj hn
    · exact First.none fun i hi => hk i (by have := hi.add_le hf; omega) hi

lemma length_toList (bs : ByteArray) : bs.toList.length = bs.size := by
  have hl (i : ℕ) (r : List UInt8) :
      (ByteArray.toList.loop bs i r).length = r.length + (bs.size - i) := by
    fun_induction ByteArray.toList.loop bs i r with
    | case1 i r hi ih =>
      rw [ih, List.length_cons]
      omega
    | case2 i r hi =>
      rw [List.length_reverse]
      omega
  exact (hl 0 []).trans (Nat.zero_add _)

/-- **A message is attributed to the first whole identifier that is the field.** A Go string is
any list of bytes; on a text `fieldAt` runs the loop on its bytes. -/
theorem fieldAt_first (message field : List UInt8) (hf : field ≠ []) :
    First message field (fieldAtFrom message field (message.length + 1) 0) ∧
      ∀ m f : String, m.toUTF8.toList = message → f.toUTF8.toList = field →
        fieldAt m f = fieldAtFrom message field (message.length + 1) 0 := by
  refine ⟨first_fieldAtFrom hf (by omega) nofun, ?_⟩
  rintro m f rfl rfl
  have hne : f ≠ "" := by
    rintro rfl
    exact hf (List.length_eq_zero_iff.mp (length_toList _))
  rw [fieldAt, if_neg hne, length_toList]

/-- "aab aa" names "aa" after the identifier that starts with it. -/
theorem fieldAt_first_overlap :
    fieldAtFrom [97, 97, 98, 32, 97, 97] [97, 97] 7 0 = some 4 :=
  ((fieldAt_first _ _ (by decide)).1.1 4).mpr ⟨by decide, by decide⟩

end FieldAt

/-- The field of the group that the message names first. -/
def namedField (group : Group) (message : String) : String :=
  ((configurationFields group).foldl (fun found f =>
    match fieldAt message f.name with
    | some i => if i < found.2 then (f.name, i) else found
    | none => found) ("values", message.toUTF8.size)).1

/-! ### The values that a patch leaves -/

/-- The values read as a request; a null is a field that is not given. -/
def requestOf (values : Values P) : UpsertRequest P where
  actionWeights := R.weights (values .actionWeights)
  lambda := some (values .lambda)
  gamma := some (values .gamma)
  maxResults := some (values .maxResults)
  seenItemsDays := some (values .seenItemsDays)
  excludeAuthored := some (values .excludeAuthored)
  alpha := some (values .alpha)
  denseSource := some (values .denseSource)
  embeddingDim := some (values .embeddingDim)
  denseDistance := some (values .denseDistance)
  catalogStrategyID := values .catalogStrategyID
  catalogStrategyVersion := values .catalogStrategyVersion
  catalogStrategyParams := some (values .catalogStrategyParams)
  trendingWindow := some (values .trendingWindow)
  trendingTTL := some (values .trendingTTL)
  lambdaTrending := some (values .lambdaTrending)

def trimSpace (s : String) : String :=
  String.ofList ((s.toList.dropWhile Repair.isSpace).reverse.dropWhile Repair.isSpace).reverse

/-- The rules for the merged values that need neither the registry nor a store. -/
def validateValues (group : Group) (values : Values P) : Except (Error P) Unit := do
  let req := requestOf R values
  (validateUpsert R req).mapError fun e =>
    configurationInvalid group.name (namedField group e.message) e.message
  if values .denseDistance ≠ "" ∧ values .denseDistance ∉ denseDistances then
    .error (configurationInvalid "embeddings" "dense_distance" "Select cosine or dot")
  if (req.actionWeights.getD []).any fun w => trimSpace w.1 = "" ∨ trimSpace w.1 ≠ w.1 then
    .error (configurationInvalid "signals" "action_weights"
      "Action names must be non-empty and have no surrounding whitespace")
  if (values .catalogMaxAttempts).any (· < 1) then
    .error (configurationInvalid "embeddings" "catalog_max_attempts"
      "Override must be a positive integer; use null to inherit")
  if (values .catalogMaxContentBytes).any (· < 1) then
    .error (configurationInvalid "embeddings" "catalog_max_content_bytes"
      "Override must be a positive integer; use null to inherit")

end Codohue.NsConfig
