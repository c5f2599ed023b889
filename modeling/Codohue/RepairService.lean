import Codohue.RepairStore

/-!
The workflow of the id-mapping repair: audit, snapshots, apply, verify and resume.

The audit decides for every identity which numeric id it should have and freezes the decisions
in a manifest. Apply copies the points of one identity after the other to their new id, points
the mapping at it and removes the originals; the two stores cannot commit together, so the items
carry their progress and a run that was cut short is applied again. Verify reads everything back
before the run is complete.
-/

namespace Codohue.Repair

open Script Prog

variable {V : Type}

/-! ### Evidence -/

/-- One point as the audit sees it. -/
structure CollectionEvidence where
  collection : String
  entityType : EntityType
  numericID : ℤ
  stringID : String
  payloadHash : String
  vectorHash : String

structure NamespaceEvidence where
  ns : String
  mappings : List ((EntityType × String) × ℤ)
  points : List CollectionEvidence
  denseCollections : List String

def pointEvidence (env : Env V) (ns : String) (kind : CollectionKind) (id : ℤ) (p : Point V) :
    CollectionEvidence where
  collection := env.collection ns kind
  entityType := kind.entityType
  numericID := id
  stringID := p.field kind.entityType.idField
  payloadHash := env.hashPayload p.payload
  vectorHash := env.hashVectors p.vector

def evidence (env : Env V) (ns : String) : RepairM V NamespaceEvidence := do
  let mappings ← loadMappings ns
  let _ ← read fun _ => .ok (env.generation ns)
  let points ← mapEach (fun kind => do
    let found ← inventory (env.collection ns kind)
    pure (found.map fun e => pointEvidence env ns kind e.1 e.2)) collectionKinds
  pure ⟨ns, mappings, points.flatten,
    (collectionKinds.filter CollectionKind.dense).map (env.collection ns)⟩

/-! ### The audit of one namespace -/

/-- What was seen of one identity. -/
structure Observed where
  points : List CollectionEvidence
  unlabeled : Bool

/-- A point without a string id gets a key of its own. -/
def CollectionEvidence.key (p : CollectionEvidence) : EntityType × String :=
  (p.entityType,
    if p.stringID = "" then "\x00unlabeled:" ++ p.collection ++ ":" ++ toString p.numericID
    else p.stringID)

def observe (seen : Table (EntityType × String) Observed) (p : CollectionEvidence) :
    Table (EntityType × String) Observed :=
  if p.stringID = "" then
    seen.insert p.key ⟨[{ p with payloadHash := "", vectorHash := "" }], true⟩
  else
    let entry := (seen.lookup p.key).getD ⟨[], false⟩
    seen.insert p.key ⟨entry.points ++ [p], entry.unlabeled⟩

/-- Mappings without points belong to the manifest too. -/
def observeMapping (seen : Table (EntityType × String) Observed) (k : EntityType × String) :
    Table (EntityType × String) Observed :=
  if (seen.lookup k).isNone then seen.insert k ⟨[], false⟩ else seen

def byIdentity (ev : NamespaceEvidence) : Table (EntityType × String) Observed :=
  (ev.mappings.map Prod.fst).foldl observeMapping (ev.points.foldl observe ∅)

namespace Observed

def numericIDs (o : Observed) : List ℤ :=
  ((o.points.map CollectionEvidence.numericID).dedup).insertionSort (· ≤ ·)

def collections (o : Observed) : List (String × List ℤ) :=
  (o.points.map CollectionEvidence.collection).dedup.map fun c =>
    (c, (o.points.filter fun p => p.collection = c).map CollectionEvidence.numericID)

/-- Two points of one collection claim the identity. -/
def ambiguous (o : Observed) : Bool := o.collections.any fun e => 1 < e.2.dedup.length

end Observed

/-- The last hash that is not empty. -/
def lastHash (hashes : List String) : String :=
  hashes.foldl (fun last hash => if hash = "" then last else hash) ""

/-- The identity that holds the id in the collection. -/
def occupant (points : List CollectionEvidence) (collection : String) (id : ℤ) :
    Option (EntityType × String) :=
  ((points.filter fun p => p.stringID ≠ "" ∧ p.collection = collection ∧
    p.numericID = id).getLast?).map
    CollectionEvidence.key

/-- Another identity that holds the target in one of the collections of this one. -/
def targetHolder (points : List CollectionEvidence) (o : Observed) (target : ℤ)
    (self : EntityType × String) : Option (EntityType × String) :=
  o.collections.findSome? fun e => (occupant points e.1 target).filter (· ≠ self)

def auditItem (ev : NamespaceEvidence) (k : EntityType × String) (o : Observed) : Item :=
  let names := o.collections.map Prod.fst
  let base : Item :=
    { identity := ⟨ev.ns, k.1, k.2⟩
      oldNumericIDs := o.numericIDs
      targetNumericID := none
      sources := ⟨o.collections, names.filter (· ∈ ev.denseCollections), "", none,
        List.filter_subset_self _⟩
      payloadHash := lastHash (o.points.map CollectionEvidence.payloadHash)
      vectorHash := lastHash (o.points.map CollectionEvidence.vectorHash)
      state := .pending
      error := "" }
  let quarantined (reason : String) : Item := base.withState .quarantined reason
  if o.unlabeled then
    quarantined "point payload carries no logical id; cannot associate it with a mapping"
  else if o.ambiguous then
    quarantined
      "two points in one collection claim this identity; the authoritative vector is ambiguous"
  else match ev.mappings.lookup k with
    | none =>
      quarantined
        "points exist for an identity with no id_mappings row; no authoritative numeric id"
    | some target =>
      { base with
        targetNumericID := some target
        sources := { base.sources with
          targetConflictWith := (targetHolder ev.points o target k).elim "" Prod.snd } }

def auditNamespace (ev : NamespaceEvidence) : List Item :=
  ordered ((byIdentity ev).entries.map fun e => auditItem ev e.1 e.2)

/-! ### Audit -/

/-- An item whose target is held by another identity gets a fresh one. -/
def reassignContestedTarget (item : Item) : RepairM V Item :=
  match item.targetNumericID with
  | some target =>
    if item.state = .quarantined ∨ item.sources.targetConflictWith = "" then pure item
    else do
      let fresh ← mapErr (Error.wrap ("reserve a fresh numeric id for " ++ item.identity.text))
        nextNumericID
      pure { item with
        targetNumericID := some fresh
        sources := { item.sources with targetReassignedFrom := some target } }
  | none => pure item

structure AuditReport where
  runID : ℕ
  manifestHash : String
  total : ℕ
  resolved : ℕ
  needsRepair : ℕ
  quarantined : List Item

def auditReport (id : ℕ) (hash : String) (items : List Item) : AuditReport where
  runID := id
  manifestHash := hash
  total := items.length
  resolved := (items.filter fun item => item.state ≠ .quarantined).length
  needsRepair := (items.filter fun item => item.state ≠ .quarantined ∧ item.needsCopy).length
  quarantined := items.filter fun item => item.state = .quarantined

/-- The run in flight, if any, gives way unless it is being applied or verified. -/
def makeWay : Option (ℕ × RepairRun) → RepairM V Unit
  | none => pure ()
  | some (id, run) => do
    require (supersedable run.state)
      (.runActive (": run " ++ toString id ++ " is in state " ++ run.state.name))
    mapErr (Error.wrap ("supersede run " ++ toString id)) (supersede id)

def audit (env : Env V) : RepairM V AuditReport := do
  let active ← activeRun
  makeWay active
  let namespaces ← mapErr (Error.wrap "list namespaces for audit")
    (read fun _ => .ok env.namespaces)
  let found ← mapEach (fun ns =>
    mapErr (Error.wrap ("collect evidence for " ++ ns)) (evidence env ns)) namespaces
  let items ← mapEach reassignContestedTarget (found.flatMap auditNamespace)
  let (id, run) ← createRun env.sha256 items
  pure (auditReport id run.manifestHash items)

def prepareSnapshots (run : ℕ) (pgRef : String) (refs : List (String × String)) :
    RepairM V Unit := do
  let r ← getRun run
  require (r.state = .audited ∨ r.state = .snapshotting)
    (.other ("run " ++ toString run ++ " is in state " ++ r.state.name ++
      "; snapshots are recorded after audit"))
  recordSnapshots run pgRef refs
  setRunState run .snapshotting ""

/-! ### Apply -/

/-- The copy is read back before it counts. -/
def copyPointVerified (env : Env V) (run : ℕ) (x : Identity) (collection : String)
    (source target : ℤ) : RepairM V Unit := do
  checkPointID source
  checkPointID target
  let context := toString source ++ "→" ++ toString target ++ " in " ++ collection
  if source = target then pure ()
  else do
    let found ← readPoint collection source
    match found with
    | none =>
      throw (.other ("copy point " ++ toString source ++ " in " ++ collection ++
        ": source point is missing"))
    | some p => do
      upsertPoint run x collection source target p
      let written ← readPoint collection target
      match written with
      | none => throw (.other ("verify copy " ++ context ++ ": point is absent after upsert"))
      | some copied => do
        require (env.hashPayload copied.payload = env.hashPayload p.payload)
          (.other ("verify copy " ++ context ++ ": payload hash " ++
            env.hashPayload copied.payload ++ ", want " ++ env.hashPayload p.payload))
        require (env.hashVectors copied.vector = env.hashVectors p.vector)
          (.other ("verify copy " ++ context ++ ": vector hash " ++
            env.hashVectors copied.vector ++ ", want " ++ env.hashVectors p.vector))

def deletePoint (run : ℕ) (x : Identity) (collection : String) (id : ℤ) : RepairM V Unit := do
  checkPointID id
  erasePoint run x collection id

/-- The points an item moves: collection by collection, every old id but the target. -/
def moves (item : Item) (target : ℤ) : List (String × ℤ) :=
  (copyableCollections item).product (item.stale target)

/-- Copy, retarget, delete: the original goes last. -/
def moveItem (env : Env V) (run : ℕ) (item : Item) (target : ℤ) : RepairM V Unit := do
  forEach (fun m => copyPointVerified env run item.identity m.1 m.2 target) (moves item target)
  setItemState run item.identity .copied ""
  retargetMapping run item.identity target
  forEach (fun m => deletePoint run item.identity m.1 m.2) (moves item target)
  setItemState run item.identity .cleaned ""

def applyItem (env : Env V) (run : ℕ) (item : Item) : RepairM V Unit :=
  match item.targetNumericID with
  | some target =>
    if item.needsCopy then moveItem env run item target
    else setItemState run item.identity .cleaned ""
  | none => setItemState run item.identity .cleaned ""

/-- Where the run stopped; both writes are best effort. -/
def recordFailure (run : ℕ) (item : Option Identity) (cause : Error) : RepairM V Unit := do
  match item with
  | some x => ignore (setItemState run x .failed cause.message)
  | none => pure ()
  ignore (setRunState run .failed cause.message)

/-- `m`, with its failure recorded. -/
def recording (run : ℕ) (item : Option Identity) (m : RepairM V Unit) : RepairM V Unit :=
  m.catchErr fun e => do
    recordFailure run item e
    throw e

def applyItems (env : Env V) (run : ℕ) (items : List Item) : RepairM V Unit :=
  forEach (fun item =>
    if item.finished then pure ()
    else mapErr (Error.wrap ("apply " ++ item.identity.text))
      (recording run (some item.identity) (applyItem env run item))) items

def rebuildNamespaces (env : Env V) (run : ℕ) (namespaces : List String) : RepairM V Unit :=
  forEach (fun ns => do
    mapErr (Error.wrap ("rebuild sparse vectors for " ++ ns))
      (recording run none (rebuildSparse env ns))
    recording run none (recordRebuiltNamespace run ns)) namespaces

/-- The part of apply behind the gate. -/
def applyManifest (env : Env V) (run : ℕ) (items : List Item) : RepairM V Unit := do
  setRunState run .applying ""
  applyItems env run items
  rebuildNamespaces env run (sortedNamespaces items)
  setRunState run .verifying ""

def applyFenced (env : Env V) (run : ℕ) : RepairM V Unit := do
  let r ← getRun run
  let items ← listItems run
  require (manifestHash env.sha256 items = r.manifestHash)
    (.manifestChanged (manifestHash env.sha256 items) r.manifestHash)
  let quarantined := items.filter fun item => item.state = .quarantined
  require (quarantined = [])
    (.quarantinedItems (toString quarantined.length ++ " unresolved item(s)" ++
      quarantined.head?.elim "" fun item =>
        ", first is " ++ item.identity.text ++ " (" ++ item.error ++ ")"))
  require (r.pgSnapshotRef ≠ "") (.snapshotsRequired "no PostgreSQL backup reference recorded")
  let missing := missingSnapshotCollections items r.qdrantSnapshotRefs
  require (missing = [])
    (.snapshotsRequired ("no snapshot recorded for " ++ ", ".intercalate missing))
  applyManifest env run items

def apply (env : Env V) (run : ℕ) : RepairM V Unit := withGlobalExclusive (applyFenced env run)

/-- A run that is complete is left alone, and one without snapshots is refused. -/
def resume (env : Env V) (run : ℕ) : RepairM V Unit := do
  let r ← getRun run
  if r.state = .complete then pure ()
  else if r.state = .audited then
    throw (.other ("run " ++ toString run ++ " has no snapshots yet; record them before applying"))
  else apply env run

/-! ### Verify -/

structure InspectedPoint where
  stringID : String
  payloadHash : String
  vectorHash : String

def inspectPoint (env : Env V) (collection : String) (id : ℤ) :
    RepairM V (Option InspectedPoint) := do
  checkPointID id
  let found ← readPoint collection id
  pure (found.map fun p =>
    ⟨p.field (payloadIDField collection), env.hashPayload p.payload, env.hashVectors p.vector⟩)

def pointAbsent (collection : String) (id : ℤ) : RepairM V Bool := do
  checkPointID id
  let found ← readPoint collection id
  pure found.isNone

/-- Where a problem was found. -/
def place (collection : String) (id : ℤ) : String := collection ++ "#" ++ toString id

/-- The problem with an old point, if any. -/
def verifyOld (x : Identity) (collection : String) (old : ℤ) : RepairM V (List String) := do
  let answer ← attempt (pointAbsent collection old)
  pure (match answer with
    | .error e => [x.text ++ ": could not check " ++ place collection old ++ ": " ++ e.message]
    | .ok false => [x.text ++ ": old point " ++ place collection old ++ " still present"]
    | .ok true => [])

def hashProblems (item : Item) (collection : String) (target : ℤ) (p : InspectedPoint) :
    List String :=
  (if item.vectorHash ≠ "" ∧ p.vectorHash ≠ item.vectorHash then
    [item.identity.text ++ ": vector at " ++ place collection target ++ " changed"] else []) ++
  (if item.payloadHash ≠ "" ∧ p.payloadHash ≠ item.payloadHash then
    [item.identity.text ++ ": payload at " ++ place collection target ++ " changed"] else [])

def verifyCollection (env : Env V) (item : Item) (target : ℤ) (collection : String) :
    RepairM V (List String) := do
  let answer ← attempt (inspectPoint env collection target)
  match answer with
  | .error e =>
    pure [item.identity.text ++ ": could not read " ++ place collection target ++ ": " ++ e.message]
  | .ok none =>
    pure [item.identity.text ++ ": target point " ++ place collection target ++ " is missing"]
  | .ok (some p) =>
    if p.stringID ≠ item.identity.stringID then
      pure [item.identity.text ++ ": target point " ++ place collection target ++ " carries " ++
        p.stringID]
    else do
      let olds ← mapEach (verifyOld item.identity collection) (item.stale target)
      pure (hashProblems item collection target p ++ olds.flatten)

/-- An item that did not move has no new place to confirm. -/
def verifyItem (env : Env V) (item : Item) : RepairM V (List String) :=
  match item.targetNumericID with
  | some target =>
    if item.needsCopy then do
      let problems ← mapEach (verifyCollection env item target) (copyableCollections item)
      pure problems.flatten
    else pure []
  | none => pure []

inductive Verdict where
  | remaining
  | unmoved (problems : List String)
  | verified

def Verdict.problems : Verdict → List String
  | .unmoved problems => problems
  | _ => []

def checkItem (env : Env V) (run : ℕ) (item : Item) : RepairM V Verdict :=
  if item.finished then do
    let problems ← verifyItem env item
    if problems = [] then do
      setItemState run item.identity .verified ""
      pure .verified
    else pure (.unmoved problems)
  else pure .remaining

structure VerifyReport where
  runID : ℕ
  checked : ℕ
  unmoved : ℕ
  remaining : ℕ
  problems : List String

def verifyReport (run : ℕ) (unbuilt : List String) (verdicts : List Verdict) : VerifyReport where
  runID := run
  checked := verdicts.length
  unmoved := (verdicts.filter fun v => match v with | .unmoved _ => true | _ => false).length
  remaining := (verdicts.filter fun v => match v with | .remaining => true | _ => false).length
  problems := unbuilt ++ verdicts.flatMap Verdict.problems

def verify (env : Env V) (run : ℕ) : RepairM V VerifyReport := do
  let items ← listItems run
  let r ← getRun run
  let unbuilt := (unrebuiltNamespaces items r.rebuiltNamespaces).map
    (· ++ ": sparse vectors were never rebuilt")
  let verdicts ← mapEach (checkItem env run) items
  let report := verifyReport run unbuilt verdicts
  if report.remaining = 0 ∧ report.unmoved = 0 ∧ report.problems = [] then do
    setRunState run .complete ""
    pure report
  else do
    setRunState run .failed (toString report.remaining ++ " item(s) unfinished, " ++
      toString report.unmoved ++ " item(s) failed verification" ++
      (report.problems.head?.elim "" (": " ++ ·)))
    pure report

end Codohue.Repair
