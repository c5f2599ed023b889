import Codohue.CatalogRows
import Codohue.Coordinator

/-!
Re-embed runs and who closes them.

`StartReembedRun` opens a row of `batch_run_logs` and resets the rows of the catalog it is for.
The watcher of an embedder replica closes the run once it counts no stale row; the cron closes
whatever row is still open ninety minutes after its start, whichever process opened it.

The scene records, beside the two tables, which rows still wait for which run, and what still
waited each time a re-embed run was closed.
-/

namespace Codohue.Reembed

open CatalogRows
open Coordinator (Outcome)
open Catalog (State)

inductive TriggerSource where
  | cron
  | manual
  | reembed
  deriving DecidableEq, Repr

/-- A row of `batch_run_logs`, without its phases and log lines. -/
structure Run where
  ns : String
  startedAt : ℤ
  completedAt : Option ℤ
  durationMs : Option ℤ
  entitiesProcessed : ℕ
  success : Bool
  errorMessage : Option String
  trigger : TriggerSource
  targetStrategyID : Option String
  targetStrategyVersion : Option String
  deriving DecidableEq, Repr

abbrev Runs := SerialTable Run

/-- A row that `InsertBatchRunLog` or `StartReembedRun` inserts. -/
def Run.opened (ns : String) (startedAt : ℤ) (trigger : TriggerSource)
    (targetStrategyID targetStrategyVersion : Option String) : Run where
  ns := ns
  startedAt := startedAt
  completedAt := none
  durationMs := none
  entitiesProcessed := 0
  success := false
  errorMessage := none
  trigger := trigger
  targetStrategyID := targetStrategyID
  targetStrategyVersion := targetStrategyVersion

/-- The watcher's view of an open run. -/
structure ReembedRun where
  id : ℕ
  ns : String
  targetStrategyID : String
  targetStrategyVersion : String
  startedAt : ℤ
  deriving DecidableEq, Repr

def listOpenReembedRuns (runs : Runs) : List ReembedRun :=
  (runs.selectWhere fun _ run => run.trigger = .reembed && run.completedAt.isNone).map
    fun (id, run) =>
      ⟨id, run.ns, run.targetStrategyID.getD "", run.targetStrategyVersion.getD "", run.startedAt⟩

variable {η : Type}

section Counts

/-- The `WHERE` of `CountStaleCatalogItems`. -/
def stale (ns targetStrategyID targetStrategyVersion : String) (row : Row η) : Bool :=
  row.ns = ns && row.state ∈ [.pending, .inFlight, .failed] &&
    !row.under targetStrategyID targetStrategyVersion

def countStaleCatalogItems (ns targetStrategyID targetStrategyVersion : String) (t : Items η) : ℕ :=
  (t.selectWhere fun _ => stale ns targetStrategyID targetStrategyVersion).length

def countEmbeddedCatalogItems (ns targetStrategyID targetStrategyVersion : String)
    (t : Items η) : ℕ :=
  (t.selectWhere fun _ row => row.ns = ns && row.state = .embedded &&
    row.under targetStrategyID targetStrategyVersion).length

end Counts

/-! ### The processes -/

/-- The store call that a tick of the watcher makes next, and the runs it has still to look at. -/
inductive WatchPc where
  | listOpenReembedRuns
  | countStale (runs : List ReembedRun)
  | countEmbedded (run : ReembedRun) (stale : ℕ) (rest : List ReembedRun)
  | completeReembedRun (run : ReembedRun) (processed : ℕ) (rest : List ReembedRun)
  deriving DecidableEq, Repr

structure WatchReply where
  o : Outcome
  /-- Whether `WithWriter` admits the completion. -/
  lease : Bool
  now : ℤ

/-- The statement on `batch_run_logs` that `runOnce` of the cron makes next, and the namespaces it
has still to run. -/
inductive JobPc where
  | finalizeOrphanRuns
  | getScheduledNamespaces
  | insertBatchRunLog (namespaces : List String)
  | updateBatchRunLog (id : ℕ) (startedAt : ℤ) (rest : List String)
  deriving DecidableEq, Repr

structure JobReply where
  o : Outcome
  now : ℤ
  dbNow : ℤ
  /-- Whether the lease and the compute lock of the namespace are had. -/
  locked : Bool
  namespaces : List String
  /-- How the phases of the run end. -/
  subjects : ℕ
  success : Bool
  errMsg : String

/-- `orphanRunCutoff`, in milliseconds. -/
def orphanRunCutoff : ℤ := 90 * 60 * 1000

def orphanedRunMessage : String := "orphaned by process restart"

/-! ### The scene -/

structure Scene (η : Type) where
  items : Items η
  runs : Runs
  watchers : Table ℕ WatchPc
  jobs : Table ℕ JobPc
  /-- A run and a row that it reset and that still waits for it. -/
  waiting : List (ℕ × ℕ)
  /-- Each closing of a re-embed run, with the rows that waited for it then. -/
  closings : List (ℕ × List ℕ)

namespace Scene

def waitingFor (s : Scene η) (r : ℕ) : List ℕ :=
  (s.waiting.filter fun x => x.1 = r).map Prod.snd

/-- `UPDATE batch_run_logs SET completed_at = …, … WHERE p`. -/
def close (p : ℕ → Run → Bool) (f : Run → Run) (s : Scene η) : Scene η :=
  { s with
    runs := s.runs.updateWhere p f
    closings := s.closings ++
      (s.runs.selectWhere fun id run => p id run && run.trigger = .reembed).map
        fun x => (x.1, s.waitingFor x.1) }

def completeReembedRun (id processed : ℕ) (completedAt durationMs : ℤ) : Scene η → Scene η :=
  close (fun k run => k = id && run.trigger = .reembed && run.completedAt.isNone) fun run =>
    { run with
      completedAt := some completedAt, durationMs := some durationMs,
      entitiesProcessed := processed, success := true, errorMessage := none }

def finalizeOrphanRuns (cutoff dbNow : ℤ) : Scene η → Scene η :=
  close (fun _ run => run.completedAt.isNone && run.startedAt < cutoff) fun run =>
    { run with
      completedAt := some dbNow, durationMs := some (dbNow - run.startedAt),
      success := false, errorMessage := some orphanedRunMessage }

/-- This one looks at the id only. -/
def updateBatchRunLog (id : ℕ) (completedAt durationMs : ℤ) (processed : ℕ) (success : Bool)
    (errMsg : String) : Scene η → Scene η :=
  close (fun k _ => k = id) fun run =>
    { run with
      completedAt := some completedAt, durationMs := some durationMs,
      entitiesProcessed := processed, success := success,
      errorMessage := if errMsg = "" then none else some errMsg }

/-- The transaction of `StartReembedRun`. -/
def startReembedRun (ns strategyID strategyVersion : String) (onlyState : OnlyState)
    (startedAt now : ℤ) (s : Scene η) : Scene η :=
  { s with
    runs := s.runs.insert (.opened ns startedAt .reembed (some strategyID) (some strategyVersion))
    items := reembedReset ns strategyID strategyVersion onlyState now s.items
    waiting := s.waiting ++
      (s.items.selectWhere fun _ => resets ns strategyID strategyVersion onlyState).map
        fun x => (s.runs.next, x.1) }

end Scene

/-- One step of a tick of the watcher; `none` once it has ended. -/
def watchStep (s : Scene η) (r : WatchReply) : WatchPc → Option (Scene η × WatchPc)
  | .listOpenReembedRuns =>
    some (s, .countStale (if r.o.error.isNone then listOpenReembedRuns s.runs else []))
  | .countStale [] => none
  | .countStale (run :: rest) =>
    if r.o.error.isNone then
      some (s, .countEmbedded run (countStaleCatalogItems run.ns run.targetStrategyID
        run.targetStrategyVersion s.items) rest)
    else some (s, .countStale rest)
  | .countEmbedded run stale rest =>
    let processed :=
      if r.o.error.isNone then
        countEmbeddedCatalogItems run.ns run.targetStrategyID run.targetStrategyVersion s.items
      else 0
    if stale > 0 then some (s, .countStale rest)
    else some (s, .completeReembedRun run processed rest)
  | .completeReembedRun run processed rest =>
    match r.lease, r.o with
    | false, _ | true, .fail _ => some (s, .countStale rest)
    | true, .ok | true, .lost _ =>
      some (s.completeReembedRun run.id processed r.now (r.now - run.startedAt), .countStale rest)

/-- One step of `runOnce`, as far as it writes `batch_run_logs`. -/
def jobStep (s : Scene η) (r : JobReply) : JobPc → Option (Scene η × JobPc)
  | .finalizeOrphanRuns =>
    match r.o with
    | .fail _ => some (s, .getScheduledNamespaces)
    | .ok | .lost _ =>
      some (s.finalizeOrphanRuns (r.now - orphanRunCutoff) r.dbNow, .getScheduledNamespaces)
  | .getScheduledNamespaces =>
    some (s, .insertBatchRunLog (if r.o.error.isNone then r.namespaces else []))
  | .insertBatchRunLog [] => none
  | .insertBatchRunLog (ns :: rest) =>
    let s' := { s with runs := s.runs.insert (.opened ns r.now .cron none none) }
    match r.locked, r.o with
    | false, _ | true, .fail _ => some (s, .insertBatchRunLog rest)
    | true, .ok => some (s', .updateBatchRunLog s.runs.next r.now rest)
    -- without an id the run is not finalized
    | true, .lost _ => some (s', .insertBatchRunLog rest)
  | .updateBatchRunLog id startedAt rest =>
    match r.o with
    | .fail _ => some (s, .insertBatchRunLog rest)
    | .ok | .lost _ =>
      some (s.updateBatchRunLog id r.now (r.now - startedAt) r.subjects r.success r.errMsg,
        .insertBatchRunLog rest)

inductive Action (η : Type) where
  | item (stmt : Stmt η)
  | startReembedRun (ns strategyID strategyVersion : String) (onlyState : OnlyState)
      (startedAt now : ℤ)
  /-- The namespace is deleted, its rows of both tables with it. -/
  | deleteNamespace (ns : String)
  /-- The retention job. -/
  | pruneBatchRunLogs (cutoff : ℤ)
  | tick (w : ℕ)
  | watch (w : ℕ) (r : WatchReply)
  | stopWatcher (w : ℕ)
  | runOnce (j : ℕ)
  | job (j : ℕ) (r : JobReply)
  | stopJob (j : ℕ)

section Step

variable [DecidableEq η] (contentHash : String → η)

/-- The statement ends the wait of row `i` for run `r`: the row is embedded under the target of
the run, dead-lettered, deleted, or made pending again by a re-ingest. -/
def settles (s : Scene η) : Stmt η → ℕ → ℕ → Bool
  | .markEmbedded id strategyID strategyVersion hash _, r, i =>
    i = id && (s.items.lookup i).any (fun row => row.contentHash = hash) &&
      (s.runs.lookup r).any fun run => run.targetStrategyID = some strategyID &&
        run.targetStrategyVersion = some strategyVersion
  | .markDeadLetter id _ _, _, i => i = id
  | .deleteCatalogItem ns id, _, i => i = id && (s.items.lookup i).any fun row => row.ns = ns
  | .upsert ns objectID content _, _, i =>
    (s.items.lookup i).any fun row => row.ns = ns && row.objectID = objectID &&
      row.contentHash ≠ contentHash content
  | _, _, _ => false

def step (s : Scene η) : Action η → Option (Scene η)
  | .item stmt =>
    some { s with
      items := stmt.run contentHash s.items
      waiting := s.waiting.filter fun x => !settles contentHash s stmt x.1 x.2 }
  | .startReembedRun ns strategyID strategyVersion onlyState startedAt now =>
    some (s.startReembedRun ns strategyID strategyVersion onlyState startedAt now)
  | .deleteNamespace ns =>
    let items := s.items.deleteWhere fun _ row => row.ns = ns
    some { s with
      items := items
      runs := s.runs.deleteWhere fun _ run => run.ns = ns
      waiting := s.waiting.filter fun x => (items.lookup x.2).isSome }
  | .pruneBatchRunLogs cutoff =>
    some { s with runs := s.runs.deleteWhere fun _ run => run.startedAt < cutoff }
  | .tick w =>
    if (s.watchers.lookup w).isNone then
      some { s with watchers := s.watchers.insert w .listOpenReembedRuns }
    else none
  | .watch w r =>
    (s.watchers.lookup w).bind fun pc => (watchStep s r pc).map fun (s', pc') =>
      { s' with watchers := s'.watchers.insert w pc' }
  | .stopWatcher w => some { s with watchers := s.watchers.erase w }
  | .runOnce j =>
    if (s.jobs.lookup j).isNone then
      some { s with jobs := s.jobs.insert j .finalizeOrphanRuns }
    else none
  | .job j r =>
    (s.jobs.lookup j).bind fun pc => (jobStep s r pc).map fun (s', pc') =>
      { s' with jobs := s'.jobs.insert j pc' }
  | .stopJob j => some { s with jobs := s.jobs.erase j }

end Step

/-- The row that an embedder writes as embedded waits for no open run with another target, and
no re-embed run is open for longer than the cutoff when the cron closes its orphans. -/
def Timely [DecidableEq η] (s : Scene η) : Action η → Prop
  | .item (.markEmbedded id strategyID strategyVersion hash _) =>
    ∀ row, s.items.lookup id = some row → row.contentHash = hash →
      ∀ r run, (r, id) ∈ s.waiting → s.runs.lookup r = some run → run.completedAt = none →
        run.targetStrategyID = some strategyID ∧ run.targetStrategyVersion = some strategyVersion
  | .job j r =>
    s.jobs.lookup j = some .finalizeOrphanRuns → (∀ text, r.o ≠ .fail text) →
      ∀ id run, s.runs.lookup id = some run → run.trigger = .reembed → run.completedAt = none →
        r.now - orphanRunCutoff ≤ run.startedAt
  | _ => True

/-- Before the first run. -/
def fresh (items : Items η) : Scene η := ⟨items, .empty, ∅, ∅, [], []⟩

end Codohue.Reembed
