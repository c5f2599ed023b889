import Codohue.Lifecycle
import Codohue.LockTable
import Codohue.Transition

/-!
The lifecycle service as a system of processes: any number of calls of `WithWriter`,
`WithNamespaceExclusive`, `Activate` and `WithGlobalExclusive` over one database, one
statement at a time.

A call owns one session of the lock pool from its first lock to its return. Every statement
may succeed, fail without an effect, or take effect with its reply lost; a lock statement
only succeeds once the server grants it. A crash ends the calls and the sessions of a
process. The callbacks are the ones the repository passes: the body of a writer is left
open (it may re-enter `WithWriter` and write the configuration), the exclusive callback is
the one of `DeleteNamespace`, and the global ones are those of `ResetApp`,
`DisableLegacyEnvelopes` and the id-mapping repair.
-/

namespace Codohue.Coordinator

open Lifecycle LockTable

/-! ### Locks -/

/-- A session of the lock pool of one process. -/
structure Session where
  proc : ℕ
  conn : ℕ
  deriving DecidableEq, Repr

/-- FNV-1a, 64 bits. -/
def fnv64a (bytes : List UInt8) : UInt64 :=
  bytes.foldl (fun hash b => (hash ^^^ b.toUInt64) * 1099511628211) 14695981039346656037

/-- The advisory lock of a name, before it is read as a signed number. -/
def lockKey (name : String) : UInt64 := fnv64a ("codohue:nslifecycle:" ++ name).toUTF8.toList

structure HeldKey where
  key : UInt64
  mode : Mode
  deriving DecidableEq, Repr

def globalLock (mode : Mode) : HeldKey := ⟨lockKey "global", mode⟩

def namespaceLock (ns : String) (mode : Mode) : HeldKey := ⟨lockKey ("namespace:" ++ ns), mode⟩

/-! ### Calls -/

inductive GlobalCallback where
  | resetApp
  | disableLegacy (adoptionEvidence : String)
  /-- Repair runs under the fence and issues no lifecycle statement. -/
  | repair
  deriving DecidableEq, Repr

inductive Op where
  | withWriter (ns : String)
  | withNamespaceExclusive (ns : String)
  | activate (ns : String)
  | withGlobalExclusive (callback : GlobalCallback)
  deriving DecidableEq, Repr

/-- The lock statements of a call, in their order: global before namespace. -/
def Op.wants : Op → List HeldKey
  | .withWriter ns => [globalLock .shared, namespaceLock ns .shared]
  | .withNamespaceExclusive ns => [globalLock .shared, namespaceLock ns .exclusive]
  | .activate ns => [globalLock .shared, namespaceLock ns .exclusive]
  | .withGlobalExclusive _ => [globalLock .exclusive]

/-- Where the callback of `DeleteNamespace` stands. -/
inductive DeletePc where
  | startDelete (current : NamespaceLifecycle)
  | cleanup (generation : ℤ)
  | completeDelete (generation : ℤ)
  | recordError (generation : ℤ) (message : String) (err : Error)
  deriving DecidableEq, Repr

/-- Where a global callback stands. -/
inductive GlobalPc where
  | startReset
  | listNonDeleted
  | fence (todo : List String) (fenced : List (String × ℤ))
  | wipe (fenced : List (String × ℤ))
  | verifyAbsent (todo : List (String × ℤ))
  | completeDelete (ns : String) (generation : ℤ) (todo : List (String × ℤ))
  | completeReset
  | recordError (err : Error)
  | disableLegacy (adoptionEvidence : String)
  | repair
  deriving DecidableEq, Repr

/-- Where a call stands. `writing g received` runs a writer callback under the lease of
generation `g`; `received` lists the generations handed to it and to the callbacks of the
`WithWriter` calls that it made in turn, innermost first. -/
inductive Pc where
  | locking (todo : List HeldKey)
  | getSystem
  | getNamespace
  | activating
  | writing (lease : ℤ) (received : List ℤ)
  | deleting (pc : DeletePc)
  | global (pc : GlobalPc)
  | releasing (todo : List HeldKey) (err : Option Error)
  | returned (err : Option Error)
  deriving DecidableEq, Repr

structure Task where
  session : Session
  op : Op
  held : List HeldKey
  pc : Pc
  deriving DecidableEq, Repr

def Task.goto (k : Task) (pc : Pc) : Task := { k with pc := pc }

/-- The call returns `err`: the deferred release runs first, in reverse order. -/
def Task.finish (k : Task) (err : Option Error) : Task :=
  k.goto (.releasing k.held.reverse err)

/-! ### Statements -/

inductive Outcome where
  | ok
  /-- An error, and no effect. -/
  | fail (text : String)
  /-- An error although the statement took effect. -/
  | lost (text : String)
  deriving DecidableEq, Repr

/-- A statement of the repository, whose driver errors it wraps in `context`. -/
def Outcome.run {α : Type} (o : Outcome) (context : String) (db : Store)
    (stmt : Except Error (Store × α)) : Store × Except Error α :=
  match o, stmt with
  | .ok, .ok (db', a) => (db', .ok a)
  | .ok, .error err => (db, .error err)
  | .fail text, _ => (db, .error (.wrap context (.external text)))
  | .lost text, .ok (db', _) => (db', .error (.wrap context (.external text)))
  | .lost text, .error _ => (db, .error (.wrap context (.external text)))

/-- A read, or work outside the lifecycle tables: a lost reply is a failure. -/
def Outcome.error : Outcome → Option Error
  | .ok => none
  | .fail text => some (.external text)
  | .lost text => some (.external text)

/-- The callback of `DeleteNamespace`. -/
def deleteStep (db : Store) (k : Task) (ns : String) (o : Outcome) : DeletePc → Store × Task
  | .startDelete current =>
    if current.state = .deleted then (db, k.finish none)
    else
      match o.run "start namespace deletion" db (startDelete db ns) with
      | (db', .ok deleting) => (db', k.goto (.deleting (.cleanup deleting.generation)))
      | (db', .error err) => (db', k.finish (some (.wrap "persist namespace deletion" err)))
  | .cleanup generation =>
    match o.error with
    | none => (db, k.goto (.deleting (.completeDelete generation)))
    | some err => (db, k.goto (.deleting (.recordError generation err.message err)))
  | .completeDelete generation =>
    match o.run "complete namespace deletion" db
        ((completeDelete db ns generation).map fun db' => (db', ())) with
    | (db', .ok ()) => (db', k.finish none)
    | (db', .error err) =>
      (db', k.goto (.deleting
        (.recordError generation err.message (.wrap "complete namespace deletion" err))))
  | .recordError generation message err =>
    let recorded := o.run "record namespace lifecycle error" db
      (.ok (recordNamespaceError db ns generation message, ()))
    (recorded.1, k.finish (some err))

/-- The callbacks that run under the global lock. -/
def globalStep (db : Store) (k : Task) (o : Outcome) : GlobalPc → Store × Task
  | .startReset =>
    match o.run "start system reset" db (.ok (startReset db, ())) with
    | (db', .ok ()) => (db', k.goto (.global .listNonDeleted))
    | (db', .error err) => (db', k.finish (some (.wrap "persist system reset" err)))
  | .listNonDeleted =>
    match o.error with
    | none => (db, k.goto (.global (.fence ((listNonDeleted db).map Prod.fst) [])))
    | some err => (db, k.goto (.global (.recordError (.wrap "list reset lifecycles" err))))
  | .fence [] fenced => (db, k.goto (.global (.wipe fenced)))
  | .fence (ns :: todo) fenced =>
    match o.run "start namespace deletion" db (startDelete db ns) with
    | (db', .ok deleting) =>
      (db', k.goto (.global (.fence todo (fenced ++ [(ns, deleting.generation)]))))
    | (db', .error err) =>
      (db', k.goto (.global (.recordError (.wrap ("fence namespace " ++ ns ++ " for reset") err))))
  | .wipe fenced =>
    match o.error with
    | none => (db, k.goto (.global (.verifyAbsent fenced)))
    | some err => (db, k.goto (.global (.recordError err)))
  | .verifyAbsent [] => (db, k.goto (.global .completeReset))
  | .verifyAbsent ((ns, generation) :: todo) =>
    match o.error with
    | none => (db, k.goto (.global (.completeDelete ns generation todo)))
    | some err => (db, k.goto (.global (.recordError err)))
  | .completeDelete ns generation todo =>
    match o.run "complete namespace deletion" db
        ((completeDelete db ns generation).map fun db' => (db', ())) with
    | (db', .ok ()) => (db', k.goto (.global (.verifyAbsent todo)))
    | (db', .error err) =>
      (db', k.goto (.global (.recordError (.wrap ("complete reset deletion for " ++ ns) err))))
  | .completeReset =>
    match o.run "complete system reset" db (.ok (completeReset db, ())) with
    | (db', .ok ()) => (db', k.finish none)
    | (db', .error err) =>
      (db', k.goto (.global (.recordError (.wrap "complete system reset" err))))
  | .recordError err =>
    let recorded := o.run "record system reset error" db (.ok (recordResetError db err.message, ()))
    (recorded.1, k.finish (some err))
  | .disableLegacy adoptionEvidence =>
    match o.run "disable legacy envelopes" db (disableLegacy db adoptionEvidence) with
    | (db', .ok _) => (db', k.finish none)
    | (db', .error err) => (db', k.finish (some err))
  | .repair => (db, k.finish o.error)

def GlobalCallback.entry : GlobalCallback → GlobalPc
  | .resetApp => .startReset
  | .disableLegacy adoptionEvidence => .disableLegacy adoptionEvidence
  | .repair => .repair

/-- After `GetSystem`: every call but the global one passes the reset gate. -/
def getSystemStep (db : Store) (k : Task) (o : Outcome) : Task :=
  match o.error, k.op with
  | some err, .withWriter _ =>
    k.finish (some (.wrap "read system lifecycle after lock" (.wrap "get system lifecycle" err)))
  | some err, _ => k.finish (some (.wrap "get system lifecycle" err))
  | none, .withGlobalExclusive callback => k.goto (.global callback.entry)
  | none, .activate _ =>
    if db.system.state ≠ .active then k.finish (some .systemResetting) else k.goto .activating
  | none, _ =>
    if db.system.state ≠ .active then k.finish (some .systemResetting) else k.goto .getNamespace

/-- After `GetNamespace`: a writer needs an active row, an exclusive callback any row. -/
def getNamespaceStep (db : Store) (k : Task) (o : Outcome) : Option Task :=
  match o.error, k.op with
  | some err, _ => some (k.finish (some (.wrap "get namespace lifecycle" err)))
  | none, .withWriter ns =>
    match getNamespace db ns with
    | .error err => some (k.finish (some err))
    | .ok lifecycle =>
      if lifecycle.state ≠ .active then some (k.finish (some .namespaceNotActive))
      else some (k.goto (.writing lifecycle.generation [lifecycle.generation]))
  | none, .withNamespaceExclusive ns =>
    match getNamespace db ns with
    | .error err => some (k.finish (some err))
    | .ok lifecycle => some (k.goto (.deleting (.startDelete lifecycle)))
  | none, _ => none

def activateStep (db : Store) (k : Task) (ns : String) (o : Outcome) : Store × Task :=
  match o.run "activate namespace lifecycle" db (activate db ns) with
  | (db', .ok _) => (db', k.finish none)
  | (db', .error err) => (db', k.finish (some err))

/-- The next statement of a call that has its locks. -/
def Task.step (db : Store) (k : Task) (o : Outcome) : Option (Store × Task) :=
  match k.pc, k.op with
  | .getSystem, _ => some (db, getSystemStep db k o)
  | .getNamespace, _ => (getNamespaceStep db k o).map fun k' => (db, k')
  | .activating, .activate ns => some (activateStep db k ns o)
  | .deleting pc, .withNamespaceExclusive ns => some (deleteStep db k ns o pc)
  | .global pc, .withGlobalExclusive _ => some (globalStep db k o pc)
  | _, _ => none

/-! ### The system -/

structure Sys where
  db : Store
  locks : Locks Session UInt64
  /-- The call that has borrowed a session from its pool. -/
  owner : Session → Option ℕ
  tasks : ℕ → Option Task

def boot (db : Store) : Sys := ⟨db, LockTable.empty, fun _ => none, fun _ => none⟩

inductive Action where
  | start (t : ℕ) (session : Session) (op : Op)
  /-- The next statement of call `t`. -/
  | advance (t : ℕ) (o : Outcome)
  /-- The running writer callback calls `WithWriter` for its own namespace. -/
  | reenter (t : ℕ)
  /-- The running writer callback writes the configuration of its namespace. -/
  | upsertConfig (t : ℕ) (o : Outcome)
  /-- The innermost writer callback returns. -/
  | finish (t : ℕ) (err : Option Error)
  | crash (proc : ℕ)
  deriving DecidableEq, Repr

def Task.grant (k : Task) (w : HeldKey) : Grant Session UInt64 := ⟨k.session, w.key, w.mode⟩

def Sys.put (s : Sys) (t : ℕ) (k : Task) : Sys :=
  { s with tasks := Function.update s.tasks t (some k) }

/-- A failed release is only logged by a writer; the other calls return it as well. -/
def releaseError (op : Op) (err : Option Error) (text : String) : Option Error :=
  match op, err with
  | .withWriter _, err => err
  | _, none => some (.external text)
  | _, some err => some (.join err (.external text))

def lockStep (s : Sys) (t : ℕ) (k : Task) (w : HeldKey) (rest : List HeldKey) :
    Outcome → Option Sys
  | .ok =>
    (acquire s.locks (k.grant w)).map fun locks =>
      { s.put t { k with held := k.held ++ [w], pc := .locking rest } with locks := locks }
  | .fail text => some (s.put t (k.finish (some (.external text))))
  | .lost text =>
    -- the connection goes back to the pool with the lock still on it
    (acquire s.locks (k.grant w)).map fun locks =>
      { s.put t (k.finish (some (.external text))) with locks := locks }

def unlockStep (s : Sys) (t : ℕ) (k : Task) (w : HeldKey) (rest : List HeldKey)
    (err : Option Error) : Outcome → Sys
  | .ok =>
    { s.put t (k.goto (.releasing rest err)) with locks := release s.locks (k.grant w) }
  | .fail text => s.put t (k.goto (.releasing rest (releaseError k.op err text)))
  | .lost text =>
    { s.put t (k.goto (.releasing rest (releaseError k.op err text))) with
      locks := release s.locks (k.grant w) }

def advance (s : Sys) (t : ℕ) (k : Task) (o : Outcome) : Option Sys :=
  match k.pc with
  | .locking [] => some (s.put t (k.goto .getSystem))
  | .locking (w :: rest) => lockStep s t k w rest o
  | .releasing (w :: rest) err => some (unlockStep s t k w rest err o)
  | .releasing [] err =>
    some { s.put t (k.goto (.returned err)) with
      owner := Function.update s.owner k.session none }
  | _ => (k.step s.db o).map fun r => { s.put t r.2 with db := r.1 }

def Op.entry (op : Op) : Pc :=
  match op with
  | .withGlobalExclusive (.disableLegacy adoptionEvidence) =>
    if adoptionEvidence = "" then .releasing [] (some .adoptionEvidence) else .locking op.wants
  | _ => .locking op.wants

def step (s : Sys) : Action → Option Sys
  | .start t session op =>
    if (s.tasks t).isNone ∧ (s.owner session).isNone then
      some { s.put t ⟨session, op, [], op.entry⟩ with
        owner := Function.update s.owner session (some t) }
    else none
  | .advance t o => (s.tasks t).bind fun k => advance s t k o
  | .reenter t =>
    (s.tasks t).bind fun k =>
      match k.pc with
      | .writing lease received => some (s.put t (k.goto (.writing lease (lease :: received))))
      | _ => none
  | .upsertConfig t o =>
    (s.tasks t).bind fun k =>
      match k.pc, k.op with
      | .writing _ _, .withWriter ns =>
        some { s with db := (o.run "create namespace config" s.db
          (.ok (upsertConfig s.db ns, ()))).1 }
      | _, _ => none
  | .finish t err =>
    (s.tasks t).bind fun k =>
      match k.pc with
      | .writing lease (_ :: outer :: received) =>
        some (s.put t (k.goto (.writing lease (outer :: received))))
      | .writing _ _ => some (s.put t (k.finish err))
      | _ => none
  | .crash proc =>
    some { s with
        locks := drop s.locks fun session => session.proc = proc
        owner := fun session => if session.proc = proc then none else s.owner session
        tasks := fun t => (s.tasks t).filter fun k => k.session.proc ≠ proc }

end Codohue.Coordinator
