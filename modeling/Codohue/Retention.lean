import Codohue.RedisStream
import Codohue.Service
import Codohue.Text

/-!
One retention pass over a stream.

The pass lists the consumer groups, takes from each of them the id below which the group needs
nothing any more, and trims the stream below the least of these ids. It trims nothing unless
every answer on the way was good. The groups keep moving between two of its calls.
-/

namespace Codohue.Retention

open Redis Service Text

/-! ### Stream ids as text -/

/-- The rest of `strconv.ParseUint(text, 10, 64)`, with `n` read so far. -/
def parseUintFrom (text : String) (n : Fin (2 ^ 64)) : List Char → Except String (Fin (2 ^ 64))
  | [] => .ok n
  | c :: cs =>
    if c.isDigit then
      if h : 10 * n.val + (c.toNat - '0'.toNat) < 2 ^ 64 then
        parseUintFrom text ⟨10 * n.val + (c.toNat - '0'.toNat), h⟩ cs
      else .error ("strconv.ParseUint: parsing " ++ quote text ++ ": value out of range")
    else .error ("strconv.ParseUint: parsing " ++ quote text ++ ": invalid syntax")

def parseUint (text : String) : Except String (Fin (2 ^ 64)) :=
  if text = "" then .error ("strconv.ParseUint: parsing " ++ quote text ++ ": invalid syntax")
  else parseUintFrom text 0 text.toList

/-- `strings.Cut(text, "-")`. -/
def cutDash (text : String) : Option (String × String) :=
  match text.toList.dropWhile (· ≠ '-') with
  | [] => none
  | _ :: after => some (String.ofList (text.toList.takeWhile (· ≠ '-')), String.ofList after)

def malformed (id : String) : String := "malformed stream ID " ++ quote id

def parseStreamID (id : String) : Except String StreamID :=
  match cutDash id with
  | none => .error (malformed id)
  | some (milliseconds, sequence) =>
    if milliseconds = "" ∨ sequence = "" then .error (malformed id)
    else do
      let ms ← (parseUint milliseconds).mapError fun e => malformed id ++ ": " ++ e
      let seq ← (parseUint sequence).mapError fun e => malformed id ++ ": " ++ e
      .ok ⟨ms, seq⟩

def compareStreamIDs (a b : String) : Except String ℤ := do
  let x ← parseStreamID a
  let y ← parseStreamID b
  if x.ms < y.ms ∨ (x.ms = y.ms ∧ x.seq < y.seq) then .ok (-1)
  else if x.ms = y.ms ∧ x.seq = y.seq then .ok 0
  else .ok 1

/-! ### The backend -/

structure StreamSpec where
  name : String
  kind : String
  expectedGroups : List String

structure RetentionGroup where
  name : String
  pending : ℤ
  lastDeliveredID : String
  lag : ℤ
  deriving DecidableEq, Repr

structure RetentionPending where
  count : ℤ
  oldestID : String
  deriving DecidableEq, Repr

inductive BackendCall where
  | groups (stream : String)
  | pending (stream group : String)
  | length (stream : String)
  | trimMinID (stream frontier : String)
  deriving DecidableEq, Repr

def Value : BackendCall → Type
  | .groups _ => List RetentionGroup
  | .pending _ _ => RetentionPending
  | .length _ | .trimMinID _ _ => ℤ

abbrev Answer (c : BackendCall) : Type := Except String (Value c)

/-! ### The pass -/

inductive Stage where
  | groups
  | pel
  | frontier
  | length
  | trim
  deriving DecidableEq, Repr

structure RetentionError where
  stage : Stage
  err : String
  deriving DecidableEq, Repr

structure RetentionResult where
  safeFrontier : String
  length : ℤ
  pending : ℤ
  undelivered : ℤ
  unexpectedGroups : ℕ
  trimmed : ℤ
  dryRun : Bool
  deriving DecidableEq, Repr

/-- Programs of the retention. -/
abbrev RetentionM (α : Type) := Program BackendCall Answer RetentionError α

/-- A call of the backend, whose failure ends the pass at this stage. -/
def request (stage : Stage) (context : String) (c : BackendCall) : RetentionM (Value c) := do
  let answer ← Program.ask c
  Program.ofExcept (answer.mapError fun e => ⟨stage, context ++ e⟩)

/-- The id up to which the group is done, and how many of its entries are pending. -/
def candidate (spec : StreamSpec) (group : RetentionGroup) : RetentionM (String × ℤ) :=
  if 0 < group.pending then do
    let pending : RetentionPending ← request .pel ("group " ++ quote group.name ++ ": ")
      (.pending spec.name group.name)
    Program.require (pending.count = group.pending ∧ 0 < pending.count ∧ pending.oldestID ≠ "")
      ⟨.frontier, "group " ++ quote group.name ++ " has contradictory PEL summary"⟩
    pure (pending.oldestID, pending.count)
  else pure (group.lastDeliveredID, 0)

/-- The lower of the two ids. -/
def lowerFrontier (frontier candidate : String) : Except String String :=
  if frontier = "" then .ok candidate
  else do
    let order ← compareStreamIDs candidate frontier
    .ok (if order < 0 then candidate else frontier)

/-- What the loop over the groups carries. -/
structure Pass where
  frontier : String
  result : RetentionResult

def inspectGroup (spec : StreamSpec) (pass : Pass) (group : RetentionGroup) :
    RetentionM Pass := do
  Program.require (0 ≤ group.pending)
    ⟨.frontier, "group " ++ quote group.name ++ " has negative pending count"⟩
  let (id, count) ← candidate spec group
  let _ ← Program.ofExcept ((parseStreamID id).mapError fun e =>
    (⟨.frontier, "group " ++ quote group.name ++ ": " ++ e⟩ : RetentionError))
  let frontier ← Program.ofExcept ((lowerFrontier pass.frontier id).mapError fun e =>
    (⟨.frontier, e⟩ : RetentionError))
  pure
    { frontier := frontier
      result := { pass.result with
        pending := pass.result.pending + count
        undelivered := max group.lag pass.result.undelivered
        unexpectedGroups := pass.result.unexpectedGroups +
          if group.name ∈ spec.expectedGroups then 0 else 1 } }

def inspectGroups (spec : StreamSpec) : List RetentionGroup → Pass → RetentionM Pass
  | [], pass => pure pass
  | group :: groups, pass => do
    let pass ← inspectGroup spec pass group
    inspectGroups spec groups pass

/-- An expected group that was not listed. -/
def missingGroup (spec : StreamSpec) (groups : List RetentionGroup) : Option String :=
  spec.expectedGroups.find? fun name => groups.all fun group => group.name ≠ name

def runOnce (dryRun : Bool) (spec : StreamSpec) : RetentionM RetentionResult := do
  Program.require (spec.name ≠ "" ∧ spec.kind ≠ "" ∧ spec.expectedGroups ≠ [])
    ⟨.groups, "stream name, kind, and expected groups are required"⟩
  let groups : List RetentionGroup ← request .groups "" (.groups spec.name)
  Program.require (groups ≠ []) ⟨.groups, "stream has no consumer groups"⟩
  let pass ← inspectGroups spec groups ⟨"", ⟨"", 0, 0, 0, 0, 0, dryRun⟩⟩
  Program.require (missingGroup spec groups = none)
    ⟨.groups, "expected consumer group " ++ quote ((missingGroup spec groups).getD "") ++
      " is missing"⟩
  let length : ℤ ← request .length "" (.length spec.name)
  let result := { pass.result with safeFrontier := pass.frontier, length := length }
  if dryRun then pure result
  else do
    let trimmed : ℤ ← request .trim "" (.trimMinID spec.name pass.frontier)
    pure { result with trimmed := trimmed }

/-! ### The backend over Redis -/

def listGroup (st : Stream) (name : String) (g : ConsumerGroup) : RetentionGroup where
  name := name
  pending := g.pending.length
  lastDeliveredID := g.lastDelivered.text
  lag := (st.entries.filter fun id => g.lastDelivered < id).length

/-- The answer of Redis, and what the call leaves. -/
def answer (s : Server) : (c : BackendCall) → Answer c × Server
  | .groups stream =>
    (match s.lookup stream with
      | none => .error ("xinfo groups " ++ stream ++ ": ERR no such key")
      | some st => .ok (st.groups.entries.map fun e => listGroup st e.1 e.2), s)
  | .pending stream group =>
    (match (s.lookup stream).bind fun st => st.groups.lookup group with
      | none => .error ("xpending " ++ stream ++ "/" ++ group ++ ": NOGROUP")
      | some g => .ok (⟨g.pending.length, g.pending.head?.elim "" (·.id.text)⟩ : RetentionPending),
      s)
  | .length stream => (.ok ((s.lookup stream).elim (0 : ℤ) fun st => (st.entries.length : ℤ)), s)
  | .trimMinID stream frontier =>
    match s.lookup stream, parseStreamID frontier with
    | _, .error _ =>
      (.error ("xtrim minid " ++ stream ++ " " ++ frontier ++ ": ERR Invalid stream ID"), s)
    | none, .ok _ => (.ok (0 : ℤ), s)
    | some st, .ok bound =>
      (.ok ((st.entries.length - (st.trim bound).entries.length : ℕ) : ℤ),
        s.insert stream (st.trim bound))

/-- An answer that Redis did not give. -/
inductive Forged where
  | groups (groups : List RetentionGroup)
  | pending (pending : RetentionPending)
  | number (n : ℤ)

def Forged.value : Forged → (c : BackendCall) → Option (Value c)
  | .groups gs, .groups _ => some gs
  | .pending p, .pending _ _ => some p
  | .number n, .length _ => some n
  | .number n, .trimMinID _ _ => some n
  | _, _ => none

/-- How a call turns out. -/
inductive Outcome where
  | answered
  /-- The command is not executed. -/
  | refused (e : String)
  /-- The command is executed, and its answer is lost. -/
  | lost (e : String)
  /-- The command is executed, and something else arrives for its answer. -/
  | forged (f : Forged)

/-- The server, what the pass has asked so far and was told, with the server as it stood at the
call, and whether Redis gave all the answers. -/
structure Scene where
  server : Server
  seen : List (Server × Σ c, Answer c)
  faithful : Bool

def serve (c : BackendCall) (s : Scene) : Outcome → Option (Answer c × Scene)
  | .answered =>
    let r := answer s.server c
    some (r.1, ⟨r.2, s.seen ++ [(s.server, ⟨c, r.1⟩)], s.faithful⟩)
  | .refused e => some (.error e, ⟨s.server, s.seen ++ [(s.server, ⟨c, .error e⟩)], s.faithful⟩)
  | .lost e =>
    some (.error e, ⟨(answer s.server c).2, s.seen ++ [(s.server, ⟨c, .error e⟩)], s.faithful⟩)
  | .forged f => (f.value c).map fun v =>
    (.ok v, ⟨(answer s.server c).2, s.seen ++ [(s.server, ⟨c, .ok v⟩)], false⟩)

/-- The pass and everybody else on one server. -/
def redis : System Scene BackendCall Command Outcome Answer where
  perform s command := some { s with server := s.server.perform command }
  serve := serve

end Codohue.Retention
