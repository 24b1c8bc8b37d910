import TableAccess.Work.Run

/-!
A database that answers by script.

Each pool follows a script: how long its answers take, which of them fail, how many rows a statement
changes, which values are generated, and the results of the queries to come. Pools that the script
says nothing of follow the empty script, where everything goes well at once and no query has rows.
The state also has room for the callers' own state, which the database leaves alone.
-/

namespace TableAccess

/-- What a pool and its connections do. -/
structure Script where
  acquireDelay : Nat := 0
  beginDelay : Nat := 0
  failAcquire : Bool := false
  failBegin : Bool := false
  failCommit : Bool := false
  failRollback : Bool := false
  failStatements : Bool := false
  /-- How many statements go well before all fail. -/
  failAfter : Option Nat := none
  /-- How many rows each statement changes. -/
  affected : Nat := 1
  /-- The value that is generated next. -/
  nextId : Int64 := 100
  withoutId : Bool := false
  /-- The results of the next queries. -/
  results : List RowStream := []
  /-- How many statements there have been. -/
  statements : Nat := 0
  /-- How a pool that has been closed refuses, if it does. -/
  refusal : Option Failure := none
  closed : Bool := false

/-- Scripts by pool, and the callers' own state. -/
structure Scripted (τ : Type) where
  scripts : List Script
  own : τ

namespace Script

/-- The failure of what the script has fail. -/
def connectionFailure (what : String) : Failure := .connection s!"mock {what} failure"

/-- What goes well unless the script has it fail. -/
def outcome (fails : Bool) (f : Failure) : Except Failure Unit := if fails then .error f else .ok ()

/-- How the pool answers to being asked for a connection. -/
def acquire (s : Script) : Except Failure Unit := do
  outcome s.failAcquire (.pool "mock acquire failure")
  match s.refusal with
  | some f => outcome s.closed f
  | none => return ()

/-- Whether the next statement fails. -/
def failsNext (s : Script) : Bool := s.failStatements || s.failAfter.any (· ≤ s.statements)

/-- One statement: `f` says what it does if it does not fail. -/
def statement {α : Type} (f : Script → α × Script) (s : Script) : Except Failure α × Script :=
  let counted := { s with statements := s.statements + 1 }
  if s.failsNext then (.error (.other "mock execution failure"), counted)
  else
    let (a, s) := f counted
    (.ok a, s)

/-- Takes the result of the next query. -/
def nextResult (s : Script) : RowStream × Script :=
  match s.results with
  | [] => ([], s)
  | result :: rest => (result, { s with results := rest })

/-- Writes a row and generates a value for it if one is asked for. -/
def inserted (generated : Option String) (s : Script) : Inserted × Script :=
  if generated.isSome && !s.withoutId then
    (⟨s.affected, some s.nextId⟩, { s with nextId := s.nextId + 1 })
  else (⟨s.affected, none⟩, s)

end Script

namespace Scripted

variable {τ α : Type}

/-- The script of a pool. -/
def script (env : Scripted τ) (pool : Nat) : Script := env.scripts[pool]?.getD {}

/-- The database with another script for a pool. -/
def withScript (env : Scripted τ) (pool : Nat) (s : Script) : Scripted τ :=
  { env with scripts := env.scripts.set pool s }

/-- A step of one pool's script. -/
def onPool (pool : Nat) (f : Script → α × Script) (env : Scripted τ) : α × Scripted τ :=
  let (a, s) := f (env.script pool)
  (a, env.withScript pool s)

/-- The database that does what its scripts say. -/
def backend : Backend (Scripted τ) where
  acquire pool env := ⟨(env.script pool).acquireDelay, (env.script pool).acquire, env⟩
  begin conn _ env :=
    let s := env.script conn.pool
    ⟨s.beginDelay, Script.outcome s.failBegin (Script.connectionFailure "begin"), env⟩
  commit conn env :=
    (Script.outcome (env.script conn.pool).failCommit (Script.connectionFailure "commit"), env)
  rollback conn env :=
    (Script.outcome (env.script conn.pool).failRollback (Script.connectionFailure "rollback"), env)
  query conn _ _ := onPool conn.pool (Script.statement Script.nextResult)
  execute conn _ _ := onPool conn.pool (Script.statement fun s => (s.affected, s))
  insert conn _ _ generated := onPool conn.pool (Script.statement (Script.inserted generated))
  close _ env := env
  discard _ env := env
  closePool pool env := env.withScript pool { env.script pool with closed := true }

end Scripted

end TableAccess
