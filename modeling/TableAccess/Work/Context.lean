import TableAccess.Work.Datasource

/-!
Units of work.

A `Context` owns one connection and, unless its style is `none`, one transaction on it. It is opened
on a datasource, takes operations while its status is `init`, and is completed once: a commit if all
went well and a rollback otherwise, and then the connection goes back to its pool. A context that is
dropped before that discards its connection, since a transaction may still be open on it.

A failed commit is followed by a rollback and its own error is the answer. Opening gives the
connection up on every failure: discarded if the begin timed out, closed otherwise.
-/

namespace TableAccess

/-- What can be read off a context. -/
structure Snapshot where
  style : Style
  status : Status
  scope : Scope
  logSql : Bool
  deriving DecidableEq

/-- A unit of work. -/
structure Context (σ : Type) extends Snapshot where
  connection : Option Connection
  interceptors : List (Interceptor σ)

namespace Context

variable {σ α S : Type}

def traceId (tc : Context σ) : String := tc.scope.traceId

/-- The connection of a context that still takes operations. -/
def check (tc : Context σ) : Except Failure Connection :=
  match tc.status, tc.connection with
  | .init, some conn => .ok conn
  | _, _ => .error .invalidState

/-! ### Statements -/

/-- Logs a statement before and after it runs, if the context logs statements. -/
def traced (tc : Context σ) (sql : String) (args : List Value) (x : Run σ α) : Run σ α :=
  if tc.logSql then do
    Run.log (.statementStarted tc.traceId sql args)
    let e ← x.ending
    match e with
    | .ok _ => Run.log (.statementDone tc.traceId)
    | .error f => Run.log (.statementFailed tc.traceId f)
    | .panic _ => pure ()
    Run.ofEnding e
  else x

/-- The rows of a query as they come. -/
def queryStream (tc : Context σ) (q : Sql) : Run σ RowStream := do
  let conn ← Run.ofExcept tc.check
  tc.traced q.text q.args (Run.query conn q.text q.args)

/-- All rows of a query. -/
def queryRows (tc : Context σ) (q : Sql) : Run σ (List Row) := do
  let conn ← Run.ofExcept tc.check
  tc.traced q.text q.args do
    let stream ← Run.query conn q.text q.args
    Run.pullAll stream

/-- How many rows a statement changed. -/
def execute (tc : Context σ) (q : Sql) : Run σ Nat := do
  let conn ← Run.ofExcept tc.check
  tc.traced q.text q.args (Run.execute conn q.text q.args)

/-- What an insert did. -/
def insertRow (tc : Context σ) (q : Sql) (generated : Option String) : Run σ Inserted := do
  let conn ← Run.ofExcept tc.check
  tc.traced q.text q.args (Run.insert conn q.text q.args generated)

/-- Runs a place's hooks on a subject. -/
def runHooks (tc : Context σ) (point : HookPoint) (subject : String) (columns : List String)
    (pick : Interceptor σ → Hook σ S) (s : S) : Run σ (Ending Unit × S) :=
  Run.hooks (fun i => .hook i point subject columns) 0 (tc.interceptors.map pick) s

/-! ### The end of a unit of work -/

/-- The commit, after a failure of which the transaction is rolled back. -/
def commit (traceId : String) (conn : Connection) : Run σ (Except Failure Unit) := do
  match ← Run.commit conn with
  | .ok () => return .ok ()
  | .error f =>
    Run.log (.commitFailed traceId f)
    match ← Run.rollback conn with
    | .ok () => pure ()
    | .error g => Run.log (.rollbackFailed traceId g)
    return .error f

/-- The rollback. -/
def rollback (traceId : String) (conn : Connection) : Run σ (Except Failure Unit) := do
  match ← Run.rollback conn with
  | .ok () => return .ok ()
  | .error f =>
    Run.log (.rollbackFailed traceId f)
    return .error f

/-- Ends the transaction of a connection, if the style has one: a commit, or a rollback for a
reason. -/
def endTransaction (traceId : String) (style : Style) (conn : Connection)
    (reason : Option Failure) : Run σ (Except Failure Unit) :=
  match style, reason with
  | .none, _ => return .ok ()
  | _, none => commit traceId conn
  | _, some _ => rollback traceId conn

/-- The context without its connection. -/
def invalidated (tc : Context σ) : Context σ := { tc with status := .invalid, connection := none }

/-- Completes the context: a commit, or a rollback for a reason, and the connection goes back. A
context that has been completed is left alone. -/
def complete (tc : Context σ) (reason : Option Failure) :
    Run σ (Except Failure Unit × Context σ) := do
  if tc.status = .invalid then return (.ok (), tc)
  else do
    match reason with
    | some f => Run.log (.completedWithError tc.traceId f)
    | none => pure ()
    match tc.connection with
    | none => return (.ok (), tc.invalidated)
    | some conn =>
      let outcome ← endTransaction tc.traceId tc.style conn reason
      Run.close conn
      return (outcome, tc.invalidated)

/-- Completes the context; a panic rolls back and goes on after that. -/
def completeWithPanic (tc : Context σ) (reason : Option Failure) (payload : Option String) :
    Run σ (Ending Unit × Context σ) := do
  match payload with
  | some p =>
    let (_, tc) ← tc.complete (some .panicked)
    return (.panic p, tc)
  | none =>
    let (outcome, tc) ← tc.complete reason
    return (.ofExcept outcome, tc)

/-- Drops the context. A connection that it still has is discarded. -/
def drop (tc : Context σ) : Run σ Unit := do
  match tc.connection with
  | none => return ()
  | some conn =>
    Run.log (.abandoned tc.traceId tc.style)
    Run.discard conn

end Context

namespace Datasource

variable {σ : Type}

/-- A connection from the pool that serves a scope, had within the bound. -/
def connect (ds : Datasource σ) (s : Scope) : Run σ Connection := do
  let pool ← ds.poolFor s
  match ← Run.acquire pool ds.acquireTimeout with
  | some (.ok conn) => return conn
  | some (.error f) =>
    Run.log (.acquireFailed s.traceId f)
    Run.fail f
  | none =>
    Run.log (.acquireTimedOut s.traceId)
    Run.fail .connectionTimeout

/-- Begins the transaction that a style needs. The connection is given up if that fails: closed
after a failure, discarded after a timeout, since the transaction may have begun after all. -/
def beginFor (ds : Datasource σ) (style : Style) (s : Scope) (conn : Connection) : Run σ Unit :=
  match style with
  | .none => return ()
  | style => do
    match ← Run.begin conn (style = .readOnly) ds.acquireTimeout with
    | some (.ok ()) => return ()
    | some (.error f) =>
      Run.log (.beginFailed s.traceId f)
      Run.close conn
      Run.fail f
    | none =>
      Run.log (.beginTimedOut s.traceId)
      Run.discard conn
      Run.fail .connectionTimeout

/-- Opens a unit of work. A hook that fails has it rolled back, and a hook that panics drops it. -/
def «open» (ds : Datasource σ) (style : Style) (s : Scope) : Run σ (Context σ) := do
  let conn ← ds.connect s
  ds.beginFor style s conn
  let tc : Context σ :=
    { style := style, status := .init, scope := s, logSql := ds.logSql,
      connection := some conn, interceptors := ds.interceptors }
  let (e, _) ← tc.runHooks .afterBegin s.traceId [] (·.afterBegin s) ()
  match e with
  | .ok () => return tc
  | .error f =>
    let _ ← tc.complete (some f)
    Run.fail f
  | .panic p =>
    tc.drop
    Run.panic p

end Datasource

end TableAccess
