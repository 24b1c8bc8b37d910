import TableAccess.Failure

/-!
What can be seen of a unit of work from outside.

A run leaves a trace: every call of the database and how it went, every call of a hook, every row
taken from a result and every batch handed over, and the log records, all in the order in which they
happened. Connections are told apart by their pool and by their number among all connections that
were ever granted.
-/

namespace TableAccess

/-- The transaction that a unit of work needs. -/
inductive Style where
  | none | readOnly | write
  deriving DecidableEq

/-- Where a unit of work stands. Only `init` takes operations; `invalid` has given its connection
up. -/
inductive Status where
  | init | committed | rolledBack | failed | invalid
  deriving DecidableEq

/-- A connection: its pool and its number. -/
structure Connection where
  pool : Nat
  serial : Nat
  deriving DecidableEq

/-- What a connection is asked to do. -/
inductive Call where
  | begin (readOnly : Bool)
  | commit
  | rollback
  | query (sql : String) (args : List Value)
  | execute (sql : String) (args : List Value)
  | insert (sql : String) (args : List Value) (generated : Option String)
  deriving DecidableEq

/-- The places where hooks run. -/
inductive HookPoint where
  | afterBegin | beforeInsert | beforeUpdate | beforeModify
  deriving DecidableEq

/-- What is logged, as a cause. -/
inductive LogRecord where
  | shardingFailed (traceId : String) (failure : Failure)
  | acquireFailed (traceId : String) (failure : Failure)
  | acquireTimedOut (traceId : String)
  | beginFailed (traceId : String) (failure : Failure)
  | beginTimedOut (traceId : String)
  | completedWithError (traceId : String) (failure : Failure)
  | commitFailed (traceId : String) (failure : Failure)
  | rollbackFailed (traceId : String) (failure : Failure)
  | abandoned (traceId : String) (style : Style)
  | unconditioned (traceId : String) (table : String) (mutation : Mutation)
  | reassigned (column : String)
  | statementStarted (traceId : String) (sql : String) (args : List Value)
  | statementDone (traceId : String)
  | statementFailed (traceId : String) (failure : Failure)
  deriving DecidableEq

/-- One step of a trace. -/
inductive Event where
  | granted (conn : Connection)
  | refused (pool : Nat)
  | called (conn : Connection) (call : Call) (succeeded : Bool)
  | closed (conn : Connection)
  | discarded (conn : Connection)
  | poolClosed (pool : Nat)
  | hook (position : Nat) (point : HookPoint) (subject : String) (columns : List String)
  | pulled (succeeded : Bool)
  | batch (size : Nat)
  | logged (record : LogRecord)
  | answered (status : Status)
  deriving DecidableEq

end TableAccess
