import TableAccess.Describe

/-!
Log records in words.

A `LogLine` is a log record as a reader of the log sees it: its level, the part of the library that
it is about, its message and its named fields. Records of statements belong to a span that carries
the trace identifier; the others carry it in a field.
-/

namespace TableAccess

/-- How much a log record matters. -/
inductive Level where
  | debug | info | warn | error
  deriving DecidableEq

def Level.name : Level → String
  | debug => "DEBUG"
  | info => "INFO"
  | warn => "WARN"
  | error => "ERROR"

/-- What the records of one statement belong to. -/
structure LogSpan where
  name : String
  traceId : String
  deriving DecidableEq

/-- A log record in words. A field without text holds a measured time. -/
structure LogLine where
  level : Level
  target : String
  message : String
  fields : List (String × Option String) := []
  span : Option LogSpan := none
  deriving DecidableEq

namespace LogRecord

/-- A record about a unit of work. -/
def aboutWork (level : Level) (message traceId : String) (fields : List (String × Option String)) :
    LogLine :=
  ⟨level, "quickdao::transaction", message, ("trace_id", some traceId) :: fields, none⟩

/-- A record about the failure of a unit of work. -/
def failure (message traceId : String) (f : Failure) : LogLine :=
  aboutWork .error message traceId [("error", some f.message)]

/-- A record about a statement. -/
def aboutStatement (message traceId : String) (fields : List (String × Option String)) : LogLine :=
  ⟨.info, "quickdao.sql", message, fields, some ⟨"sql", traceId⟩⟩

/-- The record in words. -/
def render : LogRecord → LogLine
  | shardingFailed traceId f =>
    { failure "datasource sharding failed" traceId f with target := "quickdao::datasource" }
  | acquireFailed traceId f => failure "acquire connection failed" traceId f
  | acquireTimedOut traceId => aboutWork .info "get connection timeout" traceId []
  | beginFailed traceId f => failure "begin transaction failed" traceId f
  | beginTimedOut traceId => aboutWork .info "begin transaction timeout" traceId []
  | completedWithError traceId f => failure "transaction completed with error" traceId f
  | commitFailed traceId f => failure "commit failed, rolling back" traceId f
  | rollbackFailed traceId f => failure "rollback failed" traceId f
  | abandoned traceId style =>
    aboutWork .warn "transaction context dropped without completion, discarding connection" traceId
      [("style", some style.name)]
  | unconditioned traceId table mutation =>
    ⟨.info, "quickdao::statement", mutation.name ++ " must have condition",
      [("trace_id", some traceId), ("table", some table)], none⟩
  | reassigned column =>
    ⟨.debug, "quickdao::modifier", "modifier column assigned twice, last write wins",
      [("column", some column)], none⟩
  | statementStarted traceId sql args =>
    aboutStatement "exec sql" traceId [("sql", some sql), ("args", some (argsText args))]
  | statementDone traceId => aboutStatement "sql done" traceId [("cost_ms", none)]
  | statementFailed traceId f =>
    aboutStatement "sql failed" traceId [("cost_ms", none), ("error", some f.message)]

end LogRecord

end TableAccess
