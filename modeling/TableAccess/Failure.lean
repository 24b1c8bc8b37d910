import TableAccess.Field

/-!
Why an operation fails.

A `Failure` is a cause, and its words are in one place, `Failure.message`. Failures of the database
and of hooks carry the text they came with.
-/

namespace TableAccess

/-- The mutations that need a condition. -/
inductive Mutation where
  | update | delete
  deriving DecidableEq

def Mutation.name : Mutation → String
  | update => "update"
  | delete => "delete"

/-- The clauses that column names are spliced into. -/
inductive Clause where
  | select | orderBy
  deriving DecidableEq

def Clause.name : Clause → String
  | select => "select"
  | orderBy => "order by"

/-- Why a row cannot be bound or a cell cannot be read. -/
inductive DecodeCause where
  | mismatch (m : Mismatch)
  | noCell (index : Nat)
  | rowWidth (values columns : Nat)
  deriving DecidableEq

def DecodeCause.message : DecodeCause → String
  | mismatch m => m.message
  | noCell index => s!"no cell at index {index}"
  | rowWidth values columns => s!"row has {values} values for {columns} projected columns"

/-- Why a request makes no statement. -/
inductive Invalid where
  | column (clause : Clause) (name : String)
  | unmapped (column : String)
  | noIdField (table column : String)
  deriving DecidableEq

def Invalid.message : Invalid → String
  | column clause name => s!"{clause.name}: invalid column '{name}'"
  | unmapped name => s!"no field mapped to column '{name}'"
  | noIdField table name => s!"update of {table} needs a field for id column '{name}'"

/-- Why an operation fails. -/
inductive Failure where
  | invalidState
  | connectionTimeout
  | invalidShardKey
  | noParamValues (column : String)
  | invalidBatchSize
  | invalidPager (size number : Int64)
  | missingCondition (mutation : Mutation)
  | noDatasource
  | connection (reason : String)
  | pool (reason : String)
  | decode (column : String) (cause : DecodeCause)
  | interceptor (reason : String)
  | panicked
  | partialUpdate (affected : Nat) (source : Failure)
  | validation (cause : Invalid)
  | other (reason : String)
  deriving DecidableEq

namespace Failure

/-- The cause in words. -/
def message : Failure → String
  | invalidState => "invalid tc status"
  | connectionTimeout => "get connection timeout"
  | invalidShardKey => "invalid shard key"
  | noParamValues column => s!"{column}: no param values"
  | invalidBatchSize => "page size must be greater than 0"
  | invalidPager size number =>
    s!"invalid pager: page size {size.toInt}, page number {number.toInt}"
  | missingCondition mutation => s!"{mutation.name} must have condition"
  | noDatasource => "no db confs"
  | connection reason => s!"Connection error: {reason}"
  | pool reason => s!"Pool error: {reason}"
  | decode column cause => s!"Decode error on column '{column}': {cause.message}"
  | interceptor reason => s!"Interceptor error: {reason}"
  | panicked => "met recover"
  | partialUpdate affected source => s!"update failed after {affected} rows: {source.message}"
  | validation cause => s!"Validation error: {cause.message}"
  | other reason => reason

/-- Whether a finished context was used. -/
def isInvalidState : Failure → Bool
  | invalidState => true
  | _ => false

/-- Whether a connection was not had in time. -/
def isTimeout : Failure → Bool
  | connectionTimeout => true
  | _ => false

/-- Whether a mutation without condition was refused. -/
def isMissingCondition : Failure → Bool
  | missingCondition _ => true
  | _ => false

end Failure

/-- A value in the form of a field's type, the failure naming the column. -/
def FieldType.convert (t : FieldType) (column : String) (v : Value) : Except Failure Value :=
  (t.read v).mapError fun m => .decode column (.mismatch m)

end TableAccess
