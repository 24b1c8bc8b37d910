import TableAccess.Text.Quoted
import TableAccess.Table
import TableAccess.Work.Context

/-!
Values, scopes, tables, datasources and units of work in words, for people to read.

A description names what it describes and then its parts. Functions are not described, only whether
there is one.
-/

namespace TableAccess

namespace Description

/-- Items between brackets. -/
def list (items : List String) : String := "[" ++ ", ".intercalate items ++ "]"

/-- Parts with names between braces. -/
def braces (blank : String) (parts : List (String × String)) : String :=
  "\x7b" ++ blank ++ ", ".intercalate (parts.map fun (name, part) => name ++ ": " ++ part) ++ blank
    ++ "\x7d"

/-- A thing with named parts. -/
def record (name : String) (parts : List (String × String)) : String :=
  name ++ " " ++ braces " " parts

/-- A thing with one part. -/
def tagged (name part : String) : String := name ++ "(" ++ part ++ ")"

/-- What may be missing. -/
def optional : Option String → String
  | none => "None"
  | some part => tagged "Some" part

/-- What is named by texts, the names in quotes. -/
def members (parts : List (String × String)) : String :=
  braces "" (parts.map fun (name, part) => (Quoted.quote name, part))

/-- A span of time of some milliseconds: seconds from one second on. -/
def span (ms : Nat) : String :=
  if ms = 0 then "0ns"
  else if ms < 1000 then s!"{ms}ms"
  else
    let fraction := ((Digits.padded 3 (ms % 1000)).reverse.dropWhile (· == '0')).reverse
    toString (ms / 1000) ++ (if fraction.isEmpty then "" else "." ++ String.ofList fraction) ++ "s"

end Description

open Description

/-- How a number outside of JSON is written: in full from 0.0001 to below 10 to the 16th, a tie going
to the greater digit. -/
def Double.plainFormat : Decimal.Notation := ⟨-4, 15, false, .up⟩

/-- The number as it is read. -/
def Double.describe (x : Double) : String :=
  if x.isNaN then "NaN"
  else if x.isInfinite then (if x.negative then "-inf" else "inf")
  else x.write plainFormat

namespace Json

mutual

/-- The document with the kind of each of its parts. -/
def describe : Json → String
  | .null => "Null"
  | .bool b => tagged "Bool" (toString b)
  | .whole n => tagged "Number" (toString n)
  | .float x => tagged "Number" (floatText x)
  | .text s => tagged "String" (Quoted.quote s)
  | .array items => "Array " ++ list (describeItems items)
  | .object parts => "Object " ++ members (describeMembers parts)

/-- The items of an array. -/
def describeItems : List Json → List String
  | [] => []
  | item :: rest => item.describe :: describeItems rest

/-- The members of an object. -/
def describeMembers : List (String × Json) → List (String × String)
  | [] => []
  | (name, value) :: rest => (name, value.describe) :: describeMembers rest

end

end Json

/-- The value with its kind. -/
def Value.describe : Value → String
  | .null => "Null"
  | .bool b => tagged "Bool" (toString b)
  | .int n => tagged "Int" (toString n.toInt)
  | .float x => tagged "Float" x.describe
  | .text s => tagged "Text" (Quoted.quote s)
  | .bytes bs => tagged "Bytes" (list (bs.map fun b => toString b.toNat))
  | .timestamp t => tagged "Timestamp" (String.ofList t.text)
  | .date d => tagged "Date" (String.ofList d.text)
  | .json document => tagged "Json" document.describe
  | .uuid u => tagged "Uuid" (String.ofList u.text)

def Scope.describe (s : Scope) : String :=
  record "RequestScope"
    [("trace_id", Quoted.quote s.traceId),
      ("table_sharding_key", optional (s.tableKey.map Value.describe)),
      ("datasource_sharding_key", optional (s.datasourceKey.map Value.describe)),
      ("values", members (s.values.map fun (name, v) => (name, v.describe)))]

/-- The table: its name, its columns and whether its rows are spread over several tables. -/
def Table.describe (t : Table) : String :=
  record "TableMeta"
    [("table", Quoted.quote t.name), ("columns", list (t.columns.map Quoted.quote)),
      ("auto_column", optional (t.generated.map Quoted.quote)),
      ("sharding", toString t.sharding.isSome)]

/-- What gives access to the table. -/
def Table.describeAccess (t : Table) : String := record "QuickDao" [("table", Quoted.quote t.name)]

def Style.name : Style → String
  | .none => "None"
  | .readOnly => "ReadOnly"
  | .write => "Write"

def Status.name : Status → String
  | .init => "Init"
  | .committed => "Committed"
  | .rolledBack => "RolledBack"
  | .failed => "Failed"
  | .invalid => "Invalid"

def Snapshot.describe (s : Snapshot) : String :=
  record "TransContext"
    [("style", s.style.name), ("status", s.status.name), ("scope", s.scope.describe),
      ("log_sql", toString s.logSql)]

def Datasource.describe {σ : Type} (ds : Datasource σ) : String :=
  record "Datasource"
    [("pools", toString ds.pools.length), ("sharding", toString ds.isSharded),
      ("log_sql", toString ds.logSql), ("acquire_timeout", span ds.acquireTimeout),
      ("interceptors", toString ds.interceptors.length)]

end TableAccess
