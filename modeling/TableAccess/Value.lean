import TableAccess.Calendar
import TableAccess.Uuid
import TableAccess.Json.Basic

/-!
The values that statements bind and rows hold.

A `Value` is one argument of a statement or one cell of a row. Its `kind` is what messages call it,
and its JSON form is what the statement log shows.
-/

namespace TableAccess

/-- An argument or a cell. -/
inductive Value where
  | null
  | bool (b : Bool)
  | int (n : Int64)
  | float (x : Double)
  | text (s : String)
  | bytes (bs : List UInt8)
  | timestamp (t : Timestamp)
  | date (d : Date)
  | json (document : Json)
  | uuid (u : Uuid)
  deriving DecidableEq

/-- The kinds of value. -/
inductive Kind where
  | null | bool | int | float | text | bytes | timestamp | date | json | uuid
  deriving DecidableEq

/-- What messages call a kind. -/
def Kind.name : Kind → String
  | null => "null"
  | bool => "bool"
  | int => "int"
  | float => "float"
  | text => "text"
  | bytes => "bytes"
  | timestamp => "timestamp"
  | date => "date"
  | json => "json"
  | uuid => "uuid"

namespace Value

def kind : Value → Kind
  | null => .null
  | bool _ => .bool
  | int _ => .int
  | float _ => .float
  | text _ => .text
  | bytes _ => .bytes
  | timestamp _ => .timestamp
  | date _ => .date
  | json _ => .json
  | uuid _ => .uuid

/-- Whether the value is the absent one. A JSON null is a document and not absent. -/
def isNull (v : Value) : Bool := v.kind = .null

/-- The value unless it is absent. -/
def present? : Value → Option Value
  | null => none
  | v => some v

/-- The number of an integer value. -/
def int? : Value → Option Int64
  | int n => some n
  | _ => none

/-- The text of a text value. -/
def text? : Value → Option String
  | text s => some s
  | _ => none

/-- The JSON form: bytes are a list of numbers, moments and identifiers their text, and a number
that is not finite is null. -/
def toJson : Value → Json
  | null => .null
  | bool b => .bool b
  | int n => .whole n.toInt
  | float x => if x.isFinite then .float x else .null
  | text s => .text s
  | bytes bs => .array (bs.map fun b => .whole b.toNat)
  | timestamp t => .text (String.ofList t.text)
  | date d => .text (String.ofList d.text)
  | json document => document
  | uuid u => .text (String.ofList u.text)

end Value

/-- The JSON text of arguments. -/
def argsText (args : List Value) : String := (Json.array (args.map Value.toJson)).write

end TableAccess
