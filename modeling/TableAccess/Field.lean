import TableAccess.Value
import TableAccess.Text.Utf8

/-!
The types of a record's fields and what they take.

`FieldType.read` turns a value into the form a field of that type holds, or says why it does not
fit. Numbers are narrowed only if they fit; an integer also fills a floating-point field and a truth
value, a text also fills bytes and an identifier, a timestamp also fills a date, and a field that
may be empty takes the absent value besides.
-/

namespace TableAccess

/-- The integer types. -/
inductive IntType where
  | i8 | i16 | i32 | i64 | u8 | u16 | u32 | u64
  deriving DecidableEq

namespace IntType

def name : IntType → String
  | i8 => "i8"
  | i16 => "i16"
  | i32 => "i32"
  | i64 => "i64"
  | u8 => "u8"
  | u16 => "u16"
  | u32 => "u32"
  | u64 => "u64"

/-- The least number of the type. -/
def least : IntType → Int
  | i8 => -128
  | i16 => -32768
  | i32 => -2147483648
  | i64 => -9223372036854775808
  | u8 | u16 | u32 | u64 => 0

/-- The greatest number of the type. -/
def greatest : IntType → Int
  | i8 => 127
  | i16 => 32767
  | i32 => 2147483647
  | i64 => 9223372036854775807
  | u8 => 255
  | u16 => 65535
  | u32 => 4294967295
  | u64 => 18446744073709551615

end IntType

/-- The type of a field. -/
inductive FieldType where
  | int (t : IntType)
  | single
  | double
  | bool
  | text
  | bytes
  | timestamp
  | date
  | json
  | uuid
  | any
  | optional (t : FieldType)
  deriving DecidableEq

/-- Why a value does not fit a field. -/
inductive Mismatch where
  | kind (expected : String) (got : Kind)
  | tooLarge
  | tooSmall
  | malformedUuid (reason : Uuid.Malformed)
  deriving DecidableEq

/-- The reason in words. -/
def Mismatch.message : Mismatch → String
  | kind expected got => s!"expected {expected}, got {got.name}"
  | tooLarge => "number too large to fit in target type"
  | tooSmall => "number too small to fit in target type"
  | malformedUuid reason => reason.message

/-- A number if it is one of the type's. -/
def IntType.narrow (t : IntType) (n : Int64) : Except Mismatch Int64 :=
  if n.toInt < t.least then .error .tooSmall
  else if t.greatest < n.toInt then .error .tooLarge
  else .ok n

namespace FieldType

/-- The double of a floating-point or integer value. -/
def readDouble : Value → Except Mismatch Double
  | .float x => .ok x
  | .int n => .ok (Double.ofInt n.toInt)
  | v => .error (.kind "f64" v.kind)

/-- A value in the form that a field of the type holds. -/
def read : FieldType → Value → Except Mismatch Value
  | int t, v =>
    match v with
    | .int n => (t.narrow n).map .int
    | v => .error (.kind t.name v.kind)
  | single, v => (readDouble v).map fun x => .float x.throughSingle
  | double, v => (readDouble v).map .float
  | bool, v =>
    match v with
    | .bool b => .ok (.bool b)
    | .int n => .ok (.bool (n != 0))
    | v => .error (.kind "bool" v.kind)
  | text, v =>
    match v with
    | .text s => .ok (.text s)
    | v => .error (.kind "text" v.kind)
  | bytes, v =>
    match v with
    | .bytes bs => .ok (.bytes bs)
    | .text s => .ok (.bytes (Utf8.encode s.toList))
    | v => .error (.kind "bytes" v.kind)
  | timestamp, v =>
    match v with
    | .timestamp t => .ok (.timestamp t)
    | v => .error (.kind "timestamp" v.kind)
  | date, v =>
    match v with
    | .date d => .ok (.date d)
    | .timestamp t => .ok (.date t.date)
    | v => .error (.kind "date" v.kind)
  | json, v =>
    match v with
    | .json document => .ok (.json document)
    | .null => .ok (.json .null)
    | v => .error (.kind "json" v.kind)
  | uuid, v =>
    match v with
    | .uuid u => .ok (.uuid u)
    | .text s =>
      match Uuid.ofText s.toList with
      | .ok u => .ok (.uuid u)
      | .error reason => .error (.malformedUuid reason)
    | v => .error (.kind "uuid" v.kind)
  | any, v => .ok v
  | optional t, v =>
    match v with
    | .null => .ok .null
    | v => t.read v

/-- What a new record holds in a field of the type. -/
def initial : FieldType → Value
  | int _ => .int 0
  | single | double => .float Double.zero
  | bool => .bool false
  | text => .text ""
  | bytes => .bytes []
  | timestamp => .timestamp (Timestamp.midnight Date.unixEpoch)
  | date => .date Date.unixEpoch
  | json => .json .null
  | uuid => .uuid Uuid.nil
  | any | optional _ => .null

end FieldType

end TableAccess
