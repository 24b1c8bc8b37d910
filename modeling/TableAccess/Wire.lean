import TableAccess.Field
import TableAccess.Json.Reader

/-!
Values on the wire.

The database takes and gives values as bytes, in a form that depends on the column's type: numbers
have the width of the type and their high byte first, moments count from the first moment of 2000,
and a `jsonb` document follows a version byte. `Wire.encode` writes a value for a column and
`Wire.decode` reads a column's bytes.

Encoding looks at the kind of value first: an integer is narrowed for the small integer types and
becomes a double for `float8`, a float is narrowed for `float4`, and every other value has one form
whatever the column. Decoding looks at the type alone and refuses bytes of another length.

The text types that extensions of the database add are left out: `citext`, which is read and written as
text is, and `ltree`, `lquery` and `ltxtquery`, which put a version byte before it.
-/

namespace TableAccess

/-- The types of columns, without the text types of extensions. Those that no value is read from are
known by name only. -/
inductive ColumnType where
  | bool | int2 | int4 | int8 | float4 | float8
  | text | varchar | bpchar | name | unknown
  | bytea | timestamp | timestamptz | date | json | jsonb | uuid
  | other (name : String)
  deriving DecidableEq

namespace Wire

/-- Why bytes cannot be decoded. -/
inductive DecodeError where
  | badSize
  | tooShort
  | notDrained (what : String)
  | uuidSize
  | tooLarge
  | malformedText (reason : Utf8.Malformed)
  | jsonbVersion
  | malformedJson
  | unsupported (type : String)
  deriving DecidableEq

/-- The reason in words; JSON that cannot be read is reported without any. -/
def DecodeError.message? : DecodeError → Option String
  | badSize => some "invalid buffer size"
  | tooShort => some "failed to fill whole buffer"
  | notDrained what => some s!"invalid message length: {what} not drained"
  | uuidSize => some "invalid message length: uuid size mismatch"
  | tooLarge => some "value too large to decode"
  | malformedText reason => some reason.message
  | jsonbVersion => some "unsupported JSONB encoding version"
  | malformedJson => none
  | unsupported type => some s!"unsupported column type {type}"

/-- The low `width` bytes of a number, the high byte first. -/
def bigEndian : Nat → Nat → List UInt8
  | 0, _ => []
  | width + 1, n => UInt8.ofNat (n / Nat.pow 256 width) :: bigEndian width n

/-- The number that bytes write, the high byte first. -/
def ofBigEndian (bytes : List UInt8) : Nat := bytes.foldl (fun n b => 256 * n + b.toNat) 0

/-- An integer in two's complement. -/
def signedBytes (width : Nat) (n : Int) : List UInt8 :=
  bigEndian width (n % (Nat.pow 256 width : Nat)).toNat

/-- The integer that bytes write in two's complement. -/
def ofSignedBytes (bytes : List UInt8) : Int :=
  Int.bmod (ofBigEndian bytes) (Nat.pow 256 bytes.length)

/-- The version that precedes a `jsonb` document. -/
def jsonbVersion : UInt8 := 1

/-- The bytes of a value for a column of a type; none for the absent value. -/
def encode (type : ColumnType) : Value → Except Mismatch (Option (List UInt8))
  | .null => .ok none
  | .bool b => .ok (some [if b then 1 else 0])
  | .int n =>
    match type with
    | .int2 => (IntType.i16.narrow n).map fun n => some (signedBytes 2 n.toInt)
    | .int4 => (IntType.i32.narrow n).map fun n => some (signedBytes 4 n.toInt)
    | .float8 => .ok (some (bigEndian 8 (Double.ofInt n.toInt).bits.toNat))
    | _ => .ok (some (signedBytes 8 n.toInt))
  | .float x =>
    match type with
    | .float4 => .ok (some (bigEndian 4 x.toSingle.bits.toNat))
    | _ => .ok (some (bigEndian 8 x.bits.toNat))
  | .text s => .ok (some (Utf8.encode s.toList))
  | .bytes bs => .ok (some bs)
  | .timestamp t => .ok (some (signedBytes 8 t.micros))
  | .date d => .ok (some (signedBytes 4 d.number))
  | .json document =>
    let text := Utf8.encode document.write.toList
    .ok (some (if type = .jsonb then jsonbVersion :: text else text))
  | .uuid u => .ok (some u.bytes)

/-- Bytes of an exact width. -/
def exactly (width : Nat) (tooLong : DecodeError) (raw : List UInt8) :
    Except DecodeError (List UInt8) :=
  if raw.length < width then .error .tooShort
  else if width < raw.length then .error tooLong
  else .ok raw

/-- The text that bytes write. -/
def decodeText (raw : List UInt8) : Except DecodeError Value :=
  match Utf8.decode raw with
  | .ok cs => .ok (.text (String.ofList cs))
  | .error reason => .error (.malformedText reason)

/-- The moment that eight bytes write. -/
def decodeTimestamp (raw : List UInt8) : Except DecodeError Value := do
  let raw ← exactly 8 (.notDrained "timestamp") raw
  match Timestamp.ofMicros? (ofSignedBytes raw) with
  | some t => .ok (.timestamp t)
  | none => .error .tooLarge

/-- The document that bytes write. -/
def decodeJson (raw : List UInt8) : Except DecodeError Value :=
  match Utf8.decode raw with
  | .error _ => .error .malformedJson
  | .ok cs =>
    match Json.ofText? cs with
    | some document => .ok (.json document)
    | none => .error .malformedJson

/-- The value that bytes write in a column of a type. -/
def decodeBytes (type : ColumnType) (raw : List UInt8) : Except DecodeError Value :=
  match type with
  | .bool =>
    match raw with
    | [b] => .ok (.bool (b != 0))
    | _ => .error .badSize
  | .int2 => (exactly 2 .badSize raw).map fun raw => .int (Int64.ofInt (ofSignedBytes raw))
  | .int4 => (exactly 4 .badSize raw).map fun raw => .int (Int64.ofInt (ofSignedBytes raw))
  | .int8 => (exactly 8 .badSize raw).map fun raw => .int (Int64.ofInt (ofSignedBytes raw))
  | .float4 =>
    (exactly 4 .badSize raw).map fun raw =>
      .float (Single.mk (UInt32.ofNat (ofBigEndian raw))).toDouble
  | .float8 => (exactly 8 .badSize raw).map fun raw => .float ⟨UInt64.ofNat (ofBigEndian raw)⟩
  | .bytea => .ok (.bytes raw)
  | .timestamp | .timestamptz => decodeTimestamp raw
  | .date => do
    let raw ← exactly 4 (.notDrained "date") raw
    match Date.ofNumber? (ofSignedBytes raw) with
    | some d => .ok (.date d)
    | none => .error .tooLarge
  | .json => decodeJson raw
  | .jsonb =>
    match raw with
    | [] => .error .tooShort
    | version :: raw => if version = jsonbVersion then decodeJson raw else .error .jsonbVersion
  | .uuid =>
    match Uuid.ofBytes? raw with
    | some u => .ok (.uuid u)
    | none => .error .uuidSize
  | .text | .varchar | .bpchar | .name | .unknown => decodeText raw
  | .other name => .error (.unsupported name)

/-- The value of a cell, which has no bytes if it is absent. -/
def decode (type : ColumnType) : Option (List UInt8) → Except DecodeError Value
  | none => .ok .null
  | some raw => decodeBytes type raw

end Wire

end TableAccess
