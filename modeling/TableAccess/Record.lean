import TableAccess.Failure

/-!
Records: named, typed fields and their values.

A `Record` is a list of fields. Reading and writing go by column name; writing converts to the
field's type first, so a field always holds a value of its type, and a column without a field is
passed over.
-/

namespace TableAccess

/-- The fields of a kind of record: names and types. -/
abbrev Schema := List (String × FieldType)

/-- One field. -/
structure Field where
  name : String
  type : FieldType
  value : Value
  deriving DecidableEq

/-- A record. -/
structure Record where
  fields : List Field
  deriving DecidableEq

/-- A record of a schema as it is before anything is written into it. -/
def Schema.blank (s : Schema) : Record := ⟨s.map fun (name, type) => ⟨name, type, type.initial⟩⟩

namespace Record

/-- The value of the field mapped to a column. -/
def get? (r : Record) (column : String) : Option Value :=
  (r.fields.find? fun f => f.name = column).map Field.value

/-- The fields with the first one of a name holding another value. -/
def putValue (column : String) (v : Value) : List Field → List Field
  | [] => []
  | f :: rest =>
    if f.name = column then { f with value := v } :: rest else f :: putValue column v rest

/-- The type of the field mapped to a column. -/
def type? (r : Record) (column : String) : Option FieldType :=
  (r.fields.find? fun f => f.name = column).map Field.type

/-- Writes a value into the field mapped to a column, in the form of the field's type. -/
def set (r : Record) (column : String) (v : Value) : Except Failure Record :=
  match r.type? column with
  | none => .ok r
  | some type => (type.convert column v).map fun v => ⟨putValue column v r.fields⟩

/-- Writes cells into columns, from the left, up to the first that does not fit: the record as it is
then, and the failure if there was one. -/
def setAll (r : Record) : List (String × Value) → Record × Except Failure Unit
  | [] => (r, .ok ())
  | (column, v) :: rest =>
    match r.set column v with
    | .ok r => r.setAll rest
    | .error e => (r, .error e)

end Record

end TableAccess
