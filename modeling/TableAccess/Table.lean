import TableAccess.Record
import TableAccess.Scope

/-!
Tables: columns, the generated column, and where the rows of a key are.

A `Table` describes one table. Values leave a record in the order of the declared columns and come
back in the order of a projection. Its sharding, if it has one, names the physical table for the key
that the request carries.
-/

namespace TableAccess

/-- The physical table of a table's name and a key. -/
abbrev Sharding := String → Option Value → String

namespace Sharding

/-- Integer keys choose one of `count` tables by remainder; without one the table is not split. -/
def byRemainder (count : Nat) : Sharding := fun table key =>
  match key with
  | some (.int k) => table ++ "_" ++ toString (k.toInt % count)
  | _ => table

/-- Text keys name the part of the table they belong to; other keys share one more part. -/
def byName : Sharding := fun table key =>
  match key with
  | none => table
  | some (.text s) => table ++ "_" ++ s
  | some _ => table ++ "_other"

end Sharding

/-- The description of a table. -/
structure Table where
  name : String
  /-- Declared columns, in the order of statements. -/
  columns : List String
  /-- The column whose values the database generates. -/
  generated : Option String
  schema : Schema
  sharding : Option Sharding := none

namespace Table

/-- The column of row identifiers: the generated one, or else `id`. -/
def idColumn (t : Table) : String := t.generated.getD "id"

def isGenerated (t : Table) (column : String) : Bool := t.generated == some column

/-- The declared columns that statements write. -/
def writable (t : Table) : List String := t.columns.filter fun c => !t.isGenerated c

/-- The table that holds the rows of a key. -/
def physical (t : Table) (key : Option Value) : String :=
  match t.sharding with
  | some shard => shard t.name key
  | none => t.name

/-- A record of the table as it is before anything is written into it. -/
def blank (t : Table) : Record := t.schema.blank

/-- The value of a column in a record that must have a field for it. -/
def fieldOf (r : Record) (column : String) : Except Failure Value :=
  match r.get? column with
  | some v => .ok v
  | none => .error (.validation (.unmapped column))

/-- The values of some columns of a record. -/
def extract (r : Record) : List String → Except Failure (List Value)
  | [] => .ok []
  | c :: cs => do
    let v ← fieldOf r c
    let vs ← extract r cs
    return v :: vs

/-- The values of the declared columns, or of the writable ones. -/
def values (t : Table) (r : Record) (skipGenerated : Bool) : Except Failure (List Value) :=
  extract r (if skipGenerated then t.writable else t.columns)

/-- Writes a row, projected as `columns`, into a record: the record afterwards and the failure if
there was one. A row of another width is not touched. -/
def bind (t : Table) (r : Record) (columns : List String) (cells : List Value) :
    Record × Except Failure Unit :=
  if columns.length ≠ cells.length then
    (r, .error (.decode t.name (.rowWidth cells.length columns.length)))
  else r.setAll (columns.zip cells)

end Table

end TableAccess
