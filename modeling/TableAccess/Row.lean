import TableAccess.Failure

/-!
Result rows: cells and the names of the columns they came from. A row need not have as many names as
cells; a cell without a name is spoken of as `?`.
-/

namespace TableAccess

/-- One result row. -/
structure Row where
  columns : List String
  cells : List Value
  deriving DecidableEq

namespace Row

/-- The cell at a place. -/
def get? (r : Row) (index : Nat) : Option Value := r.cells[index]?

/-- The cell of the first column of a name. -/
def getByName? (r : Row) (name : String) : Option Value :=
  (r.columns.findIdx? (· == name)).bind r.get?

/-- The cell at a place in the form of a field's type. -/
def read (r : Row) (t : FieldType) (index : Nat) : Except Failure Value :=
  let column := r.columns[index]?.getD "?"
  match r.get? index with
  | none => .error (.decode column (.noCell index))
  | some v => t.convert column v

end Row

end TableAccess
