import TableAccess.Sql.Fragment

/-!
The assignments of an update.

A `Modifier` assigns each column at most once. Assigning a column again replaces value and operation
and leaves the assignment where the first one stood: the last write wins, in the first write's
place.
-/

namespace TableAccess

/-- Set a column, add to it or take from it. -/
inductive AssignOp where
  | set | add | subtract
  deriving DecidableEq

/-- One column's new value. -/
structure Assignment where
  column : String
  op : AssignOp
  value : Value
  deriving DecidableEq

namespace Assignment

/-- The assignment as `c=?`, `c=c+?` or `c=c-?`. -/
def compile (a : Assignment) : Sql :=
  Sql.raw
      (match a.op with
      | .set => a.column ++ "="
      | .add => a.column ++ "=" ++ a.column ++ "+"
      | .subtract => a.column ++ "=" ++ a.column ++ "-")
    ++ Sql.bind a.value

end Assignment

/-- Assignments in the order in which their columns were first assigned. -/
structure Modifier where
  assignments : List Assignment := []
  deriving DecidableEq

namespace Modifier

/-- The assignments with one more. -/
def putInto (a : Assignment) : List Assignment → List Assignment
  | [] => [a]
  | b :: rest => if b.column = a.column then a :: rest else b :: putInto a rest

/-- The modifier with one more assignment. -/
def put (m : Modifier) (a : Assignment) : Modifier := ⟨putInto a m.assignments⟩

/-- Assigned columns in order. -/
def columns (m : Modifier) : List String := m.assignments.map Assignment.column

def isEmpty (m : Modifier) : Bool := m.assignments.isEmpty

/-- Whether an assignment would replace an earlier one. -/
def assigns (m : Modifier) (column : String) : Bool := m.columns.contains column

/-- The modifier that a sequence of assignments builds. -/
def ofList (calls : List Assignment) : Modifier := calls.foldl put {}

/-- The columns whose assignment replaced an earlier one, call by call, starting from a modifier. -/
def replacedFrom : Modifier → List Assignment → List String
  | _, [] => []
  | m, a :: rest =>
    if m.assigns a.column then a.column :: replacedFrom (m.put a) rest
    else replacedFrom (m.put a) rest

/-- Assignments joined by commas. -/
def join : List Assignment → Sql
  | [] => Sql.empty
  | [a] => a.compile
  | a :: rest => a.compile ++ Sql.raw "," ++ join rest

/-- The clause of an update; nothing if nothing is assigned. -/
def compile (m : Modifier) : Sql :=
  if m.isEmpty then Sql.empty else Sql.raw "set " ++ join m.assignments

end Modifier

end TableAccess
