import TableAccess.Failure

/-!
Which columns, in which order, and which part of the rows.

A `Pager` counts pages from 1 and is valid if its first row's number still fits into 64 signed bits;
a `View` projects a table's declared columns.
-/

namespace TableAccess

/-- A page of a listing. -/
structure Pager where
  size : Int64
  number : Int64
  deriving DecidableEq

namespace Pager

/-- The first page of some rows. -/
def limit (size : Int64) : Pager := ⟨size, 1⟩

/-- How many rows stand before the page, as an exact number. -/
def skipped (p : Pager) : Int := (p.number.toInt - 1) * p.size.toInt

/-- How many rows stand before the page; refused unless size and number are positive and the answer
fits into 64 bits. -/
def offset (p : Pager) : Except Failure Int64 :=
  if p.size ≤ 0 ∨ p.number ≤ 0 ∨ Int64.maxValue.toInt < p.skipped then
    .error (.invalidPager p.size p.number)
  else .ok (Int64.ofInt p.skipped)

/-- Refuses what has no offset. -/
def validate (p : Pager) : Except Failure Unit := p.offset.map fun _ => ()

end Pager

/-- A column to order by. -/
structure Order where
  column : String
  descending : Bool := false
  deriving DecidableEq

/-- A projection: just these columns, or all declared ones but these. -/
inductive View where
  | only (columns : List String)
  | without (columns : List String)
  deriving DecidableEq

namespace View

/-- The projected columns of a table. -/
def resolve (view : Option View) (declared : List String) : List String :=
  match view with
  | none => declared
  | some (only columns) => columns
  | some (without columns) => declared.filter fun c => !columns.contains c

end View

end TableAccess
