import TableAccess.Value
import TableAccess.Text.Quotes

/-!
Pieces of statements.

A `Sql` is statement text with question marks for the arguments, and the arguments in the order of
their marks. Pieces are made of raw text and bound values and put together by appending, so a mark
and its value always travel together.
-/

namespace TableAccess

/-- Statement text and the arguments it binds. -/
structure Sql where
  text : String
  args : List Value
  deriving DecidableEq

namespace Sql

/-- No text and no arguments. -/
def empty : Sql := ⟨"", []⟩

/-- Text that binds nothing. -/
def raw (text : String) : Sql := ⟨text, []⟩

/-- One mark and its value. -/
def bind (v : Value) : Sql := ⟨"?", [v]⟩

/-- One piece after the other. -/
def append (a b : Sql) : Sql := ⟨a.text ++ b.text, a.args ++ b.args⟩

instance : Append Sql := ⟨append⟩

@[simp]
theorem text_append (a b : Sql) : (a ++ b).text = a.text ++ b.text := rfl

@[simp]
theorem args_append (a b : Sql) : (a ++ b).args = a.args ++ b.args := rfl

/-- Marks for a list of values, with commas between them. -/
def bindList : List Value → Sql
  | [] => empty
  | [v] => bind v
  | v :: vs => bind v ++ raw "," ++ bindList vs

/-- Whether there is no text; arguments do not count. -/
def isEmpty (q : Sql) : Bool := q.text.isEmpty

/-- The question marks outside quoted spans. -/
def placeholderCount (q : Sql) : Nat := Quotes.placeholders none q.text.toList

end Sql

end TableAccess
