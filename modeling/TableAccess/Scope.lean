import TableAccess.Value

/-!
What a request carries: its trace identifier, the keys that choose a table and a datasource, and
values that hooks read. An absent value is no key.
-/

namespace TableAccess

/-- What belongs to one unit of work. -/
structure Scope where
  traceId : String
  tableKey : Option Value := none
  datasourceKey : Option Value := none
  values : List (String × Value) := []
  deriving DecidableEq

namespace Scope

/-- The scope with the key that chooses a table. -/
def withTableKey (s : Scope) (key : Value) : Scope := { s with tableKey := key.present? }

/-- The scope with the key that chooses a datasource. -/
def withDatasourceKey (s : Scope) (key : Value) : Scope := { s with datasourceKey := key.present? }

/-- Values with one more; a name that is there already gets the new value. -/
def putValue (name : String) (v : Value) : List (String × Value) → List (String × Value)
  | [] => [(name, v)]
  | (n, w) :: rest => if n = name then (n, v) :: rest else (n, w) :: putValue name v rest

/-- The scope with one more value. -/
def withValue (s : Scope) (name : String) (v : Value) : Scope :=
  { s with values := putValue name v s.values }

/-- The value of a name. -/
def value? (s : Scope) (name : String) : Option Value :=
  (s.values.find? fun (n, _) => n = name).map Prod.snd

end Scope

end TableAccess
