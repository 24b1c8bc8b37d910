import TableAccess.Page
import TableAccess.Sql.Condition
import TableAccess.Sql.Modifier
import TableAccess.Table
import TableAccess.Text.Ident

/-!
Statements over one table.

Each function here puts a table, a request's scope and what the caller asks for together into one
statement; no connection is touched. Columns of a projection or an order must be plain identifiers.
A mutation whose condition compiles to nothing is refused, so no statement changes all rows by
omission.
-/

namespace TableAccess

/-- The lock that a select takes on its rows. -/
inductive RowLock where
  | wait | skipLocked
  deriving DecidableEq

def RowLock.text : RowLock → String
  | wait => " for update"
  | skipLocked => " for update skip locked"

/-- What a select asks for. -/
structure Selection where
  matcher : Option Matcher := none
  view : Option View := none
  pager : Option Pager := none
  orders : List Order := []
  lock : Option RowLock := none

/-- A select and the columns it projects, in the order of its rows' cells. -/
structure SelectStatement where
  sql : Sql
  columns : List String
  deriving DecidableEq

namespace Statement

/-- The table that statements under a scope name. -/
def tableName (t : Table) (s : Scope) : String := t.physical s.tableKey

/-- The condition as ` where …`, or nothing if it says nothing. -/
def condition (matcher : Option Matcher) : Except Failure Sql :=
  match matcher with
  | none => .ok Sql.empty
  | some m => do
    let q ← m.build
    return if q.isEmpty then Sql.empty else ⟨" where " ++ q.text, q.args⟩

/-- Refuses a column that is no plain identifier. -/
def checkColumn (clause : Clause) (column : String) : Except Failure Unit :=
  if Ident.isPlain column then .ok () else .error (.validation (.column clause column))

/-- Refuses the first column that is no plain identifier. -/
def checkColumns (clause : Clause) : List String → Except Failure Unit
  | [] => .ok ()
  | c :: cs => do
    checkColumn clause c
    checkColumns clause cs

/-- A column to order by, and its direction unless it is ascending. -/
def orderText (o : Order) : String := o.column ++ (if o.descending then " desc" else "")

/-- The order as ` order by …`, or nothing if there is nothing to order by. -/
def ordering (orders : List Order) : Except Failure String := do
  checkColumns .orderBy (orders.map Order.column)
  return if orders.isEmpty then "" else " order by " ++ ",".intercalate (orders.map orderText)

/-- The page as ` limit N` if it is the first and as ` limit OFF,N` if not. -/
def paging (pager : Option Pager) : Except Failure String :=
  match pager with
  | none => .ok ""
  | some p => do
    let offset ← p.offset
    return if p.number = 1 then s!" limit {p.size.toInt}"
      else s!" limit {offset.toInt},{p.size.toInt}"

/-- What follows the condition of a select: order, then page. -/
def suffix (pager : Option Pager) (orders : List Order) : Except Failure String := do
  let order ← ordering orders
  let page ← paging pager
  return order ++ page

/-- The statement `select … from … where … order by … limit … for update`. -/
def select (t : Table) (s : Scope) (q : Selection) : Except Failure SelectStatement := do
  let columns := View.resolve q.view t.columns
  checkColumns .select columns
  let cond ← condition q.matcher
  let tail ← suffix q.pager q.orders
  let lock := (q.lock.map RowLock.text).getD ""
  let head := "select " ++ ",".intercalate columns ++ " from " ++ tableName t s
  return ⟨Sql.raw head ++ cond ++ Sql.raw tail ++ Sql.raw lock, columns⟩

/-- The statement `select count(…) from … where …`. -/
def count (t : Table) (s : Scope) (matcher : Option Matcher) : Except Failure Sql := do
  let cond ← condition matcher
  return Sql.raw ("select count(" ++ t.generated.getD "*" ++ ") from " ++ tableName t s) ++ cond

/-- The statement `insert into …(…) values(…)` over the writable columns. -/
def insert (t : Table) (s : Scope) (r : Record) : Except Failure Sql := do
  let values ← t.values r true
  let head := "insert into " ++ tableName t s ++ "(" ++ ",".intercalate t.writable ++ ") values("
  return Sql.raw head ++ Sql.bindList values ++ Sql.raw ")"

/-- The statement `update … set … where …` for every writable column of the row that a record
names. -/
def update (t : Table) (s : Scope) (r : Record) : Except Failure Sql := do
  let id ←
    match r.get? t.idColumn with
    | some id => .ok id
    | none => .error (.validation (.noIdField t.name t.idColumn))
  let values ← t.values r true
  let cond ← condition (some (Matcher.equals t.idColumn id))
  let sets := ",".intercalate (t.writable.map (· ++ " = ?"))
  return ⟨"update " ++ tableName t s ++ " set " ++ sets, values⟩ ++ cond

/-- The condition of a mutation, which must say something. -/
def required (mutation : Mutation) (matcher : Option Matcher) : Except Failure Sql := do
  let cond ← condition matcher
  if cond.isEmpty then .error (.missingCondition mutation) else .ok cond

/-- The statement `update … set … where …` for a modifier; none if it assigns nothing. -/
def modify (t : Table) (s : Scope) (m : Modifier) (matcher : Option Matcher) :
    Except Failure (Option Sql) :=
  if m.isEmpty then .ok none
  else do
    let cond ← required .update matcher
    return some (Sql.raw ("update " ++ tableName t s ++ " ") ++ m.compile ++ cond)

/-- The statement `delete from … where …`. -/
def delete (t : Table) (s : Scope) (matcher : Option Matcher) : Except Failure Sql := do
  let cond ← required .delete matcher
  return Sql.raw ("delete from " ++ tableName t s) ++ cond

/-- Whether a mutation is refused because its condition compiles to nothing. -/
def lacksCondition (matcher : Option Matcher) : Bool :=
  match condition matcher with
  | .ok cond => cond.isEmpty
  | .error _ => false

end Statement

end TableAccess
