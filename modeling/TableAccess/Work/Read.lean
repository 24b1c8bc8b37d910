import TableAccess.Statement
import TableAccess.Work.Context

/-!
Reading operations.

Every reader looks at the state of its context first. Records are bound from the cells of a row in
the order of the projection. A list reader takes all rows and then binds them from the first on; a
reader of one record takes one row and leaves the rest; a batch reader binds each row as it comes
and hands over a batch as soon as it is full, before the next row is taken. It reserves the room of a
whole batch before the first row of it comes, whether or not so many rows come, and a size for which
there cannot be room is a panic: the statement has been sent by then, but no row has been taken.
-/

namespace TableAccess.Context

variable {σ α : Type}

/-! ### Rows and records -/

/-- A record from a row: the cells are written into the record that `fresh` gives. -/
def bindRow (t : Table) (columns : List String) (fresh : Callback σ Record) (row : Row) :
    Run σ Record := do
  let r ← Run.callback fresh
  let (r, outcome) := t.bind r columns row.cells
  let () ← Run.ofExcept outcome
  return r

/-- Maps rows from the first on, up to one that does not go well. -/
def mapRows (f : Row → Run σ α) : List Row → Run σ (List α)
  | [] => return []
  | row :: rest => do
    let a ← f row
    let as ← mapRows f rest
    return a :: as

/-- A record as it is before anything is written into it. -/
def fresh (t : Table) : Callback σ Record := fun env => (.ok t.blank, env)

/-- Hands a batch to its handler. -/
def handOver (handler : List α → Callback σ Unit) (batch : List α) : Run σ Unit := do
  Run.emit (.batch batch.length)
  Run.callback (handler batch)

/-- Takes rows as they come and hands over a batch whenever `size` of them have been mapped, and
what is left at the end. `held` are those mapped and not handed over yet. The room of the next batch
is reserved before a full one is handed over. -/
def deliver (width size : Nat) (f : Row → Run σ α) (handler : List α → Callback σ Unit) :
    List α → RowStream → Run σ Unit
  | held, [] => if held.isEmpty then return () else handOver handler held
  | held, .ok row :: rest => do
    Run.emit (.pulled true)
    let a ← f row
    let held := held ++ [a]
    if held.length = size then do
      Run.reserve width size
      handOver handler held
      deliver width size f handler [] rest
    else deliver width size f handler held rest
  | _, .error e :: _ => do
    Run.emit (.pulled false)
    Run.fail e

/-! ### The readers the others are made of -/

/-- The records that a selection asks for. -/
def select (tc : Context σ) (t : Table) (q : Selection) (fresh : Callback σ Record) :
    Run σ (List Record) := do
  let _ ← Run.ofExcept tc.check
  let stmt ← Run.ofExcept (Statement.select t tc.scope q)
  let rows ← tc.queryRows stmt.sql
  mapRows (bindRow t stmt.columns fresh) rows

/-- The first record that a selection asks for. -/
def selectFirst (tc : Context σ) (t : Table) (q : Selection) : Run σ (Option Record) := do
  let _ ← Run.ofExcept tc.check
  let stmt ← Run.ofExcept (Statement.select t tc.scope q)
  let stream ← tc.queryStream stmt.sql
  match ← Run.pull stream with
  | (none, _) => return none
  | (some row, _) => do
    let r ← bindRow t stmt.columns (fresh t) row
    return some r

/-- A selection among some identifiers; without any there is nothing to ask for. -/
def selectAmong (tc : Context σ) (t : Table) (ids : List Int64) (q : Selection) :
    Run σ (List Record) := do
  let _ ← Run.ofExcept tc.check
  if ids.isEmpty then return []
  else tc.select t { q with matcher := some (Matcher.among t.idColumn ids) } (fresh t)

/-- Hands the rows of a statement over in batches, which must not be empty. The statement comes with
what maps its rows, and `width` says how many bytes each of them takes in a batch. The size may be any
number, also one beyond a machine word, for which there is room only if nothing has a width. -/
def batches (tc : Context σ) (width size : Nat)
    (statement : Except Failure (Sql × (Row → Run σ α))) (handler : List α → Callback σ Unit) :
    Run σ Unit := do
  let _ ← Run.ofExcept tc.check
  if size = 0 then Run.fail .invalidBatchSize
  else do
    let (q, f) ← Run.ofExcept statement
    let stream ← tc.queryStream q
    Run.reserve width size
    deliver width size f handler [] stream

/-! ### Records -/

/-- Every record of a table. -/
def getAll (tc : Context σ) (t : Table) (view : Option View) : Run σ (List Record) :=
  tc.select t { view := view } (fresh t)

/-- The record of an identifier. -/
def getById (tc : Context σ) (t : Table) (id : Int64) (view : Option View) :
    Run σ (Option Record) :=
  tc.selectFirst t { matcher := some (Matcher.equals t.idColumn (.int id)), view := view }

/-- The records of some identifiers. -/
def getByIds (tc : Context σ) (t : Table) (ids : List Int64) (view : Option View) :
    Run σ (List Record) :=
  tc.selectAmong t ids { view := view }

/-- The records that match. -/
def queryList (tc : Context σ) (t : Table) (matcher : Option Matcher) (view : Option View)
    (orders : List Order) : Run σ (List Record) :=
  tc.select t { matcher := matcher, view := view, orders := orders } (fresh t)

/-- A page of the records that match. -/
def queryPage (tc : Context σ) (t : Table) (matcher : Option Matcher) (view : Option View)
    (pager : Pager) (orders : List Order) : Run σ (List Record) :=
  tc.select t { matcher := matcher, view := view, pager := some pager, orders := orders } (fresh t)

/-- The records that match, or a page of them, each written into one that the caller makes. -/
def queryListInto (tc : Context σ) (t : Table) (matcher : Option Matcher) (view : Option View)
    (pager : Option Pager) (orders : List Order) (factory : Callback σ Record) :
    Run σ (List Record) :=
  tc.select t { matcher := matcher, view := view, pager := pager, orders := orders } factory

/-- The first record that matches. -/
def queryOne (tc : Context σ) (t : Table) (matcher : Option Matcher) (view : Option View) :
    Run σ (Option Record) :=
  tc.selectFirst t { matcher := matcher, view := view }

/-- How many rows match. -/
def count (tc : Context σ) (t : Table) (matcher : Option Matcher) : Run σ Int64 := do
  let _ ← Run.ofExcept tc.check
  let q ← Run.ofExcept (Statement.count t tc.scope matcher)
  let stream ← tc.queryStream q
  match ← Run.pull stream with
  | (none, _) => return 0
  | (some row, _) => do
    let cell ← Run.ofExcept (row.read (.int .i64) 0)
    return cell.int?.getD 0

/-- The page that a limit on all rows asks for; only a positive limit is one. -/
def limitPager (limit : Option Int64) : Option Pager :=
  (limit.filter fun n => 0 < n).map Pager.limit

/-- Hands the records that match over in batches. -/
def queryBatches (tc : Context σ) (t : Table) (matcher : Option Matcher) (view : Option View)
    (orders : List Order) (limit : Option Int64) (width size : Nat)
    (handler : List Record → Callback σ Unit) : Run σ Unit :=
  let stmt :=
    Statement.select t tc.scope
      { matcher := matcher, view := view, pager := limitPager limit, orders := orders }
  tc.batches width size (stmt.map fun stmt => (stmt.sql, bindRow t stmt.columns (fresh t))) handler

/-! ### Locked records -/

/-- The record of an identifier, locked. -/
def lockById (tc : Context σ) (t : Table) (id : Int64) (lock : RowLock) : Run σ (Option Record) :=
  tc.selectFirst t
    { matcher := some (Matcher.equals t.idColumn (.int id)), lock := some lock }

/-- The records of some identifiers, locked. -/
def lockByIds (tc : Context σ) (t : Table) (ids : List Int64) (lock : RowLock)
    (orders : List Order) : Run σ (List Record) :=
  tc.selectAmong t ids { orders := orders, lock := some lock }

/-- The records that match, or a page of them, locked. -/
def lockList (tc : Context σ) (t : Table) (matcher : Option Matcher) (view : Option View)
    (pager : Option Pager) (orders : List Order) (lock : RowLock) : Run σ (List Record) :=
  tc.select t
    { matcher := matcher, view := view, pager := pager, orders := orders, lock := some lock }
    (fresh t)

/-- The first record that matches, locked. -/
def lockOne (tc : Context σ) (t : Table) (matcher : Option Matcher) (view : Option View)
    (lock : RowLock) : Run σ (Option Record) :=
  tc.selectFirst t { matcher := matcher, view := view, lock := some lock }

/-! ### Statements of the caller's own -/

/-- The rows of a statement, each mapped by the caller. -/
def queryRaw (tc : Context σ) (q : Sql) (mapper : Row → Callback σ α) : Run σ (List α) := do
  let rows ← tc.queryRows q
  mapRows (fun row => Run.callback (mapper row)) rows

/-- Hands the mapped rows of a statement over in batches. -/
def queryRawBatches (tc : Context σ) (q : Sql) (width size : Nat) (mapper : Row → Callback σ α)
    (handler : List α → Callback σ Unit) : Run σ Unit :=
  tc.batches width size (.ok (q, fun row => Run.callback (mapper row))) handler

end TableAccess.Context
