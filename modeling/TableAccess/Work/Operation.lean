import TableAccess.Work.Read
import TableAccess.Work.Write

/-!
What a unit of work can be asked.

An `Operation` is one request with its arguments, and `Operation.run` does what the reader or writer
of that name does. It answers with a report, which says how the operation ended and what has become
of the records that were given to it, and with the context as it is then.
-/

namespace TableAccess

/-- One request of a unit of work. Rows of the caller's own statements are mapped to `ρ`. An element of
a batch is as wide as a text, which is three words, unless another width is given. -/
inductive Operation (σ ρ : Type) where
  | check
  | inspect
  | complete (reason : Option Failure)
  | completeWithPanic (reason : Option Failure) (payload : Option String)
  | getAll (t : Table) (view : Option View)
  | getById (t : Table) (id : Int64) (view : Option View)
  | getByIds (t : Table) (ids : List Int64) (view : Option View)
  | queryList (t : Table) (matcher : Option Matcher) (view : Option View) (orders : List Order)
  | queryPage (t : Table) (matcher : Option Matcher) (view : Option View) (pager : Pager)
      (orders : List Order)
  | queryListInto (t : Table) (matcher : Option Matcher) (view : Option View)
      (pager : Option Pager) (orders : List Order) (factory : Callback σ Record)
  | queryOne (t : Table) (matcher : Option Matcher) (view : Option View)
  | count (t : Table) (matcher : Option Matcher)
  | queryBatches (t : Table) (matcher : Option Matcher) (view : Option View)
      (orders : List Order) (limit : Option Int64) (size : Nat)
      (handler : List Record → Callback σ Unit) (width : Nat := 24)
  | queryRaw (q : Sql) (mapper : Row → Callback σ ρ)
  | queryRawBatches (q : Sql) (size : Nat) (mapper : Row → Callback σ ρ)
      (handler : List ρ → Callback σ Unit) (width : Nat := 24)
  | lockById (t : Table) (id : Int64) (lock : RowLock)
  | lockByIds (t : Table) (ids : List Int64) (lock : RowLock) (orders : List Order)
  | lockList (t : Table) (matcher : Option Matcher) (view : Option View) (pager : Option Pager)
      (orders : List Order) (lock : RowLock)
  | lockOne (t : Table) (matcher : Option Matcher) (view : Option View) (lock : RowLock)
  | insert (t : Table) (r : Record)
  | update (t : Table) (r : Record)
  | updateList (t : Table) (rs : List Record)
  | modifyById (t : Table) (calls : List Assignment) (id : Int64)
  | modifyByIds (t : Table) (calls : List Assignment) (ids : List Int64)
  | modify (t : Table) (calls : List Assignment) (matcher : Matcher)
  | executeRaw (q : Sql)
  | deleteById (t : Table) (id : Int64)
  | deleteByIds (t : Table) (ids : List Int64)
  | delete (t : Table) (matcher : Matcher)

/-- What an operation answers. -/
inductive Answer (ρ : Type) where
  | done
  | seen (s : Snapshot)
  | affected (rows : Nat)
  | counted (rows : Int64)
  | records (rs : List Record)
  | record (r : Option Record)
  | mapped (rows : List ρ)

/-- How an operation ended, and the records it was given as they are then. -/
structure Report (ρ : Type) where
  result : Ending (Answer ρ)
  records : List Record := []

/-- The modifier that a sequence of assignments builds. Replacing an assignment is logged. -/
def Modifier.assemble {σ : Type} (calls : List Assignment) : Run σ Modifier := do
  Run.logAll ((Modifier.replacedFrom {} calls).map .reassigned)
  return Modifier.ofList calls

namespace Operation

variable {σ ρ α : Type}

/-- Reports on what leaves the context and all records alone. -/
def plain (tc : Context σ) (answer : α → Answer ρ) (x : Run σ α) :
    Run σ (Report ρ × Context σ) := do
  let e ← x.ending
  return ({ result := e.map answer }, tc)

/-- Reports on what writes records. -/
def writing (tc : Context σ) (records : α → List Record) (x : Run σ (Ending Nat × α)) :
    Run σ (Report ρ × Context σ) := do
  let (e, a) ← x
  return ({ result := e.map .affected, records := records a }, tc)

/-- Reports on what ends the context. -/
def ending (x : Run σ (Ending Unit × Context σ)) : Run σ (Report ρ × Context σ) := do
  let (e, tc) ← x
  return ({ result := e.map fun _ => .done }, tc)

/-- Does what is asked. -/
def run (tc : Context σ) : Operation σ ρ → Run σ (Report ρ × Context σ)
  | check => plain tc (fun _ => .done) (Run.ofExcept tc.check)
  | inspect => plain tc .seen (return tc.toSnapshot)
  | complete reason => ending (tc.completeWithPanic reason none)
  | completeWithPanic reason payload => ending (tc.completeWithPanic reason payload)
  | getAll t view => plain tc .records (tc.getAll t view)
  | getById t id view => plain tc .record (tc.getById t id view)
  | getByIds t ids view => plain tc .records (tc.getByIds t ids view)
  | queryList t matcher view orders => plain tc .records (tc.queryList t matcher view orders)
  | queryPage t matcher view pager orders =>
    plain tc .records (tc.queryPage t matcher view pager orders)
  | queryListInto t matcher view pager orders factory =>
    plain tc .records (tc.queryListInto t matcher view pager orders factory)
  | queryOne t matcher view => plain tc .record (tc.queryOne t matcher view)
  | count t matcher => plain tc .counted (tc.count t matcher)
  | queryBatches t matcher view orders limit size handler width =>
    plain tc (fun _ => .done) (tc.queryBatches t matcher view orders limit width size handler)
  | queryRaw q mapper => plain tc .mapped (tc.queryRaw q mapper)
  | queryRawBatches q size mapper handler width =>
    plain tc (fun _ => .done) (tc.queryRawBatches q width size mapper handler)
  | lockById t id lock => plain tc .record (tc.lockById t id lock)
  | lockByIds t ids lock orders => plain tc .records (tc.lockByIds t ids lock orders)
  | lockList t matcher view pager orders lock =>
    plain tc .records (tc.lockList t matcher view pager orders lock)
  | lockOne t matcher view lock => plain tc .record (tc.lockOne t matcher view lock)
  | insert t r => writing tc ([·]) (tc.insert t r)
  | update t r => writing tc ([·]) (tc.update t r)
  | updateList t rs => writing tc id (tc.updateList t rs)
  | modifyById t calls id =>
    plain tc .affected do tc.modifyById t (← Modifier.assemble calls) id
  | modifyByIds t calls ids =>
    plain tc .affected do tc.modifyByIds t (← Modifier.assemble calls) ids
  | modify t calls matcher =>
    plain tc .affected do tc.modify t (← Modifier.assemble calls) matcher
  | executeRaw q => plain tc .affected (tc.executeRaw q)
  | deleteById t id => plain tc .affected (tc.deleteById t id)
  | deleteByIds t ids => plain tc .affected (tc.deleteByIds t ids)
  | delete t matcher => plain tc .affected (tc.delete t matcher)

end Operation

end TableAccess
