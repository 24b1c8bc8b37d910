import TableAccess.Statement
import TableAccess.Work.Context

/-!
Writing operations.

A write looks at the state of its context, lets the hooks of its place change what is written, and
only then makes its statement. A record that is written is given back as it is afterwards, whether
the write went well or not: as the hooks left it, and with the generated value once the row is
there. A modifier is changed for the one statement only.
-/

namespace TableAccess.Context

variable {σ α S : Type}

/-- Runs a place's hooks on a subject and then a write of what they made of it, unless the context
is finished or a hook does not end well. The subject is given back as it is then. -/
def afterHooks (tc : Context σ) (point : HookPoint) (table : String) (columns : List String)
    (pick : Interceptor σ → Hook σ S) (subject : S) (write : S → Run σ (Ending α × S)) :
    Run σ (Ending α × S) :=
  match tc.check with
  | .error f => return (.error f, subject)
  | .ok _ => do
    let (e, subject) ← tc.runHooks point table columns pick subject
    match e with
    | .ok () => write subject
    | .error f => return (.error f, subject)
    | .panic p => return (.panic p, subject)

/-- The record with the value that the database generated for it, if it reported one. -/
def backfill (t : Table) (r : Record) (done : Inserted) : Ending Nat × Record :=
  match t.generated, done.generatedId with
  | some column, some id =>
    match r.set column (.int id) with
    | .ok r => (.ok done.affected, r)
    | .error f => (.error f, r)
  | _, _ => (.ok done.affected, r)

/-- Inserts a record: how many rows that wrote, and the record with its generated value. -/
def insert (tc : Context σ) (t : Table) (r : Record) : Run σ (Ending Nat × Record) :=
  tc.afterHooks .beforeInsert t.name [] (fun i => i.beforeInsert tc.scope t.name) r fun r => do
    let done ← Run.ending do
      let q ← Run.ofExcept (Statement.insert t tc.scope r)
      tc.insertRow q t.generated
    match done with
    | .ok done => return backfill t r done
    | .error f => return (.error f, r)
    | .panic p => return (.panic p, r)

/-- Writes a record back to its row. -/
def update (tc : Context σ) (t : Table) (r : Record) : Run σ (Ending Nat × Record) :=
  tc.afterHooks .beforeUpdate t.name [] (fun i => i.beforeUpdate tc.scope t.name) r fun r => do
    let done ← Run.ending do
      let q ← Run.ofExcept (Statement.update t tc.scope r)
      tc.execute q
    return (done, r)

/-- The failure of one update in a list after others wrote some rows. Those rows are written for
good only if there is no transaction. -/
def listFailure (style : Style) (written : Nat) (f : Failure) : Failure :=
  match style with
  | .none => .partialUpdate written f
  | _ => f

/-- Writes records back one after the other, up to the first that fails. `written` counts the rows
of those before. -/
def updateFrom (tc : Context σ) (t : Table) (written : Nat) :
    List Record → Run σ (Ending Nat × List Record)
  | [] => return (.ok written, [])
  | r :: rest => do
    let (e, r) ← tc.update t r
    match e with
    | .ok n => do
      let (e, rs) ← tc.updateFrom t (written + n) rest
      return (e, r :: rs)
    | .error f => return (.error (listFailure tc.style written f), r :: rest)
    | .panic p => return (.panic p, r :: rest)

/-- Writes records back: how many rows that wrote, and the records. -/
def updateList (tc : Context σ) (t : Table) (rs : List Record) : Run σ (Ending Nat × List Record) :=
  tc.updateFrom t 0 rs

/-- Logs that a mutation has no condition, if it does not. -/
def noteUnconditioned (tc : Context σ) (t : Table) (mutation : Mutation) (matcher : Matcher) :
    Run σ Unit :=
  if Statement.lacksCondition (some matcher) then
    Run.log (.unconditioned tc.traceId t.name mutation)
  else return ()

/-- Sends the update of a modifier; none is sent if it assigns nothing. -/
def sendModifier (tc : Context σ) (t : Table) (matcher : Matcher) (m : Modifier) : Run σ Nat := do
  if m.isEmpty then return 0
  else do
    tc.noteUnconditioned t .update matcher
    match ← Run.ofExcept (Statement.modify t tc.scope m (some matcher)) with
    | some q => tc.execute q
    | none => return 0

/-- Applies a modifier to the rows that match. -/
def modify (tc : Context σ) (t : Table) (m : Modifier) (matcher : Matcher) : Run σ Nat := do
  let hooks := fun i : Interceptor σ => i.beforeModify tc.scope t.name t.columns
  let (e, _) ← tc.afterHooks .beforeModify t.name t.columns hooks m fun m => do
    let e ← (tc.sendModifier t matcher m).ending
    return (e, m)
  Run.ofEnding e

/-- Applies a modifier to the row of an identifier. -/
def modifyById (tc : Context σ) (t : Table) (m : Modifier) (id : Int64) : Run σ Nat :=
  tc.modify t m (Matcher.equals t.idColumn (.int id))

/-- Applies a modifier to the rows of some identifiers; without any there is nothing to do. -/
def modifyByIds (tc : Context σ) (t : Table) (m : Modifier) (ids : List Int64) : Run σ Nat := do
  let _ ← Run.ofExcept tc.check
  if ids.isEmpty then return 0 else tc.modify t m (Matcher.among t.idColumn ids)

/-- Runs a statement of the caller's own. -/
def executeRaw (tc : Context σ) (q : Sql) : Run σ Nat := tc.execute q

/-- Deletes the rows that match. -/
def delete (tc : Context σ) (t : Table) (matcher : Matcher) : Run σ Nat := do
  let _ ← Run.ofExcept tc.check
  tc.noteUnconditioned t .delete matcher
  let q ← Run.ofExcept (Statement.delete t tc.scope (some matcher))
  tc.execute q

/-- Deletes the row of an identifier. -/
def deleteById (tc : Context σ) (t : Table) (id : Int64) : Run σ Nat :=
  tc.delete t (Matcher.equals t.idColumn (.int id))

/-- Deletes the rows of some identifiers; without any there is nothing to do. -/
def deleteByIds (tc : Context σ) (t : Table) (ids : List Int64) : Run σ Nat := do
  let _ ← Run.ofExcept tc.check
  if ids.isEmpty then return 0 else tc.delete t (Matcher.among t.idColumn ids)

end TableAccess.Context
