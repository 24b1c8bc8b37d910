import TableAccess.Work.Operation

/-!
The caller's part of a unit of work.

`Work` is what a caller does with an open context: one operation after the other, each chosen by
what the ones before reported, and at the end a value, a failure or a panic of its own. Calling the
work for a context runs nothing of it yet, as an asynchronous closure runs nothing until it is awaited:
all of it is in its steps, and a panic of the work is one of a step or its end.
`Context.wrap` does the work and completes the context whichever way the work ends: a commit after a
value, a rollback after a failure or a panic. The caller's failure is the answer then, and a failure
to commit is the answer instead of the value.
-/

namespace TableAccess

/-- What a caller does with a context. After each operation `note` may change the caller's own
state. -/
inductive Work (σ ρ β : Type) where
  | finish (e : Ending β)
  | perform (op : Operation σ ρ) (note : Report ρ → σ → σ) (next : Report ρ → Work σ ρ β)

namespace Work

variable {σ ρ β : Type}

/-- Does the work: how it ended, and the context as it is then. A panic of an operation ends it. -/
def run : Work σ ρ β → Context σ → Run σ (Ending β × Context σ)
  | finish e, tc => return (e, tc)
  | perform op note next, tc => do
    let (report, tc) ← op.run tc
    match report.result with
    | .panic p => return (.panic p, tc)
    | _ => do
      Run.modifyEnv (note report)
      Run.emit (.answered tc.status)
      (next report).run tc

end Work

variable {σ ρ β : Type}

/-- Does work in a context and completes it. -/
def Context.wrap (tc : Context σ) (work : Work σ ρ β) : Run σ (Ending β × Context σ) := do
  let (e, tc) ← work.run tc
  match e with
  | .ok v => do
    let (completed, tc) ← tc.complete none
    match completed with
    | .ok () => return (.ok v, tc)
    | .error f => return (.error f, tc)
  | .error f => do
    let (_, tc) ← tc.complete (some f)
    return (.error f, tc)
  | .panic p => do
    let (_, tc) ← tc.complete (some .panicked)
    return (.panic p, tc)

/-- Opens a context, does work in it and completes it. -/
def Datasource.transact (ds : Datasource σ) (style : Style) (s : Scope) (work : Work σ ρ β) :
    Run σ β := do
  let tc ← ds.open style s
  let (e, _) ← tc.wrap work
  Run.ofEnding e

end TableAccess
