import TableAccess.Row
import TableAccess.Work.Trace

/-!
Runs: what a database, hooks and callbacks are, and how effects are put in order.

A `Backend` is a database as a unit of work sees it: functions on a state of its own that may answer
and change in any way. A `Run` is a computation over a backend and a `World`, which holds that state
and the trace so far; it ends with a value, with a failure or with a panic, and nothing else is
hidden in it. Every function here that reaches the backend adds its event to the trace, so a trace
says all that was asked.
-/

namespace TableAccess

/-- How a computation ends. -/
inductive Ending (α : Type) where
  | ok (value : α)
  | error (failure : Failure)
  | panic (payload : String)
  deriving DecidableEq

namespace Ending

def ofExcept {α : Type} : Except Failure α → Ending α
  | .ok a => .ok a
  | .error f => .error f

/-- Whether the computation came to its value. -/
def isOk {α : Type} : Ending α → Bool
  | .ok _ => true
  | _ => false

/-- The same ending of another value. -/
def map {α β : Type} (f : α → β) : Ending α → Ending β
  | .ok a => .ok (f a)
  | .error e => .error e
  | .panic p => .panic p

end Ending

/-- An answer that takes a while: after `wait` milliseconds the outcome and the state that goes with
it. -/
structure Reply (σ α : Type) where
  wait : Nat
  outcome : Except Failure α
  env : σ

/-- What an insert reports: how many rows it wrote, and the generated value if one was asked for. -/
structure Inserted where
  affected : Nat
  generatedId : Option Int64
  deriving DecidableEq

/-- The rows of a result as they come, each one a row or the failure of the stream. -/
abbrev RowStream := List (Except Failure Row)

/-- A database: what it does when asked, in any state `σ` of its own. -/
structure Backend (σ : Type) where
  acquire : Nat → σ → Reply σ Unit
  begin : Connection → Bool → σ → Reply σ Unit
  commit : Connection → σ → Except Failure Unit × σ
  rollback : Connection → σ → Except Failure Unit × σ
  query : Connection → String → List Value → σ → Except Failure RowStream × σ
  execute : Connection → String → List Value → σ → Except Failure Nat × σ
  insert : Connection → String → List Value → Option String → σ → Except Failure Inserted × σ
  close : Connection → σ → σ
  discard : Connection → σ → σ
  closePool : Nat → σ → σ

/-- The state of a database and of the callers' own code, what has happened so far, and how many
connections have been granted. -/
structure World (σ : Type) where
  env : σ
  trace : List Event := []
  granted : Nat := 0

/-- Code of the caller that runs inside an operation. -/
abbrev Callback (σ α : Type) := σ → Ending α × σ

/-- What a hook does: how it ends, what it makes of its subject, and what it logs. -/
structure Hooked (σ S : Type) where
  ending : Ending Unit
  subject : S
  env : σ
  logs : List LogRecord := []

/-- A hook on a subject. -/
abbrev Hook (σ S : Type) := S → σ → Hooked σ S

/-- The hook that does nothing. -/
def Hook.pass {σ S : Type} : Hook σ S := fun subject env => ⟨.ok (), subject, env, []⟩

/-- Whether the elements of a list fit in one block of memory, which a word with a sign can measure.
The width of an element is counted in bytes, and an element without a width takes no room at all. -/
def HasRoom (width count : Nat) : Prop := count * width < Nat.pow 2 63

instance (width count : Nat) : Decidable (HasRoom width count) := inferInstanceAs (Decidable (_ < _))

/-- A computation over a backend and a world. -/
def Run (σ α : Type) : Type := Backend σ → World σ → Ending α × World σ

namespace Run

variable {σ α β S : Type}

def pure (a : α) : Run σ α := fun _ w => (.ok a, w)

/-- One computation and then, if it came to its value, another. -/
def bind (x : Run σ α) (f : α → Run σ β) : Run σ β := fun b w =>
  match x b w with
  | (.ok a, w) => f a b w
  | (.error e, w) => (.error e, w)
  | (.panic p, w) => (.panic p, w)

instance : Monad (Run σ) where
  pure := pure
  bind := bind

/-- The computation that ends in a given way. -/
def ofEnding (e : Ending α) : Run σ α := fun _ w => (e, w)

def fail (f : Failure) : Run σ α := ofEnding (.error f)

def panic (payload : String) : Run σ α := ofEnding (.panic payload)

/-- The result of a pure function. -/
def ofExcept (x : Except Failure α) : Run σ α := ofEnding (.ofExcept x)

/-- Reserves room for some elements of a width in bytes, and panics where there cannot be any. -/
def reserve (width count : Nat) : Run σ Unit :=
  ofEnding (if HasRoom width count then .ok () else .panic "capacity overflow")

/-- Runs a computation to its end, whichever it is. -/
def ending (x : Run σ α) : Run σ (Ending α) := fun b w =>
  let (e, w) := x b w
  (.ok e, w)

/-- Adds an event to the trace. -/
def emit (e : Event) : Run σ Unit := fun _ w => (.ok (), { w with trace := w.trace ++ [e] })

/-- Adds a log record to the trace. -/
def log (r : LogRecord) : Run σ Unit := emit (.logged r)

/-- Adds log records to the trace. -/
def logAll (records : List LogRecord) : Run σ Unit := fun _ w =>
  (.ok (), { w with trace := w.trace ++ records.map .logged })

/-- Changes the state of the database and of the callers' code. -/
def modifyEnv (f : σ → σ) : Run σ Unit := fun _ w => (.ok (), { w with env := f w.env })

/-- Runs a callback. -/
def callback (c : Callback σ α) : Run σ α := fun _ w =>
  let (e, env) := c w.env
  (e, { w with env := env })

/-- Runs a hook and keeps what it made of its subject, however it ended. -/
def hook (h : Hook σ S) (subject : S) : Run σ (Ending Unit × S) := fun _ w =>
  let r := h subject w.env
  (.ok (r.ending, r.subject), { w with env := r.env, trace := w.trace ++ r.logs.map .logged })

/-- Runs hooks in order, each on what the one before made of the subject, up to the first that does
not end well. The event says which hook is about to run. -/
def hooks (note : Nat → Event) : Nat → List (Hook σ S) → S → Run σ (Ending Unit × S)
  | _, [], subject => return (.ok (), subject)
  | i, h :: rest, subject => do
    emit (note i)
    let (e, subject) ← hook h subject
    match e with
    | .ok () => hooks note (i + 1) rest subject
    | e => return (e, subject)

/-- Asks a pool for a connection; none if the answer takes longer than `bound`, and then nothing has
happened. -/
def acquire (pool bound : Nat) : Run σ (Option (Except Failure Connection)) := fun b w =>
  let reply := b.acquire pool w.env
  if bound < reply.wait then (.ok none, w)
  else
    match reply.outcome with
    | .ok () =>
      let conn : Connection := ⟨pool, w.granted⟩
      (.ok (some (.ok conn)), ⟨reply.env, w.trace ++ [.granted conn], w.granted + 1⟩)
    | .error f => (.ok (some (.error f)), ⟨reply.env, w.trace ++ [.refused pool], w.granted⟩)

/-- Whether a call came to its value. -/
def succeeded : Except Failure α → Bool
  | .ok _ => true
  | .error _ => false

/-- Begins a transaction; none if the answer takes longer than `bound`, and then nothing has
happened. -/
def begin (conn : Connection) (readOnly : Bool) (bound : Nat) :
    Run σ (Option (Except Failure Unit)) := fun b w =>
  let reply := b.begin conn readOnly w.env
  if bound < reply.wait then (.ok none, w)
  else
    (.ok (some reply.outcome),
      { w with
        env := reply.env
        trace := w.trace ++ [.called conn (.begin readOnly) (succeeded reply.outcome)] })

/-- Makes a call of a connection. -/
def call (conn : Connection) (c : Call) (f : Backend σ → σ → Except Failure α × σ) :
    Run σ (Except Failure α) := fun b w =>
  let (outcome, env) := f b w.env
  (.ok outcome,
    { w with env := env, trace := w.trace ++ [.called conn c (succeeded outcome)] })

def commit (conn : Connection) : Run σ (Except Failure Unit) :=
  call conn .commit fun b env => b.commit conn env

def rollback (conn : Connection) : Run σ (Except Failure Unit) :=
  call conn .rollback fun b env => b.rollback conn env

/-- The rows of a query, none of which has been taken yet. -/
def query (conn : Connection) (sql : String) (args : List Value) : Run σ RowStream := do
  let outcome ← call conn (.query sql args) fun b env => b.query conn sql args env
  ofExcept outcome

/-- How many rows a statement changed. -/
def execute (conn : Connection) (sql : String) (args : List Value) : Run σ Nat := do
  let outcome ← call conn (.execute sql args) fun b env => b.execute conn sql args env
  ofExcept outcome

/-- What an insert did. -/
def insert (conn : Connection) (sql : String) (args : List Value) (generated : Option String) :
    Run σ Inserted := do
  let outcome ←
    call conn (.insert sql args generated) fun b env => b.insert conn sql args generated env
  ofExcept outcome

/-- Gives a connection back to its pool. -/
def close (conn : Connection) : Run σ Unit := fun b w =>
  (.ok (), { w with env := b.close conn w.env, trace := w.trace ++ [.closed conn] })

/-- Drops a connection that must not go back to its pool. -/
def discard (conn : Connection) : Run σ Unit := fun b w =>
  (.ok (), { w with env := b.discard conn w.env, trace := w.trace ++ [.discarded conn] })

/-- Closes a pool. -/
def closePool (pool : Nat) : Run σ Unit := fun b w =>
  (.ok (), { w with env := b.closePool pool w.env, trace := w.trace ++ [.poolClosed pool] })

/-! ### How the parts run -/

section Apply

variable (b : Backend σ) (w : World σ)

@[simp]
theorem pure_apply (a : α) : (Pure.pure a : Run σ α) b w = (.ok a, w) := rfl

@[simp]
theorem bind_apply (x : Run σ α) (f : α → Run σ β) :
    (x >>= f) b w =
      match x b w with
      | (.ok a, w) => f a b w
      | (.error e, w) => (.error e, w)
      | (.panic p, w) => (.panic p, w) := rfl

@[simp]
theorem ofEnding_apply (e : Ending α) : ofEnding e b w = (e, w) := rfl

@[simp]
theorem fail_apply (f : Failure) : (fail f : Run σ α) b w = (.error f, w) := rfl

@[simp]
theorem panic_apply (p : String) : (panic p : Run σ α) b w = (.panic p, w) := rfl

@[simp]
theorem ofExcept_ok_apply (a : α) : (ofExcept (.ok a) : Run σ α) b w = (.ok a, w) := rfl

@[simp]
theorem ofExcept_error_apply (f : Failure) :
    (ofExcept (.error f) : Run σ α) b w = (.error f, w) := rfl

@[simp]
theorem ending_apply (x : Run σ α) : x.ending b w = (.ok (x b w).1, (x b w).2) := rfl

@[simp]
theorem emit_apply (e : Event) :
    emit e b w = (.ok (), { w with trace := w.trace ++ [e] }) := rfl

@[simp]
theorem log_apply (r : LogRecord) :
    log r b w = (.ok (), { w with trace := w.trace ++ [.logged r] }) := rfl

@[simp]
theorem logAll_apply (rs : List LogRecord) :
    logAll rs b w = (.ok (), { w with trace := w.trace ++ rs.map .logged }) := rfl

@[simp]
theorem modifyEnv_apply (f : σ → σ) : modifyEnv f b w = (.ok (), { w with env := f w.env }) := rfl

@[simp]
theorem callback_apply (c : Callback σ α) :
    callback c b w = ((c w.env).1, { w with env := (c w.env).2 }) := rfl

end Apply

theorem reserve_eq {width count : Nat} (h : HasRoom width count) :
    (reserve width count : Run σ Unit) = return () := congrArg ofEnding (if_pos h)

theorem reserve_eq_panic {width count : Nat} (h : ¬ HasRoom width count) :
    (reserve width count : Run σ Unit) = panic "capacity overflow" := congrArg ofEnding (if_neg h)

/-! ### Results -/

/-- Takes one item off a result, if there is one. -/
def pull : RowStream → Run σ (Option Row × RowStream)
  | [] => return (none, [])
  | .ok row :: rest => do
    emit (.pulled true)
    return (some row, rest)
  | .error f :: _ => do
    emit (.pulled false)
    fail f

/-- Takes every row off a result, up to the first failure. -/
def pullAll : RowStream → Run σ (List Row)
  | [] => return []
  | .ok row :: rest => do
    emit (.pulled true)
    let rows ← pullAll rest
    return row :: rows
  | .error f :: _ => do
    emit (.pulled false)
    fail f

end Run

end TableAccess
