import TableAccess.Settings
import TableAccess.Work.Interceptor

/-!
Datasources: one pool, or several behind a policy that chooses one for each request.
-/

namespace TableAccess

/-- A pool of connections, and how many it may hold if that is bounded. -/
structure Pool where
  capacity : Option Nat := none
  deriving DecidableEq

/-- Chooses one of some pools for the key that a request carries. -/
abbrev Policy := Option Value → Nat → Except Failure Nat

/-- The pool of an integer key's remainder; other keys choose none. -/
def Policy.byRemainder : Policy := fun key count =>
  if count = 0 then .error .noDatasource
  else
    match key with
    | some (.int k) => .ok (k.toInt % count).toNat
    | _ => .error .invalidShardKey

/-- Pools and what every unit of work on them has in common. The bound on acquiring a connection and
on beginning its transaction is in milliseconds. -/
structure Datasource (σ : Type) where
  pools : List Pool
  policy : Option Policy := none
  logSql : Bool := false
  acquireTimeout : Nat := Settings.defaultTimeout
  interceptors : List (Interceptor σ) := []

namespace Datasource

variable {σ : Type}

/-- A datasource with one pool. -/
def ofPool (pool : Pool) : Datasource σ := { pools := [pool] }

/-- A datasource with pools behind a policy; there must be a pool. -/
def sharded (pools : List Pool) (policy : Policy) : Except Failure (Datasource σ) :=
  if pools.isEmpty then .error .noDatasource else .ok { pools := pools, policy := some policy }

def isSharded (ds : Datasource σ) : Bool := ds.policy.isSome

/-- The pool that serves a scope. -/
def route (ds : Datasource σ) (s : Scope) : Except Failure Nat := do
  let index ←
    match ds.policy with
    | none => .ok 0
    | some policy => policy s.datasourceKey ds.pools.length
  if index < ds.pools.length then .ok index else .error .invalidShardKey

/-- The failure of the policy for a scope, if it is the policy that fails. -/
def policyFailure? (ds : Datasource σ) (s : Scope) : Option Failure :=
  match ds.policy with
  | none => none
  | some policy =>
    match policy s.datasourceKey ds.pools.length with
    | .ok _ => none
    | .error f => some f

/-- The pool that serves a scope; a failing policy is logged. -/
def poolFor (ds : Datasource σ) (s : Scope) : Run σ Nat := do
  match ds.policyFailure? s with
  | some f => Run.log (.shardingFailed s.traceId f)
  | none => pure ()
  Run.ofExcept (ds.route s)

/-- Closes pools from a number on. -/
def closeFrom : Nat → List Pool → Run σ Unit
  | _, [] => return ()
  | i, _ :: rest => do
    Run.closePool i
    closeFrom (i + 1) rest

/-- Closes every pool. -/
def shutdown (ds : Datasource σ) : Run σ Unit := closeFrom 0 ds.pools

end Datasource

end TableAccess
