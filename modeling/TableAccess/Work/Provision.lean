import TableAccess.Address
import TableAccess.Work.Datasource

/-!
Datasources made from settings.

Nothing is connected when a datasource is made; only the address of each pool must be one.
-/

namespace TableAccess

/-- How a pool that has been closed refuses. -/
def Pool.closedFailure : Failure := .pool "Pool has been closed"

/-- The pool that settings ask for. -/
def Pool.ofSettings (s : Settings) : Except Failure Pool :=
  if Address.isUsable s.url then .ok { capacity := some s.capacity }
  else .error (.connection "invalid address")

/-- The pools that settings ask for, unless one has no usable address. -/
def Pool.ofSettingsList : List Settings → Except Failure (List Pool)
  | [] => .ok []
  | s :: rest => do
    let pool ← Pool.ofSettings s
    let pools ← Pool.ofSettingsList rest
    return pool :: pools

namespace Datasource

variable {σ : Type}

/-- A datasource with the one pool that settings ask for. -/
def ofSettings (s : Settings) : Except Failure (Datasource σ) := do
  let pool ← Pool.ofSettings s
  return { ofPool pool with logSql := s.logSql, acquireTimeout := s.acquireTimeout }

/-- A datasource with a pool for each of the settings, behind a policy. Statements are logged if any
of the settings ask for it; the bound on acquiring a connection is that of the first. -/
def ofSettingsList (settings : List Settings) (policy : Policy) :
    Except Failure (Datasource σ) := do
  let pools ← Pool.ofSettingsList settings
  let ds ← sharded pools policy
  .ok
    { ds with
      logSql := settings.any Settings.logSql
      acquireTimeout := (settings.head?.map Settings.acquireTimeout).getD Settings.defaultTimeout }

end Datasource

end TableAccess
