import TableAccess.Record
import TableAccess.Scope
import TableAccess.Sql.Modifier
import TableAccess.Work.Run

/-!
Hooks around units of work and writes.

An `Interceptor` is a hook for each place: after a unit of work has begun, before a record is
inserted or written back, and before a modifier update. A hook may change what it is given and may
refuse. `Interceptor.stamp` copies a value of the request's scope into the field of the same name.
-/

namespace TableAccess

/-- Hooks for each place. A place that is not given has the hook that does nothing. -/
structure Interceptor (σ : Type) where
  afterBegin : Scope → Hook σ Unit := fun _ => Hook.pass
  beforeInsert : Scope → String → Hook σ Record := fun _ _ => Hook.pass
  beforeUpdate : Scope → String → Hook σ Record := fun _ _ => Hook.pass
  beforeModify : Scope → String → List String → Hook σ Modifier := fun _ _ _ => Hook.pass

/-- Records that an assignment replaces an earlier one. -/
def Modifier.replacement (m : Modifier) (column : String) : List LogRecord :=
  if m.assigns column then [.reassigned column] else []

namespace Interceptor

variable {σ : Type}

/-- Writes a value of the scope into the record's field of the same name, if there are both. -/
def stampRecord (name : String) (s : Scope) : Hook σ Record := fun r env =>
  match s.value? name, r.get? name with
  | some v, some _ =>
    match r.set name v with
    | .ok r => ⟨.ok (), r, env, []⟩
    | .error f => ⟨.error f, r, env, []⟩
  | _, _ => Hook.pass r env

/-- Assigns a value of the scope to the column of the same name, if the scope has the value and the
table the column. -/
def stampModifier (name : String) (s : Scope) (columns : List String) : Hook σ Modifier :=
    fun m env =>
  match s.value? name with
  | some v =>
    if columns.contains name then ⟨.ok (), m.put ⟨name, .set, v⟩, env, m.replacement name⟩
    else Hook.pass m env
  | none => Hook.pass m env

/-- Copies a value of the scope into the field or column of the same name. -/
def stamp (name : String) : Interceptor σ where
  beforeInsert s _ := stampRecord name s
  beforeUpdate s _ := stampRecord name s
  beforeModify s _ columns := stampModifier name s columns

end Interceptor

end TableAccess
