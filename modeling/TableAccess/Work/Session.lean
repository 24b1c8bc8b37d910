import TableAccess.Work.Unit

/-!
Several units of work on one datasource.

A `Session` holds open and finished contexts in numbered slots. Its steps may be interleaved in any
way: opening a context into a slot, which drops the one that was there, asking the context of a slot
for an operation, dropping it, doing work in it until it is completed, doing work in a context of
its own, and what a caller does outside of any context.
-/

namespace TableAccess

/-- Contexts by slot, the lowest slot first. -/
structure Session (σ : Type) where
  slots : List (Nat × Context σ) := []

/-- One step of a session. -/
inductive Step (σ ρ β : Type) where
  | «open» (slot : Nat) (style : Style) (s : Scope)
  | perform (slot : Nat) (op : Operation σ ρ)
  | drop (slot : Nat)
  | wrap (slot : Nat) (work : Work σ ρ β)
  | transact (style : Style) (s : Scope) (work : Work σ ρ β)
  | route (s : Scope)
  | shutdown
  | adjust (f : σ → σ)

/-- What a step gives. -/
inductive Outcome (ρ β : Type) where
  | done
  | reported (r : Report ρ)
  | worked (value : β)
  | routed (pool : Nat)

namespace Session

variable {σ ρ β α : Type}

/-- The context of a slot. -/
def get? (s : Session σ) (slot : Nat) : Option (Context σ) :=
  (s.slots.find? fun (n, _) => n = slot).map Prod.snd

/-- Slots with a context put into one of them. -/
def putInto (slot : Nat) (tc : Context σ) : List (Nat × Context σ) → List (Nat × Context σ)
  | [] => [(slot, tc)]
  | (n, other) :: rest =>
    if slot < n then (slot, tc) :: (n, other) :: rest
    else if n = slot then (n, tc) :: rest
    else (n, other) :: putInto slot tc rest

/-- The session with a context in a slot. -/
def put (s : Session σ) (slot : Nat) (tc : Context σ) : Session σ := ⟨putInto slot tc s.slots⟩

/-- The session without the context of a slot. -/
def remove (s : Session σ) (slot : Nat) : Session σ := ⟨s.slots.filter fun (n, _) => n ≠ slot⟩

/-- Drops the context of a slot, if there is one. -/
def dropSlot (s : Session σ) (slot : Nat) : Run σ (Session σ) := do
  match s.get? slot with
  | none => return s
  | some tc => do
    tc.drop
    return s.remove slot

/-- What a computation gives, for a session that it leaves alone. -/
def aside (s : Session σ) (f : α → Outcome ρ β) (x : Run σ α) :
    Run σ (Ending (Outcome ρ β) × Session σ) := do
  let e ← x.ending
  return (e.map f, s)

/-- Does one step: what it gives, and the session then. A slot that is empty is like a finished
context. -/
def step (ds : Datasource σ) (s : Session σ) :
    Step σ ρ β → Run σ (Ending (Outcome ρ β) × Session σ)
  | .open slot style scope => do
    match ← (ds.open style scope).ending with
    | .ok tc => do
      let s ← s.dropSlot slot
      return (.ok .done, s.put slot tc)
    | .error f => return (.error f, s)
    | .panic p => return (.panic p, s)
  | .perform slot op => do
    match s.get? slot with
    | none => return (.error .invalidState, s)
    | some tc => do
      let (report, tc) ← op.run tc
      return (.ok (.reported report), s.put slot tc)
  | .drop slot => do
    let s ← s.dropSlot slot
    return (.ok .done, s)
  | .wrap slot work => do
    match s.get? slot with
    | none => return (.error .invalidState, s)
    | some tc => do
      let (e, _) ← tc.wrap work
      return (e.map .worked, s.remove slot)
  | .transact style scope work => s.aside .worked (ds.transact style scope work)
  | .route scope => s.aside .routed (ds.poolFor scope)
  | .shutdown => s.aside (fun _ => .done) ds.shutdown
  | .adjust f => s.aside (fun _ => .done) (Run.modifyEnv f)

/-- Does steps in order. -/
def run (ds : Datasource σ) (s : Session σ) : List (Step σ ρ β) → Run σ (Session σ)
  | [] => return s
  | step :: rest => do
    let (_, s) ← s.step ds step
    s.run ds rest

/-- Drops what is left, the lowest slot first. -/
def finishFrom : List (Nat × Context σ) → Run σ Unit
  | [] => return ()
  | (_, tc) :: rest => do
    tc.drop
    finishFrom rest

/-- Ends the session. -/
def finish (s : Session σ) : Run σ Unit := finishFrom s.slots

end Session

end TableAccess
