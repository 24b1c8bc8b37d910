import TableAccess.Work.Run

/-!
What a run adds to the trace.

A run never takes anything off the trace, so what it does to the outside is the list of events that
it adds. `Run.Emits` says of a run that all of them are of one kind and that it grants no connection;
the rules below follow the way runs are put together, so the footprint of an operation is read off
its parts. `Run.Returns` says that a run ends with a value whatever the backend does.
-/

namespace TableAccess

/-- Whether an event is seen by a pool or by one of its connections. -/
def Event.isDriver : Event → Bool
  | .granted _ | .refused _ | .called .. | .closed _ | .discarded _ | .poolClosed _ => true
  | .hook .. | .pulled _ | .batch _ | .logged _ | .answered _ => false

/-- A call that is a statement: neither the beginning nor the end of a transaction. -/
def Call.isStatement : Call → Bool
  | .query .. | .execute .. | .insert .. => true
  | .begin _ | .commit | .rollback => false

/-- The events that pools and connections see. -/
def driverEvents (es : List Event) : List Event := es.filter Event.isDriver

theorem driverEvents_append (es fs : List Event) :
    driverEvents (es ++ fs) = driverEvents es ++ driverEvents fs := List.filter_append ..

theorem mem_driverEvents {e : Event} {es : List Event} :
    e ∈ driverEvents es ↔ e ∈ es ∧ e.isDriver = true := List.mem_filter

/-- Events that no pool and no connection sees. -/
theorem driverEvents_eq_nil {es : List Event} (h : ∀ e ∈ es, e.isDriver = false) :
    driverEvents es = [] :=
  List.filter_eq_nil_iff.mpr fun e he => by simp [h e he]

variable {σ α β S : Type}

/-- The second world is the first one after some more events and without a new connection. -/
structure World.Adds (w : World σ) (es : List Event) (w' : World σ) : Prop where
  trace : w'.trace = w.trace ++ es
  granted : w'.granted = w.granted

theorem World.Adds.refl (w : World σ) : w.Adds [] w := ⟨by simp, rfl⟩

/-- One event and a change of the state behind it. -/
theorem World.Adds.single (w : World σ) (e : Event) (env : σ) :
    w.Adds [e] ⟨env, w.trace ++ [e], w.granted⟩ := ⟨rfl, rfl⟩

theorem World.Adds.trans {w w' w'' : World σ} {es fs : List Event} (h : w.Adds es w')
    (h' : w'.Adds fs w'') : w.Adds (es ++ fs) w'' :=
  ⟨by rw [h'.trace, h.trace, List.append_assoc], h'.granted.trans h.granted⟩

namespace Run

/-- All that a run adds to the trace is of one kind, and it grants no connection. -/
def Emits (P : Event → Prop) (x : Run σ α) : Prop :=
  ∀ (b : Backend σ) (w : World σ), ∃ es, w.Adds es (x b w).2 ∧ ∀ e ∈ es, P e

/-- The run ends with a value. -/
def Returns (x : Run σ α) : Prop :=
  ∀ (b : Backend σ) (w : World σ), ∃ a, (x b w).1 = .ok a

variable {P Q : Event → Prop}

/-! ### What the parts of a run emit -/

theorem Emits.mono {x : Run σ α} (h : x.Emits P) (hPQ : ∀ e, P e → Q e) : x.Emits Q := by
  intro b w
  obtain ⟨es, hes, hP⟩ := h b w
  exact ⟨es, hes, fun e he => hPQ e (hP e he)⟩

/-- A run that leaves the trace alone emits nothing of any kind. -/
theorem emits_of_still {x : Run σ α}
    (h : ∀ (b : Backend σ) (w : World σ), w.Adds [] (x b w).2) : x.Emits P :=
  fun b w => ⟨[], h b w, by simp⟩

theorem emits_pure (a : α) : (Pure.pure a : Run σ α).Emits P :=
  emits_of_still fun _ w => .refl w

theorem emits_ofEnding (e : Ending α) : (ofEnding e : Run σ α).Emits P :=
  emits_of_still fun _ w => .refl w

theorem emits_ofExcept (x : Except Failure α) : (ofExcept x : Run σ α).Emits P := emits_ofEnding _

theorem emits_reserve (width count : Nat) : (reserve width count : Run σ Unit).Emits P :=
  emits_ofEnding _

theorem emits_fail (f : Failure) : (fail f : Run σ α).Emits P := emits_ofEnding _

theorem emits_callback (c : Callback σ α) : (callback c).Emits P :=
  emits_of_still fun _ w => ⟨by simp, rfl⟩

theorem emits_emit {e : Event} (h : P e) : (emit e : Run σ Unit).Emits P :=
  fun _ _ => ⟨[e], ⟨rfl, rfl⟩, by simpa using h⟩

theorem emits_log {r : LogRecord} (h : P (.logged r)) : (log r : Run σ Unit).Emits P := emits_emit h

theorem emits_logAll (rs : List LogRecord) (h : ∀ r, P (.logged r)) :
    (logAll rs : Run σ Unit).Emits P := by
  intro _ _
  refine ⟨rs.map .logged, ⟨rfl, rfl⟩, ?_⟩
  intro e he
  obtain ⟨r, _, rfl⟩ := List.mem_map.mp he
  exact h r

theorem emits_hook (hk : Hook σ S) (subject : S) (h : ∀ r, P (.logged r)) :
    (hook hk subject).Emits P := by
  intro _ w
  refine ⟨(hk subject w.env).logs.map .logged, ⟨rfl, rfl⟩, ?_⟩
  intro e he
  obtain ⟨r, _, rfl⟩ := List.mem_map.mp he
  exact h r

theorem emits_call {conn : Connection} {c : Call} {f : Backend σ → σ → Except Failure α × σ}
    (h : ∀ ok, P (.called conn c ok)) : (call conn c f).Emits P := by
  intro b w
  exact ⟨_, ⟨rfl, rfl⟩, by simpa using h _⟩

/-- A run and then another emit what both of them do. -/
theorem Emits.bind {x : Run σ α} {f : α → Run σ β} (hx : x.Emits P) (hf : ∀ a, (f a).Emits P) :
    (x >>= f).Emits P := by
  intro b w
  obtain ⟨es, hes, hP⟩ := hx b w
  rw [bind_apply]
  rcases hr : x b w with ⟨e, w'⟩
  rw [hr] at hes
  cases e with
  | error g => exact ⟨es, hes, hP⟩
  | panic p => exact ⟨es, hes, hP⟩
  | ok a =>
    obtain ⟨fs, hfs, hP'⟩ := hf a b w'
    refine ⟨es ++ fs, hes.trans hfs, ?_⟩
    intro e he
    rcases List.mem_append.mp he with h | h
    · exact hP e h
    · exact hP' e h

/-- What comes after a pure result may rely on that result. -/
theorem Emits.ofExcept_bind {x : Except Failure α} {f : α → Run σ β}
    (h : ∀ a, x = .ok a → (f a).Emits P) : (ofExcept x >>= f).Emits P := by
  cases x with
  | error g => exact emits_ofEnding (.error g)
  | ok a => exact h a rfl

theorem Emits.ending {x : Run σ α} (h : x.Emits P) : x.ending.Emits P := h

/-- Hooks emit their own events and what each of them logs. -/
theorem emits_hooks {note : Nat → Event} (hn : ∀ i, P (note i)) (hl : ∀ r, P (.logged r)) :
    ∀ (i : Nat) (hs : List (Hook σ S)) (subject : S), (hooks note i hs subject).Emits P
  | _, [], _ => emits_pure _
  | i, h :: hs, subject => by
    refine (emits_emit (hn i)).bind fun _ => (emits_hook h subject hl).bind ?_
    rintro ⟨e, subject⟩
    cases e with
    | ok _ => exact emits_hooks hn hl (i + 1) hs subject
    | error f => exact emits_pure _
    | panic p => exact emits_pure _

/-- Taking one row emits that it was taken. -/
theorem emits_pull (h : ∀ ok, P (.pulled ok)) : ∀ stream : RowStream,
    (pull stream : Run σ (Option Row × RowStream)).Emits P
  | [] => emits_pure _
  | .ok _ :: _ => (emits_emit (h true)).bind fun _ => emits_pure _
  | .error f :: _ => (emits_emit (h false)).bind fun _ => emits_fail f

/-- Taking all rows emits each one that is taken. -/
theorem emits_pullAll (h : ∀ ok, P (.pulled ok)) : ∀ stream : RowStream,
    (pullAll stream : Run σ (List Row)).Emits P
  | [] => emits_pure _
  | .ok _ :: rest =>
    (emits_emit (h true)).bind fun _ => (emits_pullAll h rest).bind fun _ => emits_pure _
  | .error f :: _ => (emits_emit (h false)).bind fun _ => emits_fail f

/-! ### What always comes to a value -/

theorem returns_pure (a : α) : (Pure.pure a : Run σ α).Returns := fun _ _ => ⟨a, rfl⟩

theorem returns_ending (x : Run σ α) : x.ending.Returns := fun b w => ⟨(x b w).1, rfl⟩

theorem Returns.bind {x : Run σ α} {f : α → Run σ β} (hx : x.Returns) (hf : ∀ a, (f a).Returns) :
    (x >>= f).Returns := by
  intro b w
  obtain ⟨a, ha⟩ := hx b w
  rw [bind_apply]
  rcases hr : x b w with ⟨e, w'⟩
  rw [hr] at ha
  subst ha
  exact hf a b w'

/-- Hooks always come to an end that is given back as a value. -/
theorem returns_hooks (note : Nat → Event) : ∀ (i : Nat) (hs : List (Hook σ S)) (subject : S),
    (hooks note i hs subject).Returns
  | _, [], _ => returns_pure _
  | i, h :: hs, subject => by
    refine Returns.bind (fun _ _ => ⟨(), rfl⟩) fun _ => Returns.bind (fun _ _ => ⟨_, rfl⟩) ?_
    rintro ⟨e, subject⟩
    cases e with
    | ok _ => exact returns_hooks note (i + 1) hs subject
    | error f => exact returns_pure _
    | panic p => exact returns_pure _

/-- The value of a run that returns, and the world it leaves behind. -/
theorem Returns.run_eq {x : Run σ α} (h : x.Returns) (b : Backend σ) (w : World σ) :
    ∃ a, x b w = (.ok a, (x b w).2) := by
  obtain ⟨a, ha⟩ := h b w
  exact ⟨a, Prod.ext ha rfl⟩

end Run

end TableAccess
