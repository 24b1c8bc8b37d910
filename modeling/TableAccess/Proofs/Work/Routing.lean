import Mathlib.Data.Int.ModEq
import TableAccess.Proofs.Sql.Naming
import TableAccess.Proofs.Work.Sessions

/-!
Which pool sees what.

A unit of work has one connection, so whatever it asks for is seen by the pool that serves its scope and
by no other: opening, every operation, completing and dropping, in sessions that hold any number of
contexts on any pools. Behind the policy of remainders that pool is the remainder of the integer key, and
without such a key, or where a policy answers with a pool that there is not, nothing is seen at all.
`Run.Yields` is the footprint of a run together with what is known of its value; unlike `Run.Emits` it
lets a run be granted a connection.
-/

namespace TableAccess

variable {σ ρ α β S : Type}

/-- The pool that sees an event of a unit of work. -/
def Event.pool? : Event → Option Nat
  | .granted conn | .called conn .. | .closed conn | .discarded conn => some conn.pool
  | .refused pool => some pool
  | .poolClosed _ | .hook .. | .pulled _ | .batch _ | .logged _ | .answered _ => none

theorem Event.pool?_eq_none {e : Event} (h : e.isDriver = false) : e.pool? = none := by
  cases e <;> first | rfl | cases h

/-! ### Footprints with a value -/

namespace Run

/-- All that a run adds to the trace is of one kind, and if it comes to a value, that is as it should
be. -/
def Yields (P : Event → Prop) (Q : α → Prop) (x : Run σ α) : Prop :=
  ∀ (b : Backend σ) (w : World σ), ∃ es, (x b w).2.trace = w.trace ++ es ∧ (∀ e ∈ es, P e) ∧
    ∀ a, (x b w).1 = .ok a → Q a

variable {P P' : Event → Prop} {Q Q' : α → Prop}

theorem Yields.mono {x : Run σ α} (h : x.Yields P Q) (hP : ∀ e, P e → P' e)
    (hQ : ∀ a, Q a → Q' a) : x.Yields P' Q' := by
  intro b w
  obtain ⟨es, hes, hall, ha⟩ := h b w
  exact ⟨es, hes, fun e he => hP e (hall e he), fun a hr => hQ a (ha a hr)⟩

/-- A footprint without grants, and a value that is known otherwise. -/
theorem Emits.yields {x : Run σ α} (h : x.Emits P) (hQ : ∀ b w a, (x b w).1 = .ok a → Q a) :
    x.Yields P Q := by
  intro b w
  obtain ⟨es, hes, hP⟩ := h b w
  exact ⟨es, hes.trace, hP, hQ b w⟩

/-- A footprint says nothing of the value. -/
theorem Emits.yields_any {x : Run σ α} (h : x.Emits P) : x.Yields P fun _ => True :=
  h.yields fun _ _ _ _ => trivial

theorem yields_pure {a : α} (h : Q a) : (Pure.pure a : Run σ α).Yields P Q :=
  (emits_pure a).yields fun _ _ _ hr => by cases hr; exact h

theorem yields_ofExcept {x : Except Failure α} (h : ∀ a, x = .ok a → Q a) :
    (ofExcept x : Run σ α).Yields P Q := by
  refine (emits_ofExcept x).yields fun b w a hr => h a ?_
  cases x with
  | error f => cases hr
  | ok a => cases hr; rfl

theorem yields_fail (f : Failure) : (fail f : Run σ α).Yields P Q :=
  (emits_fail f).yields fun _ _ _ hr => by cases hr

theorem yields_panic (p : String) : (panic p : Run σ α).Yields P Q :=
  (emits_ofEnding _).yields fun _ _ _ hr => by cases hr

/-- What comes after a run may rely on what is known of its value. -/
theorem Yields.bind {x : Run σ α} {f : α → Run σ β} {R : β → Prop} (hx : x.Yields P Q)
    (hf : ∀ a, Q a → (f a).Yields P R) : (x >>= f).Yields P R := by
  intro b w
  obtain ⟨es, hes, hP, hQ⟩ := hx b w
  rw [bind_apply]
  generalize x b w = r at hes hQ
  obtain ⟨e, w'⟩ := r
  cases e with
  | error g => exact ⟨es, hes, hP, nofun⟩
  | panic p => exact ⟨es, hes, hP, nofun⟩
  | ok a =>
    obtain ⟨fs, hfs, hP', hR⟩ := hf a (hQ a rfl) b w'
    refine ⟨es ++ fs, ?_, ?_, hR⟩
    · rw [hfs, hes, List.append_assoc]
    · intro e he
      rcases List.mem_append.mp he with he | he
      · exact hP e he
      · exact hP' e he

/-- A run that is kept to its end gives that as its value. -/
theorem Yields.ending {x : Run σ α} (h : x.Yields P Q) :
    x.ending.Yields P fun e => ∀ a, e = .ok a → Q a := by
  intro b w
  obtain ⟨es, hes, hP, hQ⟩ := h b w
  refine ⟨es, hes, hP, ?_⟩
  rintro e ⟨⟩
  exact hQ

/-- A pool that is asked for a connection sees that, and the connection is its own. -/
theorem yields_acquire {pool : Nat} (hP : ∀ e : Event, e.pool? = some pool → P e) (bound : Nat) :
    (acquire pool bound : Run σ _).Yields P
      fun reply => ∀ conn, reply = some (.ok conn) → conn.pool = pool := by
  intro b w
  simp only [acquire]
  by_cases hlate : bound < (b.acquire pool w.env).wait
  · rw [if_pos hlate]
    exact ⟨[], by simp, List.forall_mem_nil _, by rintro _ ⟨⟩ _ ⟨⟩⟩
  · rw [if_neg hlate]
    cases (b.acquire pool w.env).outcome with
    | ok u =>
      refine ⟨[.granted ⟨pool, w.granted⟩], rfl, ?_, by rintro _ ⟨⟩ _ ⟨⟩; rfl⟩
      simpa using hP _ rfl
    | error f =>
      refine ⟨[.refused pool], rfl, ?_, by rintro _ ⟨⟩ _ ⟨⟩⟩
      simpa using hP _ rfl

theorem emits_modifyEnv (f : σ → σ) : (modifyEnv f).Emits P :=
  emits_of_still fun _ _ => ⟨by simp, rfl⟩

section Connection

variable {conn : Connection} (hP : ∀ e : Event, e.pool? = some conn.pool → P e)

include hP

theorem emits_begin (readOnly : Bool) (bound : Nat) :
    (begin conn readOnly bound : Run σ _).Emits P := by
  intro b w
  simp only [begin]
  by_cases hlate : bound < (b.begin conn readOnly w.env).wait
  · rw [if_pos hlate]
    exact ⟨[], .refl w, List.forall_mem_nil _⟩
  · rw [if_neg hlate]
    exact ⟨_, ⟨rfl, rfl⟩, by simpa using hP _ rfl⟩

theorem emits_close : (close conn : Run σ Unit).Emits P :=
  fun _ _ => ⟨_, ⟨rfl, rfl⟩, by simpa using hP _ rfl⟩

theorem emits_discard : (discard conn : Run σ Unit).Emits P :=
  fun _ _ => ⟨_, ⟨rfl, rfl⟩, by simpa using hP _ rfl⟩

end Connection

end Run

open Run

/-! ### The pool of a scope -/

namespace Datasource

/-- Only pools that serve one of some scopes see the event. -/
def Serves (ds : Datasource σ) (C : Scope → Prop) (e : Event) : Prop :=
  ∀ pool, e.pool? = some pool → ∃ s, C s ∧ ds.route s = .ok pool

variable {ds : Datasource σ} {C C' : Scope → Prop} {s : Scope} {pool : Nat}

theorem Serves.mono {e : Event} (hC : ∀ s, C s → C' s) (h : ds.Serves C e) : ds.Serves C' e := by
  intro pool hpool
  obtain ⟨s, hs, hroute⟩ := h pool hpool
  exact ⟨s, hC s hs, hroute⟩

/-- No pool sees what no driver sees. -/
theorem serves_quiet (e : Event) (h : e.isDriver = false) : ds.Serves C e := by
  intro pool hpool
  rw [Event.pool?_eq_none h] at hpool
  cases hpool

/-- What the pool of a scope sees. -/
theorem serves_of_route (h : ds.route s = .ok pool) (e : Event) (he : e.pool? = some pool) :
    ds.Serves (· = s) e := by
  intro pool' hpool'
  rw [he] at hpool'
  cases hpool'
  exact ⟨s, rfl, h⟩

end Datasource

/-! ### Contexts -/

namespace Context

/-- The connection of a context is of the pool that serves its scope. -/
def Placed (ds : Datasource σ) (tc : Context σ) : Prop :=
  ∀ conn, tc.connection = some conn → ds.route tc.scope = .ok conn.pool

variable {ds : Datasource σ} {tc tc' : Context σ} {conn : Connection}

theorem Placed.of_or (h : tc.Placed ds) (h' : tc' = tc ∨ tc' = tc.invalidated) :
    tc'.Placed ds ∧ tc'.scope = tc.scope := by
  rcases h' with rfl | rfl
  · exact ⟨h, rfl⟩
  · exact ⟨nofun, rfl⟩

/-- What the connection of a placed context is asked is seen by the pool of its scope. -/
theorem Placed.serves (h : tc.Placed ds) (hc : tc.connection = some conn) (e : Event)
    (he : e.pool? = some conn.pool) : ds.Serves (· = tc.scope) e :=
  Datasource.serves_of_route (h conn hc) e he

theorem Placed.serves_of_touches (h : tc.Placed ds) (e : Event) (he : tc.Touches e) :
    ds.Serves (· = tc.scope) e := by
  cases he with
  | quiet hq => exact Datasource.serves_quiet e hq
  | statement hc hs => exact h.serves (check_eq_ok_iff.mp hc).2 _ rfl

/-- The end of a transaction is log records and what its connection sees. -/
theorem emits_endTransaction {P : Event → Prop} (hlog : ∀ r, P (.logged r))
    (hconn : ∀ e : Event, e.pool? = some conn.pool → P e) (traceId : String) (style : Style)
    (reason : Option Failure) : (endTransaction traceId style conn reason : Run σ _).Emits P := by
  have hcall : ∀ (call : Call) (f : Backend σ → σ → Except Failure Unit × σ),
      (Run.call conn call f).Emits P :=
    fun call f => emits_call fun ok => hconn _ rfl
  have hrollback : (rollback traceId conn : Run σ _).Emits P := by
    refine (hcall .rollback _).bind fun outcome => ?_
    cases outcome with
    | ok u => exact emits_pure _
    | error f => exact (emits_log (hlog _)).bind fun _ => emits_pure _
  have hcommit : (commit traceId conn : Run σ _).Emits P := by
    refine (hcall .commit _).bind fun outcome => ?_
    cases outcome with
    | ok u => exact emits_pure _
    | error f =>
      refine (emits_log (hlog _)).bind fun _ => (hcall .rollback _).bind fun outcome => ?_
      cases outcome with
      | ok u => exact (emits_pure _).bind fun _ => emits_pure _
      | error g => exact (emits_log (hlog _)).bind fun _ => emits_pure _
  by_cases hs : style = .none
  · rw [hs]
    exact emits_pure _
  · obtain ⟨hnone, hsome⟩ := endTransaction_of_ne (σ := σ) hs traceId conn
    cases reason with
    | none =>
      rw [hnone]
      exact hcommit
    | some f =>
      rw [hsome]
      exact hrollback

/-- Completing a context is log records and what its connection sees, and leaves it as it was or without
its connection. -/
theorem yields_complete_of {P : Event → Prop} (hlog : ∀ r, P (.logged r))
    (hconn : ∀ conn, tc.connection = some conn → ∀ e : Event, e.pool? = some conn.pool → P e)
    (reason : Option Failure) :
    (tc.complete reason).Yields P fun r => r.2 = tc ∨ r.2 = tc.invalidated := by
  have hlogs : ∀ r, (Run.log r : Run σ Unit).Emits P := fun r => emits_log (hlog r)
  unfold complete
  split
  · exact yields_pure (.inl rfl)
  · cases hc : tc.connection with
    | none =>
      cases reason with
      | none => exact yields_pure (.inr rfl)
      | some f => exact (hlogs _).yields_any.bind fun _ _ => yields_pure (.inr rfl)
    | some conn =>
      have hended : (do
          let outcome ← endTransaction tc.traceId tc.style conn reason
          Run.close conn
          return (outcome, tc.invalidated) : Run σ _).Yields P
            fun r => r.2 = tc ∨ r.2 = tc.invalidated :=
        (emits_endTransaction hlog (hconn conn hc) _ _ reason).yields_any.bind fun _ _ =>
          (emits_close (hconn conn hc)).yields_any.bind fun _ _ => yields_pure (.inr rfl)
      cases reason with
      | none => exact hended
      | some f => exact (hlogs _).yields_any.bind fun _ _ => hended

theorem yields_complete (h : tc.Placed ds) (reason : Option Failure) :
    (tc.complete reason).Yields (ds.Serves (· = tc.scope))
      fun r => r.2 = tc ∨ r.2 = tc.invalidated :=
  yields_complete_of (fun _ => Datasource.serves_quiet _ rfl) (fun _ hc => h.serves hc) reason

theorem emits_drop (h : tc.Placed ds) : tc.drop.Emits (ds.Serves (· = tc.scope)) := by
  unfold drop
  cases hc : tc.connection with
  | none => exact emits_pure _
  | some conn =>
    exact (emits_log (Datasource.serves_quiet _ rfl)).bind fun _ => emits_discard (h.serves hc)

theorem yields_completeWithPanic (h : tc.Placed ds) (reason : Option Failure)
    (payload : Option String) :
    (tc.completeWithPanic reason payload).Yields (ds.Serves (· = tc.scope))
      fun r => r.2 = tc ∨ r.2 = tc.invalidated := by
  cases payload with
  | none => exact (yields_complete h reason).bind fun _ htc => yields_pure htc
  | some p => exact (yields_complete h (some .panicked)).bind fun _ htc => yields_pure htc

end Context

variable {ds : Datasource σ} {tc : Context σ}

/-- Whatever an operation asks for is seen by the pool of its context's scope, and it leaves the context
as it was or finishes it. -/
theorem Operation.yields_run (h : tc.Placed ds) (op : Operation σ ρ) :
    (op.run tc).Yields (ds.Serves (· = tc.scope)) fun r => r.2 = tc ∨ r.2 = tc.invalidated := by
  cases hop : op.completes with
  | false =>
    obtain ⟨hemits, hkeeps⟩ : Keeps tc (op.run tc) := keeps_run op hop
    refine (hemits.mono h.serves_of_touches).yields fun b w r hr => .inl ?_
    obtain ⟨report, hreport⟩ := hkeeps b w
    rw [hreport] at hr
    cases hr
    rfl
  | true =>
    cases op with
    | complete reason =>
      exact (Context.yields_completeWithPanic h reason none).bind fun _ htc => yields_pure htc
    | completeWithPanic reason payload =>
      exact (Context.yields_completeWithPanic h reason payload).bind fun _ htc => yields_pure htc
    | _ => cases hop

/-- So is whatever work asks for, one operation after the other. -/
theorem Work.yields_run : ∀ (work : Work σ ρ β) {tc : Context σ}, tc.Placed ds →
    (work.run tc).Yields (ds.Serves (· = tc.scope)) fun r => r.2 = tc ∨ r.2 = tc.invalidated
  | .finish e, tc, _ => yields_pure (.inl rfl)
  | .perform op note next, tc, h => by
    refine (Operation.yields_run h op).bind ?_
    rintro ⟨report, tc'⟩ htc
    obtain ⟨hplaced, hscope⟩ := h.of_or htc
    have hnext : (do
        Run.modifyEnv (note report)
        Run.emit (.answered tc'.status)
        (next report).run tc' : Run σ _).Yields (ds.Serves (· = tc.scope))
          fun r => r.2 = tc ∨ r.2 = tc.invalidated := by
      refine Yields.bind (Q := fun _ => True) ?_ fun _ _ =>
        (emits_emit (Datasource.serves_quiet _ rfl)).yields_any.bind fun _ _ => ?_
      · exact (emits_modifyEnv _).yields_any
      · refine ((next report).yields_run hplaced).mono ?_ ?_
        · exact fun e he => he.mono fun s hs => hs.trans hscope
        · rintro r hr
          rcases htc with rfl | rfl
          · exact hr
          · exact .inr (hr.elim id id)
    cases hresult : report.result with
    | panic p => exact yields_pure htc
    | ok a | error f => exact hnext

/-- Wrapped work and the completion after it are seen by the pool of the context's scope. -/
theorem Context.yields_wrap (h : tc.Placed ds) (work : Work σ ρ β) :
    (tc.wrap work).Yields (ds.Serves (· = tc.scope)) fun _ => True := by
  refine (work.yields_run h).bind ?_
  rintro ⟨e, tc'⟩ htc
  obtain ⟨hplaced, hscope⟩ := h.of_or htc
  have hcomplete : ∀ reason, (tc'.complete reason).Yields (ds.Serves (· = tc.scope)) fun _ => True :=
    fun reason => (Context.yields_complete hplaced reason).mono
      (fun e he => he.mono fun s hs => hs.trans hscope) fun _ _ => trivial
  cases e with
  | ok v =>
    refine (hcomplete none).bind ?_
    rintro ⟨completed, tc''⟩ -
    cases completed <;> exact yields_pure trivial
  | error f => exact (hcomplete (some f)).bind fun _ _ => yields_pure trivial
  | panic p => exact (hcomplete (some .panicked)).bind fun _ _ => yields_pure trivial

/-! ### Opening -/

namespace Datasource

variable (ds : Datasource σ) (s : Scope)

theorem yields_poolFor {C : Scope → Prop} :
    (ds.poolFor s).Yields (ds.Serves C) fun pool => ds.route s = .ok pool := by
  unfold poolFor
  split
  · exact (emits_log (serves_quiet _ rfl)).yields_any.bind fun _ _ =>
      yields_ofExcept fun _ hroute => hroute
  · exact yields_ofExcept fun _ hroute => hroute

theorem yields_connect :
    (ds.connect s).Yields (ds.Serves (· = s)) fun conn => ds.route s = .ok conn.pool := by
  have hlog : ∀ r, (Run.log r : Run σ Unit).Emits (ds.Serves (· = s)) :=
    fun r => emits_log (serves_quiet _ rfl)
  refine (ds.yields_poolFor s).bind fun pool hroute => ?_
  refine (yields_acquire (serves_of_route hroute) _).bind ?_
  rintro (_ | f | conn) hreply
  · exact (hlog _).yields_any.bind fun _ _ => yields_fail _
  · exact (hlog _).yields_any.bind fun _ _ => yields_fail _
  · refine yields_pure ?_
    rw [hreply conn rfl]
    exact hroute

theorem emits_beginFor {conn : Connection} (h : ds.route s = .ok conn.pool) (style : Style) :
    (ds.beginFor style s conn).Emits (ds.Serves (· = s)) := by
  have hlog : ∀ r, (Run.log r : Run σ Unit).Emits (ds.Serves (· = s)) :=
    fun r => emits_log (serves_quiet _ rfl)
  have hconn := serves_of_route h
  unfold beginFor
  split
  · exact emits_pure _
  · refine (emits_begin hconn _ _).bind ?_
    rintro (_ | f | u)
    · exact (hlog _).bind fun _ => (emits_discard hconn).bind fun _ => emits_fail _
    · exact (hlog _).bind fun _ => (emits_close hconn).bind fun _ => emits_fail _
    · exact emits_pure _

/-- Opening is seen by the pool that serves the scope, and the connection of the context is of it. -/
theorem yields_open (style : Style) :
    (ds.open style s).Yields (ds.Serves (· = s)) fun tc =>
      tc.scope = s ∧ tc.Placed ds ∧ tc.connection.isSome = true := by
  refine (ds.yields_connect s).bind fun conn hroute => ?_
  refine (ds.emits_beginFor s hroute style).yields_any.bind fun _ _ => ?_
  let tc : Context σ :=
    { style := style, status := .init, scope := s, logSql := ds.logSql,
      connection := some conn, interceptors := ds.interceptors }
  have hplaced : tc.Placed ds := by
    rintro _ ⟨⟩
    exact hroute
  have hhooks : (tc.runHooks .afterBegin s.traceId [] (·.afterBegin s) ()).Emits
      (ds.Serves (· = s)) := Context.emits_runHooks serves_quiet _ _ _ _ _
  refine hhooks.yields_any.bind ?_
  rintro ⟨e, _⟩ -
  cases e with
  | ok u => exact yields_pure ⟨rfl, hplaced, rfl⟩
  | error f => exact (Context.yields_complete hplaced _).bind fun _ _ => yields_fail _
  | panic p => exact (Context.emits_drop hplaced).yields_any.bind fun _ _ => yields_panic _

theorem yields_transact (style : Style) (work : Work σ ρ β) :
    (ds.transact style s work).Yields (ds.Serves (· = s)) fun _ => True := by
  refine (ds.yields_open s style).bind ?_
  rintro tc ⟨rfl, hplaced, -⟩
  refine (Context.yields_wrap hplaced work).bind ?_
  rintro ⟨e, _⟩ -
  exact (emits_ofEnding e).yields_any

/-- The whole life of a context is seen by the pool that serves the scope it was opened for. -/
theorem yields_life (style : Style) (work : Work σ ρ β) :
    (do
      let tc ← ds.open style s
      let (_, tc) ← work.run tc
      tc.drop : Run σ Unit).Yields (ds.Serves (· = s)) fun _ => True := by
  refine (ds.yields_open s style).bind ?_
  rintro tc ⟨rfl, hplaced, -⟩
  refine (work.yields_run hplaced).bind ?_
  rintro ⟨_, tc'⟩ htc
  obtain ⟨hplaced', hscope⟩ := hplaced.of_or htc
  refine (Context.emits_drop hplaced').yields_any.mono ?_ fun _ hr => hr
  exact fun e he => he.mono fun c hc => hc.trans hscope

/-- That pools are closed is no event of a unit of work. -/
theorem emits_closeFrom {C : Scope → Prop} : ∀ (i : Nat) (pools : List Pool),
    (closeFrom i pools : Run σ Unit).Emits (ds.Serves C)
  | _, [] => emits_pure _
  | i, _ :: rest =>
    Emits.bind (fun _ _ => ⟨[.poolClosed i], ⟨rfl, rfl⟩, by simp [Serves, Event.pool?]⟩) fun _ =>
      emits_closeFrom (i + 1) rest

/-- Where no pool serves a scope, nothing is opened and nothing but a failing policy is noted. -/
theorem open_of_route_error {f : Failure} (h : ds.route s = .error f) (style : Style) (b : Backend σ)
    (w : World σ) :
    ds.open style s b w = (.error f, { w with
      trace := w.trace ++ (ds.policyFailure? s).toList.map fun g =>
        .logged (.shardingFailed s.traceId g) }) := by
  simp only [Datasource.open, connect, poolFor, Run.bind_apply, h]
  cases ds.policyFailure? s <;> simp

end Datasource

/-! ### Sessions -/

namespace Session

/-- Whose scopes a step is about: those of the contexts that it opens, uses or drops. -/
def Concerns (s : Session σ) : Step σ ρ β → Scope → Prop
  | .open slot _ scope, c => c = scope ∨ ∃ tc, s.get? slot = some tc ∧ c = tc.scope
  | .perform slot _, c | .drop slot, c | .wrap slot _, c => ∃ tc, s.get? slot = some tc ∧ c = tc.scope
  | .transact _ scope _, c => c = scope
  | .route _, _ | .shutdown, _ | .adjust _, _ => False

/-- The connection of every context is of the pool that serves the context's scope. -/
def Placed (ds : Datasource σ) (s : Session σ) : Prop :=
  ∀ slot tc, s.get? slot = some tc → tc.Placed ds

variable {s : Session σ} {slot : Nat}

theorem placed_empty : ({} : Session σ).Placed ds := by
  intro slot tc hget
  cases hget

theorem Placed.put (h : s.Placed ds) (htc : tc.Placed ds) : (s.put slot tc).Placed ds := by
  intro n other hother
  rw [get?_put] at hother
  split at hother
  · cases hother
    exact htc
  · exact h n other hother

theorem Placed.remove (h : s.Placed ds) : (s.remove slot).Placed ds := by
  intro n other hother
  rw [get?_remove] at hother
  split at hother
  · cases hother
  · exact h n other hother

theorem yields_dropSlot (h : s.Placed ds) (slot : Nat) :
    (s.dropSlot slot).Yields (ds.Serves fun c => ∃ tc, s.get? slot = some tc ∧ c = tc.scope)
      (·.Placed ds) := by
  unfold dropSlot
  cases hget : s.get? slot with
  | none => exact yields_pure h
  | some tc =>
    refine ((Context.emits_drop (h slot tc hget)).mono ?_).yields_any.bind fun _ _ =>
      yields_pure h.remove
    exact fun e he => he.mono fun c hc => ⟨tc, rfl, hc⟩

/-- A step is seen by the pools that serve the scopes it is about, and it leaves every context on the
pool of its scope. -/
theorem yields_step (ds : Datasource σ) (h : s.Placed ds) (st : Step σ ρ β) :
    (s.step ds st).Yields (ds.Serves (s.Concerns st)) fun r => r.2.Placed ds := by
  -- a context that is used does not see another scope than its own
  have hown : ∀ {slot : Nat} {tc : Context σ} {C : Scope → Prop},
      (∀ c, (∃ tc, s.get? slot = some tc ∧ c = tc.scope) → C c) → s.get? slot = some tc →
      ∀ e, ds.Serves (· = tc.scope) e → ds.Serves C e :=
    fun hC hget e he => he.mono fun c hc => hC c ⟨_, hget, hc⟩
  cases st with
  | «open» slot style scope =>
    refine ((ds.yields_open scope style).mono ?_ fun _ htc => htc).ending.bind ?_
    · exact fun e he => he.mono fun c hc => .inl hc
    · intro e he
      cases e with
      | error f => exact yields_pure h
      | panic p => exact yields_pure h
      | ok tc =>
        refine ((yields_dropSlot h slot).mono ?_ fun _ hs => hs).bind fun s' hs' =>
          yields_pure (hs'.put (he tc rfl).2.1)
        exact fun e he => he.mono fun c hc => .inr hc
  | perform slot op =>
    cases hget : s.get? slot with
    | none =>
      simp only [step, hget]
      exact yields_pure h
    | some tc =>
      simp only [step, hget]
      have hplaced := h slot tc hget
      refine ((op.yields_run hplaced).mono (hown (fun _ hc => hc) hget) fun _ hr => hr).bind ?_
      rintro ⟨report, tc'⟩ htc
      exact yields_pure (h.put (hplaced.of_or htc).1)
  | drop slot => exact (yields_dropSlot h slot).bind fun s' hs' => yields_pure hs'
  | wrap slot work =>
    cases hget : s.get? slot with
    | none =>
      simp only [step, hget]
      exact yields_pure h
    | some tc =>
      simp only [step, hget]
      refine ((Context.yields_wrap (h slot tc hget) work).mono (hown (fun _ hc => hc) hget)
        fun _ _ => trivial).bind ?_
      rintro ⟨e, tc'⟩ -
      exact yields_pure h.remove
  | transact style scope work =>
    exact (ds.yields_transact scope style work).ending.bind fun _ _ => yields_pure h
  | route scope => exact (ds.yields_poolFor scope).ending.bind fun _ _ => yields_pure h
  | shutdown =>
    exact (ds.emits_closeFrom 0 ds.pools).yields_any.ending.bind fun _ _ => yields_pure h
  | adjust f =>
    exact (emits_modifyEnv f).yields_any.ending.bind fun _ _ => yields_pure h

/-- Any steps leave every context on the pool of its scope. -/
theorem yields_run (ds : Datasource σ) : ∀ (steps : List (Step σ ρ β)) {s : Session σ},
    s.Placed ds → (s.run ds steps).Yields (fun _ => True) (·.Placed ds)
  | [], _, h => yields_pure h
  | st :: rest, _, h =>
    ((yields_step ds h st).mono (fun _ _ => trivial) fun _ hr => hr).bind fun _ hr =>
      yields_run ds rest hr

end Session

/-! ### Remainders -/

namespace Datasource

variable {ds : Datasource σ} {s : Scope} {k : Int64}

/-- Behind the policy of remainders an integer key is served by the pool of its remainder. -/
theorem route_byRemainder (hpolicy : ds.policy = some Policy.byRemainder) (hpools : ds.pools ≠ [])
    (hk : s.datasourceKey = some (.int k)) :
    ds.route s = .ok (k.toInt % ds.pools.length).toNat ∧
      ((k.toInt % ds.pools.length).toNat : Int) = k.toInt % ds.pools.length ∧
      (k.toInt % ds.pools.length).toNat < ds.pools.length := by
  have hlength : 0 < ds.pools.length := List.length_pos_iff.mpr hpools
  have hnonneg : 0 ≤ k.toInt % ds.pools.length := Int.emod_nonneg _ (by omega)
  have hlt : k.toInt % ds.pools.length < ds.pools.length := Int.emod_lt_of_pos _ (by omega)
  have hbelow : (k.toInt % ds.pools.length).toNat < ds.pools.length := by omega
  refine ⟨?_, Int.toNat_of_nonneg hnonneg, hbelow⟩
  have hindex : Policy.byRemainder s.datasourceKey ds.pools.length =
      .ok (k.toInt % ds.pools.length).toNat := by
    rw [hk, Policy.byRemainder, if_neg (by omega)]
  simp only [route, hpolicy, hindex]
  exact if_pos hbelow

/-- Any other key chooses no pool. -/
theorem byRemainder_of_ne_int (hpools : ds.pools ≠ [])
    (hk : ∀ k, s.datasourceKey ≠ some (.int k)) :
    Policy.byRemainder s.datasourceKey ds.pools.length = .error .invalidShardKey := by
  rw [Policy.byRemainder, if_neg (by simpa using hpools)]
  exact hk

theorem open_of_ne_int (hpolicy : ds.policy = some Policy.byRemainder) (hpools : ds.pools ≠ [])
    (hk : ∀ k, s.datasourceKey ≠ some (.int k)) (style : Style) (b : Backend σ) (w : World σ) :
    ds.open style s b w = (.error .invalidShardKey, { w with
      trace := w.trace ++ [.logged (.shardingFailed s.traceId .invalidShardKey)] }) := by
  have hfails := byRemainder_of_ne_int hpools hk
  have hroute : ds.route s = .error .invalidShardKey := by
    simp only [route, hpolicy, hfails]
    rfl
  have hfailure : ds.policyFailure? s = some .invalidShardKey := by
    simp only [policyFailure?, hpolicy, hfails]
  rw [ds.open_of_route_error s hroute, hfailure]
  rfl

/-- A pool that there is not serves nothing. -/
theorem open_of_outside {policy : Policy} {index : Nat} (hpolicy : ds.policy = some policy)
    (hindex : policy s.datasourceKey ds.pools.length = .ok index) (hout : ds.pools.length ≤ index)
    (style : Style) (b : Backend σ) (w : World σ) :
    ds.open style s b w = (.error .invalidShardKey, w) := by
  have hroute : ds.route s = .error .invalidShardKey := by
    simp only [route, hpolicy, hindex]
    exact if_neg (Nat.not_lt.mpr hout)
  have hfailure : ds.policyFailure? s = none := by
    simp only [policyFailure?, hpolicy, hindex]
  rw [ds.open_of_route_error s hroute, hfailure]
  simp

end Datasource

/-! ### Tables -/

/-- The table of an operation that has its statement put together for it. -/
def Operation.table? : Operation σ ρ → Option Table
  | .getAll t _ | .getById t .. | .getByIds t .. | .queryList t .. | .queryPage t ..
  | .queryListInto t .. | .queryOne t .. | .count t _ | .queryBatches t .. | .lockById t ..
  | .lockByIds t .. | .lockList t .. | .lockOne t .. | .insert t _ | .update t _ | .updateList t _
  | .modifyById t .. | .modifyByIds t .. | .modify t .. | .deleteById t _ | .deleteByIds t _
  | .delete t _ => some t
  | .check | .inspect | .complete _ | .completeWithPanic .. | .queryRaw .. | .queryRawBatches ..
  | .executeRaw _ => none

/-- The call of a statement over a table. -/
inductive Call.Over (table : String) : Call → Prop
  | query {sql : String} {args : List Value} (h : Statement.Over table sql) :
    Call.Over table (.query sql args)
  | execute {sql : String} {args : List Value} (h : Statement.Over table sql) :
    Call.Over table (.execute sql args)
  | insert {sql : String} {args : List Value} {generated : Option String}
      (h : Statement.Over table sql) : Call.Over table (.insert sql args generated)

/-- Whatever is put together for an operation is over the physical table of the scope's key. -/
theorem Operation.within_over (s : Scope) {op : Operation σ ρ} {t : Table} (h : op.table? = some t) :
    op.Within s (Call.Over (t.physical s.tableKey)) := by
  cases op with
  | check | inspect | complete | completeWithPanic | queryRaw | queryRawBatches | executeRaw => cases h
  | count t matcher => cases h; exact fun q hq => .query (Statement.over_count hq)
  | insert t r => cases h; exact fun r q hq => .insert (Statement.over_insert hq)
  | update t r => cases h; exact fun r q hq => .execute (Statement.over_update hq)
  | updateList t rs => cases h; exact fun r q hq => .execute (Statement.over_update hq)
  | modifyById t calls id => cases h; exact fun m q hq => .execute (Statement.over_modify hq)
  | modifyByIds t calls ids => cases h; exact fun m q hq => .execute (Statement.over_modify hq)
  | modify t calls matcher => cases h; exact fun m q hq => .execute (Statement.over_modify hq)
  | deleteById t id => cases h; exact fun q hq => .execute (Statement.over_delete hq)
  | deleteByIds t ids => cases h; exact fun q hq => .execute (Statement.over_delete hq)
  | delete t matcher => cases h; exact fun q hq => .execute (Statement.over_delete hq)
  | _ => cases h; exact fun q stmt hq => .query (Statement.over_select hq)

theorem Operation.emits_over {op : Operation σ ρ} {t : Table} (h : op.table? = some t) :
    (op.run tc).Emits (tc.Sends (Call.Over (t.physical tc.scope.tableKey))) := by
  refine op.emits_run ?_ (op.within_over tc.scope h)
  cases op with
  | complete | completeWithPanic => cases h
  | _ => rfl

/-- Behind the policy of remainders every integer key is served, congruent keys by one pool, and only
that pool sees anything of a context: of its opening, of any work that it does and of its end, and in a
session of the steps in which it is used, whatever other contexts do in between. What is put together for
an operation on a table is over the physical table of the scope's key. Without an integer key, or where
another policy answers with a pool that there is not, opening fails and no pool sees anything. -/
theorem Session.run_isolated (hpolicy : ds.policy = some Policy.byRemainder)
    (hpools : ds.pools ≠ []) :
    (∀ (s : Scope) (k : Int64), s.datasourceKey = some (.int k) →
      ∃ pool, ds.route s = .ok pool ∧ pool < ds.pools.length ∧
        k.toInt ≡ pool [ZMOD ds.pools.length]) ∧
    (∀ (s s' : Scope) (k k' : Int64), s.datasourceKey = some (.int k) →
      s'.datasourceKey = some (.int k') → k.toInt ≡ k'.toInt [ZMOD ds.pools.length] →
      ds.route s = ds.route s') ∧
    (∀ (style : Style) (s : Scope), (ds.open style s).Yields (ds.Serves (· = s)) fun tc =>
      tc.scope = s ∧ ∃ conn, tc.connection = some conn ∧ ds.route s = .ok conn.pool) ∧
    (∀ (style : Style) (s : Scope) (work : Work σ ρ β), (do
      let tc ← ds.open style s
      let (_, tc) ← work.run tc
      tc.drop : Run σ Unit).Yields (ds.Serves (· = s)) fun _ => True) ∧
    (∀ (b : Backend σ) (env : σ) (steps : List (Step σ ρ β)) (st : Step σ ρ β),
      ∃ s w r w' es, Session.run ds {} steps b { env := env } = (.ok s, w) ∧
        s.step ds st b w = (.ok r, w') ∧ w'.trace = w.trace ++ es ∧
        (∀ e ∈ es, ds.Serves (s.Concerns st) e) ∧
        ∀ slot tc conn, s.get? slot = some tc → tc.connection = some conn →
          ds.route tc.scope = .ok conn.pool) ∧
    (∀ (tc : Context σ) (op : Operation σ ρ) (t : Table), op.table? = some t →
      (op.run tc).Emits (tc.Sends (Call.Over (t.physical tc.scope.tableKey)))) ∧
    (∀ (style : Style) (s : Scope) (b : Backend σ) (w : World σ),
      (∀ k, s.datasourceKey ≠ some (.int k)) →
      ds.open style s b w = (.error .invalidShardKey, { w with
        trace := w.trace ++ [.logged (.shardingFailed s.traceId .invalidShardKey)] })) ∧
    ∀ (policy : Policy) (index : Nat) (style : Style) (s : Scope) (b : Backend σ) (w : World σ),
      policy s.datasourceKey ds.pools.length = .ok index → ds.pools.length ≤ index →
      Datasource.open { ds with policy := some policy } style s b w =
        (.error .invalidShardKey, w) := by
  refine ⟨?_, ?_, ?_, fun style s work => ds.yields_life s style work, ?_,
    fun tc op t => Operation.emits_over, ?_, ?_⟩
  · intro s k hk
    obtain ⟨hroute, heq, hlt⟩ := Datasource.route_byRemainder hpolicy hpools hk
    refine ⟨_, hroute, hlt, ?_⟩
    rw [heq]
    exact (Int.mod_modEq _ _).symm
  · intro s s' k k' hk hk' hmod
    rw [(Datasource.route_byRemainder hpolicy hpools hk).1,
      (Datasource.route_byRemainder hpolicy hpools hk').1, hmod.eq]
  · intro style s
    refine (ds.yields_open s style).mono (fun _ he => he) ?_
    rintro tc ⟨rfl, hplaced, hsome⟩
    obtain ⟨conn, hconn⟩ := Option.isSome_iff_exists.mp hsome
    exact ⟨rfl, conn, hconn, hplaced conn hconn⟩
  · intro b env steps st
    obtain ⟨s, w, hrun, hsound⟩ := Session.sound_run ds b env steps
    have hplaced : s.Placed ds := by
      obtain ⟨-, -, -, hvalue⟩ := Session.yields_run ds steps Session.placed_empty b { env := env }
      exact hvalue s (by rw [hrun])
    have hstep := Session.leads_step ds s st b w hsound
    obtain ⟨es, hes, hserves, -⟩ := Session.yields_step ds hplaced st b w
    generalize hr : s.step ds st b w = r at hstep hes
    obtain ⟨_ | _ | _, w'⟩ := r
    · exact ⟨s, w, _, w', es, hrun, hr, hes, hserves, fun slot tc conn hget hconn =>
        hplaced slot tc hget conn hconn⟩
    · exact hstep.elim
    · exact hstep.elim
  · exact fun style s b w hk => Datasource.open_of_ne_int hpolicy hpools hk style b w
  · intro policy index style s b w hindex hout
    have houtside := @Datasource.open_of_outside σ { ds with policy := some policy } s policy index
      rfl hindex hout
    exact houtside style b w

/-- The lowest key of all is served by the same one of three pools as another negative key, although
their remainders as they are often taken would be negative. -/
theorem Session.run_isolated_lowest :
    let ds : Datasource (Scripted Unit) :=
      { pools := [{}, {}, {}], policy := some Policy.byRemainder }
    let lowest : Scope := { traceId := "", datasourceKey := some (.int Int64.minValue) }
    let other : Scope := { traceId := "", datasourceKey := some (.int (-2)) }
    ds.policy = some Policy.byRemainder ∧ ds.pools ≠ [] ∧
      (∃ pool, ds.route lowest = .ok pool ∧ pool < 3 ∧ Int64.minValue.toInt ≡ pool [ZMOD 3]) ∧
      ds.route lowest = ds.route other ∧ ds.route other = .ok 1 := by
  intro ds lowest other
  have hpolicy : ds.policy = some Policy.byRemainder := rfl
  have hpools : ds.pools ≠ [] := nofun
  obtain ⟨hserved, htogether, -⟩ := run_isolated (ρ := Unit) (β := Unit) hpolicy hpools
  refine ⟨hpolicy, hpools, hserved lowest _ rfl, htogether lowest other _ _ rfl rfl ?_, ?_⟩
  · decide
  · decide

end TableAccess
