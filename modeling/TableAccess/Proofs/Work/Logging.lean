import TableAccess.Proofs.Work.Footprint
import TableAccess.Work.Log
import TableAccess.Work.Unit

/-!
What the log says of statements.

A context that logs statements writes a record before each statement that reaches its connection, and
one after it that says how it went. `Context.Recorded` compares a statement with the log and without it:
the same call, the same outcome and the same state, and nothing in the log if the statement is refused
before the connection. `Logged` is the same for whole traces. The second trace is the first one with the
records of each statement around it, and there are no others besides those that hooks may have written.
-/

namespace TableAccess

variable {σ α β : Type}

/-- The text and the arguments of a call that is a statement. -/
def Call.statement? : Call → Option (String × List Value)
  | query sql args | execute sql args | insert sql args _ => some (sql, args)
  | begin _ | commit | rollback => none

namespace LogRecord

/-- Whether a record is about a statement. -/
def isStatement : LogRecord → Bool
  | statementStarted .. | statementDone _ | statementFailed .. => true
  | _ => false

/-- The record of how a statement went. -/
def concluded (traceId : String) : Except Failure α → LogRecord
  | .ok _ => statementDone traceId
  | .error f => statementFailed traceId f

theorem isStatement_concluded (traceId : String) (outcome : Except Failure α) :
    (concluded traceId outcome).isStatement = true := by
  cases outcome <;> rfl

/-- The records about statements are those that a reader of the log finds under `quickdao.sql`. -/
theorem isStatement_iff (r : LogRecord) :
    r.isStatement = true ↔ r.render.target = "quickdao.sql" := by
  cases r <;> simp [isStatement, render, aboutStatement, aboutWork, failure]

/-- The record of how a statement went says so in words. -/
theorem message_concluded (traceId : String) (outcome : Except Failure α) :
    (concluded traceId outcome).render.message =
      if Run.succeeded outcome then "sql done" else "sql failed" := by
  cases outcome <;> rfl

end LogRecord

/-! ### Traces -/

namespace Event

/-- Whether an event is a record about a statement. -/
def isRecord : Event → Bool
  | logged r => r.isStatement
  | _ => false

/-- The statement that a connection is asked for. -/
def asked? : Event → Option (String × List Value)
  | called _ call _ => call.statement?
  | _ => none

/-- The statement of a record that stands before one. -/
def announced? : Event → Option (String × List Value)
  | logged (.statementStarted _ sql args) => some (sql, args)
  | _ => none

/-- How a statement went by the record that stands behind it. -/
def concluded? : Event → Option Bool
  | logged (.statementDone _) => some true
  | logged (.statementFailed ..) => some false
  | _ => none

end Event

/-- Events that are the same with the log and without it. Of the records about statements only those
are, that others have written, and `D` says which these may be. -/
def Event.Common (D : LogRecord → Prop) : Event → Prop
  | .called _ call _ => call.statement? = none
  | .logged r => r.isStatement = true → D r
  | _ => True

/-- The second trace is the first one with the records of its statements: one before the call, with its
text and arguments, and one behind it and the rows that were taken with it, by how all that went. -/
inductive Logged (D : LogRecord → Prop) : List Event → List Event → Prop
  | nil : Logged D [] []
  | common {e : Event} {es fs : List Event} (he : e.Common D) (h : Logged D es fs) :
    Logged D (e :: es) (e :: fs)
  | statement {conn : Connection} {call : Call} {sql : String} {args : List Value} {ok : Bool}
      {pulls : List Bool} {outcome : Except Failure Unit} {es fs : List Event} (traceId : String)
      (hcall : call.statement? = some (sql, args))
      (houtcome : Run.succeeded outcome = (ok && pulls.all id)) (h : Logged D es fs) :
    Logged D (.called conn call ok :: (pulls.map .pulled ++ es))
      (.logged (.statementStarted traceId sql args) :: .called conn call ok ::
        (pulls.map .pulled ++ .logged (.concluded traceId outcome) :: fs))

namespace Logged

variable {D : LogRecord → Prop} {es es' fs fs' : List Event}

theorem refl : ∀ {es : List Event}, (∀ e ∈ es, e.Common D) → Logged D es es
  | [], _ => .nil
  | e :: _, h =>
    .common (h e (List.mem_cons_self ..)) (refl fun e' he => h e' (List.mem_cons_of_mem e he))

theorem append (h : Logged D es fs) (h' : Logged D es' fs') : Logged D (es ++ es') (fs ++ fs') := by
  induction h with
  | nil => exact h'
  | common he _ ih => exact .common he ih
  | statement traceId hcall houtcome _ ih =>
    simp only [List.cons_append, List.append_assoc]
    exact .statement traceId hcall houtcome ih

/-- One statement, whatever it gives. -/
theorem single {call : Call} {sql : String} {args : List Value} {ok : Bool} {pulls : List Bool}
    {outcome : Except Failure α} (traceId : String) (conn : Connection)
    (hcall : call.statement? = some (sql, args))
    (houtcome : Run.succeeded outcome = (ok && pulls.all id)) :
    Logged D (.called conn call ok :: pulls.map .pulled)
      (.logged (.statementStarted traceId sql args) :: .called conn call ok ::
        (pulls.map .pulled ++ [.logged (.concluded traceId outcome)])) := by
  have hmap : Run.succeeded (outcome.map fun _ => ()) = Run.succeeded outcome ∧
      LogRecord.concluded traceId (outcome.map fun _ => ()) = .concluded traceId outcome := by
    cases outcome <;> exact ⟨rfl, rfl⟩
  have hlogged : Logged D (.called conn call ok :: (pulls.map .pulled ++ [])) _ :=
    .statement traceId hcall (hmap.1.trans houtcome) .nil
  rwa [hmap.2, List.append_nil] at hlogged

/-- What is no record is the same, such as what pools and connections see. -/
theorem filter_others (h : Logged D es fs) {p : Event → Bool} (hp : ∀ r, p (.logged r) = false) :
    fs.filter p = es.filter p := by
  have hdropped : ∀ r gs, (Event.logged r :: gs).filter p = gs.filter p := fun r gs =>
    List.filter_cons_of_neg (by rw [hp r]; exact Bool.false_ne_true)
  induction h with
  | nil => rfl
  | common _ _ ih => rw [List.filter_cons, List.filter_cons, ih]
  | statement _ _ _ _ ih =>
    rw [hdropped, List.filter_cons, List.filter_cons, List.filter_append, List.filter_append,
      hdropped, ih]

/-- Where no statement reaches a connection, nothing is logged. -/
theorem eq_of_not_asked (h : Logged D es fs) (hes : ∀ e ∈ es, e.asked? = none) : fs = es := by
  induction h with
  | nil => rfl
  | common _ _ ih => rw [ih fun e he => hes e (List.mem_cons_of_mem _ he)]
  | statement _ hcall =>
    have hnone := hes _ (List.mem_cons_self ..)
    rw [Event.asked?, hcall] at hnone
    cases hnone

section Own

variable (hD : ∀ r, D r → r.isStatement = false)

include hD

theorem isRecord_of_common {e : Event} (h : e.Common D) : e.isRecord = false := by
  cases e with
  | logged r =>
    cases hr : r.isStatement with
    | false => exact hr
    | true => exact absurd ((hD r (h hr)).symm.trans hr) Bool.false_ne_true
  | _ => rfl

/-- Unless hooks write records about statements, there are none without the log. -/
theorem isRecord_eq_false (h : Logged D es fs) : ∀ e ∈ es, e.isRecord = false := by
  induction h with
  | nil => exact nofun
  | common he _ ih =>
    intro e' he'
    rcases List.mem_cons.mp he' with rfl | he'
    · exact isRecord_of_common hD he
    · exact ih e' he'
  | statement _ _ _ _ ih =>
    intro e he
    rcases List.mem_cons.mp he with rfl | he
    · rfl
    · rcases List.mem_append.mp he with he | he
      · obtain ⟨p, -, rfl⟩ := List.mem_map.mp he
        rfl
      · exact ih e he

/-- The trace with the log is the other one but for the records. -/
theorem filter_eq (h : Logged D es fs) : (fs.filter fun e => !e.isRecord) = es := by
  induction h with
  | nil => rfl
  | common he _ ih =>
    rw [List.filter_cons, isRecord_of_common hD he, Bool.not_false, if_pos rfl, ih]
  | @statement conn call sql args ok pulls outcome es fs traceId _ _ _ ih =>
    have hpulls : (pulls.map Event.pulled).filter (fun e => !e.isRecord) = pulls.map .pulled := by
      refine List.filter_eq_self.mpr fun e he => ?_
      obtain ⟨p, -, rfl⟩ := List.mem_map.mp he
      rfl
    have hconcluded : (!(Event.logged (.concluded traceId outcome)).isRecord) = false := by
      rw [Event.isRecord, LogRecord.isStatement_concluded, Bool.not_true]
    have hfirst : ∀ gs, (Event.logged (.statementStarted traceId sql args) ::
        Event.called conn call ok :: gs).filter (fun e => !e.isRecord) =
        .called conn call ok :: gs.filter fun e => !e.isRecord := fun _ => rfl
    rw [hfirst, List.filter_append, hpulls, List.filter_cons, hconcluded,
      if_neg Bool.false_ne_true, ih]

/-- The statements are announced in their order, with their texts and arguments, and as many records
say how they went. -/
theorem announced_eq (h : Logged D es fs) :
    fs.filterMap Event.announced? = es.filterMap Event.asked? ∧
      (fs.filterMap Event.concluded?).length = (es.filterMap Event.asked?).length := by
  have hquiet : ∀ e : Event, e.isRecord = false → e.announced? = none ∧ e.concluded? = none := by
    intro e he
    cases e with
    | logged r => cases r <;> first | exact ⟨rfl, rfl⟩ | cases he
    | _ => exact ⟨rfl, rfl⟩
  induction h with
  | nil => exact ⟨rfl, rfl⟩
  | @common e es fs he _ ih =>
    have hasked : e.asked? = none := by
      cases e with
      | called _ _ _ => exact he
      | _ => rfl
    obtain ⟨hannounced, hconcluded⟩ := hquiet e (isRecord_of_common hD he)
    rw [List.filterMap_cons_none hannounced, List.filterMap_cons_none hconcluded,
      List.filterMap_cons_none hasked]
    exact ih
  | @statement conn call sql args ok pulls outcome es fs traceId hcall _ _ ih =>
    have hpulls : ∀ {γ : Type} {f : Event → Option γ}, (∀ p, f (.pulled p) = none) →
        (pulls.map Event.pulled).filterMap f = [] := by
      intro γ f hf
      rw [List.filterMap_map]
      exact List.filterMap_eq_nil_iff.mpr fun p _ => hf p
    have hconcluded : (Event.logged (.concluded traceId outcome)).announced? = none ∧
        ∃ well, (Event.logged (.concluded traceId outcome)).concluded? = some well := by
      cases outcome <;> exact ⟨rfl, _, rfl⟩
    obtain ⟨hannounced, well, hwell⟩ := hconcluded
    have hasked : (Event.called conn call ok).asked? = some (sql, args) := hcall
    rw [List.filterMap_cons_some hasked, List.filterMap_append, hpulls fun _ => rfl,
      List.nil_append]
    refine ⟨?_, ?_⟩
    · have hstarted : (Event.logged (.statementStarted traceId sql args)).announced? =
          some (sql, args) := rfl
      have hcalled : (Event.called conn call ok).announced? = none := rfl
      rw [List.filterMap_cons_some hstarted, List.filterMap_cons_none hcalled,
        List.filterMap_append, hpulls fun _ => rfl, List.nil_append,
        List.filterMap_cons_none hannounced, ih.1]
    · have hstarted : (Event.logged (.statementStarted traceId sql args)).concluded? = none := rfl
      have hcalled : (Event.called conn call ok).concluded? = none := rfl
      rw [List.filterMap_cons_none hstarted, List.filterMap_cons_none hcalled,
        List.filterMap_append, hpulls fun _ => rfl, List.nil_append,
        List.filterMap_cons_some hwell, List.length_cons, List.length_cons, ih.2]

end Own

end Logged

/-- What the log changes about a trace: nothing but the records. The rest is the same, and so is all of
it where no statement reaches a connection. Unless hooks write such records themselves, there are none
without the log, and with it each statement is announced once, in order, and concluded once. -/
structure Audited (D : LogRecord → Prop) (es fs : List Event) : Prop where
  logged : Logged D es fs
  driver : driverEvents fs = driverEvents es
  others : ∀ p : Event → Bool, (∀ r, p (.logged r) = false) → fs.filter p = es.filter p
  unasked : (∀ e ∈ es, e.asked? = none) → fs = es
  own : (∀ r, D r → r.isStatement = false) →
    (∀ e ∈ es, e.isRecord = false) ∧ (fs.filter fun e => !e.isRecord) = es ∧
      fs.filterMap Event.announced? = es.filterMap Event.asked? ∧
      (fs.filterMap Event.concluded?).length = (es.filterMap Event.asked?).length

theorem Logged.audited {D : LogRecord → Prop} {es fs : List Event} (h : Logged D es fs) :
    Audited D es fs where
  logged := h
  driver := h.filter_others fun _ => rfl
  others _ hp := h.filter_others hp
  unasked hes := h.eq_of_not_asked hes
  own hD := ⟨h.isRecord_eq_false hD, h.filter_eq hD, h.announced_eq hD⟩

/-! ### Statements -/

namespace Run

/-- A run that is one call, and then perhaps takes rows, and that goes well if all of that does. It
depends on the state alone. -/
def Asks (conn : Connection) (call : Call) (x : Run σ α) : Prop :=
  ∀ (b : Backend σ) (env : σ), ∃ (outcome : Except Failure α) (env' : σ) (ok : Bool)
    (pulls : List Bool), succeeded outcome = (ok && pulls.all id) ∧
      ∀ trace granted, x b ⟨env, trace, granted⟩ =
        (.ofExcept outcome,
          ⟨env', trace ++ .called conn call ok :: pulls.map .pulled, granted⟩)

theorem asks_call (conn : Connection) (c : Call) (f : Backend σ → σ → Except Failure α × σ) :
    (call conn c f >>= ofExcept).Asks conn c := by
  intro b env
  refine ⟨(f b env).1, (f b env).2, succeeded (f b env).1, [], ?_, fun trace granted => rfl⟩
  rw [List.all_nil, Bool.and_true]

/-- Taking all rows ends well if every row is one. -/
theorem pullAll_run (b : Backend σ) : ∀ stream : RowStream,
    ∃ (outcome : Except Failure (List Row)) (pulls : List Bool),
      succeeded outcome = pulls.all id ∧ ∀ env trace granted,
        pullAll stream b (⟨env, trace, granted⟩ : World σ) =
          (.ofExcept outcome, ⟨env, trace ++ pulls.map .pulled, granted⟩)
  | [] => ⟨.ok [], [], rfl, fun env trace granted => by simp [pullAll, Ending.ofExcept]⟩
  | .ok row :: rest => by
    obtain ⟨outcome, pulls, houtcome, hrun⟩ := pullAll_run b rest
    refine ⟨outcome.map (row :: ·), true :: pulls, ?_, ?_⟩
    · cases outcome <;> exact houtcome
    · intro env trace granted
      simp only [pullAll, bind_apply, emit_apply, hrun]
      cases outcome <;> simp [Ending.ofExcept, Except.map]
  | .error f :: rest =>
    ⟨.error f, [false], rfl, fun env trace granted => by simp [pullAll, Ending.ofExcept]⟩

/-- A query of which all rows are taken goes well if they all come. -/
theorem Asks.pullAll {conn : Connection} {c : Call} {x : Run σ RowStream} (hx : x.Asks conn c) :
    (x >>= pullAll).Asks conn c := by
  intro b env
  obtain ⟨outcome, env', ok, pulls, houtcome, hrun⟩ := hx b env
  cases outcome with
  | error f =>
    refine ⟨.error f, env', ok, pulls, houtcome, fun trace granted => ?_⟩
    rw [bind_apply, hrun]
    rfl
  | ok stream =>
    obtain ⟨outcome', pulls', houtcome', hpull⟩ := pullAll_run b stream
    refine ⟨outcome', env', ok, pulls ++ pulls', ?_, fun trace granted => ?_⟩
    · rw [houtcome', List.all_append, ← Bool.and_assoc, ← houtcome]
      rfl
    · rw [bind_apply, hrun]
      simp [Ending.ofExcept, hpull]

end Run

/-- The context with the log of statements on or off. -/
def Context.withLog (tc : Context σ) (on : Bool) : Context σ := { tc with logSql := on }

namespace Context

/-- A statement of a context, with the log and without it. What is refused before it reaches the
connection is not logged; what reaches it has a record with its text and arguments before the call, and
one behind it that says how it went. -/
structure Recorded (tc : Context σ) (q : Sql) (call : Call) (x : Context σ → Run σ α) : Prop where
  refused : ∀ f, tc.check = .error f → ∀ on b w, x (tc.withLog on) b w = (.error f, w)
  asked : ∀ conn, tc.check = .ok conn → ∀ (b : Backend σ) (env : σ),
    ∃ (outcome : Except Failure α) (env' : σ) (ok : Bool) (pulls : List Bool),
      Run.succeeded outcome = (ok && pulls.all id) ∧ ∀ trace granted,
        x (tc.withLog false) b ⟨env, trace, granted⟩ =
          (.ofExcept outcome,
            ⟨env', trace ++ .called conn call ok :: pulls.map .pulled, granted⟩) ∧
        x (tc.withLog true) b ⟨env, trace, granted⟩ =
          (.ofExcept outcome,
            ⟨env', trace ++ .logged (.statementStarted tc.traceId q.text q.args) ::
              .called conn call ok ::
              (pulls.map .pulled ++ [.logged (.concluded tc.traceId outcome)]), granted⟩)

variable {tc : Context σ} {q : Sql} {call : Call}

/-- What is traced on the connection of a context is recorded. -/
theorem recorded_traced {x : Connection → Run σ α} (hx : ∀ conn, (x conn).Asks conn call) :
    Recorded tc q call fun tc => do
      let conn ← Run.ofExcept tc.check
      tc.traced q.text q.args (x conn) where
  refused f hf on b w := by
    have hcheck : (tc.withLog on).check = .error f := hf
    rw [Run.bind_apply, hcheck, Run.ofExcept_error_apply]
  asked conn hconn b env := by
    have hcheck : ∀ on, (tc.withLog on).check = .ok conn := fun _ => hconn
    obtain ⟨outcome, env', ok, pulls, houtcome, hrun⟩ := hx conn b env
    refine ⟨outcome, env', ok, pulls, houtcome, fun trace granted => ⟨?_, ?_⟩⟩
    · rw [Run.bind_apply, hcheck, Run.ofExcept_ok_apply]
      exact hrun trace granted
    · rw [Run.bind_apply, hcheck, Run.ofExcept_ok_apply]
      have hon : (tc.withLog true).logSql = true := rfl
      have htraceId : (tc.withLog true).traceId = tc.traceId := rfl
      simp only [traced, hon, htraceId, if_true, Run.bind_apply, Run.log_apply, Run.ending_apply, hrun]
      cases outcome <;> simp [Ending.ofExcept, LogRecord.concluded]

theorem recorded_queryStream (tc : Context σ) (q : Sql) :
    Recorded tc q (.query q.text q.args) (·.queryStream q) :=
  recorded_traced fun _ => Run.asks_call _ _ _

theorem recorded_queryRows (tc : Context σ) (q : Sql) :
    Recorded tc q (.query q.text q.args) (·.queryRows q) :=
  recorded_traced fun _ => (Run.asks_call _ _ _).pullAll

theorem recorded_execute (tc : Context σ) (q : Sql) :
    Recorded tc q (.execute q.text q.args) (·.execute q) :=
  recorded_traced fun _ => Run.asks_call _ _ _

theorem recorded_insertRow (tc : Context σ) (q : Sql) (generated : Option String) :
    Recorded tc q (.insert q.text q.args generated) (·.insertRow q generated) :=
  recorded_traced fun _ => Run.asks_call _ _ _

end Context

end TableAccess
