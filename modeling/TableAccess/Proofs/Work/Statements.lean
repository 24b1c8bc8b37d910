import TableAccess.Proofs.Work.Footprint
import TableAccess.Work.Unit

/-!
What an operation asks of the database.

An operation on an open context sends statements on the context's own connection; apart from those a
pool or a connection sees nothing of it, and on a finished context it sees nothing at all. The two
operations that complete a context are set apart by `Operation.completes`. `Context.Sends` is the
footprint of whatever makes calls of some kind, and every reader and writer is shown to keep to it along
the way it is put together, if the statements that are made for it are of that kind. `Context.Touches`
leaves open which statements there are.
-/

namespace TableAccess

variable {σ ρ α β S : Type}

/-- What an operation on a context adds to the trace: what no driver sees, and calls of some kind on the
context's connection as long as the context takes operations. -/
inductive Context.Sends (tc : Context σ) (A : Call → Prop) : Event → Prop
  | quiet {e : Event} (h : e.isDriver = false) : tc.Sends A e
  | call {conn : Connection} {call : Call} {ok : Bool} (hc : tc.check = .ok conn) (ha : A call) :
    tc.Sends A (.called conn call ok)

/-- What an operation on a context adds to the trace: what no driver sees, and statements on the
context's connection as long as the context takes operations. -/
inductive Context.Touches (tc : Context σ) : Event → Prop
  | quiet {e : Event} (h : e.isDriver = false) : tc.Touches e
  | statement {conn : Connection} {call : Call} {ok : Bool} (hc : tc.check = .ok conn)
      (hs : call.isStatement = true) : tc.Touches (.called conn call ok)

/-- Whether an operation completes its context. -/
def Operation.completes : Operation σ ρ → Bool
  | .complete _ | .completeWithPanic .. => true
  | _ => false

namespace Context

variable {tc : Context σ} {P : Event → Prop} {A : Call → Prop}

theorem sends_quiet (e : Event) (h : e.isDriver = false) : tc.Sends A e := .quiet h

theorem sends_logged (r : LogRecord) : tc.Sends A (.logged r) := .quiet rfl

theorem sends_pulled (ok : Bool) : tc.Sends A (.pulled ok) := .quiet rfl

/-- Calls that are statements touch a context. -/
theorem Sends.touches (hA : ∀ call, A call → call.isStatement = true) (e : Event)
    (h : tc.Sends A e) : tc.Touches e := by
  cases h with
  | quiet h => exact .quiet h
  | call hc ha => exact .statement hc (hA _ ha)

/-! ### Statements -/

/-- Logging around a statement adds log records only. -/
theorem emits_traced {sql : String} {args : List Value} {x : Run σ α} (hl : ∀ r, P (.logged r))
    (hx : x.Emits P) : (tc.traced sql args x).Emits P := by
  unfold traced
  split
  · refine (Run.emits_log (hl _)).bind fun _ => hx.ending.bind fun e => ?_
    cases e with
    | ok a => exact (Run.emits_log (hl _)).bind fun _ => Run.emits_ofEnding _
    | error f => exact (Run.emits_log (hl _)).bind fun _ => Run.emits_ofEnding _
    | panic p => exact Run.emits_ofEnding _
  · exact hx

/-- Log records around a statement change nothing of what it is, and there are no other events around
it. -/
theorem traced_run (tc : Context σ) (sql : String) (args : List Value) {x : Run σ α}
    {outcome : Except Failure α} {b : Backend σ} {w : World σ} {env : σ} {e : Event} (hx : ∀ trace, x b ⟨w.env, trace, w.granted⟩ =
      (.ofExcept outcome, ⟨env, trace ++ [e], w.granted⟩)) :
    ∃ es, tc.traced sql args x b w = (.ofExcept outcome, ⟨env, w.trace ++ es, w.granted⟩) ∧
      ∀ p : Event → Bool, (∀ r, p (.logged r) = false) → es.filter p = [e].filter p := by
  by_cases hlog : tc.logSql = true
  · cases outcome with
    | ok a =>
      refine ⟨[.logged (.statementStarted tc.traceId sql args), e,
        .logged (.statementDone tc.traceId)], ?_, fun p hp => ?_⟩
      · simp [traced, hlog, hx, Ending.ofExcept]
      · simp [List.filter_cons, hp]
    | error f =>
      refine ⟨[.logged (.statementStarted tc.traceId sql args), e,
        .logged (.statementFailed tc.traceId f)], ?_, fun p hp => ?_⟩
      · simp [traced, hlog, hx, Ending.ofExcept]
      · simp [List.filter_cons, hp]
  · exact ⟨[e], by simp [traced, hlog, hx], fun _ _ => rfl⟩

/-- A statement is sent on the connection of a context that takes operations. -/
theorem emits_statement {sql : String} {args : List Value} {x : Connection → Run σ α}
    (hx : ∀ conn, tc.check = .ok conn → (x conn).Emits (tc.Sends A)) :
    (do let conn ← Run.ofExcept tc.check; tc.traced sql args (x conn)).Emits (tc.Sends A) :=
  Run.Emits.ofExcept_bind fun conn hc => emits_traced sends_logged (hx conn hc)

theorem emits_query {conn : Connection} (hc : tc.check = .ok conn) {sql : String}
    {args : List Value} (hA : A (.query sql args)) :
    (Run.query conn sql args : Run σ RowStream).Emits (tc.Sends A) :=
  (Run.emits_call fun _ => .call hc hA).bind fun _ => Run.emits_ofExcept _

section Sql

variable {q : Sql}

theorem emits_queryStream (hA : A (.query q.text q.args)) :
    (tc.queryStream q).Emits (tc.Sends A) :=
  emits_statement fun _ hc => emits_query hc hA

theorem emits_queryRows (hA : A (.query q.text q.args)) : (tc.queryRows q).Emits (tc.Sends A) :=
  emits_statement fun _ hc => (emits_query hc hA).bind (Run.emits_pullAll sends_pulled)

theorem emits_execute (hA : A (.execute q.text q.args)) : (tc.execute q).Emits (tc.Sends A) :=
  emits_statement fun _ hc =>
    (Run.emits_call fun _ => .call hc hA).bind fun _ => Run.emits_ofExcept _

theorem emits_insertRow {generated : Option String} (hA : A (.insert q.text q.args generated)) :
    (tc.insertRow q generated).Emits (tc.Sends A) :=
  emits_statement fun _ hc =>
    (Run.emits_call fun _ => .call hc hA).bind fun _ => Run.emits_ofExcept _

end Sql

theorem emits_runHooks (hq : ∀ e : Event, e.isDriver = false → P e) (point : HookPoint)
    (subject : String) (columns : List String) (pick : Interceptor σ → Hook σ S) (s : S) :
    (tc.runHooks point subject columns pick s).Emits P :=
  Run.emits_hooks (fun _ => hq _ rfl) (fun _ => hq _ rfl) _ _ _

/-! ### Reading -/

/-- Binding a row calls the caller's code and nothing else. -/
theorem emits_bindRow (t : Table) (columns : List String) (fresh : Callback σ Record) (row : Row) :
    (bindRow t columns fresh row).Emits P :=
  (Run.emits_callback _).bind fun _ => (Run.emits_ofExcept _).bind fun _ => Run.emits_pure _

theorem emits_mapRows {f : Row → Run σ α} (hf : ∀ row, (f row).Emits P) : ∀ rows : List Row,
    (mapRows f rows).Emits P
  | [] => Run.emits_pure _
  | row :: rows => (hf row).bind fun _ => (emits_mapRows hf rows).bind fun _ => Run.emits_pure _

theorem emits_handOver (handler : List α → Callback σ Unit) (batch : List α) :
    (handOver handler batch).Emits (tc.Sends A) :=
  (Run.emits_emit (.quiet rfl)).bind fun _ => Run.emits_callback _

/-- Delivery takes rows and hands batches over. -/
theorem emits_deliver (width size : Nat) {f : Row → Run σ α}
    (hf : ∀ row, (f row).Emits (tc.Sends A)) (handler : List α → Callback σ Unit) :
    ∀ (held : List α) (stream : RowStream),
    (deliver width size f handler held stream).Emits (tc.Sends A)
  | held, [] => by
    unfold deliver
    split
    · exact Run.emits_pure _
    · exact emits_handOver handler held
  | held, .ok row :: rest => by
    unfold deliver
    refine (Run.emits_emit (sends_pulled true)).bind fun _ => (hf row).bind fun a => ?_
    simp only
    split
    · exact (Run.emits_reserve width size).bind fun _ => (emits_handOver handler _).bind fun _ =>
        emits_deliver width size hf handler [] rest
    · exact emits_deliver width size hf handler _ rest
  | _, .error e :: _ =>
    (Run.emits_emit (sends_pulled false)).bind fun _ => Run.emits_fail e

section Selecting

variable {t : Table} {q : Selection}

theorem emits_select (hA : ∀ stmt, Statement.select t tc.scope q = .ok stmt →
      A (.query stmt.sql.text stmt.sql.args)) (fresh : Callback σ Record) :
    (tc.select t q fresh).Emits (tc.Sends A) :=
  (Run.emits_ofExcept _).bind fun _ => Run.Emits.ofExcept_bind fun stmt hq =>
    (emits_queryRows (hA stmt hq)).bind (emits_mapRows (emits_bindRow t _ fresh))

theorem emits_selectFirst (hA : ∀ stmt, Statement.select t tc.scope q = .ok stmt →
      A (.query stmt.sql.text stmt.sql.args)) :
    (tc.selectFirst t q).Emits (tc.Sends A) := by
  refine (Run.emits_ofExcept _).bind fun _ => Run.Emits.ofExcept_bind fun stmt hq =>
    (emits_queryStream (hA stmt hq)).bind fun stream => (Run.emits_pull sends_pulled stream).bind ?_
  rintro ⟨row, _⟩
  cases row with
  | none => exact Run.emits_pure _
  | some row => exact (emits_bindRow t _ _ row).bind fun _ => Run.emits_pure _

theorem emits_selectAmong {ids : List Int64}
    (hA : ∀ q stmt, Statement.select t tc.scope q = .ok stmt →
      A (.query stmt.sql.text stmt.sql.args)) :
    (tc.selectAmong t ids q).Emits (tc.Sends A) := by
  refine (Run.emits_ofExcept _).bind fun _ => ?_
  split
  · exact Run.emits_pure _
  · exact emits_select (hA _) _

end Selecting

theorem emits_count {t : Table} {matcher : Option Matcher}
    (hA : ∀ q, Statement.count t tc.scope matcher = .ok q → A (.query q.text q.args)) :
    (tc.count t matcher).Emits (tc.Sends A) := by
  refine (Run.emits_ofExcept _).bind fun _ => Run.Emits.ofExcept_bind fun q hq =>
    (emits_queryStream (hA q hq)).bind fun stream => (Run.emits_pull sends_pulled stream).bind ?_
  rintro ⟨row, _⟩
  cases row with
  | none => exact Run.emits_pure _
  | some row => exact (Run.emits_ofExcept _).bind fun _ => Run.emits_pure _

/-- A batch reader whose statement and mapping keep to the context does so itself. -/
theorem emits_batches (width size : Nat) {statement : Except Failure (Sql × (Row → Run σ α))}
    (hf : ∀ q f, statement = .ok (q, f) →
      A (.query q.text q.args) ∧ ∀ row, (f row).Emits (tc.Sends A))
    (handler : List α → Callback σ Unit) :
    (tc.batches width size statement handler).Emits (tc.Sends A) := by
  refine (Run.emits_ofExcept _).bind fun _ => ?_
  split
  · exact Run.emits_fail _
  · refine Run.Emits.ofExcept_bind ?_
    rintro ⟨q, f⟩ hq
    obtain ⟨hA, hrow⟩ := hf q f hq
    exact (emits_queryStream hA).bind fun stream => (Run.emits_reserve width size).bind fun _ =>
      emits_deliver width size hrow handler [] stream

theorem emits_queryBatches {t : Table} {matcher : Option Matcher} {view : Option View}
    {orders : List Order} {limit : Option Int64}
    (hA : ∀ q stmt, Statement.select t tc.scope q = .ok stmt →
      A (.query stmt.sql.text stmt.sql.args))
    (width size : Nat) (handler : List Record → Callback σ Unit) :
    (tc.queryBatches t matcher view orders limit width size handler).Emits (tc.Sends A) := by
  refine emits_batches width size ?_ handler
  intro q f hq
  cases hs : Statement.select t tc.scope _ with
  | error g => rw [hs] at hq; cases hq
  | ok stmt =>
    rw [hs] at hq
    cases hq
    exact ⟨hA _ stmt hs, emits_bindRow t _ _⟩

section Raw

variable {q : Sql} (hA : A (.query q.text q.args)) (mapper : Row → Callback σ α)

include hA

theorem emits_queryRaw : (tc.queryRaw q mapper).Emits (tc.Sends A) :=
  (emits_queryRows hA).bind (emits_mapRows fun _ => Run.emits_callback _)

theorem emits_queryRawBatches (width size : Nat) (handler : List α → Callback σ Unit) :
    (tc.queryRawBatches q width size mapper handler).Emits (tc.Sends A) := by
  refine emits_batches width size ?_ handler
  rintro _ _ ⟨⟩
  exact ⟨hA, fun _ => Run.emits_callback _⟩

end Raw

/-! ### Writing -/

/-- A write after hooks emits what the hooks and the write do. -/
theorem emits_afterHooks (hq : ∀ e : Event, e.isDriver = false → P e) (point : HookPoint)
    (table : String) (columns : List String) (pick : Interceptor σ → Hook σ S) (subject : S)
    {write : S → Run σ (Ending α × S)} (hw : ∀ s, (write s).Emits P) :
    (tc.afterHooks point table columns pick subject write).Emits P := by
  unfold afterHooks
  split
  · exact Run.emits_pure _
  · refine (emits_runHooks hq point table columns pick subject).bind ?_
    rintro ⟨e, subject⟩
    cases e with
    | ok _ => exact hw subject
    | error f => exact Run.emits_pure _
    | panic p => exact Run.emits_pure _

/-- A write after hooks comes to a value if the write does. -/
theorem returns_afterHooks (point : HookPoint) (table : String) (columns : List String)
    (pick : Interceptor σ → Hook σ S) (subject : S) {write : S → Run σ (Ending α × S)}
    (hw : ∀ s, (write s).Returns) :
    (tc.afterHooks point table columns pick subject write).Returns := by
  unfold afterHooks
  split
  · exact Run.returns_pure _
  · refine (Run.returns_hooks _ _ _ _).bind ?_
    rintro ⟨e, subject⟩
    cases e with
    | ok _ => exact hw subject
    | error f => exact Run.returns_pure _
    | panic p => exact Run.returns_pure _

/-- Hooks may make any record of the one that is inserted. -/
theorem emits_insert {t : Table} (hA : ∀ r q, Statement.insert t tc.scope r = .ok q →
      A (.insert q.text q.args t.generated)) (r : Record) :
    (tc.insert t r).Emits (tc.Sends A) := by
  refine emits_afterHooks sends_quiet _ _ _ _ _ fun r =>
    Run.Emits.bind (Run.Emits.ending ?_) fun done => ?_
  · exact Run.Emits.ofExcept_bind fun q hq => emits_insertRow (hA r q hq)
  · cases done <;> exact Run.emits_pure _

theorem returns_insert (t : Table) (r : Record) : (tc.insert t r).Returns := by
  refine returns_afterHooks _ _ _ _ _ fun r => (Run.returns_ending _).bind fun done => ?_
  cases done <;> exact Run.returns_pure _

section Updating

variable {t : Table}
  (hA : ∀ r q, Statement.update t tc.scope r = .ok q → A (.execute q.text q.args))

include hA

theorem emits_update (r : Record) : (tc.update t r).Emits (tc.Sends A) := by
  refine emits_afterHooks sends_quiet _ _ _ _ _ fun r =>
    Run.Emits.bind (Run.Emits.ending ?_) fun done => ?_
  · exact Run.Emits.ofExcept_bind fun q hq => emits_execute (hA r q hq)
  · exact Run.emits_pure _

theorem emits_updateFrom : ∀ (written : Nat) (rs : List Record),
    (tc.updateFrom t written rs).Emits (tc.Sends A)
  | _, [] => Run.emits_pure _
  | written, r :: rs => by
    refine (emits_update hA r).bind ?_
    rintro ⟨e, r⟩
    cases e with
    | ok n => exact (emits_updateFrom (written + n) rs).bind fun _ => Run.emits_pure _
    | error f => exact Run.emits_pure _
    | panic p => exact Run.emits_pure _

end Updating

theorem returns_update (t : Table) (r : Record) : (tc.update t r).Returns :=
  returns_afterHooks _ _ _ _ _ fun _ => (Run.returns_ending _).bind fun _ => Run.returns_pure _

theorem returns_updateFrom (t : Table) : ∀ (written : Nat) (rs : List Record),
    (tc.updateFrom t written rs).Returns
  | _, [] => Run.returns_pure _
  | written, r :: rs => by
    refine (returns_update t r).bind ?_
    rintro ⟨e, r⟩
    cases e with
    | ok n => exact (returns_updateFrom t (written + n) rs).bind fun _ => Run.returns_pure _
    | error f => exact Run.returns_pure _
    | panic p => exact Run.returns_pure _

theorem emits_noteUnconditioned (t : Table) (mutation : Mutation) (matcher : Matcher) :
    (tc.noteUnconditioned t mutation matcher).Emits (tc.Sends A) := by
  unfold noteUnconditioned
  split
  · exact Run.emits_log (sends_logged _)
  · exact Run.emits_pure _

section Mutating

variable {t : Table} {matcher : Matcher}

/-- Hooks may make any modifier of the one that is applied. -/
theorem emits_modify (hA : ∀ m q, Statement.modify t tc.scope m (some matcher) = .ok (some q) →
      A (.execute q.text q.args)) (m : Modifier) :
    (tc.modify t m matcher).Emits (tc.Sends A) := by
  refine Run.Emits.bind (emits_afterHooks sends_quiet _ _ _ _ _ fun m => ?_) fun _ =>
    Run.emits_ofEnding _
  refine Run.Emits.bind (Run.Emits.ending ?_) fun _ => Run.emits_pure _
  unfold sendModifier
  split
  · exact Run.emits_pure _
  · refine (emits_noteUnconditioned t _ matcher).bind fun _ =>
      Run.Emits.ofExcept_bind fun q hq => ?_
    cases q with
    | none => exact Run.emits_pure _
    | some q => exact emits_execute (hA m q hq)

theorem emits_modifyByIds {ids : List Int64}
    (hA : ∀ m q, Statement.modify t tc.scope m (some (Matcher.among t.idColumn ids)) =
      .ok (some q) → A (.execute q.text q.args)) (m : Modifier) :
    (tc.modifyByIds t m ids).Emits (tc.Sends A) := by
  refine (Run.emits_ofExcept _).bind fun _ => ?_
  split
  · exact Run.emits_pure _
  · exact emits_modify hA m

theorem emits_delete (hA : ∀ q, Statement.delete t tc.scope (some matcher) = .ok q →
      A (.execute q.text q.args)) :
    (tc.delete t matcher).Emits (tc.Sends A) :=
  (Run.emits_ofExcept _).bind fun _ => (emits_noteUnconditioned t _ matcher).bind fun _ =>
    Run.Emits.ofExcept_bind fun q hq => emits_execute (hA q hq)

theorem emits_deleteByIds {ids : List Int64}
    (hA : ∀ q, Statement.delete t tc.scope (some (Matcher.among t.idColumn ids)) = .ok q →
      A (.execute q.text q.args)) :
    (tc.deleteByIds t ids).Emits (tc.Sends A) := by
  refine (Run.emits_ofExcept _).bind fun _ => ?_
  split
  · exact Run.emits_pure _
  · exact emits_delete hA

end Mutating

end Context

/-! ### Operations -/

namespace Operation

/-- Every statement that may be put together for an operation under a scope makes a call of some kind.
Hooks decide which record or which modifier it is put together from. -/
def Within (s : Scope) (A : Call → Prop) : Operation σ ρ → Prop
  | check | inspect | complete _ | completeWithPanic .. => True
  | getAll t _ | getById t .. | getByIds t .. | queryList t .. | queryPage t .. | queryListInto t ..
  | queryOne t .. | queryBatches t .. | lockById t .. | lockByIds t .. | lockList t .. | lockOne t .. =>
    ∀ q stmt, Statement.select t s q = .ok stmt → A (.query stmt.sql.text stmt.sql.args)
  | count t matcher => ∀ q, Statement.count t s matcher = .ok q → A (.query q.text q.args)
  | queryRaw q _ | queryRawBatches q .. => A (.query q.text q.args)
  | insert t _ => ∀ r q, Statement.insert t s r = .ok q → A (.insert q.text q.args t.generated)
  | update t _ | updateList t _ => ∀ r q, Statement.update t s r = .ok q → A (.execute q.text q.args)
  | modifyById t _ id => ∀ m q,
    Statement.modify t s m (some (Matcher.equals t.idColumn (.int id))) = .ok (some q) →
      A (.execute q.text q.args)
  | modifyByIds t _ ids => ∀ m q,
    Statement.modify t s m (some (Matcher.among t.idColumn ids)) = .ok (some q) →
      A (.execute q.text q.args)
  | modify t _ matcher => ∀ m q,
    Statement.modify t s m (some matcher) = .ok (some q) → A (.execute q.text q.args)
  | executeRaw q => A (.execute q.text q.args)
  | deleteById t id => ∀ q,
    Statement.delete t s (some (Matcher.equals t.idColumn (.int id))) = .ok q →
      A (.execute q.text q.args)
  | deleteByIds t ids => ∀ q,
    Statement.delete t s (some (Matcher.among t.idColumn ids)) = .ok q → A (.execute q.text q.args)
  | delete t matcher => ∀ q,
    Statement.delete t s (some matcher) = .ok q → A (.execute q.text q.args)

variable {tc : Context σ} {A : Call → Prop} {P : Event → Prop}

theorem emits_plain {answer : α → Answer ρ} {x : Run σ α} (hx : x.Emits P) :
    (plain tc answer x).Emits P := hx.ending.bind fun _ => Run.emits_pure _

theorem emits_writing {records : α → List Record} {x : Run σ (Ending Nat × α)} (hx : x.Emits P) :
    (writing tc records x : Run σ (Report ρ × Context σ)).Emits P :=
  hx.bind fun _ => Run.emits_pure _

/-- Putting a modifier together adds log records only. -/
theorem emits_assembled {calls : List Assignment} {f : Modifier → Run σ α}
    (hf : ∀ m, (f m).Emits (tc.Sends A)) : (Modifier.assemble calls >>= f).Emits (tc.Sends A) :=
  ((Run.emits_logAll _ Context.sends_logged).bind fun _ => Run.emits_pure _).bind hf

/-- An operation that does not complete its context sends its statements and nothing else. -/
theorem emits_run (op : Operation σ ρ) (h : op.completes = false) (hA : op.Within tc.scope A) :
    (op.run tc).Emits (tc.Sends A) := by
  cases op with
  | complete reason => cases h
  | completeWithPanic reason payload => cases h
  | check => exact emits_plain (Run.emits_ofExcept _)
  | inspect => exact emits_plain (Run.emits_pure _)
  | getAll t view => exact emits_plain (Context.emits_select (hA _) _)
  | getById t id view => exact emits_plain (Context.emits_selectFirst (hA _))
  | getByIds t ids view => exact emits_plain (Context.emits_selectAmong hA)
  | queryList t matcher view orders => exact emits_plain (Context.emits_select (hA _) _)
  | queryPage t matcher view pager orders => exact emits_plain (Context.emits_select (hA _) _)
  | queryListInto t matcher view pager orders factory =>
    exact emits_plain (Context.emits_select (hA _) factory)
  | queryOne t matcher view => exact emits_plain (Context.emits_selectFirst (hA _))
  | count t matcher => exact emits_plain (Context.emits_count hA)
  | queryBatches t matcher view orders limit size handler width =>
    exact emits_plain (Context.emits_queryBatches hA width size handler)
  | queryRaw q mapper => exact emits_plain (Context.emits_queryRaw hA mapper)
  | queryRawBatches q size mapper handler width =>
    exact emits_plain (Context.emits_queryRawBatches hA mapper width size handler)
  | lockById t id lock => exact emits_plain (Context.emits_selectFirst (hA _))
  | lockByIds t ids lock orders => exact emits_plain (Context.emits_selectAmong hA)
  | lockList t matcher view pager orders lock => exact emits_plain (Context.emits_select (hA _) _)
  | lockOne t matcher view lock => exact emits_plain (Context.emits_selectFirst (hA _))
  | insert t r => exact emits_writing (Context.emits_insert hA r)
  | update t r => exact emits_writing (Context.emits_update hA r)
  | updateList t rs => exact emits_writing (Context.emits_updateFrom hA 0 rs)
  | modifyById t calls id => exact emits_plain (emits_assembled (Context.emits_modify hA))
  | modifyByIds t calls ids => exact emits_plain (emits_assembled (Context.emits_modifyByIds hA))
  | modify t calls matcher => exact emits_plain (emits_assembled (Context.emits_modify hA))
  | executeRaw q => exact emits_plain (Context.emits_execute hA)
  | deleteById t id => exact emits_plain (Context.emits_delete hA)
  | deleteByIds t ids => exact emits_plain (Context.emits_deleteByIds hA)
  | delete t matcher => exact emits_plain (Context.emits_delete hA)

/-- Whatever is put together for an operation is a statement. -/
theorem within_isStatement (s : Scope) (op : Operation σ ρ) :
    op.Within s (·.isStatement = true) := by
  cases op <;> simp [Within, Call.isStatement]

/-- A run that keeps to its context and gives the context back as it was. -/
def Keeps (tc : Context σ) (x : Run σ (Report ρ × Context σ)) : Prop :=
  x.Emits tc.Touches ∧ ∀ (b : Backend σ) (w : World σ), ∃ report, (x b w).1 = .ok (report, tc)

theorem writing_of_returns {records : α → List Record} {x : Run σ (Ending Nat × α)}
    (hx : x.Returns) (b : Backend σ) (w : World σ) :
    ∃ report : Report ρ, (writing tc records x b w).1 = .ok (report, tc) := by
  obtain ⟨⟨e, a⟩, ha⟩ := hx.run_eq b w
  refine ⟨{ result := e.map .affected, records := records a }, ?_⟩
  simp only [writing, Run.bind_apply]
  rw [ha]
  rfl

/-- An operation that does not complete its context gives it back as it was. -/
theorem run_returns (op : Operation σ ρ) (h : op.completes = false) (b : Backend σ) (w : World σ) :
    ∃ report, (op.run tc b w).1 = .ok (report, tc) := by
  cases op with
  | complete reason => cases h
  | completeWithPanic reason payload => cases h
  | insert t r => exact writing_of_returns (Context.returns_insert t r) b w
  | update t r => exact writing_of_returns (Context.returns_update t r) b w
  | updateList t rs => exact writing_of_returns (Context.returns_updateFrom t 0 rs) b w
  | _ => exact ⟨_, rfl⟩

/-- An operation that does not complete its context sends statements on the context's connection and
leaves the context as it was. -/
theorem keeps_run (op : Operation σ ρ) (h : op.completes = false) : Keeps tc (op.run tc) :=
  ⟨(emits_run op h (within_isStatement tc.scope op)).mono (Context.Sends.touches fun _ ha => ha),
    run_returns op h⟩

end Operation

end TableAccess
