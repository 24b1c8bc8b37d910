import TableAccess.Proofs.Work.Mirror
import TableAccess.Proofs.Work.Sessions
import TableAccess.Work.Scripted

/-!
What the log of statements changes: nothing but the log.

A session is run twice on one datasource, without the log of statements and with it. Both runs do the
same steps, and a step is `Unaware` if what a caller does in it does not depend on whether the log is
on. Every operation mirrors itself then, and so does work, a step and a run of steps; what is told and
the contexts that are left differ by the flag that says so, and the traces by the records of the
statements.
-/

namespace TableAccess

variable {σ ρ α β : Type} {D : LogRecord → Prop}

open Run

/-! ### With the log on or off -/

/-- The datasource with the log of statements on or off. -/
def Datasource.withLog (ds : Datasource σ) (on : Bool) : Datasource σ := { ds with logSql := on }

/-- An answer of a context with the log on or off. -/
def Answer.withLog : Answer ρ → Bool → Answer ρ
  | .seen s, on => .seen { s with logSql := on }
  | a, _ => a

/-- A report of a context with the log on or off. -/
def Report.withLog (r : Report ρ) (on : Bool) : Report ρ :=
  { r with result := r.result.map (·.withLog on) }

/-- What a step gives with the log on or off. -/
def Outcome.withLog : Outcome ρ β → Bool → Outcome ρ β
  | .reported r, on => .reported (r.withLog on)
  | o, _ => o

/-- The session with the log of all its contexts on or off. -/
def Session.withLog (s : Session σ) (on : Bool) : Session σ :=
  ⟨s.slots.map fun x => (x.1, x.2.withLog on)⟩

/-- Only what is seen of a context says whether the log is on. -/
theorem Report.withLog_of_answer {answer : α → Answer ρ}
    (h : ∀ a on, (answer a).withLog on = answer a) (e : Ending α) (rs : List Record) (on : Bool) :
    ({ result := e.map answer, records := rs } : Report ρ).withLog on =
      { result := e.map answer, records := rs } := by
  cases e with
  | ok a => simp only [withLog, Ending.map, h]
  | error f => rfl
  | panic p => rfl

theorem Outcome.map_withLog_of {f : α → Outcome ρ β} (h : ∀ a on, (f a).withLog on = f a)
    (e : Ending α) (on : Bool) : (e.map f).map (·.withLog on) = e.map f := by
  cases e with
  | ok a => simp only [Ending.map, h]
  | error g => rfl
  | panic p => rfl

/-! ### Contexts -/

namespace Context

/-- The context without the log and the same one with it, where hooks write within `D`. -/
inductive Twins (D : LogRecord → Prop) : Context σ → Context σ → Prop
  | of {tc : Context σ} (h : ∀ i ∈ tc.interceptors, i.Writes D) :
    Twins D (tc.withLog false) (tc.withLog true)

/-- The same beside the two. -/
inductive Beside (D : LogRecord → Prop) : α × Context σ → α × Context σ → Prop
  | of (a : α) {tc tc' : Context σ} (h : Twins D tc tc') : Beside D (a, tc) (a, tc')

variable {tc tc' : Context σ}

/-! ### The end of a unit of work -/

theorem mirrors_rollback (traceId : String) (conn : Connection) :
    Mirrors D Eq (rollback traceId conn : Run σ _) (rollback traceId conn) := by
  refine (mirrors_call conn rfl _).andThen ?_
  rintro (f | u)
  · exact (mirrors_log rfl).andThen fun _ => mirrors_pure rfl
  · exact mirrors_pure rfl

theorem mirrors_commit (traceId : String) (conn : Connection) :
    Mirrors D Eq (commit traceId conn : Run σ _) (commit traceId conn) := by
  refine (mirrors_call conn rfl _).andThen ?_
  rintro (f | u)
  · refine (mirrors_log rfl).andThen fun _ => (mirrors_call conn rfl _).andThen ?_
    rintro (g | u)
    · exact (mirrors_log rfl).andThen fun _ => mirrors_pure rfl
    · exact mirrors_pure rfl
  · exact mirrors_pure rfl

theorem mirrors_endTransaction (traceId : String) (style : Style) (conn : Connection)
    (reason : Option Failure) :
    Mirrors D Eq (endTransaction traceId style conn reason : Run σ _)
      (endTransaction traceId style conn reason) := by
  unfold endTransaction
  split
  · exact mirrors_pure rfl
  · exact mirrors_commit traceId conn
  · exact mirrors_rollback traceId conn

theorem Twins.mirrors_complete (h : Twins D tc tc') (reason : Option Failure) :
    Mirrors D (Beside D) (tc.complete reason) (tc'.complete reason) := by
  obtain @⟨tc, hD⟩ := h
  have hstatus : ∀ on, (tc.withLog on).status = tc.status := fun _ => rfl
  have hconnection : ∀ on, (tc.withLog on).connection = tc.connection := fun _ => rfl
  have hinvalidated : Twins D (tc.withLog false).invalidated (tc.withLog true).invalidated := by
    have hD : ∀ i ∈ tc.invalidated.interceptors, i.Writes D := hD
    exact .of hD
  simp only [complete, hstatus, hconnection]
  split
  · exact mirrors_pure (.of _ (.of hD))
  · cases tc.connection with
    | none =>
      cases reason with
      | none => exact mirrors_pure (.of _ hinvalidated)
      | some f => exact (mirrors_log rfl).andThen fun _ => mirrors_pure (.of _ hinvalidated)
    | some conn =>
      have hended : Mirrors (σ := σ) D (Beside D) _ _ :=
        (mirrors_endTransaction tc.traceId tc.style conn reason).andThen fun outcome =>
          (mirrors_close conn).andThen fun _ => mirrors_pure (.of outcome hinvalidated)
      cases reason with
      | none => exact hended
      | some f => exact (mirrors_log rfl).andThen fun _ => hended

theorem Twins.mirrors_completeWithPanic (h : Twins D tc tc') (reason : Option Failure)
    (payload : Option String) :
    Mirrors D (Beside D) (tc.completeWithPanic reason payload)
      (tc'.completeWithPanic reason payload) := by
  cases payload with
  | none =>
    refine (h.mirrors_complete reason).bind ?_
    rintro _ _ ⟨outcome, h⟩
    exact mirrors_pure (.of _ h)
  | some p =>
    refine (h.mirrors_complete (some .panicked)).bind ?_
    rintro _ _ ⟨outcome, h⟩
    exact mirrors_pure (.of _ h)

theorem Twins.mirrors_drop (h : Twins D tc tc') : Mirrors D Eq tc.drop tc'.drop := by
  obtain @⟨tc, -⟩ := h
  have hconnection : ∀ on, (tc.withLog on).connection = tc.connection := fun _ => rfl
  simp only [drop, hconnection]
  cases tc.connection with
  | none => exact mirrors_pure rfl
  | some conn => exact (mirrors_log rfl).andThen fun _ => mirrors_discard conn

end Context

/-! ### Operations -/

namespace Operation

open Context

/-- What is told of an operation, and the context then. Only looking at the context shows whether the
log is on. -/
inductive Told (D : LogRecord → Prop) (op : Operation σ ρ) :
    Report ρ × Context σ → Report ρ × Context σ → Prop
  | of (r : Report ρ) {tc tc' : Context σ} (h : tc.Twins D tc')
      (hr : op ≠ .inspect → ∀ on, r.withLog on = r) :
    Told D op (r.withLog false, tc) (r.withLog true, tc')

variable {op : Operation σ ρ} {tc : Context σ}

/-- What does not show it is told alike. -/
theorem Told.same {r : Report ρ} (hr : ∀ on, r.withLog on = r) {tc tc' : Context σ}
    (h : tc.Twins D tc') : Told D op (r, tc) (r, tc') := by
  have htold : Told D op (r.withLog false, tc) (r.withLog true, tc') := .of r h fun _ => hr
  rwa [hr, hr] at htold

theorem mirrors_plain {tc' : Context σ} (h : tc.Twins D tc') {answer : α → Answer ρ}
    (hanswer : ∀ a on, (answer a).withLog on = answer a) {x y : Run σ α} (hx : Mirrors D Eq x y) :
    Mirrors D (Told D op) (plain tc answer x) (plain tc' answer y) :=
  hx.ending_eq.andThen fun e =>
    mirrors_pure (.same (Report.withLog_of_answer hanswer e []) h)

theorem mirrors_writing {tc' : Context σ} (h : tc.Twins D tc') (records : α → List Record)
    {x y : Run σ (Ending Nat × α)} (hx : Mirrors D Eq x y) :
    Mirrors D (Told D op) (writing tc records x) (writing tc' records y) :=
  hx.andThen fun (e, a) =>
    mirrors_pure (.same (Report.withLog_of_answer (fun _ _ => rfl) e (records a)) h)

theorem mirrors_ending {x y : Run σ (Ending Unit × Context σ)} (hx : Mirrors D (Beside D) x y) :
    Mirrors D (Told D op) (ending x) (ending y) := by
  refine hx.bind ?_
  rintro _ _ ⟨e, h⟩
  exact mirrors_pure (.same (Report.withLog_of_answer (fun _ _ => rfl) e []) h)

/-- That an assignment is replaced is no record about a statement. -/
theorem mirrors_assemble (calls : List Assignment) :
    Mirrors D Eq (Modifier.assemble calls : Run σ Modifier) (Modifier.assemble calls) := by
  refine (mirrors_logAll ?_).andThen fun _ => mirrors_pure rfl
  intro r hr hstatement
  obtain ⟨column, -, rfl⟩ := List.mem_map.mp hr
  cases hstatement

/-- Every operation mirrors itself. -/
theorem mirrors_run (hD : ∀ i ∈ tc.interceptors, i.Writes D) (op : Operation σ ρ) :
    Mirrors D (Told D op) (op.run (tc.withLog false)) (op.run (tc.withLog true)) := by
  have h : (tc.withLog false).Twins D (tc.withLog true) := .of hD
  have hplain : ∀ {α : Type} {answer : α → Answer ρ} {x y : Run σ α}, Mirrors D Eq x y →
      (∀ a on, (answer a).withLog on = answer a) →
      Mirrors D (Told D op) (plain (tc.withLog false) answer x) (plain (tc.withLog true) answer y) :=
    fun hx hanswer => mirrors_plain h hanswer hx
  cases op with
  | check => exact hplain alike_check fun _ _ => rfl
  | inspect =>
    exact mirrors_pure (.of { result := .ok (.seen tc.toSnapshot) } h fun hop => absurd rfl hop)
  | complete reason => exact mirrors_ending (h.mirrors_completeWithPanic reason none)
  | completeWithPanic reason payload =>
    exact mirrors_ending (h.mirrors_completeWithPanic reason payload)
  | getAll t view => exact hplain (alike_select t _ _) fun _ _ => rfl
  | getById t id view => exact hplain (alike_selectFirst t _) fun _ _ => rfl
  | getByIds t ids view => exact hplain (alike_selectAmong t ids _) fun _ _ => rfl
  | queryList t matcher view orders => exact hplain (alike_select t _ _) fun _ _ => rfl
  | queryPage t matcher view pager orders => exact hplain (alike_select t _ _) fun _ _ => rfl
  | queryListInto t matcher view pager orders factory =>
    exact hplain (alike_select t _ factory) fun _ _ => rfl
  | queryOne t matcher view => exact hplain (alike_selectFirst t _) fun _ _ => rfl
  | count t matcher => exact hplain (alike_count t matcher) fun _ _ => rfl
  | queryBatches t matcher view orders limit size handler width =>
    exact hplain (alike_queryBatches t matcher view orders limit width size handler) fun _ _ => rfl
  | queryRaw q mapper => exact hplain (alike_queryRaw q mapper) fun _ _ => rfl
  | queryRawBatches q size mapper handler width =>
    exact hplain (alike_queryRawBatches q width size mapper handler) fun _ _ => rfl
  | lockById t id lock => exact hplain (alike_selectFirst t _) fun _ _ => rfl
  | lockByIds t ids lock orders => exact hplain (alike_selectAmong t ids _) fun _ _ => rfl
  | lockList t matcher view pager orders lock => exact hplain (alike_select t _ _) fun _ _ => rfl
  | lockOne t matcher view lock => exact hplain (alike_selectFirst t _) fun _ _ => rfl
  | insert t r => exact mirrors_writing h ([·]) (alike_insert hD t r)
  | update t r => exact mirrors_writing h ([·]) (alike_update hD t r)
  | updateList t rs => exact mirrors_writing h id (alike_updateFrom hD t rs 0)
  | modifyById t calls id =>
    exact hplain ((mirrors_assemble calls).andThen fun m => alike_modify hD t m _) fun _ _ => rfl
  | modifyByIds t calls ids =>
    exact hplain ((mirrors_assemble calls).andThen fun m => alike_modifyByIds hD t m ids)
      fun _ _ => rfl
  | modify t calls matcher =>
    exact hplain ((mirrors_assemble calls).andThen fun m => alike_modify hD t m matcher)
      fun _ _ => rfl
  | executeRaw q => exact hplain (alike_execute q) fun _ _ => rfl
  | deleteById t id => exact hplain (alike_delete t _) fun _ _ => rfl
  | deleteByIds t ids => exact hplain (alike_deleteByIds t ids) fun _ _ => rfl
  | delete t matcher => exact hplain (alike_delete t matcher) fun _ _ => rfl

end Operation

/-! ### Work -/

/-- Work that does not depend on whether the log is on: after it has looked at a context, it goes on in
the same way. -/
inductive Work.Unaware : Work σ ρ β → Prop
  | finish (e : Ending β) : Unaware (.finish e)
  | perform {op : Operation σ ρ} {note : Report ρ → σ → σ} {next : Report ρ → Work σ ρ β}
      (hnote : op = .inspect → ∀ r : Report ρ, note (r.withLog true) = note (r.withLog false))
      (hnext : op = .inspect → ∀ r : Report ρ, next (r.withLog true) = next (r.withLog false))
      (h : ∀ r, (next r).Unaware) : Unaware (.perform op note next)

/-- Work mirrors itself, one operation after the other. -/
theorem Work.Unaware.mirrors_run {work : Work σ ρ β} (hwork : work.Unaware) :
    ∀ {tc : Context σ}, (∀ i ∈ tc.interceptors, i.Writes D) →
      Mirrors D (Context.Beside D) (work.run (tc.withLog false)) (work.run (tc.withLog true)) := by
  induction hwork with
  | finish e => exact fun hD => mirrors_pure (.of e (.of hD))
  | @perform op note next hnote hnext _ ih =>
    intro tc hD
    refine (Operation.mirrors_run hD op).bind ?_
    rintro _ _ ⟨r, @⟨tc, hD⟩, hr⟩
    have hsame : note (r.withLog true) = note (r.withLog false) ∧
        next (r.withLog true) = next (r.withLog false) := by
      by_cases hop : op = .inspect
      · exact ⟨hnote hop r, hnext hop r⟩
      · rw [hr hop, hr hop]
        exact ⟨rfl, rfl⟩
    have hgo : Mirrors D (Context.Beside D)
        (do
          Run.modifyEnv (note (r.withLog false))
          Run.emit (.answered (tc.withLog false).status)
          (next (r.withLog false)).run (tc.withLog false) : Run σ _)
        (do
          Run.modifyEnv (note (r.withLog true))
          Run.emit (.answered (tc.withLog true).status)
          (next (r.withLog true)).run (tc.withLog true) : Run σ _) := by
      rw [hsame.1, hsame.2]
      exact (mirrors_modifyEnv _).andThen fun _ =>
        (mirrors_emit (e := .answered tc.status) trivial).andThen fun _ => ih _ hD
    obtain ⟨a | f | p, rs⟩ := r
    · exact hgo
    · exact hgo
    · exact mirrors_pure (.of _ (.of hD))

/-- So does wrapped work, which is completed in the same way. -/
theorem Context.Twins.mirrors_wrap {tc tc' : Context σ} (h : tc.Twins D tc') {work : Work σ ρ β}
    (hwork : work.Unaware) : Mirrors D (Beside D) (tc.wrap work) (tc'.wrap work) := by
  obtain ⟨hD⟩ := h
  refine (hwork.mirrors_run hD).bind ?_
  rintro _ _ ⟨e, h⟩
  cases e with
  | ok v =>
    refine (h.mirrors_complete none).bind ?_
    rintro _ _ ⟨outcome, h⟩
    cases outcome <;> exact mirrors_pure (.of _ h)
  | error f =>
    refine (h.mirrors_complete (some f)).bind ?_
    rintro _ _ ⟨_, h⟩
    exact mirrors_pure (.of _ h)
  | panic p =>
    refine (h.mirrors_complete (some .panicked)).bind ?_
    rintro _ _ ⟨_, h⟩
    exact mirrors_pure (.of _ h)

/-! ### Opening -/

namespace Datasource

variable (ds : Datasource σ)

theorem mirrors_poolFor (s : Scope) : Mirrors D Eq (ds.poolFor s) (ds.poolFor s) := by
  unfold poolFor
  split
  · exact (mirrors_log rfl).andThen fun _ => mirrors_ofExcept _
  · exact mirrors_ofExcept _

theorem mirrors_connect (s : Scope) : Mirrors D Eq (ds.connect s) (ds.connect s) := by
  refine (mirrors_poolFor ds s).andThen fun pool => (mirrors_acquire pool _).andThen ?_
  rintro (_ | f | conn)
  · exact (mirrors_log rfl).andThen fun _ => mirrors_fail _
  · exact (mirrors_log rfl).andThen fun _ => mirrors_fail f
  · exact mirrors_pure rfl

theorem mirrors_beginFor (style : Style) (s : Scope) (conn : Connection) :
    Mirrors D Eq (ds.beginFor style s conn) (ds.beginFor style s conn) := by
  unfold beginFor
  split
  · exact mirrors_pure rfl
  · refine (mirrors_begin conn _ _).andThen ?_
    rintro (_ | f | u)
    · exact (mirrors_log rfl).andThen fun _ => (mirrors_discard conn).andThen fun _ => mirrors_fail _
    · exact (mirrors_log rfl).andThen fun _ => (mirrors_close conn).andThen fun _ => mirrors_fail f
    · exact mirrors_pure rfl

variable {ds}

/-- Opening gives the same context but for the flag. -/
theorem mirrors_open (hD : ∀ i ∈ ds.interceptors, i.Writes D) (style : Style) (s : Scope) :
    Mirrors D (Context.Twins D) ((ds.withLog false).open style s)
      ((ds.withLog true).open style s) := by
  refine (mirrors_connect ds s).andThen fun conn =>
    (mirrors_beginFor ds style s conn).andThen fun _ => ?_
  let tc : Context σ :=
    { style := style, status := .init, scope := s, logSql := ds.logSql,
      connection := some conn, interceptors := ds.interceptors }
  have h : (tc.withLog false).Twins D (tc.withLog true) := .of hD
  have hhooks : Context.Alike D tc (·.runHooks .afterBegin s.traceId [] (·.afterBegin s) ()) :=
    Context.alike_runHooks _ _ _ (fun i hi => (hD i hi).afterBegin s) ()
  refine hhooks.andThen ?_
  rintro ⟨e, _⟩
  cases e with
  | ok u => exact mirrors_pure h
  | error f => exact (h.mirrors_complete (some f)).bind fun _ _ _ => mirrors_fail f
  | panic p => exact h.mirrors_drop.andThen fun _ => mirrors_panic p

theorem mirrors_transact (hD : ∀ i ∈ ds.interceptors, i.Writes D) (style : Style) (s : Scope)
    {work : Work σ ρ β} (hwork : work.Unaware) :
    Mirrors D Eq ((ds.withLog false).transact style s work)
      ((ds.withLog true).transact style s work) := by
  refine (mirrors_open hD style s).bind fun tc tc' h => (h.mirrors_wrap hwork).bind ?_
  rintro _ _ ⟨e, -⟩
  exact mirrors_ofEnding (.refl e)

theorem mirrors_closeFrom : ∀ (i : Nat) (pools : List Pool),
    Mirrors D Eq (closeFrom i pools : Run σ Unit) (closeFrom i pools)
  | _, [] => mirrors_pure rfl
  | i, _ :: rest => (mirrors_closePool i).andThen fun _ => mirrors_closeFrom (i + 1) rest

end Datasource

/-! ### Sessions -/

/-- A step in which what the caller does depends on the log in nothing. -/
def Step.Unaware : Step σ ρ β → Prop
  | .wrap _ work | .transact _ _ work => work.Unaware
  | _ => True

namespace Session

variable {s s' : Session σ} {slot : Nat}

theorem get?_withLog (s : Session σ) (on : Bool) (slot : Nat) :
    (s.withLog on).get? slot = (s.get? slot).map (·.withLog on) := by
  rw [get?, get?, withLog, List.find?_map, Option.map_map, Option.map_map]
  rfl

theorem putInto_withLog (on : Bool) (slot : Nat) (tc : Context σ) :
    ∀ slots : List (Nat × Context σ),
      putInto slot (tc.withLog on) (slots.map fun x => (x.1, x.2.withLog on)) =
        (putInto slot tc slots).map fun x => (x.1, x.2.withLog on)
  | [] => rfl
  | (n, other) :: rest => by
    simp only [List.map_cons, putInto, putInto_withLog on slot tc rest]
    split
    · rfl
    · split <;> rfl

theorem put_withLog (s : Session σ) (on : Bool) (slot : Nat) (tc : Context σ) :
    (s.withLog on).put slot (tc.withLog on) = (s.put slot tc).withLog on :=
  congrArg Session.mk (putInto_withLog on slot tc s.slots)

theorem remove_withLog (s : Session σ) (on : Bool) (slot : Nat) :
    (s.withLog on).remove slot = (s.remove slot).withLog on := by
  refine congrArg Session.mk ?_
  rw [withLog, List.filter_map]
  rfl

/-- The session without the log and the same one with it, where hooks write within `D`. -/
inductive Twins (D : LogRecord → Prop) : Session σ → Session σ → Prop
  | of {s : Session σ} (h : ∀ slot tc, s.get? slot = some tc → ∀ i ∈ tc.interceptors, i.Writes D) :
    Twins D (s.withLog false) (s.withLog true)

theorem twins_empty : Twins D ({} : Session σ) {} :=
  .of (s := {}) fun _ _ hget => nomatch hget

theorem Twins.put (h : s.Twins D s') {tc tc' : Context σ} (htc : tc.Twins D tc') (slot : Nat) :
    (s.put slot tc).Twins D (s'.put slot tc') := by
  obtain @⟨s, h⟩ := h
  obtain @⟨tc, htc⟩ := htc
  rw [put_withLog, put_withLog]
  refine .of fun n other hget => ?_
  rw [get?_put] at hget
  split at hget
  · cases hget
    exact htc
  · exact h n other hget

theorem Twins.remove (h : s.Twins D s') (slot : Nat) :
    (s.remove slot).Twins D (s'.remove slot) := by
  obtain @⟨s, h⟩ := h
  rw [remove_withLog, remove_withLog]
  refine .of fun n other hget => ?_
  rw [get?_remove] at hget
  split at hget
  · cases hget
  · exact h n other hget

/-- A slot holds the same context in both, or none. -/
theorem Twins.get? (h : s.Twins D s') (slot : Nat) :
    (s.get? slot = none ∧ s'.get? slot = none) ∨
      ∃ tc tc', s.get? slot = some tc ∧ s'.get? slot = some tc' ∧ tc.Twins D tc' := by
  obtain @⟨s, h⟩ := h
  rw [get?_withLog, get?_withLog]
  cases hget : s.get? slot with
  | none => exact .inl ⟨rfl, rfl⟩
  | some tc => exact .inr ⟨_, _, rfl, rfl, .of (h slot tc hget)⟩

/-- What a step gives, and the session then. What it gives is equal in both if `equal` holds. -/
inductive Stepped (D : LogRecord → Prop) (equal : Prop) :
    Ending (Outcome ρ β) × Session σ → Ending (Outcome ρ β) × Session σ → Prop
  | of (e : Ending (Outcome ρ β)) {s s' : Session σ} (h : s.Twins D s')
      (he : equal → ∀ on, e.map (·.withLog on) = e) :
    Stepped D equal (e.map (·.withLog false), s) (e.map (·.withLog true), s')

variable {equal : Prop}

theorem Stepped.same {e : Ending (Outcome ρ β)} (he : ∀ on, e.map (·.withLog on) = e)
    (h : s.Twins D s') : Stepped D equal (e, s) (e, s') := by
  have hstepped : Stepped D equal (e.map (·.withLog false), s) (e.map (·.withLog true), s') :=
    .of e h fun _ => he
  rwa [he, he] at hstepped

theorem Twins.mirrors_dropSlot (h : s.Twins D s') (slot : Nat) :
    Mirrors D (Twins D) (s.dropSlot slot) (s'.dropSlot slot) := by
  unfold dropSlot
  obtain ⟨hget, hget'⟩ | ⟨tc, tc', hget, hget', htc⟩ := h.get? slot
  · rw [hget, hget']
    exact mirrors_pure h
  · rw [hget, hget']
    exact htc.mirrors_drop.andThen fun _ => mirrors_pure (h.remove slot)

theorem Twins.mirrors_aside (h : s.Twins D s') {f : α → Outcome ρ β}
    (hf : ∀ a on, (f a).withLog on = f a) {x y : Run σ α} (hx : Mirrors D Eq x y) :
    Mirrors D (Stepped D equal) (s.aside f x) (s'.aside f y) :=
  hx.ending_eq.andThen fun e => mirrors_pure (.same (Outcome.map_withLog_of hf e) h)

/-- Every step mirrors itself. What it gives is the same unless it looks at a context. -/
theorem Twins.mirrors_step (h : s.Twins D s') {ds : Datasource σ}
    (hD : ∀ i ∈ ds.interceptors, i.Writes D) {st : Step σ ρ β} (hst : st.Unaware) :
    Mirrors D (Stepped D (∀ slot, st ≠ .perform slot .inspect)) (s.step (ds.withLog false) st)
      (s'.step (ds.withLog true) st) := by
  cases st with
  | «open» slot style scope =>
    refine (Datasource.mirrors_open hD style scope).ending.bind ?_
    rintro _ _ (htc | f | p)
    · exact (h.mirrors_dropSlot slot).bind fun _ _ h =>
        mirrors_pure (.same (fun _ => rfl) (h.put htc slot))
    · exact mirrors_pure (.same (fun _ => rfl) h)
    · exact mirrors_pure (.same (fun _ => rfl) h)
  | perform slot op =>
    obtain ⟨hget, hget'⟩ | ⟨_, _, hget, hget', ⟨htc⟩⟩ := h.get? slot
    · simp only [step, hget, hget']
      exact mirrors_pure (.same (fun _ => rfl) h)
    · simp only [step, hget, hget']
      refine (op.mirrors_run htc).bind ?_
      rintro _ _ ⟨r, htc, hr⟩
      refine mirrors_pure (.of (.ok (.reported r)) (h.put htc slot) fun hlook on => ?_)
      have hop : op ≠ .inspect := by
        rintro rfl
        exact hlook slot rfl
      exact congrArg (fun r => Ending.ok (Outcome.reported r)) (hr hop on)
  | drop slot =>
    exact (h.mirrors_dropSlot slot).bind fun _ _ h => mirrors_pure (.same (fun _ => rfl) h)
  | wrap slot work =>
    obtain ⟨hget, hget'⟩ | ⟨_, _, hget, hget', htc⟩ := h.get? slot
    · simp only [step, hget, hget']
      exact mirrors_pure (.same (fun _ => rfl) h)
    · simp only [step, hget, hget']
      refine (htc.mirrors_wrap hst).bind ?_
      rintro _ _ ⟨e, -⟩
      exact mirrors_pure (.same (Outcome.map_withLog_of (fun _ _ => rfl) e) (h.remove slot))
  | transact style scope work =>
    exact h.mirrors_aside (fun _ _ => rfl) (Datasource.mirrors_transact hD style scope hst)
  | route scope => exact h.mirrors_aside (fun _ _ => rfl) (ds.mirrors_poolFor scope)
  | shutdown => exact h.mirrors_aside (fun _ _ => rfl) (Datasource.mirrors_closeFrom 0 ds.pools)
  | adjust f => exact h.mirrors_aside (fun _ _ => rfl) (mirrors_modifyEnv f)

/-- So does any run of steps. -/
theorem Twins.mirrors_run {ds : Datasource σ} (hD : ∀ i ∈ ds.interceptors, i.Writes D) :
    ∀ {steps : List (Step σ ρ β)} {s s' : Session σ}, s.Twins D s' →
      (∀ st ∈ steps, st.Unaware) →
      Mirrors D (Twins D) (s.run (ds.withLog false) steps) (s'.run (ds.withLog true) steps)
  | [], _, _, h, _ => mirrors_pure h
  | st :: rest, _, _, h, hsteps => by
    refine (h.mirrors_step hD (hsteps st (List.mem_cons_self ..))).bind ?_
    rintro _ _ ⟨e, h, -⟩
    exact mirrors_run hD h fun st' hst' => hsteps st' (List.mem_cons_of_mem st hst')

/-- Two runs of the same steps, without the log of statements and with it, lead to the same sessions,
the same state and the same trace but for the records, and any further step gives the same in both. The
records are those that each statement has around it. -/
theorem logging_transparent {ds : Datasource σ} (hD : ∀ i ∈ ds.interceptors, i.Writes D)
    (b : Backend σ) (env : σ) {steps : List (Step σ ρ β)} (hsteps : ∀ st ∈ steps, st.Unaware) :
    (∃ (s : Session σ) (env' : σ) (granted : Nat) (es fs : List Event),
      Session.run (ds.withLog false) {} steps b { env := env } =
        (.ok (s.withLog false), ⟨env', es, granted⟩) ∧
      Session.run (ds.withLog true) {} steps b { env := env } =
        (.ok (s.withLog true), ⟨env', fs, granted⟩) ∧
      Audited D es fs ∧
      ∀ st : Step σ ρ β, st.Unaware →
        ∃ (e : Ending (Outcome ρ β)) (s' : Session σ) (env'' : σ) (granted' : Nat)
          (es' fs' : List Event),
          (s.withLog false).step (ds.withLog false) st b ⟨env', es, granted⟩ =
            (.ok (e.map (·.withLog false), s'.withLog false), ⟨env'', es ++ es', granted'⟩) ∧
          (s.withLog true).step (ds.withLog true) st b ⟨env', fs, granted⟩ =
            (.ok (e.map (·.withLog true), s'.withLog true), ⟨env'', fs ++ fs', granted'⟩) ∧
          ((∀ slot, st ≠ .perform slot .inspect) → ∀ on, e.map (·.withLog on) = e) ∧
          Audited D es' fs') ∧
    (∀ (tc : Context σ) (q : Sql) (generated : Option String),
      tc.Recorded q (.query q.text q.args) (·.queryStream q) ∧
      tc.Recorded q (.query q.text q.args) (·.queryRows q) ∧
      tc.Recorded q (.execute q.text q.args) (·.execute q) ∧
      tc.Recorded q (.insert q.text q.args generated) (·.insertRow q generated)) ∧
    (∀ r : LogRecord, r.isStatement = true ↔ r.render.target = "quickdao.sql") ∧
    ∀ traceId sql args (outcome : Except Failure Unit),
      (LogRecord.statementStarted traceId sql args).render.message = "exec sql" ∧
      (LogRecord.statementStarted traceId sql args).render.fields =
        [("sql", some sql), ("args", some (argsText args))] ∧
      (LogRecord.concluded traceId outcome).render.message =
        if succeeded outcome then "sql done" else "sql failed" := by
  refine ⟨?_, fun tc q generated => ⟨tc.recorded_queryStream q, tc.recorded_queryRows q,
    tc.recorded_execute q, tc.recorded_insertRow q generated⟩, LogRecord.isStatement_iff,
    fun traceId sql args outcome => ⟨rfl, rfl, LogRecord.message_concluded traceId outcome⟩⟩
  obtain ⟨e, e', env', granted, es, fs, hlike, hlogged, hrun⟩ :=
    twins_empty.mirrors_run hD hsteps b env 0
  obtain ⟨hoff, hon⟩ := hrun []
  obtain ⟨s₀, w₀, hok, hsound⟩ := sound_run (ds.withLog false) b env steps
  rw [hoff] at hok
  cases hok
  obtain ⟨@⟨s, hs⟩⟩ := hlike
  refine ⟨s, env', granted, es, fs, hoff, hon, hlogged.audited, fun st hst => ?_⟩
  obtain ⟨e, e', env'', granted', es', fs', hlike, hlogged', hstep⟩ :=
    (Twins.of hs).mirrors_step hD hst b env' granted
  have hnext := leads_step (ds.withLog false) (s.withLog false) st b ⟨env', es, granted⟩ hsound
  rw [(hstep es).1] at hnext
  cases hlike with
  | error f => exact hnext.elim
  | panic p => exact hnext.elim
  | ok hstepped =>
    obtain ⟨e, ⟨hs'⟩, he⟩ := hstepped
    exact ⟨e, _, env'', granted', es', fs', (hstep es).1, (hstep fs).2, he, hlogged'.audited⟩

/-- A datasource that stamps a value on what is written. -/
def stamped : Datasource (Scripted Unit) := { pools := [{}], interceptors := [.stamp "tenant"] }

/-- Two statements, the first of which goes well, one behind the end of the context, and work that looks
at a context of its own. -/
def statementSteps : List (Step (Scripted Unit) Unit Unit) :=
  [.open 0 .write { traceId := "t1" }, .perform 0 (.executeRaw ⟨"UPDATE a SET n = 1", []⟩),
    .perform 0 (.executeRaw ⟨"UPDATE b SET n = ?", [.int 2]⟩), .perform 0 (.complete none),
    .perform 0 (.executeRaw ⟨"UPDATE c SET n = 3", []⟩),
    .transact .none { traceId := "t2" }
      (.perform .inspect (fun _ env => env) fun _ => .finish (.ok ()))]

/-- There the first two statements have their records, the failure of the second one is told, and the
third one, which is refused, has none. -/
theorem logging_transparent_stamped :
    (∀ i ∈ stamped.interceptors, i.Writes fun _ => False) ∧ (∀ st ∈ statementSteps, st.Unaware) ∧
      ∃ es fs, Audited (fun _ => False) es fs ∧
        fs = [.granted ⟨0, 0⟩, .called ⟨0, 0⟩ (.begin false) true,
          .hook 0 .afterBegin "t1" [],
          .logged (.statementStarted "t1" "UPDATE a SET n = 1" []),
          .called ⟨0, 0⟩ (.execute "UPDATE a SET n = 1" []) true, .logged (.statementDone "t1"),
          .logged (.statementStarted "t1" "UPDATE b SET n = ?" [.int 2]),
          .called ⟨0, 0⟩ (.execute "UPDATE b SET n = ?" [.int 2]) false,
          .logged (.statementFailed "t1" (.other "mock execution failure")),
          .called ⟨0, 0⟩ .commit true, .closed ⟨0, 0⟩, .granted ⟨0, 1⟩,
          .hook 0 .afterBegin "t2" [], .answered .init, .closed ⟨0, 1⟩] := by
  have hD : ∀ i ∈ stamped.interceptors, i.Writes fun _ => False := by
    intro i hi
    rw [List.mem_singleton.mp hi]
    exact Interceptor.stamp_writes "tenant"
  have hsteps : ∀ st ∈ statementSteps, st.Unaware := by
    rw [statementSteps]
    simp only [List.forall_mem_cons, List.not_mem_nil, false_implies, implies_true, and_true]
    exact ⟨trivial, trivial, trivial, trivial, trivial,
      .perform (fun _ _ => rfl) (fun _ _ => rfl) fun _ => .finish _⟩
  obtain ⟨⟨s, env, granted, es, fs, -, hon, haudited, -⟩, -⟩ :=
    logging_transparent hD Scripted.backend ⟨[{ failAfter := some 1 }], ()⟩ hsteps
  refine ⟨hD, hsteps, es, fs, haudited, ?_⟩
  have hfs : fs = (Session.run (stamped.withLog true) {} statementSteps Scripted.backend
      { env := ⟨[{ failAfter := some 1 }], ()⟩ }).2.trace := by rw [hon]
  rw [hfs]
  decide +kernel

end Session

end TableAccess
