import TableAccess.Proofs.Work.Completion
import TableAccess.Proofs.Work.Ledger

/-!
Who holds which connection.

An open context holds its connection and nothing else does, so what a run does to contexts is what it
does to the ledger of connections. `Run.Leads` is the usual triple of a run: what holds before it,
what holds if it comes to its value, and what holds if it stops short of it. Every rule leaves room
for a list of connections that others hold, which is what lets contexts be interleaved.
-/

namespace TableAccess

variable {σ ρ α β S : Type}

/-- The connections that are held in a world, and how they stand. -/
def World.Holds (w : World σ) (hs : List (Connection × Life)) : Prop := Ledger hs w.trace w.granted

namespace Run

/-- From a world as in `P`, a run comes to its value in a world as in `Q`, or it stops in a world as
in `E`. -/
def Leads (P : World σ → Prop) (x : Run σ α) (Q : α → World σ → Prop) (E : World σ → Prop) : Prop :=
  ∀ b w, P w → match x b w with
    | (.ok a, w') => Q a w'
    | (_, w') => E w'

variable {P : World σ → Prop} {Q : α → World σ → Prop} {E : World σ → Prop}
  {hs : List (Connection × Life)}

theorem Leads.bind {x : Run σ α} {f : α → Run σ β} {R : β → World σ → Prop} (hx : Leads P x Q E)
    (hf : ∀ a, Leads (Q a) (f a) R E) : Leads P (x >>= f) R E := by
  intro b w hw
  have hrun := hx b w hw
  rw [bind_apply]
  generalize x b w = r at hrun ⊢
  obtain ⟨e, w'⟩ := r
  cases e with
  | ok a => exact hf a b w' hrun
  | error f => exact hrun
  | panic p => exact hrun

theorem Leads.mono {x : Run σ α} {P' : World σ → Prop} {Q' : α → World σ → Prop}
    {E' : World σ → Prop} (hx : Leads P x Q E) (hP : ∀ w, P' w → P w) (hQ : ∀ a w, Q a w → Q' a w)
    (hE : ∀ w, E w → E' w) : Leads P' x Q' E' := by
  intro b w hw
  have hrun := hx b w (hP w hw)
  generalize x b w = r at hrun ⊢
  obtain ⟨e, w'⟩ := r
  cases e with
  | ok a => exact hQ a w' hrun
  | error f => exact hE w' hrun
  | panic p => exact hE w' hrun

theorem Leads.of_pre {x : Run σ α} {P' : World σ → Prop} (hx : Leads P x Q E)
    (hP : ∀ w, P' w → P w) : Leads P' x Q E := fun b w hw => hx b w (hP w hw)

theorem leads_pure {a : α} (h : ∀ w, P w → Q a w) : Leads P (Pure.pure a) Q E :=
  fun _ w hw => h w hw

theorem leads_fail (f : Failure) : Leads E (fail f : Run σ α) Q E := fun _ _ hw => hw

theorem leads_panic (p : String) : Leads E (panic p : Run σ α) Q E := fun _ _ hw => hw

/-- A run that is kept to its end gives that as its value. -/
theorem Leads.ending {x : Run σ α} {R : Ending α → World σ → Prop} (hx : Leads P x Q E)
    (hok : ∀ a w, Q a w → R (.ok a) w) (hstop : ∀ e w, e.isOk = false → E w → R e w) :
    Leads P x.ending R fun _ => False := by
  intro b w hw
  have hrun := hx b w hw
  rw [ending_apply]
  generalize x b w = r at hrun ⊢
  obtain ⟨e, w'⟩ := r
  cases e with
  | ok a => exact hok a w' hrun
  | error f => exact hstop _ w' rfl hrun
  | panic p => exact hstop _ w' rfl hrun

/-- What holds after a run holds whether it comes to its value or stops. -/
theorem leads_of_after {x : Run σ α} (h : ∀ b w, P w → E (x b w).2) :
    Leads P x (fun _ w => E w) E := by
  intro b w hw
  have hafter := h b w hw
  generalize x b w = r at hafter ⊢
  obtain ⟨e, w'⟩ := r
  cases e <;> exact hafter

/-- What no driver sees leaves the connections where they are. -/
theorem leads_of_quiet {x : Run σ α} (hx : x.Emits fun e => e.connection? = none) :
    Leads (·.Holds hs) x (fun _ w => w.Holds hs) (·.Holds hs) := by
  refine leads_of_after ?_
  intro b w hw
  obtain ⟨es, hes, hquiet⟩ := hx b w
  rw [World.Holds, hes.trace, hes.granted]
  exact Ledger.quiets hw hquiet

/-- A run that always comes to its value does not stop. -/
theorem Leads.of_returns {x : Run σ α} (hx : Leads P x Q E) (hr : x.Returns) :
    Leads P x Q fun _ => False := by
  intro b w hw
  have hrun := hx b w hw
  obtain ⟨a, ha⟩ := hr b w
  generalize x b w = r at hrun ha ⊢
  obtain ⟨e, w'⟩ := r
  cases ha
  exact hrun

/-- A log record leaves the connections where they are. -/
theorem leads_log (r : LogRecord) :
    Leads (·.Holds hs) (log r : Run σ Unit) (fun _ w => w.Holds hs) E :=
  fun _ _ hw => Ledger.quiet hw rfl

theorem leads_modifyEnv (f : σ → σ) :
    Leads (·.Holds hs) (modifyEnv f) (fun _ w => w.Holds hs) E := fun _ _ hw => hw

theorem leads_close {conn : Connection} {l : Life} (hl : l ≠ .busy) :
    Leads (·.Holds ((conn, l) :: hs)) (close conn : Run σ Unit) (fun _ w => w.Holds hs) E :=
  fun _ _ hw => Ledger.release hw (.inl ⟨rfl, hl⟩)

/-- Closing a pool leaves the connections that are held where they are. -/
theorem leads_closePool (pool : Nat) :
    Leads (·.Holds hs) (closePool pool : Run σ Unit) (fun _ w => w.Holds hs) E :=
  fun _ _ hw => Ledger.quiet hw rfl

theorem leads_discard {conn : Connection} {l : Life} (hl : l ≠ .stranded) :
    Leads (·.Holds ((conn, l) :: hs)) (discard conn : Run σ Unit) (fun _ w => w.Holds hs) E :=
  fun _ _ hw => Ledger.release hw (.inr ⟨rfl, hl⟩)

/-- Asking for a connection gives one of the pool that no one holds, or none. -/
theorem leads_acquire (pool bound : Nat) :
    Leads (·.Holds hs) (acquire pool bound : Run σ _)
      (fun reply w => match reply with
        | some (.ok conn) => w.Holds ((conn, .idle) :: hs)
        | _ => w.Holds hs) E := by
  intro b w hw
  simp only [acquire]
  by_cases hlate : bound < (b.acquire pool w.env).wait
  · rw [if_pos hlate]
    exact hw
  · rw [if_neg hlate]
    cases (b.acquire pool w.env).outcome with
    | ok u => exact Ledger.grant hw pool
    | error f => exact Ledger.quiet hw rfl

/-- A begin that goes well leaves a transaction open, and one that does not go well leaves none. -/
theorem leads_begin (conn : Connection) (readOnly : Bool) (bound : Nat) :
    Leads (·.Holds ((conn, .idle) :: hs)) (begin conn readOnly bound : Run σ _)
      (fun reply w => match reply with
        | some (.ok ()) => w.Holds ((conn, .busy) :: hs)
        | _ => w.Holds ((conn, .idle) :: hs)) E := by
  intro b w hw
  simp only [begin]
  by_cases hlate : bound < (b.begin conn readOnly w.env).wait
  · rw [if_pos hlate]
    exact hw
  · rw [if_neg hlate]
    cases (b.begin conn readOnly w.env).outcome with
    | ok u => exact Ledger.call hw rfl rfl
    | error f => exact Ledger.call hw rfl rfl

end Run

/-! ### Contexts -/

/-- How a connection stands while a unit of work of a style is open on it. -/
def Style.standing : Style → Life
  | .none => .idle
  | .readOnly | .write => .busy

theorem Style.standing_of_ne {style : Style} (h : style ≠ .none) : style.standing = .busy := by
  cases style with
  | none => exact absurd rfl h
  | readOnly | write => rfl

/-- A last exchange ends with the connection given up. -/
theorem Farewell.ledger {conn : Connection} {commit outcome : Except Failure Unit} {style : Style}
    {reason : Option Failure} {seen es : List Event} {fr : List (Connection × Life)} {n : Nat}
    (hf : Farewell conn commit style reason outcome seen)
    (h : Ledger ((conn, style.standing) :: fr) es n) : Ledger fr (es ++ seen) n := by
  cases hf with
  | plain => exact h.release (.inl ⟨rfl, by decide⟩)
  | committed hs =>
    rw [Style.standing_of_ne hs] at h
    have hended : Ledger ((conn, .idle) :: fr) (es ++ [.called conn .commit true]) n :=
      h.call rfl rfl
    simpa using hended.release (.inl ⟨rfl, by decide⟩)
  | refused hs _ undone =>
    rw [Style.standing_of_ne hs] at h
    have hrefused : Ledger ((conn, .busy) :: fr) (es ++ [.called conn .commit false]) n :=
      h.call rfl rfl
    have hended : Ledger ((conn, if undone then .idle else .stranded) :: fr)
        (es ++ [.called conn .commit false] ++ [.called conn .rollback undone]) n :=
      hrefused.call rfl (by cases undone <;> rfl)
    simpa using hended.release (.inl ⟨rfl, by cases undone <;> decide⟩)
  | undone hs =>
    rw [Style.standing_of_ne hs] at h
    have hended : Ledger ((conn, .idle) :: fr) (es ++ [.called conn .rollback true]) n :=
      h.call rfl rfl
    simpa using hended.release (.inl ⟨rfl, by decide⟩)
  | stuck hs =>
    rw [Style.standing_of_ne hs] at h
    have hended : Ledger ((conn, .stranded) :: fr) (es ++ [.called conn .rollback false]) n :=
      h.call rfl rfl
    simpa using hended.release (.inl ⟨rfl, by decide⟩)

namespace Context

variable {tc : Context σ} {fr : List (Connection × Life)}

/-- What a context has in hand. -/
def holding (tc : Context σ) : List (Connection × Life) :=
  match tc.connection with
  | none => []
  | some conn => [(conn, tc.style.standing)]

/-- A context is open and has its connection, or it is finished and has none. -/
def Settled (tc : Context σ) : Prop :=
  (∃ conn, tc.check = .ok conn) ∨ (tc.status = .invalid ∧ tc.connection = none)

theorem settled_invalidated (tc : Context σ) : tc.invalidated.Settled := .inr ⟨rfl, rfl⟩

theorem holding_of_check {conn : Connection} (h : tc.check = .ok conn) :
    tc.holding = [(conn, tc.style.standing)] := by
  rw [holding, (check_eq_ok_iff.mp h).2]

/-- A finished context has nothing in hand and stays as it is. -/
theorem Settled.of_invalid (h : tc.Settled) (hs : tc.status = .invalid) :
    tc.invalidated = tc ∧ tc.holding = [] := by
  rcases h with ⟨conn, hc⟩ | ⟨_, hc⟩
  · rw [(check_eq_ok_iff.mp hc).1] at hs
    cases hs
  · refine ⟨?_, by rw [holding, hc]⟩
    obtain ⟨⟨style, status, scope, logSql⟩, connection, interceptors⟩ := tc
    cases hs
    cases hc
    rfl

open Run

/-- Completing a context takes its connection out of its hands. -/
theorem leads_complete (h : tc.Settled) (reason : Option Failure) :
    Leads (·.Holds (tc.holding ++ fr)) (tc.complete reason)
      (fun r w => r.2 = tc.invalidated ∧ w.Holds fr) fun _ => False := by
  intro b w hw
  rcases h with ⟨conn, hc⟩ | hi
  · obtain ⟨outcome, es, w', hr, ha, hf⟩ := complete_open hc reason b w
    rw [hr]
    refine ⟨rfl, ?_⟩
    rw [holding_of_check hc] at hw
    rw [World.Holds, ha.trace, ha.granted]
    exact Ledger.of_driverEvents (hf.ledger hw)
  · obtain ⟨hsame, hnone⟩ := Settled.of_invalid (.inr hi) hi.1
    rw [complete_of_invalid hi.1]
    rw [hnone] at hw
    exact ⟨hsame.symm, hw⟩

/-- Dropping a context takes its connection out of its hands. -/
theorem leads_drop (tc : Context σ) :
    Leads (·.Holds (tc.holding ++ fr)) tc.drop (fun _ w => w.Holds fr) fun _ => False := by
  unfold drop holding
  cases tc.connection with
  | none => exact leads_pure fun _ hw => hw
  | some conn =>
    exact (leads_log _).bind fun _ => leads_discard (by cases tc.style <;> decide)

theorem leads_completeWithPanic (h : tc.Settled) (reason : Option Failure)
    (payload : Option String) :
    Leads (·.Holds (tc.holding ++ fr)) (tc.completeWithPanic reason payload)
      (fun r w => r.2 = tc.invalidated ∧ w.Holds fr) fun _ => False := by
  cases payload with
  | none => exact (leads_complete h reason).bind fun _ => leads_pure fun _ hw => hw
  | some p => exact (leads_complete h (some .panicked)).bind fun _ => leads_pure fun _ hw => hw

/-- A run that keeps to a context leaves every connection where it is. -/
theorem leads_of_touches (h : tc.Settled) {x : Run σ α} (hx : x.Emits tc.Touches) :
    Leads (·.Holds (tc.holding ++ fr)) x (fun _ w => w.Holds (tc.holding ++ fr))
      (·.Holds (tc.holding ++ fr)) := by
  rcases h with ⟨conn, hc⟩ | hi
  · refine leads_of_after ?_
    intro b w hw
    obtain ⟨es, hes, htouches⟩ := hx b w
    rw [holding_of_check hc] at hw ⊢
    rw [World.Holds, hes.trace, hes.granted]
    refine Ledger.statements hw ?_ ?_
    · cases tc.style <;> simp [Style.standing]
    · intro e he
      cases htouches e he with
      | quiet hq => exact .inl (Event.connection?_eq_none hq)
      | statement hcheck hs =>
        rw [hc] at hcheck
        cases hcheck
        exact .inr ⟨_, _, hs, rfl⟩
  · refine leads_of_quiet (hx.mono ?_)
    intro e he
    cases he with
    | quiet hq => exact Event.connection?_eq_none hq
    | statement hcheck =>
      rw [(check_eq_ok_iff.mp hcheck).1] at hi
      cases hi.1

end Context

open Run

variable {tc : Context σ} {fr : List (Connection × Life)}

/-- An operation leaves its context as it was or finishes it, and every other context keeps its
connection. -/
theorem Operation.leads_run (h : tc.Settled) (op : Operation σ ρ) :
    Leads (·.Holds (tc.holding ++ fr)) (op.run tc)
      (fun r w => (r.2 = tc ∨ r.2 = tc.invalidated) ∧ w.Holds (r.2.holding ++ fr))
      fun _ => False := by
  cases hop : op.completes with
  | false =>
    intro b w hw
    obtain ⟨hemits, hkeeps⟩ : Keeps tc (op.run tc) := keeps_run op hop
    have hrun := Context.leads_of_touches h hemits b w hw
    obtain ⟨report, hreport⟩ := hkeeps b w
    generalize op.run tc b w = r at hrun hreport ⊢
    obtain ⟨e, w'⟩ := r
    cases hreport
    exact ⟨.inl rfl, hrun⟩
  | true =>
    have hending : ∀ x : Run σ (Ending Unit × Context σ),
        Leads (·.Holds (tc.holding ++ fr)) x (fun r w => r.2 = tc.invalidated ∧ w.Holds fr)
          (fun _ => False) →
        Leads (·.Holds (tc.holding ++ fr)) (Operation.ending x : Run σ (Report ρ × Context σ))
          (fun r w => (r.2 = tc ∨ r.2 = tc.invalidated) ∧ w.Holds (r.2.holding ++ fr))
          fun _ => False := by
      intro x hx
      refine hx.bind ?_
      rintro ⟨e, tc'⟩
      refine leads_pure ?_
      rintro w ⟨rfl, hw⟩
      exact ⟨.inr rfl, hw⟩
    cases op with
    | complete reason => exact hending _ (Context.leads_completeWithPanic h reason none)
    | completeWithPanic reason payload =>
      exact hending _ (Context.leads_completeWithPanic h reason payload)
    | _ => cases hop

/-- A context that an operation was asked of is settled if it was before. -/
theorem Context.Settled.of_or (h : tc.Settled) {tc' : Context σ}
    (h' : tc' = tc ∨ tc' = tc.invalidated) : tc'.Settled := by
  rcases h' with rfl | rfl
  · exact h
  · exact Context.settled_invalidated tc

/-- Work leaves its context as it was or finishes it. -/
theorem Work.leads_run : ∀ (work : Work σ ρ β) {tc : Context σ}, tc.Settled →
    Leads (·.Holds (tc.holding ++ fr)) (work.run tc)
      (fun r w => (r.2 = tc ∨ r.2 = tc.invalidated) ∧ w.Holds (r.2.holding ++ fr)) fun _ => False
  | .finish e, tc, _ => leads_pure fun _ hw => ⟨.inl rfl, hw⟩
  | .perform op note next, tc, h => by
    intro b w hw
    have hop := Operation.leads_run h op b w hw
    rcases hr : op.run tc b w with ⟨_ | _ | _, w'⟩
    case error | panic => rw [hr] at hop; exact hop.elim
    case ok r =>
      obtain ⟨report, tc'⟩ := r
      rw [hr] at hop
      obtain ⟨htc, hw'⟩ := hop
      rw [run_perform hr]
      cases hresult : report.result with
      | panic p => exact ⟨htc, hw'⟩
      | ok _ | error _ =>
        refine ((leads_run (next report) (h.of_or htc)).mono (fun _ h => h) ?_ fun _ h => h) b _
          (Ledger.quiet hw' rfl)
        rintro ⟨e, tc''⟩ w'' ⟨htc', hw''⟩
        refine ⟨?_, hw''⟩
        rcases htc with rfl | rfl
        · exact htc'
        · exact .inr (htc'.elim id id)

/-- Wrapped work finishes its context and leaves the connections of others where they are. -/
theorem Context.leads_wrap (h : tc.Settled) (work : Work σ ρ β) :
    Leads (·.Holds (tc.holding ++ fr)) (tc.wrap work)
      (fun r w => r.2 = tc.invalidated ∧ w.Holds fr) fun _ => False := by
  refine (work.leads_run h).bind ?_
  rintro ⟨e, tc'⟩
  have hcomplete : ∀ reason, Leads
      (fun w => (tc' = tc ∨ tc' = tc.invalidated) ∧ w.Holds (tc'.holding ++ fr))
      (tc'.complete reason) (fun r w => r.2 = tc.invalidated ∧ w.Holds fr) fun _ => False := by
    rintro reason b w ⟨htc, hw⟩
    have hrun := Context.leads_complete (h.of_or htc) reason b w hw
    rcases htc with rfl | rfl
    · exact hrun
    · exact hrun
  cases e with
  | ok v =>
    refine (hcomplete none).bind ?_
    rintro ⟨completed, tc''⟩
    cases completed <;> exact leads_pure fun _ hw => hw
  | error f => exact (hcomplete (some f)).bind fun _ => leads_pure fun _ hw => hw
  | panic p => exact (hcomplete (some .panicked)).bind fun _ => leads_pure fun _ hw => hw

/-! ### Datasources -/

namespace Datasource

variable {ds : Datasource σ}

theorem leads_poolFor (ds : Datasource σ) (s : Scope) :
    Leads (·.Holds fr) (ds.poolFor s) (fun _ w => w.Holds fr) (·.Holds fr) := by
  refine leads_of_quiet ?_
  unfold poolFor
  split
  · exact Emits.bind (emits_log (by rfl)) fun _ => emits_ofExcept _
  · exact emits_ofExcept _

/-- Connecting gives a connection that no one holds. -/
theorem leads_connect (ds : Datasource σ) (s : Scope) :
    Leads (·.Holds fr) (ds.connect s) (fun conn w => w.Holds ((conn, .idle) :: fr))
      (·.Holds fr) := by
  refine (leads_poolFor ds s).bind fun pool => (leads_acquire pool _).bind ?_
  rintro (_ | f | conn)
  · exact (leads_log _).bind fun _ => leads_fail _
  · exact (leads_log _).bind fun _ => leads_fail _
  · exact leads_pure fun _ hw => hw

/-- Beginning leaves the connection as its style needs it, or gives it up. -/
theorem leads_beginFor (ds : Datasource σ) (style : Style) (s : Scope) (conn : Connection) :
    Leads (·.Holds ((conn, .idle) :: fr)) (ds.beginFor style s conn)
      (fun _ w => w.Holds ((conn, style.standing) :: fr)) (·.Holds fr) := by
  by_cases hs : style = .none
  · subst hs
    exact leads_pure fun _ hw => hw
  · rw [Style.standing_of_ne hs]
    unfold beginFor
    split
    · exact absurd rfl hs
    · refine (leads_begin conn _ _).bind ?_
      rintro (_ | f | u)
      · exact (leads_log _).bind fun _ => (leads_discard (by decide)).bind fun _ => leads_fail _
      · exact (leads_log _).bind fun _ => (leads_close (by decide)).bind fun _ => leads_fail _
      · exact leads_pure fun _ hw => hw

/-- Opening gives an open context in the style that was asked for, or leaves nothing behind. -/
theorem leads_open (ds : Datasource σ) (style : Style) (s : Scope) :
    Leads (·.Holds fr) (ds.open style s)
      (fun tc w => tc.style = style ∧ (∃ conn, tc.check = .ok conn) ∧ w.Holds (tc.holding ++ fr))
      (·.Holds fr) := by
  refine (leads_connect ds s).bind fun conn => (leads_beginFor ds style s conn).bind fun _ => ?_
  let tc : Context σ :=
    { style := style, status := .init, scope := s, logSql := ds.logSql,
      connection := some conn, interceptors := ds.interceptors }
  have hsettled : tc.Settled := .inl ⟨conn, rfl⟩
  have hquiet : (tc.runHooks .afterBegin s.traceId [] (·.afterBegin s) ()).Emits
      fun e => e.connection? = none := emits_hooks (fun _ => by rfl) (fun _ => by rfl) _ _ _
  have hhooks : Leads (·.Holds (tc.holding ++ fr))
      (tc.runHooks .afterBegin s.traceId [] (·.afterBegin s) ())
      (fun _ w => w.Holds (tc.holding ++ fr)) (·.Holds fr) :=
    ((leads_of_quiet hquiet).of_returns (returns_hooks _ _ _ _)).mono (fun _ hw => hw)
      (fun _ _ hw => hw) fun _ hw => hw.elim
  refine hhooks.bind ?_
  rintro ⟨e, _⟩
  cases e with
  | ok u => exact leads_pure fun _ hw => ⟨rfl, ⟨conn, rfl⟩, hw⟩
  | error f =>
    refine Leads.bind ((Context.leads_complete hsettled (some f)).mono (fun _ hw => hw)
      (fun _ _ hw => hw.2) fun _ hw => hw.elim) fun _ => leads_fail _
  | panic p =>
    refine Leads.bind ((Context.leads_drop tc).mono (fun _ hw => hw)
      (fun _ _ hw => hw) fun _ hw => hw.elim) fun _ => leads_panic _

/-- A unit of work of its own leaves nothing behind. -/
theorem leads_transact (ds : Datasource σ) (style : Style) (s : Scope) (work : Work σ ρ β) :
    Leads (·.Holds fr) (ds.transact style s work) (fun _ w => w.Holds fr) (·.Holds fr) := by
  refine (leads_open ds style s).bind ?_
  rintro tc b w ⟨-, hopen, hw⟩
  have hwrap := Context.leads_wrap (.inl hopen) work b w hw
  rcases hr : tc.wrap work b w with ⟨_ | _ | _, w'⟩
  case error | panic => rw [hr] at hwrap; exact hwrap.elim
  case ok r =>
    rw [hr] at hwrap
    obtain ⟨e, tc'⟩ := r
    simp only [bind_apply, hr, ofEnding_apply]
    cases e <;> exact hwrap.2

theorem leads_closeFrom : ∀ (i : Nat) (pools : List Pool),
    Leads (·.Holds fr) (closeFrom i pools : Run σ Unit) (fun _ w => w.Holds fr) (·.Holds fr)
  | _, [] => leads_pure fun _ hw => hw
  | i, _ :: rest => (leads_closePool i).bind fun _ => leads_closeFrom (i + 1) rest

end Datasource

end TableAccess
