import TableAccess.Proofs.Work.Gates
import TableAccess.Proofs.Work.Routing

/-!
Opening a unit of work.

Opening has three stages: a connection is had from the pool that serves the scope, the transaction begins
that the style needs, and the hooks run. `Datasource.Connects`, `Datasource.Begins` and
`Datasource.Enters` say of each stage how it goes, by what the database and the hooks answer, and what
drivers see of it. `Datasource.Opens` puts them in order: a stage is only reached if those before it went
well, so the first failure is the answer, and the stage that fails has given the connection up.
-/

namespace TableAccess

variable {σ : Type}

open Hook (Relay Screened exists_screened)

namespace Datasource

variable (ds : Datasource σ) (style : Style) (s : Scope) (b : Backend σ)

/-- The context that is opened on a connection. -/
def opened (conn : Connection) : Context σ :=
  { style := style, status := .init, scope := s, logSql := ds.logSql, connection := some conn,
    interceptors := ds.interceptors }

/-! ### The stages -/

/-- How a connection is had: how that ends, the state of the database after it, and what drivers see. -/
inductive Connects (w : World σ) : Ending Connection → σ → List Event → Prop
  | unrouted {f : Failure} (route : ds.route s = .error f) : Connects w (.error f) w.env []
  | late {pool : Nat} (route : ds.route s = .ok pool)
      (late : ds.acquireTimeout < (b.acquire pool w.env).wait) :
    Connects w (.error .connectionTimeout) w.env []
  | refused {pool : Nat} {f : Failure} (route : ds.route s = .ok pool)
      (inTime : (b.acquire pool w.env).wait ≤ ds.acquireTimeout)
      (answer : (b.acquire pool w.env).outcome = .error f) :
    Connects w (.error f) (b.acquire pool w.env).env [.refused pool]
  | granted {pool : Nat} (route : ds.route s = .ok pool)
      (inTime : (b.acquire pool w.env).wait ≤ ds.acquireTimeout)
      (answer : (b.acquire pool w.env).outcome = .ok ()) :
    Connects w (.ok ⟨pool, w.granted⟩) (b.acquire pool w.env).env [.granted ⟨pool, w.granted⟩]

/-- How the transaction begins that a style needs. A begin that takes too long has the connection
discarded, and one that fails has it closed. -/
inductive Begins (conn : Connection) (env : σ) : Ending Unit → σ → List Event → Prop
  | unneeded (plain : style = .none) : Begins conn env (.ok ()) env []
  | late (needed : style ≠ .none)
      (late : ds.acquireTimeout < (b.begin conn (style = .readOnly) env).wait) :
    Begins conn env (.error .connectionTimeout) (b.discard conn env) [.discarded conn]
  | failed {f : Failure} (needed : style ≠ .none)
      (inTime : (b.begin conn (style = .readOnly) env).wait ≤ ds.acquireTimeout)
      (answer : (b.begin conn (style = .readOnly) env).outcome = .error f) :
    Begins conn env (.error f) (b.close conn (b.begin conn (style = .readOnly) env).env)
      [.called conn (.begin (style = .readOnly)) false, .closed conn]
  | begun (needed : style ≠ .none)
      (inTime : (b.begin conn (style = .readOnly) env).wait ≤ ds.acquireTimeout)
      (answer : (b.begin conn (style = .readOnly) env).outcome = .ok ()) :
    Begins conn env (.ok ()) (b.begin conn (style = .readOnly) env).env
      [.called conn (.begin (style = .readOnly)) true]

/-- How the hooks go, and how many of them run. One that fails has the transaction rolled back and the
connection closed, whatever comes of the rollback, and one that panics has the connection discarded. -/
inductive Enters (conn : Connection) (env : σ) : Ending (Context σ) → List Event → Nat → Prop
  | opened {env' : σ} (hooks : Relay () env (ds.interceptors.map (·.afterBegin s)) () env') :
    Enters conn env (.ok (ds.opened style s conn)) [] ds.interceptors.length
  | refused {f : Failure} {env' : σ} {ran : Nat} {outcome : Except Failure Unit} {es : List Event}
      (hooks : Screened () env (ds.interceptors.map (·.afterBegin s)) (.error f) () env' ran)
      (leave : Farewell conn (b.commit conn env').1 style (some f) outcome es) :
    Enters conn env (.error f) es ran
  | panicked {p : String} {env' : σ} {ran : Nat}
      (hooks : Screened () env (ds.interceptors.map (·.afterBegin s)) (.panic p) () env' ran) :
    Enters conn env (.panic p) [.discarded conn] ran

/-- How opening goes: how it ends, what drivers see, and how many hooks run. -/
inductive Opens (w : World σ) : Ending (Context σ) → List Event → Nat → Prop
  | unconnected {f : Failure} {env : σ} {es : List Event}
      (connected : ds.Connects s b w (.error f) env es) :
    Opens w (.error f) es 0
  | unbegun {conn : Connection} {f : Failure} {env env' : σ} {es es' : List Event}
      (connected : ds.Connects s b w (.ok conn) env es)
      (began : ds.Begins style b conn env (.error f) env' es') :
    Opens w (.error f) (es ++ es') 0
  | entered {conn : Connection} {env env' : σ} {es es' es'' : List Event} {e : Ending (Context σ)}
      {ran : Nat} (connected : ds.Connects s b w (.ok conn) env es)
      (began : ds.Begins style b conn env (.ok ()) env' es')
      (ended : ds.Enters style s b conn env' e es'' ran) :
    Opens w e (es ++ es' ++ es'') ran

/-! ### All or nothing -/

variable {ds style s b} {w : World σ} {seen : List Event} {ran : Nat}

/-- What is opened is a context on the connection that was granted. All hooks have run, and a transaction
has begun if the style needs one. -/
theorem Opens.of_ok {tc : Context σ} (h : ds.Opens style s b w (.ok tc) seen ran) :
    ran = ds.interceptors.length ∧ ∃ conn, tc = ds.opened style s conn ∧
      seen = .granted conn ::
        if style = .none then [] else [.called conn (.begin (style = .readOnly)) true] := by
  cases h with
  | entered connected began ended =>
    cases ended
    cases connected
    cases began with
    | unneeded plain => exact ⟨rfl, _, rfl, by simp [plain]⟩
    | begun needed => exact ⟨rfl, _, rfl, by simp [needed]⟩

theorem Connects.eq_granted {conn : Connection} {env : σ}
    (h : ds.Connects s b w (.ok conn) env seen) : seen = [.granted conn] := by
  cases h
  rfl

theorem Begins.called {conn : Connection} {env env' : σ}
    (h : ds.Begins style b conn env (.ok ()) env' seen) :
    ∀ x ∈ seen, ∃ call ok, x = .called conn call ok := by
  cases h <;> simp

/-- Of a unit of work that is not opened nothing stays behind: there has been no connection, or the last
that is seen of it is that it is closed or discarded, and before that it is only called. -/
theorem Opens.released {e : Ending (Context σ)} (h : ds.Opens style s b w e seen ran)
    (he : e.isOk = false) : seen = [] ∨ (∃ pool, seen = [.refused pool]) ∨
      ∃ conn calls last, seen = .granted conn :: calls ++ [last] ∧
        (last = .closed conn ∨ last = .discarded conn) ∧
        ∀ x ∈ calls, ∃ call ok, x = .called conn call ok := by
  cases h with
  | unconnected connected =>
    cases connected with
    | unrouted | late => exact .inl rfl
    | refused => exact .inr (.inl ⟨_, rfl⟩)
  | unbegun connected began =>
    obtain rfl := connected.eq_granted
    cases began with
    | late => exact .inr (.inr ⟨_, [], _, rfl, .inr rfl, by simp⟩)
    | failed => exact .inr (.inr ⟨_, [_], _, rfl, .inl rfl, by simp⟩)
  | @entered conn _ _ _ calls _ _ _ connected began ended =>
    obtain rfl := connected.eq_granted
    have hbegan := began.called
    cases ended with
    | opened => cases he
    | panicked => exact .inr (.inr ⟨conn, calls, _, rfl, .inr rfl, hbegan⟩)
    | refused hooks leave =>
      -- what is called to begin the transaction and what is called to undo it
      obtain ⟨more, rfl, hleave⟩ := leave.called
      refine .inr (.inr ⟨conn, calls ++ more, .closed conn, by simp, .inl rfl, fun x hx => ?_⟩)
      rcases List.mem_append.mp hx with hx | hx
      · exact hbegan x hx
      · exact hleave x hx

variable (ds style s b)

/-! ### The stages as they run -/

theorem poolFor_run (w : World σ) : ∃ trace, ds.poolFor s b w =
      (.ofExcept (ds.route s), ⟨w.env, trace, w.granted⟩) ∧
    w.Shows [] [] ⟨w.env, trace, w.granted⟩ := by
  unfold poolFor
  cases ds.policyFailure? s with
  | none => exact ⟨_, rfl, .refl w⟩
  | some f => exact ⟨_, rfl, [.logged (.shardingFailed s.traceId f)], rfl, rfl, rfl⟩

theorem connect_run (w : World σ) : ∃ e w' seen, ds.connect s b w = (e, w') ∧
    ds.Connects s b w e w'.env seen ∧ w.Shows seen [] w' := by
  obtain ⟨trace, hpool, hshown⟩ := ds.poolFor_run s b w
  simp only [connect, Run.bind_apply, hpool]
  cases hroute : ds.route s with
  | error f => exact ⟨_, _, _, rfl, .unrouted hroute, hshown⟩
  | ok pool =>
    simp only [Ending.ofExcept, Run.acquire]
    by_cases hlate : ds.acquireTimeout < (b.acquire pool w.env).wait
    · simp only [if_pos hlate]
      exact ⟨_, _, _, rfl, .late hroute hlate,
        hshown.trans ⟨[.logged (.acquireTimedOut s.traceId)], rfl, rfl, rfl⟩⟩
    · simp only [if_neg hlate]
      have hin := Nat.le_of_not_lt hlate
      cases hanswer : (b.acquire pool w.env).outcome with
      | error f =>
        exact ⟨_, _, _, rfl, .refused hroute hin hanswer,
          hshown.trans ⟨[.refused pool, .logged (.acquireFailed s.traceId f)], by simp, rfl, rfl⟩⟩
      | ok u =>
        exact ⟨_, _, _, rfl, .granted hroute hin hanswer,
          hshown.trans ⟨[.granted ⟨pool, w.granted⟩], rfl, rfl, rfl⟩⟩

theorem beginFor_run (conn : Connection) (w : World σ) : ∃ e w' seen,
    ds.beginFor style s conn b w = (e, w') ∧ ds.Begins style b conn w.env e w'.env seen ∧
      w.Shows seen [] w' := by
  unfold beginFor
  split
  · exact ⟨_, w, _, rfl, .unneeded rfl, .refl w⟩
  · next hs =>
    simp only [Run.bind_apply, Run.begin]
    by_cases hlate : ds.acquireTimeout < (b.begin conn (style = .readOnly) w.env).wait
    · simp only [if_pos hlate]
      exact ⟨_, _, _, rfl, .late hs hlate,
        ⟨[.logged (.beginTimedOut s.traceId), .discarded conn], by simp, rfl, rfl⟩⟩
    · simp only [if_neg hlate]
      have hin := Nat.le_of_not_lt hlate
      cases hanswer : (b.begin conn (style = .readOnly) w.env).outcome with
      | error f =>
        exact ⟨_, _, _, rfl, .failed hs hin hanswer,
          ⟨[.called conn (.begin (style = .readOnly)) false, .logged (.beginFailed s.traceId f),
            .closed conn], by simp [Run.succeeded], rfl, rfl⟩⟩
      | ok u =>
        exact ⟨_, _, _, rfl, .begun hs hin hanswer,
          ⟨[.called conn (.begin (style = .readOnly)) true], rfl, rfl, rfl⟩⟩

/-- The last stage of opening. -/
def enter (conn : Connection) : Run σ (Context σ) := do
  let tc := ds.opened style s conn
  let (e, _) ← tc.runHooks .afterBegin s.traceId [] (·.afterBegin s) ()
  match e with
  | .ok () => return tc
  | .error f =>
    let _ ← tc.complete (some f)
    Run.fail f
  | .panic p =>
    tc.drop
    Run.panic p

theorem open_eq : ds.open style s = (do
    let conn ← ds.connect s
    ds.beginFor style s conn
    ds.enter style s conn) := rfl

/-- Taking leave of a connection announces no hooks. -/
theorem complete_shows {tc : Context σ} {conn : Connection} (h : tc.check = .ok conn)
    (reason : Option Failure) (w : World σ) : ∃ outcome es w',
      tc.complete reason b w = (.ok (outcome, tc.invalidated), w') ∧
      Farewell conn (b.commit conn w.env).1 tc.style reason outcome es ∧ w.Shows es [] w' := by
  obtain ⟨outcome, es, w', hrun, hadds, hleave⟩ := Context.complete_open h reason b w
  -- the events of the leave are known, and those of any completion are of no hook
  have hquiet : (tc.complete reason).Yields (·.isHook = false)
      fun r => r.2 = tc ∨ r.2 = tc.invalidated := by
    refine Context.yields_complete_of (fun _ => rfl) (fun _ _ e he => ?_) reason
    cases e <;> first | rfl | cases he
  obtain ⟨es', hes', hall, -⟩ := hquiet b w
  rw [hrun, hadds.trace] at hes'
  obtain rfl := List.append_cancel_left hes'
  refine ⟨outcome, _, w', hrun, hleave, es, hadds.trace, rfl, ?_⟩
  exact List.filter_eq_nil_iff.mpr fun e he => by simp [hall e he]

theorem enter_run (conn : Connection) (w : World σ) : ∃ e seen ran w',
    ds.enter style s conn b w = (e, w') ∧ ds.Enters style s b conn w.env e seen ran ∧
      w.Shows seen ((List.range ran).map fun i => .hook i .afterBegin s.traceId []) w' := by
  obtain ⟨e, ⟨⟩, env₁, ran, hscreened⟩ :=
    exists_screened (ds.interceptors.map (·.afterBegin s)) () w.env
  obtain ⟨w₁, hrun, rfl, -, hshown⟩ := hscreened.run .afterBegin s.traceId [] b w rfl
  have hhooks : (ds.opened style s conn).runHooks .afterBegin s.traceId [] (·.afterBegin s) () b w =
    (.ok (e, ()), w₁) := hrun
  simp only [enter, Run.bind_apply, hhooks]
  cases e with
  | ok u =>
    obtain ⟨hrelay, rfl⟩ := hscreened.relay
    rw [List.length_map] at hshown
    exact ⟨_, _, _, w₁, rfl, .opened hrelay, hshown⟩
  | error f =>
    have hopen : (ds.opened style s conn).check = .ok conn := rfl
    obtain ⟨outcome, es, w', hcomplete, hleave, hrest⟩ := complete_shows b hopen (some f) w₁
    have hall := hshown.trans hrest
    rw [List.append_nil] at hall
    simp only [Run.bind_apply, hcomplete, Run.fail_apply]
    exact ⟨_, _, ran, w', rfl, .refused hscreened hleave, hall⟩
  | panic p =>
    have hdrop : w₁.Shows [.discarded conn] [] ((ds.opened style s conn).drop b w₁).2 :=
      ⟨_, List.append_assoc w₁.trace [.logged (.abandoned s.traceId style)] [.discarded conn], rfl,
        rfl⟩
    have hall := hshown.trans hdrop
    rw [List.append_nil] at hall
    exact ⟨_, _, ran, _, rfl, .panicked hscreened, hall⟩

theorem open_run (w : World σ) : ∃ e seen ran w', ds.open style s b w = (e, w') ∧
    ds.Opens style s b w e seen ran ∧
    w.Shows seen ((List.range ran).map fun i => .hook i .afterBegin s.traceId []) w' := by
  obtain ⟨e, w₁, seen, hconnect, hconnects, hshown⟩ := ds.connect_run s b w
  simp only [open_eq, Run.bind_apply, hconnect]
  cases e with
  | error f => exact ⟨_, _, 0, w₁, rfl, .unconnected hconnects, hshown⟩
  | panic p => cases hconnects
  | ok conn =>
    obtain ⟨e, w₂, seen', hbegin, hbegins, hshown'⟩ := ds.beginFor_run style s b conn w₁
    simp only [hbegin]
    cases e with
    | error f => exact ⟨_, _, 0, w₂, rfl, .unbegun hconnects hbegins, hshown.trans hshown'⟩
    | panic p => cases hbegins
    | ok u =>
      obtain ⟨e, seen'', ran, w₃, henter, henters, hshown''⟩ := ds.enter_run style s b conn w₂
      exact ⟨e, _, ran, w₃, henter, .entered hconnects hbegins henters,
        (hshown.trans hshown').trans hshown''⟩

/-- However database and hooks answer, opening goes stage by stage up to the first failure, and the hooks
that run are announced in the order of their registration. It is all or nothing: what is opened takes
operations on the connection that was granted, after all hooks have run and the transaction that the style
needs has begun, and otherwise there is no connection or it has been given up. -/
theorem open_ordered (w : World σ) : ∃ e seen ran w', ds.open style s b w = (e, w') ∧
    ds.Opens style s b w e seen ran ∧
    w.Shows seen ((List.range ran).map fun i => .hook i .afterBegin s.traceId []) w' ∧
    (∀ tc, e = .ok tc → ran = ds.interceptors.length ∧ tc.status = .init ∧
      ∃ conn, tc = ds.opened style s conn ∧ seen = .granted conn ::
        if style = .none then [] else [.called conn (.begin (style = .readOnly)) true]) ∧
    (e.isOk = false → seen = [] ∨ (∃ pool, seen = [.refused pool]) ∨
      ∃ conn calls last, seen = .granted conn :: calls ++ [last] ∧
        (last = .closed conn ∨ last = .discarded conn) ∧
        ∀ x ∈ calls, ∃ call ok, x = .called conn call ok) := by
  obtain ⟨e, seen, ran, w', hrun, hopens, hshown⟩ := ds.open_run style s b w
  refine ⟨e, seen, ran, w', hrun, hopens, hshown, ?_, hopens.released⟩
  rintro tc rfl
  obtain ⟨hran, conn, rfl, hseen⟩ := hopens.of_ok
  exact ⟨hran, rfl, conn, rfl, hseen⟩

end Datasource

end TableAccess
