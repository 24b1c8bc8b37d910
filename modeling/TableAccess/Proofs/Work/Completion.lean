import TableAccess.Proofs.Work.Statements
import TableAccess.Work.Scripted

/-!
How a unit of work comes to its end.

Completing an open context is a short exchange with its connection, which `Farewell` lists case by
case: the end of the transaction, if there is one, and then the connection goes back. Work that does
not complete its context itself only sends statements before that, so what a wrapped piece of work
answers follows from how the work ended and how the commit went.
-/

namespace TableAccess

variable {σ ρ β : Type}

/-- The last exchange with a connection, by style and reason: what it sees, and how that ends.
`commit` is what the database answers to a commit. -/
inductive Farewell (conn : Connection) (commit : Except Failure Unit) :
    Style → Option Failure → Except Failure Unit → List Event → Prop
  | plain (reason : Option Failure) : Farewell conn commit .none reason (.ok ()) [.closed conn]
  | committed {style : Style} (hs : style ≠ .none) (hc : commit = .ok ()) :
    Farewell conn commit style none (.ok ()) [.called conn .commit true, .closed conn]
  | refused {style : Style} (hs : style ≠ .none) {f : Failure} (hc : commit = .error f)
      (undone : Bool) :
    Farewell conn commit style none (.error f)
      [.called conn .commit false, .called conn .rollback undone, .closed conn]
  | undone {style : Style} (hs : style ≠ .none) (f : Failure) :
    Farewell conn commit style (some f) (.ok ()) [.called conn .rollback true, .closed conn]
  | stuck {style : Style} (hs : style ≠ .none) (f g : Failure) :
    Farewell conn commit style (some f) (.error g) [.called conn .rollback false, .closed conn]

namespace Context

variable {tc : Context σ} {conn : Connection}

/-- A context takes operations while it is in its first status and has its connection. -/
theorem check_eq_ok_iff :
    tc.check = .ok conn ↔ tc.status = .init ∧ tc.connection = some conn := by
  unfold check
  split
  · next hs hc => simp [hs, hc]
  · next h =>
    refine ⟨nofun, ?_⟩
    rintro ⟨hs, hc⟩
    exact absurd hc (h conn hs)

/-- Completing a context that is finished does nothing. -/
theorem complete_of_invalid (h : tc.status = .invalid) (reason : Option Failure) (b : Backend σ)
    (w : World σ) : tc.complete reason b w = (.ok (.ok (), tc), w) := by
  unfold complete
  rw [if_pos h]
  rfl

/-- A rollback is one call, and its failure is the outcome. -/
theorem rollback_run (traceId : String) (conn : Connection) (b : Backend σ) (w : World σ) :
    ∃ outcome es w', rollback traceId conn b w = (.ok outcome, w') ∧ w.Adds es w' ∧
      driverEvents es = [.called conn .rollback (Run.succeeded outcome)] := by
  rcases hr : b.rollback conn w.env with ⟨outcome, env⟩
  cases outcome with
  | ok u =>
    refine ⟨.ok (), [.called conn .rollback true], ⟨env, _, w.granted⟩, ?_, ⟨rfl, rfl⟩, rfl⟩
    simp [rollback, Run.rollback, Run.call, Run.succeeded, hr]
  | error f =>
    refine ⟨.error f, [.called conn .rollback false, .logged (.rollbackFailed traceId f)],
      ⟨env, _, w.granted⟩, ?_, ⟨rfl, rfl⟩, rfl⟩
    simp [rollback, Run.rollback, Run.call, Run.succeeded, hr]

/-- A commit is one call, or two if it fails: a rollback follows then, and the outcome is that of the
commit all the same. -/
theorem commit_run (traceId : String) (conn : Connection) (b : Backend σ) (w : World σ) :
    ∃ es w', commit traceId conn b w = (.ok (b.commit conn w.env).1, w') ∧ w.Adds es w' ∧
      (((b.commit conn w.env).1 = .ok () ∧ driverEvents es = [.called conn .commit true]) ∨
        ∃ f undone, (b.commit conn w.env).1 = .error f ∧
          driverEvents es = [.called conn .commit false, .called conn .rollback undone]) := by
  rcases hc : b.commit conn w.env with ⟨outcome, env⟩
  cases outcome with
  | ok u =>
    refine ⟨[.called conn .commit true], ⟨env, _, w.granted⟩, ?_, ⟨rfl, rfl⟩, .inl ⟨rfl, rfl⟩⟩
    simp [commit, Run.commit, Run.call, Run.succeeded, hc]
  | error f =>
    rcases hr : b.rollback conn env with ⟨outcome, env'⟩
    cases outcome with
    | ok u =>
      refine ⟨[.called conn .commit false, .logged (.commitFailed traceId f),
        .called conn .rollback true], ⟨env', _, w.granted⟩, ?_, ⟨rfl, rfl⟩, .inr ⟨f, true, rfl, rfl⟩⟩
      simp [commit, Run.commit, Run.rollback, Run.call, Run.succeeded, hc, hr]
    | error g =>
      refine ⟨[.called conn .commit false, .logged (.commitFailed traceId f),
        .called conn .rollback false, .logged (.rollbackFailed traceId g)],
        ⟨env', _, w.granted⟩, ?_, ⟨rfl, rfl⟩, .inr ⟨f, false, rfl, rfl⟩⟩
      simp [commit, Run.commit, Run.rollback, Run.call, Run.succeeded, hc, hr]

/-- Where there is a transaction, it is committed unless there is a reason not to. -/
theorem endTransaction_of_ne {style : Style} (hs : style ≠ .none) (traceId : String)
    (conn : Connection) :
    (endTransaction traceId style conn none : Run σ _) = commit traceId conn ∧
      ∀ f, (endTransaction traceId style conn (some f) : Run σ _) = rollback traceId conn := by
  cases style with
  | none => exact absurd rfl hs
  | readOnly | write => exact ⟨rfl, fun _ => rfl⟩

/-- The end of a transaction and then the close are a last exchange. -/
theorem endTransaction_run (traceId : String) (style : Style) (conn : Connection)
    (reason : Option Failure) (b : Backend σ) (w : World σ) :
    ∃ outcome es w', endTransaction traceId style conn reason b w = (.ok outcome, w') ∧
      w.Adds es w' ∧ Farewell conn (b.commit conn w.env).1 style reason outcome
        (driverEvents es ++ [.closed conn]) := by
  by_cases hs : style = .none
  · subst hs
    exact ⟨.ok (), [], w, rfl, .refl w, .plain reason⟩
  · obtain ⟨hcommit, hrollback⟩ := endTransaction_of_ne hs traceId conn
    cases reason with
    | none =>
      rw [hcommit]
      obtain ⟨es, w', hr, ha, ⟨hc, hd⟩ | ⟨f, undone, hc, hd⟩⟩ := commit_run traceId conn b w
      · refine ⟨_, es, w', hr, ha, ?_⟩
        rw [hd, hc]
        exact .committed hs rfl
      · refine ⟨_, es, w', hr, ha, ?_⟩
        rw [hd, hc]
        exact .refused hs rfl undone
    | some f =>
      rw [hrollback]
      obtain ⟨outcome, es, w', hr, ha, hd⟩ := rollback_run traceId conn b w
      refine ⟨outcome, es, w', hr, ha, ?_⟩
      rw [hd]
      cases outcome with
      | ok u => exact .undone hs f
      | error g => exact .stuck hs f g

/-- Completing an open context takes leave of its connection and leaves the context without it. -/
theorem complete_open (h : tc.check = .ok conn) (reason : Option Failure) (b : Backend σ)
    (w : World σ) :
    ∃ outcome es w', tc.complete reason b w = (.ok (outcome, tc.invalidated), w') ∧
      w.Adds es w' ∧
      Farewell conn (b.commit conn w.env).1 tc.style reason outcome (driverEvents es) := by
  obtain ⟨hs, hc⟩ := check_eq_ok_iff.mp h
  have hne : tc.status ≠ .invalid := by rw [hs]; decide
  -- the reason is logged before the transaction ends, in a world that differs by that record
  cases reason with
  | none =>
    obtain ⟨outcome, es, w', hr, ha, hf⟩ := endTransaction_run tc.traceId tc.style conn none b w
    have hclose := World.Adds.single w' (.closed conn) (b.close conn w'.env)
    refine ⟨outcome, _, _, ?_, ha.trans hclose, ?_⟩
    · simp [complete, hne, hc, hr, Run.close]
    · rw [driverEvents_append]
      exact hf
  | some f =>
    have hlog := World.Adds.single w (.logged (.completedWithError tc.traceId f)) w.env
    obtain ⟨outcome, es, w', hr, ha, hf⟩ := endTransaction_run tc.traceId tc.style conn (some f) b
      ⟨w.env, w.trace ++ [.logged (.completedWithError tc.traceId f)], w.granted⟩
    have hclose := World.Adds.single w' (.closed conn) (b.close conn w'.env)
    refine ⟨outcome, _, _, ?_, (hlog.trans ha).trans hclose, ?_⟩
    · simp [complete, hne, hc, hr, Run.close]
    · rw [driverEvents_append, driverEvents_append]
      exact hf

end Context

/-! ### Work in a context -/

/-- Whether work, as it runs, leaves completing the context to others. -/
def Work.Spares (b : Backend σ) : Work σ ρ β → Context σ → World σ → Prop
  | .finish _, _, _ => True
  | .perform op note next, tc, w =>
    op.completes = false ∧
      ∀ report tc' w', op.run tc b w = (.ok (report, tc'), w') →
        (∀ p, report.result ≠ .panic p) →
        (next report).Spares b tc'
          ⟨note report w'.env, w'.trace ++ [.answered tc'.status], w'.granted⟩

/-- Why work that ended in a certain way has its context completed. -/
def Ending.reason : Ending β → Option Failure
  | .ok _ => none
  | .error f => some f
  | .panic _ => some .panicked

/-- What is answered after work that ended in a certain way, once its context is completed: the
outcome of that only counts after a value. -/
def Ending.after : Ending β → Except Failure Unit → Ending β
  | .ok v, .ok () => .ok v
  | .ok _, .error f => .error f
  | e, _ => e

/-- An operation does its part of a run of work: a panic ends it and any other report is noted. -/
theorem Work.run_perform {op : Operation σ ρ} {note : Report ρ → σ → σ}
    {next : Report ρ → Work σ ρ β} {tc tc' : Context σ} {b : Backend σ} {w w' : World σ}
    {report : Report ρ} (h : op.run tc b w = (.ok (report, tc'), w')) :
    (Work.perform op note next).run tc b w =
      match report.result with
      | .panic p => (.ok (.panic p, tc'), w')
      | _ => (next report).run tc' b
          ⟨note report w'.env, w'.trace ++ [.answered tc'.status], w'.granted⟩ := by
  simp only [Work.run, Run.bind_apply, h]
  cases report.result <;> rfl

/-- Work that leaves completing to others keeps to its context and gives it back as it was. -/
theorem Work.run_spared {b : Backend σ} {tc : Context σ} : ∀ (work : Work σ ρ β) (w : World σ),
    work.Spares b tc w → ∃ e es w', work.run tc b w = (.ok (e, tc), w') ∧ w.Adds es w' ∧
      ∀ x ∈ es, tc.Touches x
  | .finish e, w, _ => ⟨e, [], w, rfl, .refl w, by simp⟩
  | .perform op note next, w, ⟨hop, hnext⟩ => by
    obtain ⟨hemits, hkeeps⟩ : Operation.Keeps tc (op.run tc) := Operation.keeps_run op hop
    obtain ⟨report, hreport⟩ := hkeeps b w
    obtain ⟨es, hes, htouches⟩ := hemits b w
    have hop : op.run tc b w = (.ok (report, tc), (op.run tc b w).2) := Prod.ext hreport rfl
    generalize (op.run tc b w).2 = w₁ at hop hes
    rw [run_perform hop]
    by_cases hp : ∃ p, report.result = .panic p
    · obtain ⟨p, hp⟩ := hp
      exact ⟨.panic p, es, w₁, by rw [hp], hes, htouches⟩
    · have hp : ∀ p, report.result ≠ .panic p := fun p h => hp ⟨p, h⟩
      obtain ⟨e, fs, w₂, hrun, hfs, hrest⟩ :=
        run_spared (next report) _ (hnext report tc w₁ hop hp)
      have hnote : w₁.Adds [.answered tc.status]
        ⟨note report w₁.env, w₁.trace ++ [.answered tc.status], w₁.granted⟩ := ⟨rfl, rfl⟩
      refine ⟨e, es ++ [.answered tc.status] ++ fs, w₂, ?_, (hes.trans hnote).trans hfs, ?_⟩
      · rw [← hrun]
        cases hr : report.result with
        | ok a => rfl
        | error f => rfl
        | panic p => exact absurd hr (hp p)
      · intro x hx
        rcases List.mem_append.mp hx with hx | hx
        · rcases List.mem_append.mp hx with hx | hx
          · exact htouches x hx
          · rw [List.mem_singleton.mp hx]
            exact .quiet rfl
        · exact hrest x hx

namespace Context

variable {tc : Context σ} {conn : Connection}

/-- Wrapped work is run, and then its context is completed for the reason the work gives. -/
theorem wrap_run {work : Work σ ρ β} {tc₁ tc₂ : Context σ} {b : Backend σ} {w w₁ w₂ : World σ}
    {e : Ending β} {completed : Except Failure Unit}
    (hrun : work.run tc b w = (.ok (e, tc₁), w₁))
    (hcomplete : tc₁.complete e.reason b w₁ = (.ok (completed, tc₂), w₂)) :
    tc.wrap work b w = (.ok (e.after completed, tc₂), w₂) := by
  simp only [wrap, Run.bind_apply, hrun]
  cases e with
  | ok v =>
    simp only [Ending.reason] at hcomplete
    cases completed <;> simp [hcomplete, Ending.after]
  | error f =>
    simp only [Ending.reason] at hcomplete
    simp [hcomplete, Ending.after]
  | panic p =>
    simp only [Ending.reason] at hcomplete
    simp [hcomplete, Ending.after]

/-- What an operation adds to the trace is never the end of a transaction. -/
theorem Touches.ne_commit {x : Event} (h : tc.Touches x) (c : Connection) (ok : Bool) :
    x ≠ .called c .commit ok := by
  rintro rfl
  cases h with
  | quiet h => cases h
  | statement _ h => cases h

end Context

/-- A last exchange for a reason is calls of the connection and then its close. -/
theorem Farewell.called {conn : Connection} {commit outcome : Except Failure Unit} {style : Style}
    {f : Failure} {es : List Event} (h : Farewell conn commit style (some f) outcome es) :
    ∃ calls, es = calls ++ [.closed conn] ∧ ∀ x ∈ calls, ∃ call ok, x = .called conn call ok := by
  cases h with
  | plain => exact ⟨[], rfl, by simp⟩
  | undone | stuck => exact ⟨[_], rfl, by simp⟩

/-- A last exchange for a reason has no commit in it. -/
theorem Farewell.no_commit {commit : Except Failure Unit} {style : Style} {f : Failure}
    {outcome : Except Failure Unit} {es : List Event} {conn : Connection}
    (h : Farewell conn commit style (some f) outcome es) (c : Connection) (ok : Bool) :
    .called c .commit ok ∉ es := by
  cases h <;> simp

namespace Context

/-- The account of work wrapped in a context: `e` is how the work ended, `commit` what the database
answers to a commit then, `r` what the caller gets, `done` what the work added to the trace and `es`
what completing the context added. -/
structure Wrapped (style : Style) (conn : Connection) (commit : Except Failure Unit)
    (e r : Ending β) (done es : List Event) : Prop where
  statements : ∀ x ∈ driverEvents done, ∃ call ok, call.isStatement = true ∧ x = .called conn call ok
  panicked : ∀ p, e = .panic p → r = .panic p ∧ ∀ c ok, .called c .commit ok ∉ done ++ es
  failed : ∀ f, e = .error f → r = .error f ∧ ∀ c ok, .called c .commit ok ∉ done ++ es
  finished : ∀ v, e = .ok v →
    (r = .ok v ↔ style = .none ∨ commit = .ok ()) ∧
      ∀ f, style ≠ .none → commit = .error f → r = .error f
  plain : style = .none → driverEvents es = [.closed conn]
  transacted : style ≠ .none →
    (e.isOk = true ∧ commit = .ok () ∧
      driverEvents es = [.called conn .commit true, .closed conn]) ∨
    (e.isOk = true ∧ (∃ f, commit = .error f) ∧ ∃ undone, driverEvents es =
      [.called conn .commit false, .called conn .rollback undone, .closed conn]) ∨
    (e.isOk = false ∧ ∃ undone, driverEvents es = [.called conn .rollback undone, .closed conn])

variable {tc : Context σ} {conn : Connection}

/-- What is asked of a connection on the way of work that keeps to its context. -/
theorem Touches.statement_of_driver {x : Event} (hx : tc.Touches x) (hd : x.isDriver = true)
    (h : tc.check = .ok conn) : ∃ call ok, call.isStatement = true ∧ x = .called conn call ok := by
  cases hx with
  | quiet hq => rw [hq] at hd; cases hd
  | statement hc hs =>
    rw [h] at hc
    cases hc
    exact ⟨_, _, hs, rfl⟩

/-- There is no commit in work that keeps to its context, nor in a last exchange for a reason. -/
theorem no_commit_of_farewell {commit outcome : Except Failure Unit} {style : Style} {f : Failure}
    {done es : List Event} (hdone : ∀ x ∈ done, tc.Touches x)
    (hes : Farewell conn commit style (some f) outcome (driverEvents es)) (c : Connection)
    (ok : Bool) : .called c .commit ok ∉ done ++ es := by
  intro hmem
  rcases List.mem_append.mp hmem with hmem | hmem
  · exact (hdone _ hmem).ne_commit c ok rfl
  · exact hes.no_commit c ok (mem_driverEvents.mpr ⟨hmem, rfl⟩)

/-- Work that keeps to its context and then the last exchange, case by case. -/
theorem wrapped_of_farewell (h : tc.check = .ok conn) {commit outcome : Except Failure Unit}
    {e : Ending β} {done es : List Event} (hdone : ∀ x ∈ done, tc.Touches x)
    (hes : Farewell conn commit tc.style e.reason outcome (driverEvents es)) :
    Wrapped tc.style conn commit e (e.after outcome) done es where
  statements x hx := by
    obtain ⟨hx, hd⟩ := mem_driverEvents.mp hx
    exact (hdone x hx).statement_of_driver hd h
  panicked := by
    rintro p rfl
    exact ⟨rfl, no_commit_of_farewell hdone hes⟩
  failed := by
    rintro f rfl
    exact ⟨rfl, no_commit_of_farewell hdone hes⟩
  finished := by
    rintro v rfl
    generalize tc.style = style at hes
    generalize driverEvents es = seen at hes
    cases hes with
    | plain => simp [Ending.after]
    | committed hs hc => simp [Ending.after, hc]
    | refused hs hc undone => simp [Ending.after, hc, hs]
  plain hs := by
    rw [hs] at hes
    generalize driverEvents es = seen at hes ⊢
    generalize e.reason = reason at hes
    cases hes with
    | plain => rfl
    | committed hs | refused hs | undone hs | stuck hs => exact absurd rfl hs
  transacted hs := by
    generalize tc.style = style at hes hs
    generalize driverEvents es = seen at hes ⊢
    cases e with
    | ok v =>
      cases hes with
      | plain => exact absurd rfl hs
      | committed _ hc => exact .inl ⟨rfl, hc, rfl⟩
      | refused _ hc undone => exact .inr (.inl ⟨rfl, ⟨_, hc⟩, undone, rfl⟩)
    | error f =>
      cases hes with
      | plain => exact absurd rfl hs
      | undone => exact .inr (.inr ⟨rfl, true, rfl⟩)
      | stuck => exact .inr (.inr ⟨rfl, false, rfl⟩)
    | panic p =>
      cases hes with
      | plain => exact absurd rfl hs
      | undone => exact .inr (.inr ⟨rfl, true, rfl⟩)
      | stuck => exact .inr (.inr ⟨rfl, false, rfl⟩)

/-- Wrapping work that leaves completing to others: what the caller gets, what the connection sees
after the work, and a context that is finished for good. Opening a context for the work as well comes
to the same. -/
theorem wrap_spared (h : tc.check = .ok conn) {work : Work σ ρ β} {b : Backend σ} {w : World σ}
    (hw : work.Spares b tc w) :
    ∃ e r done es w₁ w₂,
      work.run tc b w = (.ok (e, tc), w₁) ∧ w₁.trace = w.trace ++ done ∧
      tc.wrap work b w = (.ok (r, tc.invalidated), w₂) ∧ w₂.trace = w₁.trace ++ es ∧
      Wrapped tc.style conn (b.commit conn w₁.env).1 e r done es ∧
      tc.invalidated.status = .invalid ∧
      (∀ reason b' w', tc.invalidated.complete reason b' w' =
        (.ok (.ok (), tc.invalidated), w')) ∧
      ∀ ds style s w₀, Datasource.open ds style s b w₀ = (.ok tc, w) →
        ds.transact style s work b w₀ = (r, w₂) := by
  obtain ⟨e, done, w₁, hrun, hdone, htouches⟩ := Work.run_spared work w hw
  obtain ⟨outcome, es, w₂, hcomplete, hes, hfarewell⟩ := complete_open h e.reason b w₁
  have hwrap := wrap_run hrun hcomplete
  refine ⟨e, e.after outcome, done, es, w₁, w₂, hrun, hdone.trace, hwrap, hes.trace,
    wrapped_of_farewell h htouches hfarewell, rfl, fun _ _ _ => complete_of_invalid rfl _ _ _, ?_⟩
  intro ds style s w₀ hopen
  simp only [Datasource.transact, Run.bind_apply, hopen, hwrap, Run.ofEnding_apply]

/-- A world whose only pool fails whatever ends a transaction. -/
def stuckWorld : World (Scripted Unit) :=
  { env := { scripts := [{ failCommit := true, failRollback := true }], own := () }, granted := 1 }

/-- A context that writes on the first connection. -/
def writingFirst : Context (Scripted Unit) :=
  { style := .write, status := .init, scope := { traceId := "" }, logSql := false,
    connection := some ⟨0, 0⟩, interceptors := [] }

/-- Where neither the commit nor the rollback goes well, work that came to its value is answered with
the failure of the commit. -/
theorem wrap_spared_stuck :
    let work : Work (Scripted Unit) Unit Nat :=
      .perform (.executeRaw ⟨"delete from t_log", []⟩) (fun _ env => env) fun _ => .finish (.ok 7)
    writingFirst.check = .ok ⟨0, 0⟩ ∧ work.Spares Scripted.backend writingFirst stuckWorld ∧
      ∃ r es w₁ w₂,
        work.run writingFirst Scripted.backend stuckWorld = (.ok (.ok 7, writingFirst), w₁) ∧
        writingFirst.wrap work Scripted.backend stuckWorld =
          (.ok (r, writingFirst.invalidated), w₂) ∧
        w₂.trace = w₁.trace ++ es ∧ r = .error (Script.connectionFailure "commit") ∧
        ∃ undone, driverEvents es = [.called ⟨0, 0⟩ .commit false,
          .called ⟨0, 0⟩ .rollback undone, .closed ⟨0, 0⟩] := by
  intro work
  have hw : work.Spares Scripted.backend writingFirst stuckWorld := ⟨rfl, fun _ _ _ _ _ => trivial⟩
  have hopen : writingFirst.check = .ok ⟨0, 0⟩ := rfl
  obtain ⟨e, r, done, es, w₁, w₂, hrun, -, hwrap, hes, h, -⟩ := wrap_spared hopen hw
  have hended : (work.run writingFirst Scripted.backend stuckWorld).1 =
    .ok (.ok 7, writingFirst) := rfl
  obtain rfl : (work.run writingFirst Scripted.backend stuckWorld).2 = w₁ := by rw [hrun]
  rw [hrun] at hended
  cases hended
  refine ⟨hopen, hw, r, es, _, w₂, hrun, hwrap, hes, ?_, ?_⟩
  · exact (h.finished 7 rfl).2 _ nofun rfl
  · obtain ⟨_, hc, _⟩ | ⟨_, _, hd⟩ | ⟨hok, _⟩ := h.transacted nofun
    · cases hc
    · exact hd
    · cases hok

end Context

end TableAccess
