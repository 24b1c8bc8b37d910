import TableAccess.Proofs.Work.Sessions

/-!
Finished contexts.

The state of a context is looked at before anything else, so an operation on a finished one is refused
whatever its arguments are. `Run.Refuses` says of a run that it fails for that reason and that nothing
has happened: no event, no hook, no code of the caller. Readers and writers are such runs, and writers
of records give them back untouched. Two operations are different. The update of a list looks at the
state only through the updates it is made of: it answers that no row was written if the list is empty,
and outside of a transaction it wraps the failure. Completing does nothing and goes well.
-/

namespace TableAccess

variable {σ ρ β α S : Type}

namespace Run

/-- A run that fails for the state of its context before anything has happened. -/
def Refuses (x : Run σ α) : Prop :=
  ∀ (b : Backend σ) (w : World σ), x b w = (.error .invalidState, w)

/-- What would come after a refusal does not happen. -/
theorem Refuses.bind {x : Run σ α} (h : x.Refuses) (f : α → Run σ β) : (x >>= f).Refuses := by
  intro b w
  rw [bind_apply, h b w]

end Run

namespace Context

variable {tc : Context σ}

theorem check_of_ne_init (h : tc.status ≠ .init) : tc.check = .error .invalidState := by
  unfold check
  split
  · next hs _ => exact absurd hs h
  · rfl

theorem refuses_check (h : tc.status ≠ .init) :
    (Run.ofExcept tc.check : Run σ Connection).Refuses := by
  intro b w
  rw [check_of_ne_init h]
  rfl

/-! ### Reading -/

section Reading

variable (h : tc.status ≠ .init) (t : Table)

include h

theorem refuses_queryRows (q : Sql) : (tc.queryRows q).Refuses := (refuses_check h).bind _

theorem refuses_select (q : Selection) (fresh : Callback σ Record) :
    (tc.select t q fresh).Refuses := (refuses_check h).bind _

theorem refuses_selectFirst (q : Selection) : (tc.selectFirst t q).Refuses :=
  (refuses_check h).bind _

theorem refuses_selectAmong (ids : List Int64) (q : Selection) :
    (tc.selectAmong t ids q).Refuses := (refuses_check h).bind _

theorem refuses_count (matcher : Option Matcher) : (tc.count t matcher).Refuses :=
  (refuses_check h).bind _

theorem refuses_batches (width size : Nat) (statement : Except Failure (Sql × (Row → Run σ α)))
    (handler : List α → Callback σ Unit) : (tc.batches width size statement handler).Refuses :=
  (refuses_check h).bind _

theorem refuses_queryRaw (q : Sql) (mapper : Row → Callback σ α) :
    (tc.queryRaw q mapper).Refuses := (refuses_queryRows h q).bind _

end Reading

/-! ### Writing -/

section Writing

variable (h : tc.status ≠ .init) (t : Table)

include h

/-- Neither the hooks nor the write run, and the subject is given back as it was. -/
theorem afterHooks_of_ne_init (point : HookPoint) (table : String) (columns : List String)
    (pick : Interceptor σ → Hook σ S) (subject : S) (write : S → Run σ (Ending α × S)) :
    tc.afterHooks point table columns pick subject write =
      pure (.error .invalidState, subject) := by
  rw [afterHooks, check_of_ne_init h]

theorem insert_of_ne_init (r : Record) : tc.insert t r = pure (.error .invalidState, r) :=
  afterHooks_of_ne_init h ..

theorem update_of_ne_init (r : Record) : tc.update t r = pure (.error .invalidState, r) :=
  afterHooks_of_ne_init h ..

/-- The update of a list is its updates, so it is the first of them that is refused. -/
theorem updateList_of_ne_init (rs : List Record) :
    tc.updateList t rs =
      pure (if rs.isEmpty then .ok 0 else .error (listFailure tc.style 0 .invalidState), rs) := by
  cases rs with
  | nil => rfl
  | cons r rest =>
    funext b w
    simp only [updateList, updateFrom, update_of_ne_init h, Run.bind_apply, Run.pure_apply]
    rfl

theorem refuses_modify (m : Modifier) (matcher : Matcher) : (tc.modify t m matcher).Refuses := by
  intro b w
  simp only [modify, afterHooks_of_ne_init h, Run.bind_apply, Run.pure_apply, Run.ofEnding_apply]

theorem refuses_modifyByIds (m : Modifier) (ids : List Int64) :
    (tc.modifyByIds t m ids).Refuses := (refuses_check h).bind _

theorem refuses_execute (q : Sql) : (tc.execute q).Refuses := (refuses_check h).bind _

theorem refuses_delete (matcher : Matcher) : (tc.delete t matcher).Refuses :=
  (refuses_check h).bind _

theorem refuses_deleteByIds (ids : List Int64) : (tc.deleteByIds t ids).Refuses :=
  (refuses_check h).bind _

end Writing

end Context

namespace Operation

/-- Whether an operation reads or writes, or asks whether it may. -/
def needsOpen : Operation σ ρ → Bool
  | .inspect | .complete _ | .completeWithPanic .. => false
  | _ => true

/-- The records that an operation is given to write. -/
def given : Operation σ ρ → List Record
  | .insert _ r | .update _ r => [r]
  | .updateList _ rs => rs
  | _ => []

/-- What the caller has logged in putting the arguments of an operation together. -/
def prepared : Operation σ ρ → List Event
  | .modifyById _ calls _ | .modifyByIds _ calls _ | .modify _ calls _ =>
    ((Modifier.replacedFrom {} calls).map .reassigned).map .logged
  | _ => []

/-- What an operation comes to on a finished context. -/
def refusal (tc : Context σ) : Operation σ ρ → Ending (Answer ρ)
  | .inspect => .ok (.seen tc.toSnapshot)
  | .complete _ | .completeWithPanic _ none => .ok .done
  | .completeWithPanic _ (some p) => .panic p
  | .updateList _ rs =>
    if rs.isEmpty then .ok (.affected 0)
    else .error (Context.listFailure tc.style 0 .invalidState)
  | _ => .error .invalidState

variable {tc : Context σ}

/-- A finished context is left alone by an operation, which has its refusal for an answer: nothing but
what the caller has logged before is new, the records are given back as they were, and since no state
has changed, neither the database nor any code of the caller has been called. -/
def Ignored (tc : Context σ) (op : Operation σ ρ) : Prop :=
  ∀ (b : Backend σ) (w : World σ), op.run tc b w =
    (.ok ({ result := op.refusal tc, records := op.given }, tc),
      { w with trace := w.trace ++ op.prepared })

/-- An operation that comes to its refusal at once is ignored. -/
theorem ignored_of_run_eq {op : Operation σ ρ}
    (hrun : op.run tc = pure ({ result := op.refusal tc, records := op.given }, tc))
    (hprepared : op.prepared = []) : Ignored tc op := by
  intro b w
  rw [hrun, hprepared, List.append_nil, Run.pure_apply]

theorem plain_of_refuses (answer : α → Answer ρ) {x : Run σ α} (hx : x.Refuses) :
    plain tc answer x = pure ({ result := .error .invalidState }, tc) := by
  funext b w
  simp only [plain, Run.bind_apply, Run.ending_apply, hx b w, Run.pure_apply, Ending.map]

/-- A modifier is put together before its update is refused. -/
theorem plain_of_assembled (calls : List Assignment) {f : Modifier → Run σ Nat}
    (hf : ∀ m, (f m).Refuses) (b : Backend σ) (w : World σ) :
    (plain tc .affected (Modifier.assemble calls >>= f) : Run σ (Report ρ × Context σ)) b w =
      (.ok ({ result := .error .invalidState }, tc),
        { w with trace := w.trace ++
          ((Modifier.replacedFrom {} calls).map .reassigned).map .logged }) := by
  simp only [plain, Modifier.assemble, Run.bind_apply, Run.ending_apply, Run.logAll_apply,
    Run.pure_apply, hf _ b _, Ending.map]

/-- Records that are given back as they were are reported so. -/
theorem writing_of_eq (records : α → List Record) {x : Run σ (Ending Nat × α)} {e : Ending Nat}
    {a : α} (hx : x = pure (e, a)) :
    (writing tc records x : Run σ (Report ρ × Context σ)) =
      pure ({ result := e.map .affected, records := records a }, tc) := by
  rw [hx]
  rfl

/-- Every operation that does not complete its context ignores a finished one. -/
theorem ignored_of_ne_init (h : tc.status ≠ .init) (op : Operation σ ρ)
    (hop : op.completes = false) : Ignored tc op := by
  have hplain : ∀ {α : Type} {answer : α → Answer ρ} {x : Run σ α}, x.Refuses →
      plain tc answer x = pure ({ result := .error .invalidState }, tc) := plain_of_refuses _
  cases op with
  | complete reason => cases hop
  | completeWithPanic reason payload => cases hop
  | inspect => exact ignored_of_run_eq rfl rfl
  | check => exact ignored_of_run_eq (hplain (Context.refuses_check h)) rfl
  | getAll t view => exact ignored_of_run_eq (hplain (Context.refuses_select h t _ _)) rfl
  | getById t id view => exact ignored_of_run_eq (hplain (Context.refuses_selectFirst h t _)) rfl
  | getByIds t ids view =>
    exact ignored_of_run_eq (hplain (Context.refuses_selectAmong h t ids _)) rfl
  | queryList t matcher view orders =>
    exact ignored_of_run_eq (hplain (Context.refuses_select h t _ _)) rfl
  | queryPage t matcher view pager orders =>
    exact ignored_of_run_eq (hplain (Context.refuses_select h t _ _)) rfl
  | queryListInto t matcher view pager orders factory =>
    exact ignored_of_run_eq (hplain (Context.refuses_select h t _ factory)) rfl
  | queryOne t matcher view =>
    exact ignored_of_run_eq (hplain (Context.refuses_selectFirst h t _)) rfl
  | count t matcher => exact ignored_of_run_eq (hplain (Context.refuses_count h t matcher)) rfl
  | queryBatches t matcher view orders limit size handler width =>
    exact ignored_of_run_eq (hplain (Context.refuses_batches h width size _ handler)) rfl
  | queryRaw q mapper => exact ignored_of_run_eq (hplain (Context.refuses_queryRaw h q mapper)) rfl
  | queryRawBatches q size mapper handler width =>
    exact ignored_of_run_eq (hplain (Context.refuses_batches h width size _ handler)) rfl
  | lockById t id lock => exact ignored_of_run_eq (hplain (Context.refuses_selectFirst h t _)) rfl
  | lockByIds t ids lock orders =>
    exact ignored_of_run_eq (hplain (Context.refuses_selectAmong h t ids _)) rfl
  | lockList t matcher view pager orders lock =>
    exact ignored_of_run_eq (hplain (Context.refuses_select h t _ _)) rfl
  | lockOne t matcher view lock =>
    exact ignored_of_run_eq (hplain (Context.refuses_selectFirst h t _)) rfl
  | insert t r =>
    exact ignored_of_run_eq (writing_of_eq ([·]) (Context.insert_of_ne_init h t r)) rfl
  | update t r =>
    exact ignored_of_run_eq (writing_of_eq ([·]) (Context.update_of_ne_init h t r)) rfl
  | updateList t rs =>
    refine ignored_of_run_eq ((writing_of_eq id (Context.updateList_of_ne_init h t rs)).trans ?_) rfl
    cases rs <;> rfl
  | modifyById t calls id =>
    exact plain_of_assembled calls fun m => Context.refuses_modify h t m _
  | modifyByIds t calls ids =>
    exact plain_of_assembled calls fun m => Context.refuses_modifyByIds h t m ids
  | modify t calls matcher =>
    exact plain_of_assembled calls fun m => Context.refuses_modify h t m matcher
  | executeRaw q => exact ignored_of_run_eq (hplain (Context.refuses_execute h q)) rfl
  | deleteById t id => exact ignored_of_run_eq (hplain (Context.refuses_delete h t _)) rfl
  | deleteByIds t ids =>
    exact ignored_of_run_eq (hplain (Context.refuses_deleteByIds h t ids)) rfl
  | delete t matcher => exact ignored_of_run_eq (hplain (Context.refuses_delete h t matcher)) rfl

/-- Completing ignores a context that has been completed, and so does everything else. -/
theorem ignored_of_invalid (h : tc.status = .invalid) (op : Operation σ ρ) : Ignored tc op := by
  have hcomplete : ∀ reason, tc.complete reason = pure (.ok (), tc) := by
    intro reason
    funext b w
    exact Context.complete_of_invalid h reason b w
  cases hop : op.completes with
  | false => exact ignored_of_ne_init (by rw [h]; decide) op hop
  | true =>
    refine ignored_of_run_eq ?_ ?_
    · cases op with
      | complete reason =>
        simp only [run, Context.completeWithPanic, hcomplete]
        rfl
      | completeWithPanic reason payload =>
        cases payload <;> simp only [run, Context.completeWithPanic, hcomplete] <;> rfl
      | _ => cases hop
    · cases op <;> first | rfl | cases hop

/-- The refusal of an operation that needs an open context, and that is not the update of a list. -/
theorem refusal_of_needsOpen {op : Operation σ ρ} (h : op.needsOpen = true)
    (hlist : ∀ t rs, op ≠ .updateList t rs) : op.refusal tc = .error .invalidState := by
  cases op with
  | inspect | complete | completeWithPanic => cases h
  | updateList t rs => exact absurd rfl (hlist t rs)
  | _ => rfl

end Operation

namespace Context

variable {tc : Context σ}

/-- On a finished context whatever reads or writes fails for the state of the context, with any
arguments, except the update of a list. That answers with no rows for an empty list, and without a
transaction it answers with a partial update of no rows for any other. -/
theorem finished_refused (h : tc.status ≠ .init) (b : Backend σ) (w : World σ) :
    (∀ op : Operation σ ρ, op.needsOpen = true → (∀ t rs, op ≠ .updateList t rs) →
      ∃ records w',
        op.run tc b w = (.ok ({ result := .error .invalidState, records := records }, tc), w')) ∧
    ∀ (t : Table) (rs : List Record), ∃ result w',
      (Operation.updateList t rs : Operation σ ρ).run tc b w =
        (.ok ({ result := result, records := rs }, tc), w') ∧
      (rs = [] → result = .ok (.affected 0)) ∧
      (rs ≠ [] → tc.style = .none → result = .error (.partialUpdate 0 .invalidState)) ∧
      (rs ≠ [] → tc.style ≠ .none → result = .error .invalidState) := by
  constructor
  · intro op hop hlist
    have hcompletes : op.completes = false := by cases op <;> first | rfl | cases hop
    have hrun := Operation.ignored_of_ne_init h op hcompletes b w
    rw [Operation.refusal_of_needsOpen hop hlist] at hrun
    exact ⟨_, _, hrun⟩
  · intro t rs
    refine ⟨_, _, Operation.ignored_of_ne_init h (.updateList t rs) rfl b w, ?_, ?_, ?_⟩
    · rintro rfl
      rfl
    · intro hne hs
      simp [Operation.refusal, hne, hs, listFailure]
    · intro hne hs
      cases hstyle : tc.style with
      | none => exact absurd hstyle hs
      | readOnly | write => simp [Operation.refusal, hne, hstyle, listFailure]

/-- A batch reader with batches of no size and a delete without identifiers are refused as well. -/
theorem finished_refused_corners :
    let t : Table := ⟨"t_log", ["id"], some "id", [], none⟩
    let tc : Context (Scripted Unit) := writingFirst.invalidated
    tc.status ≠ .init ∧
      (∃ records w', (Operation.queryRawBatches ⟨"select 1", []⟩ 0 (fun _ env => (.panic "row", env))
          (fun _ env => (.panic "batch", env)) : Operation (Scripted Unit) Unit).run tc
          Scripted.backend stuckWorld =
        (.ok ({ result := .error .invalidState, records := records }, tc), w')) ∧
      ∃ records w', (Operation.deleteByIds t [] : Operation (Scripted Unit) Unit).run tc
          Scripted.backend stuckWorld =
        (.ok ({ result := .error .invalidState, records := records }, tc), w') := by
  intro t tc
  have hfinished : tc.status ≠ .init := nofun
  have hrefused := (finished_refused (ρ := Unit) hfinished Scripted.backend stuckWorld).1
  exact ⟨hfinished, hrefused _ rfl nofun, hrefused _ rfl nofun⟩

/-- Not everything is refused: the update of an empty list goes well on a finished context. -/
theorem finished_updates_empty :
    let t : Table := ⟨"t_log", ["id"], some "id", [], none⟩
    let tc : Context (Scripted Unit) := writingFirst.invalidated
    let op : Operation (Scripted Unit) Unit := .updateList t []
    tc.status ≠ .init ∧ op.needsOpen = true ∧
      op.run tc Scripted.backend stuckWorld =
        (.ok ({ result := .ok (.affected 0) }, tc), stuckWorld) :=
  ⟨nofun, rfl, rfl⟩

/-- A finished context is inert. Whatever reads or writes is ignored by any context that is not open,
and a context that is not open in a session ignores being completed as well. -/
theorem finished_inert (h : tc.status ≠ .init) :
    (∀ op : Operation σ ρ, op.completes = false → Operation.Ignored tc op) ∧
    ∀ (ds : Datasource σ) (b : Backend σ) (env : σ) (steps : List (Step σ ρ β)) (s : Session σ)
      (w : World σ) (slot : Nat), Session.run ds {} steps b { env := env } = (.ok s, w) →
      s.get? slot = some tc → ∀ op : Operation σ ρ, Operation.Ignored tc op := by
  refine ⟨Operation.ignored_of_ne_init h, ?_⟩
  intro ds b env steps s w slot hrun hget op
  obtain ⟨s', w', hrun', hsound⟩ := Session.sound_run ds b env steps
  rw [hrun] at hrun'
  cases hrun'
  -- of the statuses only two are seen between the steps of a session
  rcases (Session.settled_init_iff (hsound.neat.settled_of_get? hget)).2 with hs | hs
  · exact absurd hs h
  · exact Operation.ignored_of_invalid hs op

/-- A context that was completed ignores being completed for a failure, and an insert does not reach
the hooks that would refuse it. -/
theorem finished_inert_completed :
    let hooks : Interceptor (Scripted Unit) :=
      { beforeInsert := fun _ _ r env => ⟨.panic "hook", r, env, []⟩ }
    let ds : Datasource (Scripted Unit) := { pools := [{}], interceptors := [hooks] }
    let t : Table := ⟨"t_log", ["id"], some "id", [], none⟩
    let tc : Context (Scripted Unit) :=
      { style := .write, status := .invalid, scope := { traceId := "" }, logSql := false,
        connection := none, interceptors := [hooks] }
    (∃ s w, Session.run ds {} [(.open 0 .write { traceId := "" } : Step (Scripted Unit) Unit Unit),
        .perform 0 (.complete none)] Scripted.backend { env := ⟨[{}], ()⟩ } = (.ok s, w) ∧
      s.get? 0 = some tc) ∧
      tc.status ≠ .init ∧
      Operation.Ignored tc (.complete (some .panicked) : Operation (Scripted Unit) Unit) ∧
      Operation.Ignored tc (.insert t ⟨[]⟩ : Operation (Scripted Unit) Unit) := by
  intro hooks ds t tc
  have hopened : ∃ s w, Session.run ds {}
      [(.open 0 .write { traceId := "" } : Step (Scripted Unit) Unit Unit),
        .perform 0 (.complete none)] Scripted.backend { env := ⟨[{}], ()⟩ } = (.ok s, w) ∧
      s.get? 0 = some tc := ⟨_, _, rfl, rfl⟩
  have hfinished : tc.status ≠ .init := nofun
  obtain ⟨hignored, hcompleted⟩ := finished_inert (ρ := Unit) (β := Unit) hfinished
  obtain ⟨s, w, hrun, hget⟩ := hopened
  exact ⟨⟨s, w, hrun, hget⟩, hfinished, hcompleted _ _ _ _ _ _ 0 hrun hget _, hignored _ rfl⟩

end Context

end TableAccess
