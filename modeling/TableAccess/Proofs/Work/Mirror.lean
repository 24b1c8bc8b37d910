import TableAccess.Proofs.Work.Logging

/-!
Runs with the log of statements and without it.

`Run.Mirrors` relates a run without the log to a run with it: from the same state they end alike, with
related values, in the same state and with the same number of connections granted, and the traces that
they leave are `Logged`. The rules below follow the way runs are put together. The only place where the
two differ are the statements of a context, so every reader and writer, and with them every operation,
mirrors itself.
-/

namespace TableAccess

variable {σ ρ α α' β β' S : Type} {D : LogRecord → Prop}

/-- Endings of one kind, of values that are related. -/
inductive Ending.Like (R : α → β → Prop) : Ending α → Ending β → Prop
  | ok {a : α} {b : β} (h : R a b) : Like R (.ok a) (.ok b)
  | error (f : Failure) : Like R (.error f) (.error f)
  | panic (p : String) : Like R (.panic p) (.panic p)

theorem Ending.Like.refl (e : Ending α) : Ending.Like Eq e e := by
  cases e with
  | ok a => exact .ok rfl
  | error f => exact .error f
  | panic p => exact .panic p

/-- What a hook logs about statements is within `D`. -/
def Hook.Writes (D : LogRecord → Prop) (h : Hook σ S) : Prop :=
  ∀ subject env, ∀ r ∈ (h subject env).logs, r.isStatement = true → D r

/-- What the hooks of an interceptor log about statements is within `D`. -/
structure Interceptor.Writes (D : LogRecord → Prop) (i : Interceptor σ) : Prop where
  afterBegin : ∀ s, (i.afterBegin s).Writes D
  beforeInsert : ∀ s table, (i.beforeInsert s table).Writes D
  beforeUpdate : ∀ s table, (i.beforeUpdate s table).Writes D
  beforeModify : ∀ s table columns, (i.beforeModify s table columns).Writes D

theorem Hook.pass_writes : (Hook.pass : Hook σ S).Writes D := fun _ _ _ hr => nomatch hr

/-- What stamps values logs nothing about statements. -/
theorem Interceptor.stamp_writes (name : String) : (stamp name : Interceptor σ).Writes D := by
  have hrecord : ∀ s, (stampRecord name s : Hook σ Record).Writes D := by
    intro s record env r hr
    unfold stampRecord at hr
    split at hr
    · split at hr <;> exact nomatch hr
    · exact nomatch hr
  refine ⟨fun _ => Hook.pass_writes, fun s _ => hrecord s, fun s _ => hrecord s, ?_⟩
  intro s _ columns m env r hr hstatement
  dsimp only [stamp, stampModifier] at hr
  split at hr
  · split at hr
    · rw [Modifier.replacement] at hr
      split at hr
      · obtain rfl := List.mem_singleton.mp hr
        cases hstatement
      · exact nomatch hr
    · exact nomatch hr
  · exact nomatch hr

namespace Run

/-- From the same state the two runs end alike and leave the same state, and what the second adds to the
trace is what the first adds, with the records of its statements. -/
def Mirrors (D : LogRecord → Prop) (R : α → β → Prop) (x : Run σ α) (y : Run σ β) : Prop :=
  ∀ (b : Backend σ) (env : σ) (granted : Nat), ∃ (e : Ending α) (e' : Ending β) (env' : σ)
    (granted' : Nat) (es fs : List Event), e.Like R e' ∧ Logged D es fs ∧ ∀ trace,
      x b ⟨env, trace, granted⟩ = (e, ⟨env', trace ++ es, granted'⟩) ∧
      y b ⟨env, trace, granted⟩ = (e', ⟨env', trace ++ fs, granted'⟩)

variable {R : α → β → Prop} {R' : α' → β' → Prop}

/-- A run that depends on the state alone and adds what is common mirrors itself. -/
theorem mirrors_of_steady {x : Run σ α} (h : ∀ (b : Backend σ) (env : σ) (granted : Nat),
    ∃ (e : Ending α) (env' : σ) (granted' : Nat) (es : List Event), (∀ ev ∈ es, ev.Common D) ∧
      ∀ trace, x b ⟨env, trace, granted⟩ = (e, ⟨env', trace ++ es, granted'⟩)) :
    Mirrors D Eq x x := by
  intro b env granted
  obtain ⟨e, env', granted', es, hes, hrun⟩ := h b env granted
  exact ⟨e, e, env', granted', es, es, .refl e, .refl hes, fun trace => ⟨hrun trace, hrun trace⟩⟩

/-- A run that changes neither the trace nor the connections mirrors itself. -/
theorem mirrors_of_still {x : Run σ α} (h : ∀ (b : Backend σ) (env : σ) (granted : Nat),
    ∃ (e : Ending α) (env' : σ), ∀ trace,
      x b ⟨env, trace, granted⟩ = (e, ⟨env', trace, granted⟩)) : Mirrors D Eq x x := by
  refine mirrors_of_steady fun b env granted => ?_
  obtain ⟨e, env', hrun⟩ := h b env granted
  exact ⟨e, env', granted, [], nofun, fun trace => by rw [hrun, List.append_nil]⟩

theorem mirrors_pure {a : α} {b : β} (h : R a b) :
    Mirrors D R (Pure.pure a : Run σ α) (Pure.pure b : Run σ β) := fun _ env granted =>
  ⟨.ok a, .ok b, env, granted, [], [], .ok h, .nil, fun trace => by simp⟩

theorem mirrors_ofEnding {e : Ending α} {e' : Ending β} (h : e.Like R e') :
    Mirrors D R (ofEnding e : Run σ α) (ofEnding e' : Run σ β) := fun _ env granted =>
  ⟨e, e', env, granted, [], [], h, .nil, fun trace => by simp⟩

theorem mirrors_fail (f : Failure) : Mirrors D R (fail f : Run σ α) (fail f : Run σ β) :=
  mirrors_ofEnding (.error f)

theorem mirrors_panic (p : String) : Mirrors D R (panic p : Run σ α) (panic p : Run σ β) :=
  mirrors_ofEnding (.panic p)

theorem mirrors_ofExcept (x : Except Failure α) :
    Mirrors D Eq (ofExcept x : Run σ α) (ofExcept x) := mirrors_ofEnding (.refl _)

theorem mirrors_reserve (width count : Nat) :
    Mirrors D Eq (reserve width count : Run σ Unit) (reserve width count) :=
  mirrors_ofEnding (.refl _)

/-- What comes after related values is related. -/
theorem Mirrors.bind {x : Run σ α} {y : Run σ β} {f : α → Run σ α'} {f' : β → Run σ β'}
    (hx : Mirrors D R x y) (hf : ∀ a b, R a b → Mirrors D R' (f a) (f' b)) :
    Mirrors D R' (x >>= f) (y >>= f') := by
  intro b env granted
  obtain ⟨e, e', env₁, granted₁, es, fs, hlike, hlogged, hrun⟩ := hx b env granted
  cases hlike with
  | @ok a a' hR =>
    obtain ⟨e₂, e₂', env₂, granted₂, es₂, fs₂, hlike₂, hlogged₂, hrun₂⟩ :=
      hf a a' hR b env₁ granted₁
    refine ⟨e₂, e₂', env₂, granted₂, es ++ es₂, fs ++ fs₂, hlike₂, hlogged.append hlogged₂, ?_⟩
    intro trace
    rw [bind_apply, bind_apply, (hrun trace).1, (hrun trace).2, ← List.append_assoc,
      ← List.append_assoc]
    exact ⟨(hrun₂ _).1, (hrun₂ _).2⟩
  | error f =>
    refine ⟨.error f, .error f, env₁, granted₁, es, fs, .error f, hlogged, fun trace => ?_⟩
    rw [bind_apply, bind_apply, (hrun trace).1, (hrun trace).2]
    exact ⟨rfl, rfl⟩
  | panic p =>
    refine ⟨.panic p, .panic p, env₁, granted₁, es, fs, .panic p, hlogged, fun trace => ?_⟩
    rw [bind_apply, bind_apply, (hrun trace).1, (hrun trace).2]
    exact ⟨rfl, rfl⟩

/-- What comes after equal values may be told of one of them. -/
theorem Mirrors.andThen {x y : Run σ α} {f : α → Run σ α'} {f' : α → Run σ β'}
    (hx : Mirrors D Eq x y) (hf : ∀ a, Mirrors D R' (f a) (f' a)) :
    Mirrors D R' (x >>= f) (y >>= f') := by
  refine hx.bind ?_
  rintro a _ rfl
  exact hf a

theorem Mirrors.ending {x : Run σ α} {y : Run σ β} (h : Mirrors D R x y) :
    Mirrors D (Ending.Like R) x.ending y.ending := by
  intro b env granted
  obtain ⟨e, e', env', granted', es, fs, hlike, hlogged, hrun⟩ := h b env granted
  refine ⟨.ok e, .ok e', env', granted', es, fs, .ok hlike, hlogged, fun trace => ?_⟩
  rw [ending_apply, ending_apply, (hrun trace).1, (hrun trace).2]
  exact ⟨rfl, rfl⟩

/-- Runs that end with equal values end equally. -/
theorem Mirrors.ending_eq {x y : Run σ α} (h : Mirrors D Eq x y) :
    Mirrors D Eq x.ending y.ending := by
  intro b env granted
  obtain ⟨e, e', env', granted', es, fs, hlike, hlogged, hrun⟩ := h b env granted
  obtain rfl : e = e' := by
    cases hlike with
    | ok h => rw [h]
    | error f => rfl
    | panic p => rfl
  refine ⟨.ok e, .ok e, env', granted', es, fs, .ok rfl, hlogged, fun trace => ?_⟩
  rw [ending_apply, ending_apply, (hrun trace).1, (hrun trace).2]
  exact ⟨rfl, rfl⟩

/-! ### What does not depend on the log -/

theorem mirrors_emit {e : Event} (h : e.Common D) : Mirrors D Eq (emit e : Run σ Unit) (emit e) :=
  mirrors_of_steady fun _ env granted =>
    ⟨.ok (), env, granted, [e], List.forall_mem_singleton.mpr h, fun _ => rfl⟩

theorem mirrors_log {r : LogRecord} (h : r.isStatement = false) :
    Mirrors D Eq (log r : Run σ Unit) (log r) :=
  mirrors_emit fun hr => absurd (h.symm.trans hr) Bool.false_ne_true

theorem mirrors_logAll {rs : List LogRecord} (h : ∀ r ∈ rs, r.isStatement = true → D r) :
    Mirrors D Eq (logAll rs : Run σ Unit) (logAll rs) := by
  refine mirrors_of_steady fun _ env granted => ⟨.ok (), env, granted, rs.map .logged, ?_, fun _ => rfl⟩
  intro ev hev
  obtain ⟨r, hr, rfl⟩ := List.mem_map.mp hev
  exact h r hr

theorem mirrors_modifyEnv (f : σ → σ) : Mirrors D Eq (modifyEnv f) (modifyEnv f) :=
  mirrors_of_still fun _ env _ => ⟨.ok (), f env, fun _ => rfl⟩

theorem mirrors_callback (c : Callback σ α) : Mirrors D Eq (callback c) (callback c) :=
  mirrors_of_still fun _ env _ => ⟨(c env).1, (c env).2, fun _ => rfl⟩

theorem mirrors_hook {h : Hook σ S} (hD : h.Writes D) (subject : S) :
    Mirrors D Eq (hook h subject) (hook h subject) := by
  refine mirrors_of_steady fun _ env granted =>
    ⟨.ok ((h subject env).ending, (h subject env).subject), (h subject env).env, granted,
      (h subject env).logs.map .logged, ?_, fun _ => rfl⟩
  intro ev hev
  obtain ⟨r, hr, rfl⟩ := List.mem_map.mp hev
  exact hD subject env r hr

theorem mirrors_hooks {note : Nat → Event} (hnote : ∀ i, (note i).Common D) :
    ∀ (i : Nat) {hs : List (Hook σ S)} (subject : S), (∀ h ∈ hs, h.Writes D) →
      Mirrors D Eq (hooks note i hs subject) (hooks note i hs subject)
  | _, [], _, _ => mirrors_pure rfl
  | i, h :: hs, subject, hD => by
    refine (mirrors_emit (hnote i)).andThen fun _ =>
      (mirrors_hook (hD h (List.mem_cons_self ..)) subject).andThen ?_
    rintro ⟨e, subject⟩
    cases e with
    | ok _ => exact mirrors_hooks hnote (i + 1) subject fun h' hh => hD h' (List.mem_cons_of_mem h hh)
    | error f => exact mirrors_pure rfl
    | panic p => exact mirrors_pure rfl

theorem mirrors_acquire (pool bound : Nat) :
    Mirrors D Eq (acquire pool bound : Run σ _) (acquire pool bound) := by
  refine mirrors_of_steady fun b env granted => ?_
  by_cases hwait : bound < (b.acquire pool env).wait
  · exact ⟨.ok none, env, granted, [], nofun,
      fun trace => by simp only [acquire, if_pos hwait, List.append_nil]⟩
  · cases hout : (b.acquire pool env).outcome with
    | ok u =>
      exact ⟨.ok (some (.ok ⟨pool, granted⟩)), (b.acquire pool env).env, granted + 1,
        [.granted ⟨pool, granted⟩], List.forall_mem_singleton.mpr trivial,
        fun trace => by simp only [acquire, if_neg hwait, hout]⟩
    | error f =>
      exact ⟨.ok (some (.error f)), (b.acquire pool env).env, granted, [.refused pool],
        List.forall_mem_singleton.mpr trivial,
        fun trace => by simp only [acquire, if_neg hwait, hout]⟩

theorem mirrors_begin (conn : Connection) (readOnly : Bool) (bound : Nat) :
    Mirrors D Eq (begin conn readOnly bound : Run σ _) (begin conn readOnly bound) := by
  refine mirrors_of_steady fun b env granted => ?_
  by_cases hwait : bound < (b.begin conn readOnly env).wait
  · exact ⟨.ok none, env, granted, [], nofun,
      fun trace => by simp only [begin, if_pos hwait, List.append_nil]⟩
  · exact ⟨.ok (some (b.begin conn readOnly env).outcome), (b.begin conn readOnly env).env, granted,
      [.called conn (.begin readOnly) (succeeded (b.begin conn readOnly env).outcome)],
      List.forall_mem_singleton.mpr rfl,
      fun trace => by simp only [begin, if_neg hwait]⟩

/-- A call that is no statement. -/
theorem mirrors_call (conn : Connection) {c : Call} (h : c.statement? = none)
    (f : Backend σ → σ → Except Failure α × σ) :
    Mirrors D Eq (call conn c f) (call conn c f) :=
  mirrors_of_steady fun b env granted =>
    ⟨.ok (f b env).1, (f b env).2, granted, [.called conn c (succeeded (f b env).1)],
      List.forall_mem_singleton.mpr h, fun _ => rfl⟩

theorem mirrors_close (conn : Connection) : Mirrors D Eq (close conn : Run σ Unit) (close conn) :=
  mirrors_of_steady fun b env granted =>
    ⟨.ok (), b.close conn env, granted, [.closed conn],
      List.forall_mem_singleton.mpr trivial, fun _ => rfl⟩

theorem mirrors_discard (conn : Connection) :
    Mirrors D Eq (discard conn : Run σ Unit) (discard conn) :=
  mirrors_of_steady fun b env granted =>
    ⟨.ok (), b.discard conn env, granted, [.discarded conn],
      List.forall_mem_singleton.mpr trivial, fun _ => rfl⟩

theorem mirrors_closePool (pool : Nat) :
    Mirrors D Eq (closePool pool : Run σ Unit) (closePool pool) :=
  mirrors_of_steady fun b env granted =>
    ⟨.ok (), b.closePool pool env, granted, [.poolClosed pool],
      List.forall_mem_singleton.mpr trivial, fun _ => rfl⟩

theorem mirrors_pulled (ok : Bool) :
    Mirrors D Eq (emit (.pulled ok) : Run σ Unit) (emit (.pulled ok)) := mirrors_emit trivial

theorem mirrors_pull : ∀ stream : RowStream,
    Mirrors D Eq (pull stream : Run σ (Option Row × RowStream)) (pull stream)
  | [] => mirrors_pure rfl
  | .ok _ :: _ => (mirrors_pulled true).andThen fun _ => mirrors_pure rfl
  | .error f :: _ => (mirrors_pulled false).andThen fun _ => mirrors_fail f

end Run

namespace Context

open Run

/-! ### Rows -/

theorem mirrors_bindRow (t : Table) (columns : List String) (fresh : Callback σ Record) (row : Row) :
    Mirrors D Eq (bindRow t columns fresh row) (bindRow t columns fresh row) := by
  refine (mirrors_callback fresh).andThen fun r => ?_
  rcases t.bind r columns row.cells with ⟨r, outcome⟩
  exact (mirrors_ofExcept outcome).andThen fun _ => mirrors_pure rfl

theorem mirrors_mapRows {f : Row → Run σ α} (hf : ∀ row, Mirrors D Eq (f row) (f row)) :
    ∀ rows : List Row, Mirrors D Eq (mapRows f rows) (mapRows f rows)
  | [] => mirrors_pure rfl
  | row :: rest =>
    (hf row).andThen fun _ => (mirrors_mapRows hf rest).andThen fun _ => mirrors_pure rfl

theorem mirrors_handOver (handler : List α → Callback σ Unit) (batch : List α) :
    Mirrors D Eq (handOver handler batch) (handOver handler batch) :=
  (mirrors_emit (e := .batch batch.length) trivial).andThen fun _ =>
    mirrors_callback (handler batch)

theorem mirrors_deliver (width size : Nat) {f : Row → Run σ α}
    (hf : ∀ row, Mirrors D Eq (f row) (f row)) (handler : List α → Callback σ Unit) :
    ∀ (held : List α) (stream : RowStream),
      Mirrors D Eq (deliver width size f handler held stream)
        (deliver width size f handler held stream)
  | held, [] => by
    unfold deliver
    split
    · exact mirrors_pure rfl
    · exact mirrors_handOver handler held
  | held, .ok row :: rest => by
    unfold deliver
    refine (mirrors_pulled true).andThen fun _ => (hf row).andThen fun a => ?_
    dsimp only
    split
    · exact (mirrors_reserve width size).andThen fun _ => (mirrors_handOver handler _).andThen fun _ =>
        mirrors_deliver width size hf handler [] rest
    · exact mirrors_deliver width size hf handler _ rest
  | _, .error e :: _ => by
    unfold deliver
    exact (mirrors_pulled false).andThen fun _ => mirrors_fail e

/-! ### Statements -/

/-- The function does the same in a context with the log as without it. -/
def Alike (D : LogRecord → Prop) (tc : Context σ) (F : Context σ → Run σ α) : Prop :=
  Mirrors D Eq (F (tc.withLog false)) (F (tc.withLog true))

variable {tc : Context σ}

/-- A statement that is recorded is the same but for its records. -/
theorem Recorded.alike {q : Sql} {call : Call} {F : Context σ → Run σ α}
    (h : Recorded tc q call F) (hcall : call.statement? = some (q.text, q.args)) : Alike D tc F := by
  intro b env granted
  cases hcheck : tc.check with
  | error f =>
    refine ⟨.error f, .error f, env, granted, [], [], .error f, .nil, fun trace => ?_⟩
    rw [h.refused f hcheck, h.refused f hcheck, List.append_nil]
    exact ⟨rfl, rfl⟩
  | ok conn =>
    obtain ⟨outcome, env', ok, pulls, houtcome, hrun⟩ := h.asked conn hcheck b env
    exact ⟨.ofExcept outcome, .ofExcept outcome, env', granted, _, _, .refl _,
      .single tc.traceId conn hcall houtcome, fun trace => hrun trace granted⟩

theorem alike_queryStream (q : Sql) : Alike D tc (·.queryStream q) :=
  (recorded_queryStream tc q).alike rfl

theorem alike_queryRows (q : Sql) : Alike D tc (·.queryRows q) :=
  (recorded_queryRows tc q).alike rfl

theorem alike_execute (q : Sql) : Alike D tc (·.execute q) := (recorded_execute tc q).alike rfl

theorem alike_insertRow (q : Sql) (generated : Option String) :
    Alike D tc (·.insertRow q generated) := (recorded_insertRow tc q generated).alike rfl

/-- The state of a context does not depend on the log. -/
theorem alike_check : Alike D tc fun tc => ofExcept tc.check := mirrors_ofExcept tc.check

/-! ### Readers -/

theorem alike_select (t : Table) (q : Selection) (fresh : Callback σ Record) :
    Alike D tc (·.select t q fresh) := by
  refine alike_check.andThen fun _ => (mirrors_ofExcept _).andThen fun stmt => ?_
  exact (alike_queryRows stmt.sql).andThen fun rows =>
    mirrors_mapRows (mirrors_bindRow t stmt.columns fresh) rows

theorem alike_selectFirst (t : Table) (q : Selection) : Alike D tc (·.selectFirst t q) := by
  refine alike_check.andThen fun _ => (mirrors_ofExcept _).andThen fun stmt => ?_
  refine (alike_queryStream stmt.sql).andThen fun stream => (mirrors_pull stream).andThen ?_
  rintro ⟨_ | row, _⟩
  · exact mirrors_pure rfl
  · exact (mirrors_bindRow t stmt.columns (fresh t) row).andThen fun _ => mirrors_pure rfl

theorem alike_selectAmong (t : Table) (ids : List Int64) (q : Selection) :
    Alike D tc (·.selectAmong t ids q) := by
  refine alike_check.andThen fun _ => ?_
  split
  · exact mirrors_pure rfl
  · exact alike_select t _ (fresh t)

theorem alike_count (t : Table) (matcher : Option Matcher) : Alike D tc (·.count t matcher) := by
  refine alike_check.andThen fun _ => (mirrors_ofExcept _).andThen fun q => ?_
  refine (alike_queryStream q).andThen fun stream => (mirrors_pull stream).andThen ?_
  rintro ⟨_ | row, _⟩
  · exact mirrors_pure rfl
  · exact (mirrors_ofExcept _).andThen fun _ => mirrors_pure rfl

theorem mirrors_batches (width size : Nat) {statement : Except Failure (Sql × (Row → Run σ α))}
    (hstatement : ∀ q f, statement = .ok (q, f) → ∀ row, Mirrors D Eq (f row) (f row))
    (handler : List α → Callback σ Unit) :
    Mirrors D Eq ((tc.withLog false).batches width size statement handler)
      ((tc.withLog true).batches width size statement handler) := by
  refine alike_check.andThen fun _ => ?_
  split
  · exact mirrors_fail .invalidBatchSize
  · cases statement with
    | error f => exact mirrors_fail f
    | ok s =>
      obtain ⟨q, f⟩ := s
      exact (alike_queryStream q).andThen fun stream => (mirrors_reserve width size).andThen fun _ =>
        mirrors_deliver width size (hstatement q f rfl) handler [] stream

theorem alike_queryBatches (t : Table) (matcher : Option Matcher) (view : Option View)
    (orders : List Order) (limit : Option Int64) (width size : Nat)
    (handler : List Record → Callback σ Unit) :
    Alike D tc (·.queryBatches t matcher view orders limit width size handler) := by
  refine mirrors_batches width size (fun q f h => ?_) handler
  cases hs : Statement.select t (tc.withLog false).scope
      { matcher := matcher, view := view, pager := limitPager limit, orders := orders } with
  | error g =>
    rw [hs] at h
    cases h
  | ok stmt =>
    rw [hs] at h
    cases h
    exact mirrors_bindRow t stmt.columns (fresh t)

theorem alike_queryRaw (q : Sql) (mapper : Row → Callback σ α) : Alike D tc (·.queryRaw q mapper) :=
  (alike_queryRows q).andThen fun rows =>
    mirrors_mapRows (fun row => mirrors_callback (mapper row)) rows

theorem alike_queryRawBatches (q : Sql) (width size : Nat) (mapper : Row → Callback σ α)
    (handler : List α → Callback σ Unit) :
    Alike D tc (·.queryRawBatches q width size mapper handler) := by
  refine mirrors_batches width size ?_ handler
  rintro _ _ ⟨⟩ row
  exact mirrors_callback (mapper row)

/-! ### Writers -/

theorem alike_runHooks (point : HookPoint) (subject : String) (columns : List String)
    {pick : Interceptor σ → Hook σ S} (hpick : ∀ i ∈ tc.interceptors, (pick i).Writes D) (s : S) :
    Alike D tc (·.runHooks point subject columns pick s) := by
  refine mirrors_hooks (fun _ => by trivial) 0 s ?_
  intro h hh
  obtain ⟨i, hi, rfl⟩ := List.mem_map.mp hh
  exact hpick i hi

theorem mirrors_afterHooks (point : HookPoint) (table : String) (columns : List String)
    {pick : Interceptor σ → Hook σ S} (hpick : ∀ i ∈ tc.interceptors, (pick i).Writes D) (s : S)
    {write write' : S → Run σ (Ending α × S)} (hwrite : ∀ s, Mirrors D Eq (write s) (write' s)) :
    Mirrors D Eq ((tc.withLog false).afterHooks point table columns pick s write)
      ((tc.withLog true).afterHooks point table columns pick s write') := by
  have hcheck : ∀ on, (tc.withLog on).check = tc.check := fun _ => rfl
  simp only [afterHooks, hcheck]
  cases tc.check with
  | error f => exact mirrors_pure rfl
  | ok _ =>
    refine (alike_runHooks point table columns hpick s).andThen ?_
    rintro ⟨_ | f | p, s⟩
    · exact hwrite s
    · exact mirrors_pure rfl
    · exact mirrors_pure rfl

theorem alike_insert (hD : ∀ i ∈ tc.interceptors, i.Writes D) (t : Table) (r : Record) :
    Alike D tc (·.insert t r) := by
  refine mirrors_afterHooks .beforeInsert t.name []
    (fun i hi => (hD i hi).beforeInsert tc.scope t.name) r fun r => ?_
  refine (Mirrors.ending_eq ?_).andThen ?_
  · exact (mirrors_ofExcept _).andThen fun q => alike_insertRow q t.generated
  · rintro (_ | _ | _) <;> exact mirrors_pure rfl

theorem alike_update (hD : ∀ i ∈ tc.interceptors, i.Writes D) (t : Table) (r : Record) :
    Alike D tc (·.update t r) := by
  refine mirrors_afterHooks .beforeUpdate t.name []
    (fun i hi => (hD i hi).beforeUpdate tc.scope t.name) r fun r => ?_
  refine (Mirrors.ending_eq ?_).andThen fun _ => mirrors_pure rfl
  exact (mirrors_ofExcept _).andThen fun q => alike_execute q

theorem alike_updateFrom (hD : ∀ i ∈ tc.interceptors, i.Writes D) (t : Table) :
    ∀ (rs : List Record) (written : Nat), Alike D tc (·.updateFrom t written rs)
  | [], _ => mirrors_pure rfl
  | r :: rest, written => by
    refine (alike_update hD t r).andThen ?_
    rintro ⟨n | f | p, r⟩
    · exact (alike_updateFrom hD t rest (written + n)).andThen fun _ => mirrors_pure rfl
    · exact mirrors_pure rfl
    · exact mirrors_pure rfl

theorem alike_noteUnconditioned (t : Table) (mutation : Mutation) (matcher : Matcher) :
    Alike D tc (·.noteUnconditioned t mutation matcher) := by
  unfold Alike noteUnconditioned
  split
  · exact mirrors_log rfl
  · exact mirrors_pure rfl

theorem alike_sendModifier (t : Table) (matcher : Matcher) (m : Modifier) :
    Alike D tc (·.sendModifier t matcher m) := by
  unfold Alike sendModifier
  split
  · exact mirrors_pure rfl
  · refine (alike_noteUnconditioned t .update matcher).andThen fun _ =>
      (mirrors_ofExcept _).andThen ?_
    rintro (_ | q)
    · exact mirrors_pure rfl
    · exact alike_execute q

theorem alike_modify (hD : ∀ i ∈ tc.interceptors, i.Writes D) (t : Table) (m : Modifier)
    (matcher : Matcher) : Alike D tc (·.modify t m matcher) := by
  refine Mirrors.andThen ?_ fun _ => mirrors_ofEnding (.refl _)
  refine mirrors_afterHooks .beforeModify t.name t.columns
    (fun i hi => (hD i hi).beforeModify tc.scope t.name t.columns) m fun m => ?_
  exact (alike_sendModifier t matcher m).ending_eq.andThen fun _ => mirrors_pure rfl

theorem alike_modifyByIds (hD : ∀ i ∈ tc.interceptors, i.Writes D) (t : Table) (m : Modifier)
    (ids : List Int64) : Alike D tc (·.modifyByIds t m ids) := by
  refine alike_check.andThen fun _ => ?_
  split
  · exact mirrors_pure rfl
  · exact alike_modify hD t m _

theorem alike_delete (t : Table) (matcher : Matcher) : Alike D tc (·.delete t matcher) :=
  alike_check.andThen fun _ => (alike_noteUnconditioned t .delete matcher).andThen fun _ =>
    (mirrors_ofExcept _).andThen fun q => alike_execute q

theorem alike_deleteByIds (t : Table) (ids : List Int64) : Alike D tc (·.deleteByIds t ids) := by
  refine alike_check.andThen fun _ => ?_
  split
  · exact mirrors_pure rfl
  · exact alike_delete t _

end Context
end TableAccess
