import TableAccess.Proofs.Sql.Requests
import TableAccess.Proofs.Sql.Silence
import TableAccess.Proofs.Work.Completion

/-!
No mutation without a condition.

Every statement that an update or a delete sends ends in the word `where` and the text of its
condition, which is not empty; `Context.Narrows` is the footprint that says so, whatever hooks make
of the records and the modifiers. What becomes of a mutation under a condition of predicates is
settled before anything is sent: `Context.Verdict` tells the cases apart by the predicates alone.
-/

namespace TableAccess

variable {σ ρ α : Type}

/-- Whether an operation changes rows under a condition. -/
def Operation.mutates : Operation σ ρ → Bool
  | .update .. | .updateList .. | .modifyById .. | .modifyByIds .. | .modify .. | .deleteById ..
  | .deleteByIds .. | .delete .. => true
  | _ => false

/-- The condition of the rows that an operation changes. The row of a record is known by the value
that the record has for it once the hooks have run. -/
def Operation.Targets : Operation σ ρ → Matcher → Prop
  | .update t _, m | .updateList t _, m => ∃ id, m = Matcher.equals t.idColumn id
  | .modifyById t _ id, m | .deleteById t id, m => m = Matcher.equals t.idColumn (.int id)
  | .modifyByIds t _ ids, m | .deleteByIds t ids, m => m = Matcher.among t.idColumn ids
  | .modify _ _ matcher, m | .delete _ matcher, m => m = matcher
  | _, _ => False

namespace Context

/-- What a mutation under one of some conditions adds to the trace: what no driver sees, and
statements on the context's connection that end in the word and the text of the condition. -/
inductive Narrows (tc : Context σ) (P : Matcher → Prop) : Event → Prop
  | quiet {e : Event} (h : e.isDriver = false) : tc.Narrows P e
  | statement {conn : Connection} {m : Matcher} {cond : Sql} {head : String} {args : List Value}
      {ok : Bool} (hc : tc.check = .ok conn) (hm : P m) (hb : m.build = .ok cond)
      (ht : cond.text ≠ "") :
    tc.Narrows P (.called conn (.execute (head ++ " where " ++ cond.text) args) ok)

end Context

/-! ### The statements -/

/-- The call of a statement that ends in the word and the text of one of some conditions. -/
def Call.EndsIn (P : Matcher → Prop) (call : Call) : Prop :=
  ∃ (m : Matcher) (cond : Sql) (head : String) (args : List Value), P m ∧ m.build = .ok cond ∧
    cond.text ≠ "" ∧ call = .execute (head ++ " where " ++ cond.text) args

namespace Statement

variable {P : Matcher → Prop} {t : Table} {s : Scope} {q : Sql}

/-- A statement that is put together from a head and a condition ends in the condition. -/
theorem endsIn_append {m : Matcher} {cond : Sql} (hm : P m) (hb : m.build = .ok cond)
    (ht : cond.text ≠ "") (head : Sql) (args : List Value) :
    Call.EndsIn P (.execute (head ++ Sql.mk (" where " ++ cond.text) cond.args).text args) := by
  refine ⟨m, cond, head.text, args, hm, hb, ht, ?_⟩
  rw [Sql.text_append, ← String.append_assoc]

/-- The condition of one row has a text. -/
theorem build_equals (column : String) (v : Value) :
    ∃ q, (Matcher.equals column v).build = .ok q ∧ q.text ≠ "" := by
  obtain ⟨q, hq, hvoid⟩ := Condition.exists_compile (c := (Matcher.equals column v).toCondition) []
    rfl rfl
  exact ⟨q, hq, mt hvoid.mp nofun⟩

theorem endsIn_update {r : Record} (hP : ∀ id, P (Matcher.equals t.idColumn id))
    (h : update t s r = .ok q) : Call.EndsIn P (.execute q.text q.args) := by
  obtain ⟨id, -, vs, -, cond, hcond, rfl⟩ := Request.of_update h
  obtain ⟨c, hc, ht⟩ := build_equals t.idColumn id
  rw [condition_of_build hc ht] at hcond
  cases hcond
  exact endsIn_append (hP id) hc ht _ _

theorem endsIn_modify {m : Modifier} {matcher : Matcher} (hP : P matcher)
    (h : modify t s m (some matcher) = .ok (some q)) : Call.EndsIn P (.execute q.text q.args) := by
  rw [modify] at h
  split at h
  · cases h
  · obtain ⟨cond, hcond, h⟩ := exists_of_bind_eq_ok h
    cases h
    obtain ⟨c, hc, ht, rfl⟩ := exists_of_required hcond
    exact endsIn_append hP hc ht _ _

theorem endsIn_delete {matcher : Matcher} (hP : P matcher)
    (h : delete t s (some matcher) = .ok q) : Call.EndsIn P (.execute q.text q.args) := by
  obtain ⟨cond, hcond, h⟩ := exists_of_bind_eq_ok h
  cases h
  obtain ⟨c, hc, ht, rfl⟩ := exists_of_required hcond
  exact endsIn_append hP hc ht _ _

end Statement

/-- Whatever is put together for a mutation ends in the condition of the rows that it is for. -/
theorem Operation.within_endsIn (s : Scope) {op : Operation σ ρ} (h : op.mutates = true) :
    op.Within s (Call.EndsIn op.Targets) := by
  cases op with
  | update t r => exact fun r q hq => Statement.endsIn_update (fun id => ⟨id, rfl⟩) hq
  | updateList t rs => exact fun r q hq => Statement.endsIn_update (fun id => ⟨id, rfl⟩) hq
  | modifyById t calls id => exact fun m q hq => Statement.endsIn_modify rfl hq
  | modifyByIds t calls ids => exact fun m q hq => Statement.endsIn_modify rfl hq
  | modify t calls matcher => exact fun m q hq => Statement.endsIn_modify rfl hq
  | deleteById t id => exact fun q hq => Statement.endsIn_delete rfl hq
  | deleteByIds t ids => exact fun q hq => Statement.endsIn_delete rfl hq
  | delete t matcher => exact fun q hq => Statement.endsIn_delete rfl hq
  | _ => cases h

namespace Context

variable {tc : Context σ} {P : Matcher → Prop}

/-- Statements that end in a condition narrow. -/
theorem Sends.narrows (e : Event) (h : tc.Sends (Call.EndsIn P) e) : tc.Narrows P e := by
  cases h with
  | quiet h => exact .quiet h
  | call hc ha =>
    obtain ⟨m, cond, head, args, hm, hb, ht, rfl⟩ := ha
    exact .statement hc hm hb ht

/-- Every statement of a mutation ends in the condition of the rows that it is for. -/
theorem narrows_run (tc : Context σ) {op : Operation σ ρ} (h : op.mutates = true) :
    (op.run tc).Emits (tc.Narrows op.Targets) := by
  have hcompletes : op.completes = false := by
    cases op with
    | complete | completeWithPanic => cases h
    | _ => rfl
  exact (op.emits_run hcompletes (op.within_endsIn tc.scope h)).mono Sends.narrows

/-! ### The verdict -/

/-- A mutation that fails before any pool or connection has seen anything of it. -/
def Refused (f : Failure) (w : World σ) (r : Ending α × World σ) : Prop :=
  r.1 = .error f ∧ ∃ es, w.Adds es r.2 ∧ driverEvents es = []

/-- A mutation of which the connection sees one statement, and that answers what became of it. -/
def SentOnce (conn : Connection) (q : Sql) (outcome : Except Failure Nat) (w : World σ)
    (r : Ending Nat × World σ) : Prop :=
  r.1 = .ofExcept outcome ∧ ∃ es, w.Adds es r.2 ∧
    driverEvents es = [.called conn (.execute q.text q.args) (Run.succeeded outcome)]

/-- What becomes of a mutation under a condition. `head` is its statement up to the condition, and
`answer` what the database answers to a statement. -/
inductive Verdict (mutation : Mutation) (m : Matcher) (conn : Connection) (head : Sql)
    (answer : Sql → Except Failure Nat) (w : World σ) (r : Ending Nat × World σ) : Prop
  | refused {column : String} (h : m.toCondition.emptyAmong? = some column)
    (hr : Refused (.noParamValues column) w r)
  | unconditioned (h : m.toCondition.emptyAmong? = none) (hv : m.toCondition.isVoid = true)
    (hr : Refused (.missingCondition mutation) w r)
  | sent (h : m.toCondition.emptyAmong? = none) (hv : m.toCondition.isVoid = false) {cond : Sql}
    (hb : m.build = .ok cond) (ht : cond.text ≠ "")
    (hr : SentOnce conn (head ++ Sql.raw " where " ++ cond)
      (answer (head ++ Sql.raw " where " ++ cond)) w r)

variable {conn : Connection} {b : Backend σ} {w w₁ : World σ}

theorem Refused.after {f : Failure} {es : List Event} {r : Ending α × World σ}
    (h : Refused f w₁ r) (hes : w.Adds es w₁) (hd : driverEvents es = []) : Refused f w r := by
  obtain ⟨hend, fs, hfs, hd'⟩ := h
  exact ⟨hend, es ++ fs, hes.trans hfs, by rw [driverEvents_append, hd, hd']; rfl⟩

theorem SentOnce.after {q : Sql} {outcome : Except Failure Nat} {es : List Event}
    {r : Ending Nat × World σ} (h : SentOnce conn q outcome w₁ r) (hes : w.Adds es w₁)
    (hd : driverEvents es = []) : SentOnce conn q outcome w r := by
  obtain ⟨hend, fs, hfs, hd'⟩ := h
  exact ⟨hend, es ++ fs, hes.trans hfs, by rw [driverEvents_append, hd, hd']; rfl⟩

/-- What no driver sees may come before. -/
theorem Verdict.after {mutation : Mutation} {m : Matcher} {head : Sql}
    {answer : Sql → Except Failure Nat} {es : List Event} {r : Ending Nat × World σ}
    (h : Verdict mutation m conn head answer w₁ r) (hes : w.Adds es w₁)
    (hd : driverEvents es = []) : Verdict mutation m conn head answer w r := by
  cases h with
  | refused h hr => exact .refused h (hr.after hes hd)
  | unconditioned h hv hr => exact .unconditioned h hv (hr.after hes hd)
  | sent h hv hb ht hr => exact .sent h hv hb ht (hr.after hes hd)

/-- Sending a statement is one call. -/
theorem execute_sent (h : tc.check = .ok conn) (q : Sql) (b : Backend σ) (w : World σ) :
    ∃ es, tc.execute q b w = (.ofExcept (b.execute conn q.text q.args w.env).1,
        ⟨(b.execute conn q.text q.args w.env).2, w.trace ++ es, w.granted⟩) ∧
      ∀ p : Event → Bool, (∀ r, p (.logged r) = false) → es.filter p =
        [.called conn (.execute q.text q.args)
          (Run.succeeded (b.execute conn q.text q.args w.env).1)].filter p := by
  simp only [execute, h, Run.bind_apply, Run.ofExcept_ok_apply]
  exact tc.traced_run q.text q.args fun _ => rfl

/-- The answer to a statement is what became of the call. -/
theorem execute_run (h : tc.check = .ok conn) (q : Sql) (b : Backend σ) (w : World σ) :
    SentOnce conn q (b.execute conn q.text q.args w.env).1 w (tc.execute q b w) := by
  obtain ⟨es, hrun, hes⟩ := execute_sent h q b w
  rw [hrun]
  exact ⟨rfl, es, ⟨rfl, rfl⟩, hes Event.isDriver fun _ => rfl⟩

/-- Noting that there is no condition leaves everything but the log alone. -/
theorem noteUnconditioned_run (tc : Context σ) (t : Table) (mutation : Mutation) (m : Matcher)
    (b : Backend σ) (w : World σ) :
    ∃ es w', tc.noteUnconditioned t mutation m b w = (.ok (), w') ∧ w.Adds es w' ∧
      w'.env = w.env ∧ ∀ p : Event → Bool, (∀ r, p (.logged r) = false) → es.filter p = [] := by
  unfold noteUnconditioned
  split
  · refine ⟨[.logged (.unconditioned tc.traceId t.name mutation)], _, rfl, ⟨rfl, rfl⟩, rfl,
      fun p hp => ?_⟩
    simp [hp]
  · exact ⟨[], w, rfl, .refl w, rfl, fun _ _ => rfl⟩

/-- A condition of predicates that a mutation requires: the cases, and that there are no others. -/
theorem required_cases (mutation : Mutation) {m : Matcher} (hm : m.toCondition.isBuiltIn = true) :
    (∃ column, m.toCondition.emptyAmong? = some column ∧
      Statement.required mutation (some m) = .error (.noParamValues column)) ∨
    (m.toCondition.emptyAmong? = none ∧ m.toCondition.isVoid = true ∧
      Statement.required mutation (some m) = .error (.missingCondition mutation)) ∨
    (m.toCondition.emptyAmong? = none ∧ m.toCondition.isVoid = false ∧
      ∃ cond, m.build = .ok cond ∧ cond.text ≠ "" ∧
        Statement.required mutation (some m) = .ok (Sql.raw " where " ++ cond)) := by
  cases h : m.toCondition.emptyAmong? with
  | some column =>
    refine .inl ⟨column, rfl, Statement.required_of_error mutation ?_⟩
    exact Condition.compile_error [] hm h
  | none =>
    obtain ⟨cond, hb, hvoid⟩ := Condition.exists_compile [] hm h
    by_cases ht : cond.text = ""
    · exact .inr (.inl ⟨rfl, hvoid.mp ht, Statement.required_of_empty mutation hb ht⟩)
    · exact .inr (.inr ⟨rfl, Bool.eq_false_iff.mpr (mt hvoid.mpr ht), cond, hb, ht,
        Statement.required_of_build mutation hb ht⟩)

/-- Puts the statement of a mutation together from the condition that it requires and sends it. -/
def sendRequired (tc : Context σ) (t : Table) (mutation : Mutation) (m : Matcher) (head : Sql) :
    Run σ Nat := do
  tc.noteUnconditioned t mutation m
  let cond ← Run.ofExcept (Statement.required mutation (some m))
  tc.execute (head ++ cond)

theorem sendRequired_verdict (h : tc.check = .ok conn) (t : Table) (mutation : Mutation)
    {m : Matcher} (hm : m.toCondition.isBuiltIn = true) (head : Sql) (b : Backend σ)
    (w : World σ) :
    Verdict mutation m conn head (fun q => (b.execute conn q.text q.args w.env).1) w
      (tc.sendRequired t mutation m head b w) := by
  obtain ⟨es, w₁, hnote, hes, henv, hquiet⟩ := noteUnconditioned_run tc t mutation m b w
  rw [← henv]
  refine Verdict.after ?_ hes (hquiet Event.isDriver fun _ => rfl)
  simp only [sendRequired, Run.bind_apply, hnote]
  obtain ⟨column, hempty, hr⟩ | ⟨hempty, hvoid, hr⟩ | ⟨hempty, hvoid, cond, hb, ht, hr⟩ :=
    required_cases mutation hm
  · rw [hr]
    exact .refused hempty ⟨rfl, [], .refl w₁, rfl⟩
  · rw [hr]
    exact .unconditioned hempty hvoid ⟨rfl, [], .refl w₁, rfl⟩
  · rw [hr]
    refine .sent hempty hvoid hb ht ?_
    rw [Sql.append_assoc]
    exact execute_run h _ b w₁

theorem delete_eq (h : tc.check = .ok conn) (t : Table) (m : Matcher) :
    tc.delete t m = tc.sendRequired t .delete m
      (Sql.raw ("delete from " ++ Statement.tableName t tc.scope)) := by
  unfold delete sendRequired Statement.delete
  rw [h]
  cases Statement.required .delete (some m) <;> rfl

theorem sendModifier_eq (t : Table) (matcher : Matcher) {m : Modifier} (hm : m.isEmpty = false) :
    tc.sendModifier t matcher m = tc.sendRequired t .update matcher
      (Sql.raw ("update " ++ Statement.tableName t tc.scope ++ " ") ++ m.compile) := by
  unfold sendModifier sendRequired Statement.modify
  rw [hm]
  cases Statement.required .update (some matcher) <;> rfl

/-- Once the hooks have run, what is left of a modifier's update is to send it. -/
theorem modify_run (h : tc.check = .ok conn) {t : Table} {m m' : Modifier} {matcher : Matcher}
    (hhooks : tc.runHooks .beforeModify t.name t.columns
      (fun i => i.beforeModify tc.scope t.name t.columns) m b w = (.ok (.ok (), m'), w₁)) :
    tc.modify t m matcher b w = tc.sendModifier t matcher m' b w₁ := by
  simp only [modify, afterHooks, h, Run.bind_apply, hhooks, Run.ending_apply, Run.pure_apply,
    Run.ofEnding_apply]

/-- Every statement of a mutation ends in a condition that has a text. A delete, and an update by a
modifier that still assigns something after the hooks, is refused for the leftmost membership in an
empty list, or else refused if no predicate says anything, or else sends its one statement; nothing
reaches the connection if it is refused. -/
theorem mutation_conditioned (h : tc.check = .ok conn) :
    (∀ op : Operation σ ρ, op.mutates = true → (op.run tc).Emits (tc.Narrows op.Targets)) ∧
    (∀ (t : Table) (m : Matcher) (b : Backend σ) (w : World σ), m.toCondition.isBuiltIn = true →
      Verdict .delete m conn (Sql.raw ("delete from " ++ Statement.tableName t tc.scope))
        (fun q => (b.execute conn q.text q.args w.env).1) w (tc.delete t m b w)) ∧
    (∀ (t : Table) (m m' : Modifier) (matcher : Matcher) (b : Backend σ) (w w₁ : World σ),
      matcher.toCondition.isBuiltIn = true →
      tc.runHooks .beforeModify t.name t.columns
        (fun i => i.beforeModify tc.scope t.name t.columns) m b w = (.ok (.ok (), m'), w₁) →
      m'.isEmpty = false →
      Verdict .update matcher conn
        (Sql.raw ("update " ++ Statement.tableName t tc.scope ++ " ") ++ m'.compile)
        (fun q => (b.execute conn q.text q.args w₁.env).1) w (tc.modify t m matcher b w)) := by
  refine ⟨fun op hop => narrows_run tc hop, ?_, ?_⟩
  · intro t m b w hm
    rw [delete_eq h]
    exact sendRequired_verdict h t .delete hm _ b w
  · intro t m m' matcher b w w₁ hm hhooks hne
    have hquiet : (tc.runHooks .beforeModify t.name t.columns
        (fun i => i.beforeModify tc.scope t.name t.columns) m).Emits
          (fun e => e.isDriver = false) :=
      emits_runHooks (fun _ he => he) _ _ _ _ _
    obtain ⟨es, hes, hd⟩ := hquiet b w
    rw [hhooks] at hes
    rw [modify_run h hhooks, sendModifier_eq t matcher hne]
    refine (sendRequired_verdict h t .update hm _ b w₁).after hes ?_
    exact List.filter_eq_nil_iff.mpr fun e he => by simp [hd e he]

/-- A delete whose condition has a void leaf, a hollow group and, deeper, a membership in an empty
list is refused for that membership, and one whose condition has only the first two is refused for
having no condition. -/
theorem mutation_conditioned_hollow :
    let t : Table := ⟨"t_log", ["id"], some "id", [], none⟩
    let hollow : List Condition :=
      [.leaf (.like "a" "" 0), .group .or [.leaf (.between "b" none none)]]
    let refused : Matcher := ⟨.or, hollow ++ [.group .and [.leaf (.among "c" [] true)]]⟩
    writingFirst.check = .ok ⟨0, 0⟩ ∧
      Refused (.noParamValues "c") stuckWorld
        (writingFirst.delete t refused Scripted.backend stuckWorld) ∧
      Refused (.missingCondition .delete) stuckWorld
        (writingFirst.delete t ⟨.and, hollow⟩ Scripted.backend stuckWorld) := by
  intro t hollow refused
  have hopen : writingFirst.check = .ok ⟨0, 0⟩ := rfl
  have hdelete := (mutation_conditioned (ρ := Unit) hopen).2.1 t
  refine ⟨hopen, ?_, ?_⟩
  · cases hdelete refused Scripted.backend stuckWorld rfl with
    | refused h hr =>
      cases h
      exact hr
    | unconditioned h => cases h
    | sent h => cases h
  · cases hdelete ⟨.and, hollow⟩ Scripted.backend stuckWorld rfl with
    | refused h => cases h
    | unconditioned _ _ hr => exact hr
    | sent _ hv => cases hv

end Context

end TableAccess
