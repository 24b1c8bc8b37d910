import TableAccess.Proofs.Sql.Assigning
import TableAccess.Proofs.Work.Gates

/-!
Stamped columns.

The hook of a stamp assigns a column as the caller could have done, after all that the caller did. So
what a chain of stamps makes of a modifier is what the caller's assignments build together with those of
the stamps, `Table.stamps`, and the account of a sequence of assignments says where the stamped columns
are and how they are assigned: that is `Modifier.Stamped`.
-/

namespace TableAccess

variable {σ : Type}

open Hook (Relay Screened)

/-! ### Stamps as assignments -/

namespace Table

variable {t : Table} {s : Scope} {names : List String} {name : String} {v : Value} {a : Assignment}

/-- The value that a stamp has for the column of its name: that of the scope, if the table declares the
column. -/
def mark? (t : Table) (s : Scope) (name : String) : Option Value :=
  if name ∈ t.columns then s.value? name else none

/-- The assignments that stamps make. -/
def stamps (t : Table) (s : Scope) (names : List String) : List Assignment :=
  names.filterMap fun name => (t.mark? s name).map fun v => ⟨name, .set, v⟩

theorem mem_stamps : a ∈ t.stamps s names ↔
    ∃ name ∈ names, ∃ v, t.mark? s name = some v ∧ ⟨name, .set, v⟩ = a := by
  simp [stamps, List.mem_filterMap, Option.map_eq_some_iff]

theorem columns_stamps (t : Table) (s : Scope) : ∀ names : List String,
    (t.stamps s names).map Assignment.column = names.filter fun name => (t.mark? s name).isSome
  | [] => rfl
  | name :: names => by
    have hrest := columns_stamps t s names
    unfold stamps at hrest ⊢
    cases hv : t.mark? s name <;> simp [hv, hrest]

/-- However often a column is stamped, it is always the same assignment. -/
theorem latest?_stamps (hn : name ∈ names) (hv : t.mark? s name = some v) :
    Modifier.latest? (t.stamps s names) name = some ⟨name, .set, v⟩ := by
  obtain ⟨a, ha⟩ := Modifier.exists_latest? (mem_stamps.mpr ⟨name, hn, v, hv, rfl⟩)
  obtain ⟨hmem, hcolumn⟩ := Modifier.mem_of_latest? ha
  obtain ⟨_, -, v', hv', rfl⟩ := mem_stamps.mp hmem
  cases hcolumn
  rw [hv] at hv'
  cases hv'
  exact ha

end Table

/-! ### What stamps make of a modifier -/

namespace Modifier

/-- A modifier before and after stamps: every column that a stamp has a value for is set to that once, all
else is assigned as before and in the same order, and the columns that were not assigned before come at
the end, in the order of the stamps. -/
structure Stamped (t : Table) (s : Scope) (names : List String) (m m' : Modifier) : Prop where
  once : ∀ name ∈ names, ∀ v, t.mark? s name = some v →
    m'.assignments.filter (fun a => a.column = name) = [⟨name, .set, v⟩]
  others : m'.assignments.filter (fun a => a.column ∉ names ∨ t.mark? s a.column = none) =
    m.assignments.filter (fun a => a.column ∉ names ∨ t.mark? s a.column = none)
  places : m'.columns = m.columns ++
    (names.filter fun name => (t.mark? s name).isSome ∧ name ∉ m.columns).eraseDups

theorem filter_foldl_put {p : String → Bool} : ∀ (calls : List Assignment) (m : Modifier),
    (∀ a ∈ calls, p a.column = false) → (calls.foldl put m).assignments.filter (fun b => p b.column) =
      m.assignments.filter fun b => p b.column
  | [], _, _ => rfl
  | a :: calls, m, h => by
    rw [List.foldl_cons, filter_foldl_put calls _ fun b hb => h b (List.mem_cons_of_mem _ hb)]
    exact filter_putInto (h a (List.mem_cons_self ..)) m.assignments

theorem stamped_ofList (t : Table) (s : Scope) (names : List String) (calls : List Assignment) :
    Stamped t s names (ofList calls) (ofList (calls ++ t.stamps s names)) where
  once name hn v hv := by
    rw [filter_column (nodup_ofList _), get?_ofList, latest?_append, Table.latest?_stamps hn hv]
    rfl
  others := by
    rw [ofList_append]
    let p := fun column => decide (column ∉ names ∨ t.mark? s column = none)
    refine filter_foldl_put (p := p) _ _ fun a ha => ?_
    obtain ⟨name, hn, v, hv, rfl⟩ := Table.mem_stamps.mp ha
    simp [p, hn, hv]
  places := by
    rw [columns_ofList, columns_ofList, firsts_append, Table.columns_stamps, List.removeAll,
      List.filter_filter]
    -- a column is new if no call of the caller was for it
    have hnew : ∀ name ∈ names,
        (!(calls.map Assignment.column).elem name && (t.mark? s name).isSome) =
          decide ((t.mark? s name).isSome ∧ name ∉ firsts calls) := by
      intro name _
      simp only [mem_firsts, Bool.decide_and, Bool.decide_eq_true, decide_not, List.elem_eq_mem,
        Bool.and_comm]
    rw [List.filter_congr hnew]

end Modifier

/-! ### The hooks of stamps -/

namespace Interceptor

variable {t : Table} {s : Scope} {name : String}

/-- A stamp that has no value for a column of the table does nothing. -/
theorem beforeModify_pass (h : t.mark? s name = none) :
    (stamp name : Interceptor σ).beforeModify s t.name t.columns = Hook.pass := by
  unfold Table.mark? at h
  funext m env
  simp only [stamp, stampModifier]
  split
  · next v hv =>
    rw [hv] at h
    split at h
    · cases h
    · next hname => simp [hname]
  · rfl

/-- A stamp that has a value makes one more assignment. -/
theorem beforeModify_put {v : Value} (h : t.mark? s name = some v) (m : Modifier) (env : σ) :
    (stamp name).beforeModify s t.name t.columns m env =
      ⟨.ok (), m.put ⟨name, .set, v⟩, env, m.replacement name⟩ := by
  unfold Table.mark? at h
  split at h
  · next hname => simp [stamp, stampModifier, h, hname]
  · cases h

/-- Stamps all end well, and make their assignments one after the other. -/
theorem stamps_relay (t : Table) (s : Scope) (env : σ) : ∀ (names : List String) (m : Modifier),
    Relay m env (names.map fun name => (stamp name).beforeModify s t.name t.columns)
      ((t.stamps s names).foldl Modifier.put m) env := by
  intro names
  induction names with
  | nil => exact fun m => .done m env
  | cons name names ih =>
    intro m
    cases hv : t.mark? s name with
    | none =>
      have hpass := beforeModify_pass (σ := σ) hv
      have hstamps : t.stamps s (name :: names) = t.stamps s names := by simp [Table.stamps, hv]
      rw [List.map_cons, hpass, hstamps]
      exact .next rfl (ih m)
    | some v =>
      have hput := beforeModify_put hv m env
      have hstamps : t.stamps s (name :: names) = ⟨name, .set, v⟩ :: t.stamps s names := by
        simp [Table.stamps, hv]
      rw [List.map_cons, hstamps, List.foldl_cons]
      refine .next (by rw [hput]) ?_
      rw [hput]
      exact ih _

end Interceptor

/-! ### The statement -/

/-- The statement of a modifier, written out. -/
theorem Statement.modify_eq_some {t : Table} {s : Scope} {m : Modifier} {matcher : Option Matcher}
    {q : Sql} (h : modify t s m matcher = .ok (some q)) :
    ∃ cond, required .update matcher = .ok cond ∧
      q = ⟨"update " ++ tableName t s ++ " set " ++
        ",".intercalate (m.assignments.map Assignment.text) ++ cond.text,
        m.assignments.map Assignment.value ++ cond.args⟩ := by
  unfold modify at h
  cases hm : m.isEmpty with
  | true => simp [hm] at h
  | false =>
    rw [hm, if_neg Bool.false_ne_true] at h
    obtain ⟨cond, hcond, h⟩ := exists_of_bind_eq_ok h
    cases h
    refine ⟨cond, hcond, ?_⟩
    rw [Modifier.compile_eq hm]
    have htext : ∀ head tail : String, head ++ " " ++ ("set " ++ tail) = head ++ " set " ++ tail := by
      intro head tail
      simp only [String.append_assoc]
      rfl
    exact congrArg (Sql.mk · _) (congrArg (· ++ cond.text) (htext _ _))

namespace Context

variable {tc : Context σ} {conn : Connection} {names : List String}

/-- Hooks that are all stamps make of the caller's assignments what these and their own build, and no
driver sees them. -/
theorem runHooks_stamps (hi : tc.interceptors = names.map Interceptor.stamp) (t : Table)
    (calls : List Assignment) (b : Backend σ) (w : World σ) :
    ∃ announced w', tc.runHooks .beforeModify t.name t.columns
        (fun i => i.beforeModify tc.scope t.name t.columns) (Modifier.ofList calls) b w =
          (.ok (.ok (), Modifier.ofList (calls ++ t.stamps tc.scope names)), w') ∧
      w'.env = w.env ∧ w.Shows [] announced w' := by
  have hrelay := Interceptor.stamps_relay t tc.scope w.env names (Modifier.ofList calls)
  rw [← Modifier.ofList_append] at hrelay
  obtain ⟨w', hrun, henv, -, hshown⟩ :=
    (Screened.passed hrelay).run .beforeModify t.name t.columns b w rfl
  refine ⟨_, w', ?_, henv, hshown⟩
  rw [runHooks, hi, List.map_map]
  exact hrun

/-- Behind stamps a modifier is updated as they leave it. What the connection sees is no more than one
statement, in which every column that a stamp has a value for is set to that once, whatever the caller
assigned to it, and all other assignments are the caller's. A stamp without a value changes nothing. -/
theorem modify_stamped (h : tc.check = .ok conn)
    (hi : tc.interceptors = names.map Interceptor.stamp) (t : Table) (calls : List Assignment)
    (matcher : Matcher) (b : Backend σ) (w : World σ) :
    (∃ m v w' sent announced, Modifier.Stamped t tc.scope names (Modifier.ofList calls) m ∧
      tc.modify t (Modifier.ofList calls) matcher b w = (v.map (·.getD 0), w') ∧
      (Write.modify t tc.scope matcher).Sent b conn m w.env v sent ∧ w.Shows sent announced w' ∧
      ∀ e ∈ sent, ∃ cond ok, Statement.required .update (some matcher) = .ok cond ∧
        e = .called conn (.execute
          ("update " ++ Statement.tableName t tc.scope ++ " set " ++
            ",".intercalate (m.assignments.map Assignment.text) ++ cond.text)
          (m.assignments.map Assignment.value ++ cond.args)) ok) ∧
    ∀ name, t.mark? tc.scope name = none →
      (Interceptor.stamp name : Interceptor σ).beforeModify tc.scope t.name t.columns =
        Hook.pass := by
  refine ⟨?_, fun name hname => Interceptor.beforeModify_pass hname⟩
  obtain ⟨announced, w₁, hhooks, henv, hshown⟩ := runHooks_stamps hi t calls b w
  obtain ⟨v, w', sent, hrun, hsent, hrest⟩ :=
    sendModifier_sent h t matcher b (Modifier.ofList (calls ++ t.stamps tc.scope names)) w₁
  rw [henv] at hsent
  refine ⟨_, v, w', sent, _, Modifier.stamped_ofList t tc.scope names calls, ?_, hsent,
    hshown.trans hrest, ?_⟩
  · rw [modify_run h hhooks, hrun]
  · intro e he
    cases hsent with
    | unplanned | idle => cases he
    | sent plan answer =>
      obtain ⟨cond, hcond, rfl⟩ := Statement.modify_eq_some plan
      exact ⟨cond, _, hcond, List.mem_singleton.mp he⟩

/-- Stamps of an operator, of a name that is no column, of a tenant and of the operator once more, and
a caller that assigned the tenant itself: the tenant stays where the caller put it, and the operator
comes at the end, once. -/
theorem modify_stamped_tenant :
    let names := ["op", "ghost", "tenant", "op"]
    let tc : Context (Scripted Unit) :=
      { writingFirst with
        scope := { traceId := "", values := [("tenant", .int 7), ("op", .int 9), ("ghost", .int 1)] }
        interceptors := names.map Interceptor.stamp }
    let t : Table := ⟨"t_log", ["id", "n", "tenant", "op"], some "id", [], none⟩
    let calls : List Assignment := [⟨"tenant", .add, .int 5⟩, ⟨"n", .subtract, .int 2⟩]
    let matcher := Matcher.equals "id" (.int 1)
    tc.check = .ok ⟨0, 0⟩ ∧
      tc.interceptors = names.map Interceptor.stamp ∧
      ∃ m e w', Modifier.Stamped t tc.scope names (Modifier.ofList calls) m ∧
        tc.modify t (Modifier.ofList calls) matcher Scripted.backend stuckWorld = (e, w') ∧
        driverEvents w'.trace = [.called ⟨0, 0⟩ (.execute
          "update t_log set tenant=?,n=n-?,op=? where id = ?"
          [.int 7, .int 2, .int 9, .int 1]) true] := by
  intro names tc t calls matcher
  have hopen : tc.check = .ok ⟨0, 0⟩ := rfl
  have hstamps : tc.interceptors = names.map Interceptor.stamp := rfl
  obtain ⟨m, v, w', sent, announced, hstamped, hrun, -⟩ :=
    (modify_stamped hopen hstamps t calls matcher Scripted.backend stuckWorld).1
  have hsent : driverEvents
      (tc.modify t (Modifier.ofList calls) matcher Scripted.backend stuckWorld).2.trace =
    [.called ⟨0, 0⟩ (.execute "update t_log set tenant=?,n=n-?,op=? where id = ?"
      [.int 7, .int 2, .int 9, .int 1]) true] := by decide
  rw [hrun] at hsent
  exact ⟨hopen, hstamps, m, _, w', hstamped, hrun, hsent⟩

end Context

end TableAccess
