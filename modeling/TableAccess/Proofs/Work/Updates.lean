import Mathlib.Algebra.GroupWithZero.Nat
import TableAccess.Proofs.Work.Mutations

/-!
Lists of records written back, up to the first that fails.

`Context.Attempt` lists the ways that writing one record back can go: the hooks do not end well, a
field is missing, or the one statement goes out and the database answers. Each update of a list
starts in the world that the one before left behind, and `Context.Account` says what has become of
the list when it is over: how many rows were written, which records were changed, and what the
connection has seen.
-/

namespace TableAccess

variable {σ : Type}

/-! ### One record -/

/-- Why a record cannot be written back: the first field that it lacks. -/
inductive Table.Lacks (t : Table) (r : Record) : Failure → Prop
  | row (h : r.get? t.idColumn = none) : t.Lacks r (.validation (.noIdField t.name t.idColumn))
  | column {c : String} (hid : r.get? t.idColumn ≠ none)
      (h : t.writable.find? (fun c => (r.get? c).isNone) = some c) :
    t.Lacks r (.validation (.unmapped c))

/-- Values are missing for the first column without a field. -/
theorem Table.extract_error {r : Record} {f : Failure} : ∀ {columns : List String},
    Table.extract r columns = .error f →
      ∃ c, columns.find? (fun c => (r.get? c).isNone) = some c ∧ f = .validation (.unmapped c)
  | [], h => nomatch h
  | c :: cs, h => by
    cases hc : r.get? c with
    | none =>
      rw [extract, fieldOf, hc] at h
      cases h
      exact ⟨c, by simp [hc], rfl⟩
    | some v =>
      rw [extract, fieldOf, hc] at h
      have hcs : extract r cs = .error f := by
        cases hcs : extract r cs with
        | ok vs => rw [hcs] at h; cases h
        | error g => rw [hcs] at h; cases h; rfl
      obtain ⟨d, hd, hf⟩ := extract_error hcs
      exact ⟨d, by simp [hc, hd], hf⟩

/-- Only a missing field keeps the statement of a record from being put together. -/
theorem Statement.update_error {t : Table} {s : Scope} {r : Record} {f : Failure}
    (h : update t s r = .error f) : t.Lacks r f := by
  unfold update at h
  cases hid : r.get? t.idColumn with
  | none =>
    rw [hid] at h
    cases h
    exact .row hid
  | some id =>
    cases hvalues : t.values r true with
    | error g =>
      rw [hid, hvalues] at h
      cases h
      obtain ⟨c, hc, rfl⟩ := Table.extract_error hvalues
      exact .column (by simp [hid]) hc
    | ok vs =>
      -- the condition of one row can always be put together
      rw [hid, hvalues] at h
      cases h

namespace Context

/-- Runs the hooks that a record goes through before it is written back. -/
def beforeUpdate (tc : Context σ) (t : Table) (r : Record) : Run σ (Ending Unit × Record) :=
  tc.runHooks .beforeUpdate t.name [] (fun i => i.beforeUpdate tc.scope t.name) r

variable (tc : Context σ) (conn : Connection) (t : Table) (b : Backend σ)

/-- How writing a record back goes: how it ends, what the hooks made of the record, and the
statements that the connection sees. -/
inductive Attempt (w : World σ) (r : Record) : Ending Nat → Record → List Event → Prop
  | refused {f : Failure} {r' : Record} {w₁ : World σ}
      (hooks : tc.beforeUpdate t r b w = (.ok (.error f, r'), w₁)) : Attempt w r (.error f) r' []
  | panicked {p : String} {r' : Record} {w₁ : World σ}
      (hooks : tc.beforeUpdate t r b w = (.ok (.panic p, r'), w₁)) : Attempt w r (.panic p) r' []
  | incomplete {f : Failure} {r' : Record} {w₁ : World σ}
      (hooks : tc.beforeUpdate t r b w = (.ok (.ok (), r'), w₁)) (lacks : t.Lacks r' f) :
    Attempt w r (.error f) r' []
  | sent {r' : Record} {w₁ : World σ} {q : Sql} {outcome : Except Failure Nat}
      (hooks : tc.beforeUpdate t r b w = (.ok (.ok (), r'), w₁))
      (statement : Statement.update t tc.scope r' = .ok q)
      (answer : outcome = (b.execute conn q.text q.args w₁.env).1) :
    Attempt w r (.ofExcept outcome) r'
      [.called conn (.execute q.text q.args) (Run.succeeded outcome)]

/-- A record written back: the attempt, and what it leaves behind. -/
structure Updated (w : World σ) (r : Record) (e : Ending Nat) (r' : Record) (w' : World σ)
    (sent : List Event) : Prop where
  run : tc.update t r b w = (.ok (e, r'), w')
  sends : driverEvents w'.trace = driverEvents w.trace ++ sent
  attempt : tc.Attempt conn t b w r e r' sent

/-- Records written back one after the other, all of them well: how many rows each one wrote, the
records as they are then, and the statements that the connection has seen. -/
inductive Each : World σ → List Record → List Nat → List Record → World σ → List Event → Prop
  | nil (w : World σ) : Each w [] [] [] w []
  | cons {w w₁ w' : World σ} {r r' : Record} {n : Nat} {first : List Event} {rs rs' : List Record}
      {ns : List Nat} {rest : List Event} (head : tc.Updated conn t b w r (.ok n) r' w₁ first)
      (tail : Each w₁ rs ns rs' w' rest) :
    Each w (r :: rs) (n :: ns) (r' :: rs') w' (first ++ rest)

/-- What has become of a list of records when writing them back is over: what is answered, the
records, and the statements that the connection has seen. If one of them does not go well, those
before it are counted and those after it are as they were. -/
inductive Account (w : World σ) : List Record → Ending Nat → List Record → World σ → List Event → Prop
  | finished {rs rs' : List Record} {ns : List Nat} {w' : World σ} {sent : List Event}
      (all : tc.Each conn t b w rs ns rs' w' sent) : Account w rs (.ok ns.sum) rs' w' sent
  | kept {before before' after : List Record} {r r' : Record} {ns : List Nat} {w₁ w' : World σ}
      {sent last : List Event} {f : Failure} (style : tc.style = .none)
      (written : tc.Each conn t b w before ns before' w₁ sent)
      (failed : tc.Updated conn t b w₁ r (.error f) r' w' last) :
    Account w (before ++ r :: after) (.error (.partialUpdate ns.sum f)) (before' ++ r' :: after) w'
      (sent ++ last)
  | undone {before before' after : List Record} {r r' : Record} {ns : List Nat} {w₁ w' : World σ}
      {sent last : List Event} {f : Failure} (style : tc.style = .readOnly ∨ tc.style = .write)
      (written : tc.Each conn t b w before ns before' w₁ sent)
      (failed : tc.Updated conn t b w₁ r (.error f) r' w' last) :
    Account w (before ++ r :: after) (.error f) (before' ++ r' :: after) w' (sent ++ last)
  | panicked {before before' after : List Record} {r r' : Record} {ns : List Nat} {w₁ w' : World σ}
      {sent last : List Event} {p : String}
      (written : tc.Each conn t b w before ns before' w₁ sent)
      (stopped : tc.Updated conn t b w₁ r (.panic p) r' w' last) :
    Account w (before ++ r :: after) (.panic p) (before' ++ r' :: after) w' (sent ++ last)

variable {tc : Context σ} {conn : Connection} {t : Table} {b : Backend σ} {w w₁ w' : World σ}

/-- Once the hooks have run, the statement is put together and sent. -/
theorem update_run (h : tc.check = .ok conn) {r r' : Record}
    (hooks : tc.beforeUpdate t r b w = (.ok (.ok (), r'), w₁)) :
    tc.update t r b w =
      match Statement.update t tc.scope r' with
      | .error f => (.ok (.error f, r'), w₁)
      | .ok q => (.ok ((tc.execute q b w₁).1, r'), (tc.execute q b w₁).2) := by
  rw [beforeUpdate] at hooks
  cases hs : Statement.update t tc.scope r' <;>
    simp [update, afterHooks, h, hooks, hs]

/-- The hooks come to an end that is given back, and the connection sees nothing of them. -/
theorem beforeUpdate_run (tc : Context σ) (t : Table) (r : Record) (b : Backend σ) (w : World σ) :
    ∃ e r' w₁, tc.beforeUpdate t r b w = (.ok (e, r'), w₁) ∧
      driverEvents w₁.trace = driverEvents w.trace := by
  have hreturns : (tc.beforeUpdate t r).Returns := Run.returns_hooks _ _ _ _
  have hquiet : (tc.beforeUpdate t r).Emits (fun e => e.isDriver = false) :=
    emits_runHooks (fun _ he => he) _ _ _ _ _
  obtain ⟨⟨e, r'⟩, hrun⟩ := hreturns.run_eq b w
  obtain ⟨es, hes, hd⟩ := hquiet b w
  refine ⟨e, r', _, hrun, ?_⟩
  rw [hes.trace, driverEvents_append, driverEvents_eq_nil hd, List.append_nil]

/-- Writing a record back goes one of the ways of an attempt. -/
theorem exists_updated (h : tc.check = .ok conn) (t : Table) (b : Backend σ) (w : World σ)
    (r : Record) : ∃ e r' w' sent, tc.Updated conn t b w r e r' w' sent := by
  obtain ⟨e, r', w₁, hooks, hseen⟩ := beforeUpdate_run tc t r b w
  cases e with
  | error f =>
    have hrun : tc.update t r b w = (.ok (.error f, r'), w₁) := by
      rw [beforeUpdate] at hooks
      simp [update, afterHooks, h, hooks]
    exact ⟨.error f, r', w₁, [], hrun, by simpa using hseen, .refused hooks⟩
  | panic p =>
    have hrun : tc.update t r b w = (.ok (.panic p, r'), w₁) := by
      rw [beforeUpdate] at hooks
      simp [update, afterHooks, h, hooks]
    exact ⟨.panic p, r', w₁, [], hrun, by simpa using hseen, .panicked hooks⟩
  | ok u =>
    have hrun := update_run h hooks
    cases hs : Statement.update t tc.scope r' with
    | error f =>
      rw [hs] at hrun
      exact ⟨.error f, r', w₁, [], hrun, by simpa using hseen,
        .incomplete hooks (Statement.update_error hs)⟩
    | ok q =>
      rw [hs] at hrun
      obtain ⟨hend, fs, hfs, hsent⟩ := execute_run h q b w₁
      have hattempt : tc.Attempt conn t b w r (tc.execute q b w₁).1 r' (driverEvents fs) := by
        rw [hend, hsent]
        exact .sent hooks hs rfl
      refine ⟨_, r', _, _, hrun, ?_, hattempt⟩
      rw [hfs.trace, driverEvents_append, hseen]

/-! ### A list of records -/

/-- The connection sees the statements of all of them, in their order. -/
theorem Each.sends {rs rs' : List Record} {ns : List Nat} {sent : List Event}
    (h : tc.Each conn t b w rs ns rs' w' sent) :
    driverEvents w'.trace = driverEvents w.trace ++ sent := by
  induction h with
  | nil w => simp
  | cons head tail ih => rw [ih, head.sends, List.append_assoc]

/-- Records that go well are counted and passed on, and what is left of the list follows in the world
that they leave behind. -/
theorem Each.updateFrom {rs rs' rest rest' : List Record} {ns : List Nat} {sent : List Event}
    {e : Ending Nat} {w'' : World σ} (h : tc.Each conn t b w rs ns rs' w' sent) {written : Nat}
    (hrest : tc.updateFrom t (written + ns.sum) rest b w' = (.ok (e, rest'), w'')) :
    tc.updateFrom t written (rs ++ rest) b w = (.ok (e, rs' ++ rest'), w'') := by
  induction h generalizing written with
  | nil w => exact hrest
  | cons head tail ih =>
    rw [List.sum_cons, ← Nat.add_assoc] at hrest
    simp only [List.cons_append, Context.updateFrom, Run.bind_apply, head.run, ih hrest,
      Run.pure_apply]

/-- Either all records of a list go well, or there is a first that does not. -/
theorem exists_each (h : tc.check = .ok conn) (t : Table) (b : Backend σ) :
    ∀ (rs : List Record) (w : World σ),
      (∃ ns rs' w' sent, tc.Each conn t b w rs ns rs' w' sent) ∨
      ∃ before r after ns before' w₁ sent e r' w' last, rs = before ++ r :: after ∧
        tc.Each conn t b w before ns before' w₁ sent ∧
        tc.Updated conn t b w₁ r e r' w' last ∧ e.isOk = false
  | [], w => .inl ⟨[], [], w, [], .nil w⟩
  | r :: rs, w => by
    obtain ⟨e, r', w₁, first, hr⟩ := exists_updated h t b w r
    cases e with
    | ok n =>
      obtain ⟨ns, rs', w', sent, hrs⟩ |
        ⟨before, s, after, ns, before', w₂, sent, e, s', w', last, rfl, hbefore, hs, he⟩ :=
          exists_each h t b rs w₁
      · exact .inl ⟨_, _, _, _, .cons hr hrs⟩
      · exact .inr ⟨r :: before, s, after, _, _, _, _, e, s', w', last, rfl, .cons hr hbefore, hs, he⟩
    | error f | panic p =>
      exact .inr ⟨[], r, rs, [], [], w, [], _, r', w₁, first, rfl, .nil w, hr, rfl⟩

/-- Records of an open context are written back up to the first that does not go well. The answer is
the number of rows that all of them wrote, or else that failure: with the number of rows before it if
there is no transaction to undo them. -/
theorem updateList_accounted (h : tc.check = .ok conn) (t : Table) (rs : List Record)
    (b : Backend σ) (w : World σ) :
    ∃ e rs' w' sent, tc.updateList t rs b w = (.ok (e, rs'), w') ∧
      driverEvents w'.trace = driverEvents w.trace ++ sent ∧
      tc.Account conn t b w rs e rs' w' sent := by
  unfold updateList
  obtain ⟨ns, rs', w', sent, hall⟩ |
    ⟨before, r, after, ns, before', w₁, sent, e, r', w', last, rfl, hbefore, hr, he⟩ :=
      exists_each h t b rs w
  · have hrun : tc.updateFrom t (0 + ns.sum) [] b w' = (.ok (.ok ns.sum, []), w') := by
      rw [Nat.zero_add]
      rfl
    have hlist := hall.updateFrom hrun
    rw [List.append_nil, List.append_nil] at hlist
    exact ⟨_, rs', w', sent, hlist, hall.sends, .finished hall⟩
  · -- the first that fails ends the list, and the style says what is made of its failure
    have hsent : driverEvents w'.trace = driverEvents w.trace ++ (sent ++ last) := by
      rw [hr.sends, hbefore.sends, List.append_assoc]
    cases e with
    | ok n => cases he
    | error f =>
      have hrun : tc.updateFrom t (0 + ns.sum) (r :: after) b w₁ =
          (.ok (.error (listFailure tc.style ns.sum f), r' :: after), w') := by
        simp only [Context.updateFrom, Run.bind_apply, hr.run, Run.pure_apply, Nat.zero_add]
      refine ⟨_, _, w', _, hbefore.updateFrom hrun, hsent, ?_⟩
      cases hstyle : tc.style with
      | none => exact .kept hstyle hbefore hr
      | readOnly => exact .undone (.inl hstyle) hbefore hr
      | write => exact .undone (.inr hstyle) hbefore hr
    | panic p =>
      have hrun : tc.updateFrom t (0 + ns.sum) (r :: after) b w₁ =
          (.ok (.panic p, r' :: after), w') := by
        simp only [Context.updateFrom, Run.bind_apply, hr.run, Run.pure_apply]
      exact ⟨_, _, w', _, hbefore.updateFrom hrun, hsent, .panicked hbefore hr⟩

/-- Without a transaction, where each statement writes two rows and the second one fails: the first
record is counted, the failure is that of the second, and the third is never sent. -/
theorem updateList_accounted_second :
    let tc : Context (Scripted Unit) := { writingFirst with style := .none }
    let w : World (Scripted Unit) :=
      { env := { scripts := [{ affected := 2, failAfter := some 1 }], own := () }, granted := 1 }
    let t : Table := ⟨"t_log", ["id", "name"], some "id", [], none⟩
    let row := fun id : Int64 => Record.mk [⟨"id", .int .i64, .int id⟩, ⟨"name", .text, .text ""⟩]
    let rs := [row 1, row 2, row 3]
    let e : Ending Nat := .error (.partialUpdate 2 (.other "mock execution failure"))
    tc.check = .ok ⟨0, 0⟩ ∧
      ∃ w' sent, tc.updateList t rs Scripted.backend w = (.ok (e, rs), w') ∧
        tc.Account ⟨0, 0⟩ t Scripted.backend w rs e rs w' sent ∧ sent.length = 2 := by
  intro tc w t row rs e
  have hopen : tc.check = .ok ⟨0, 0⟩ := rfl
  obtain ⟨e', rs', w', sent, hrun, hsent, haccount⟩ :=
    updateList_accounted hopen t rs Scripted.backend w
  have hended : (tc.updateList t rs Scripted.backend w).1 = .ok (e, rs) := rfl
  have hseen : (driverEvents (tc.updateList t rs Scripted.backend w).2.trace).length = 2 := rfl
  rw [hrun] at hended hseen
  cases hended
  refine ⟨hopen, w', sent, hrun, haccount, ?_⟩
  rw [hsent] at hseen
  exact hseen

end Context

end TableAccess
