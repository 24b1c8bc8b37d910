import TableAccess.Proofs.Work.Mutations

/-!
Writes behind their hooks.

Hooks run as a chain: each one is given what the one before made of the subject, in the state that that
one left, and the first that does not end well is the last. `Hook.Relay` is a chain that goes well all
the way and `Hook.Screened` any chain. A `Write` says for a kind of write which hooks these are and which
statement is made of a subject, and `Write.Gated` is the account of such a write: unless the whole chain
goes well nothing is sent, and otherwise no more than the one statement that is made of what the last
hook left. What becomes of a record that is inserted after that is `Table.Backfilled`.
-/

namespace TableAccess

variable {σ α β S : Type}

/-! ### What is shown -/

/-- Whether an event says that a hook is about to run. -/
def Event.isHook : Event → Bool
  | .hook .. => true
  | _ => false

/-- What drivers see and which hooks are announced between two worlds, each in its order. -/
def World.Shows (w : World σ) (seen announced : List Event) (w' : World σ) : Prop :=
  ∃ es, w'.trace = w.trace ++ es ∧ driverEvents es = seen ∧ es.filter Event.isHook = announced

namespace World

variable {w w' w'' : World σ} {seen seen' announced announced' : List Event}

theorem Shows.refl (w : World σ) : w.Shows [] [] w := ⟨[], by simp, rfl, rfl⟩

theorem Shows.trans (h : w.Shows seen announced w') (h' : w'.Shows seen' announced' w'') :
    w.Shows (seen ++ seen') (announced ++ announced') w'' := by
  obtain ⟨es, hes, rfl, rfl⟩ := h
  obtain ⟨fs, hfs, rfl, rfl⟩ := h'
  refine ⟨es ++ fs, ?_, driverEvents_append es fs, List.filter_append ..⟩
  rw [hfs, hes, List.append_assoc]

/-- Log records around some events change nothing of what is shown. -/
theorem Shows.of_filter {es : List Event} (fs : List Event) (h : w'.trace = w.trace ++ es)
    (hes : ∀ p : Event → Bool, (∀ r, p (.logged r) = false) → es.filter p = fs.filter p) :
    w.Shows (driverEvents fs) (fs.filter Event.isHook) w' :=
  ⟨es, h, hes Event.isDriver fun _ => rfl, hes Event.isHook fun _ => rfl⟩

end World

/-! ### Chains of hooks -/

namespace Hook

/-- Hooks that all end well, one after the other: the subject and the state before and after them. -/
inductive Relay : S → σ → List (Hook σ S) → S → σ → Prop
  | done (s : S) (env : σ) : Relay s env [] s env
  | next {s s' : S} {env env' : σ} {h : Hook σ S} {hs : List (Hook σ S)}
      (passes : (h s env).ending = .ok ())
      (rest : Relay (h s env).subject (h s env).env hs s' env') : Relay s env (h :: hs) s' env'

/-- A chain of hooks: how it ends, what it makes of subject and state, and how many hooks run. Either all
of them end well, or those before the last that runs do and it does not. -/
inductive Screened (s : S) (env : σ) : List (Hook σ S) → Ending Unit → S → σ → Nat → Prop
  | passed {hs : List (Hook σ S)} {s' : S} {env' : σ} (all : Relay s env hs s' env') :
    Screened s env hs (.ok ()) s' env' hs.length
  | stopped {before : List (Hook σ S)} {h : Hook σ S} {s₁ : S} {env₁ : σ} {r : Hooked σ S}
      (reached : Relay s env before s₁ env₁) (last : h s₁ env₁ = r) (failed : r.ending.isOk = false)
      (after : List (Hook σ S)) :
    Screened s env (before ++ h :: after) r.ending r.subject r.env (before.length + 1)

variable {s s' : S} {env env' : σ} {hs : List (Hook σ S)} {e : Ending Unit} {ran : Nat}

theorem Screened.cons {h : Hook σ S} (passes : (h s env).ending = .ok ())
    (rest : Screened (h s env).subject (h s env).env hs e s' env' ran) :
    Screened s env (h :: hs) e s' env' (ran + 1) := by
  cases rest with
  | passed all => exact .passed (.next passes all)
  | stopped reached last failed after => exact .stopped (.next passes reached) last failed after

/-- A chain that ends well does so all the way. -/
theorem Screened.relay (h : Screened s env hs (.ok ()) s' env' ran) :
    Relay s env hs s' env' ∧ ran = hs.length := by
  generalize he : Ending.ok () = e at h
  cases h with
  | passed all => exact ⟨all, rfl⟩
  | stopped _ _ failed => rw [← he] at failed; cases failed

/-- Every chain comes to its end. -/
theorem exists_screened : ∀ (hs : List (Hook σ S)) (s : S) (env : σ),
    ∃ e s' env' ran, Screened s env hs e s' env' ran
  | [], s, env => ⟨_, _, _, _, .passed (.done s env)⟩
  | h :: hs, s, env => by
    cases hend : (h s env).ending with
    | ok u =>
      obtain ⟨e, s', env', ran, hrest⟩ := exists_screened hs (h s env).subject (h s env).env
      exact ⟨e, s', env', _, .cons hend hrest⟩
    | error f | panic p =>
      exact ⟨_, _, _, _, .stopped (.done s env) rfl (by rw [hend]; rfl) hs⟩

section Run

variable (point : HookPoint) (subject : String) (columns : List String) (b : Backend σ)

/-- Of a hook that runs there is its announcement and what it logs. -/
theorem shows_announced (i : Nat) (r : Hooked σ S) (w : World σ) :
    w.Shows [] [.hook i point subject columns]
      ⟨r.env, w.trace ++ .hook i point subject columns :: r.logs.map .logged, w.granted⟩ := by
  refine ⟨_, rfl, ?_, ?_⟩
  · simp [driverEvents, Event.isDriver]
  · simp [List.filter_cons, Event.isHook]

/-- Hooks that all end well leave the rest of the chain to run on what they made of the subject. Each of
them is announced, and no driver sees any of it. -/
theorem Relay.run (all : Relay s env hs s' env') (after : List (Hook σ S)) :
    ∀ (i : Nat) (w : World σ), w.env = env → ∃ w',
      Run.hooks (.hook · point subject columns) i (hs ++ after) s b w =
        Run.hooks (.hook · point subject columns) (i + hs.length) after s' b w' ∧
      w'.env = env' ∧ w'.granted = w.granted ∧
      w.Shows [] ((List.range' i hs.length).map (.hook · point subject columns)) w' := by
  induction all with
  | done s env => exact fun i w hw => ⟨w, rfl, hw, rfl, .refl w⟩
  | @next s s' env env' h hs passes rest ih =>
    rintro i w rfl
    have hshown := shows_announced point subject columns i (h s w.env) w
    obtain ⟨w', hrun, henv, hgranted, hrest⟩ := ih (i + 1) ⟨(h s w.env).env, w.trace ++
      .hook i point subject columns :: (h s w.env).logs.map .logged, w.granted⟩ rfl
    refine ⟨w', ?_, henv, hgranted, hshown.trans hrest⟩
    simp only [List.cons_append, Run.hooks, Run.bind_apply, Run.emit_apply, Run.hook, passes]
    rw [List.append_assoc, List.singleton_append, hrun, List.length_cons, Nat.add_right_comm,
      Nat.add_assoc]

/-- What a chain of hooks makes of its subject is what comes of running it. The hooks that run are
announced in the order of their registration. -/
theorem Screened.run (all : Screened s env hs e s' env' ran) (w : World σ) (hw : w.env = env) :
    ∃ w', Run.hooks (.hook · point subject columns) 0 hs s b w = (.ok (e, s'), w') ∧
      w'.env = env' ∧ w'.granted = w.granted ∧
      w.Shows [] ((List.range ran).map (.hook · point subject columns)) w' := by
  cases all with
  | passed all =>
    obtain ⟨w', hrun, hfacts⟩ := all.run point subject columns b [] 0 w hw
    rw [List.append_nil] at hrun
    rw [List.range_eq_range']
    exact ⟨w', hrun, hfacts⟩
  | @stopped before h s₁ env₁ r reached last failed after =>
    -- those before the last leave it to run, and after it none do
    obtain ⟨w₁, hrun, rfl, hgranted, hshown⟩ :=
      reached.run point subject columns b (h :: after) 0 w hw
    have hlast := shows_announced point subject columns before.length r w₁
    rw [List.range_succ, List.map_append, List.map_singleton, List.range_eq_range']
    refine ⟨_, ?_, ?_, ?_, hshown.trans hlast⟩
    · rw [hrun, Nat.zero_add]
      simp only [Run.hooks, Run.bind_apply, Run.emit_apply, Run.hook, last]
      cases hend : r.ending with
      | ok u => rw [hend] at failed; cases failed
      | error f | panic p => simp
    · rfl
    · exact hgranted

end Run

end Hook

open Hook (Relay Screened exists_screened)

/-! ### Writes -/

/-- A kind of write: where its hooks run and which they are, the statement that is made of a subject, if
there is one, the call for it, and what a database answers to that. -/
structure Write (σ S α : Type) where
  place : HookPoint
  table : String
  columns : List String
  hook : Interceptor σ → Hook σ S
  plan : S → Except Failure (Option Sql)
  call : Sql → Call
  answer : Backend σ → Connection → Sql → σ → Except Failure α

namespace Write

/-- Inserting a record. -/
def insert (t : Table) (s : Scope) : Write σ Record Inserted where
  place := .beforeInsert
  table := t.name
  columns := []
  hook i := i.beforeInsert s t.name
  plan r := (Statement.insert t s r).map some
  call q := .insert q.text q.args t.generated
  answer b conn q env := (b.insert conn q.text q.args t.generated env).1

/-- Writing a record back. -/
def update (t : Table) (s : Scope) : Write σ Record Nat where
  place := .beforeUpdate
  table := t.name
  columns := []
  hook i := i.beforeUpdate s t.name
  plan r := (Statement.update t s r).map some
  call q := .execute q.text q.args
  answer b conn q env := (b.execute conn q.text q.args env).1

/-- Applying a modifier to the rows that match. -/
def modify (t : Table) (s : Scope) (matcher : Matcher) : Write σ Modifier Nat where
  place := .beforeModify
  table := t.name
  columns := t.columns
  hook i := i.beforeModify s t.name t.columns
  plan m := Statement.modify t s m (some matcher)
  call q := .execute q.text q.args
  answer b conn q env := (b.execute conn q.text q.args env).1

variable (k : Write σ S α) (b : Backend σ) (conn : Connection)

/-- What is sent for a subject, and how that ends. -/
inductive Sent (s : S) (env : σ) : Ending (Option α) → List Event → Prop
  | unplanned {f : Failure} (plan : k.plan s = .error f) : Sent s env (.error f) []
  | idle (plan : k.plan s = .ok none) : Sent s env (.ok none) []
  | sent {q : Sql} {outcome : Except Failure α} (plan : k.plan s = .ok (some q))
      (answer : k.answer b conn q env = outcome) :
    Sent s env (.ofExcept (outcome.map some)) [.called conn (k.call q) (Run.succeeded outcome)]

/-- How a write goes: the number of hooks that run, what the last of them leaves, how the write ends, and
what the connection sees. Nothing is sent unless all hooks end well. -/
inductive Gate (is : List (Interceptor σ)) (s : S) (env : σ) :
    Nat → S → Ending (Option α) → List Event → Prop
  | refused {f : Failure} {s' : S} {env' : σ} {ran : Nat}
      (hooks : Screened s env (is.map k.hook) (.error f) s' env' ran) :
    Gate is s env ran s' (.error f) []
  | panicked {p : String} {s' : S} {env' : σ} {ran : Nat}
      (hooks : Screened s env (is.map k.hook) (.panic p) s' env' ran) :
    Gate is s env ran s' (.panic p) []
  | passed {s' : S} {env' : σ} {v : Ending (Option α)} {sent : List Event}
      (hooks : Relay s env (is.map k.hook) s' env') (write : k.Sent b conn s' env' v sent) :
    Gate is s env is.length s' v sent

/-- The account of a write between two worlds. The hooks that run are announced in their order, and of
everything else drivers see what is sent. -/
def Gated (is : List (Interceptor σ)) (s : S) (w : World σ) (s' : S) (v : Ending (Option α))
    (w' : World σ) : Prop :=
  ∃ ran sent, k.Gate b conn is s w.env ran s' v sent ∧
    w.Shows sent ((List.range ran).map fun i => .hook i k.place k.table k.columns) w'

end Write

/-- What becomes of an inserted record, by how its insert ended: what is answered, and the record. It gets
the generated value if one is asked for and reported, and a value that does not fit its field is the
answer. -/
inductive Table.Backfilled (t : Table) (r : Record) :
    Ending (Option Inserted) → Ending Nat → Record → Prop
  | failed (f : Failure) : Backfilled t r (.error f) (.error f) r
  | panicked (p : String) : Backfilled t r (.panic p) (.panic p) r
  | unreported {done : Inserted} (h : t.generated = none ∨ done.generatedId = none) :
    Backfilled t r (.ok (some done)) (.ok done.affected) r
  | assigned {done : Inserted} {column : String} {id : Int64} {r' : Record}
      (asked : t.generated = some column) (reported : done.generatedId = some id)
      (fits : r.set column (.int id) = .ok r') :
    Backfilled t r (.ok (some done)) (.ok done.affected) r'
  | misfit {done : Inserted} {column : String} {id : Int64} {f : Failure}
      (asked : t.generated = some column) (reported : done.generatedId = some id)
      (unfit : r.set column (.int id) = .error f) :
    Backfilled t r (.ok (some done)) (.error f) r

/-- Where the answer is a failure, a record is as it was sent. -/
theorem Table.Backfilled.eq_of_error {t : Table} {r r' : Record} {v : Ending (Option Inserted)}
    {f : Failure} (h : t.Backfilled r v (.error f) r') : r = r' := by
  cases h <;> rfl

namespace Context

variable {tc : Context σ} {conn : Connection} {b : Backend σ}

/-- Sending an insert is one call. -/
theorem insertRow_sent (h : tc.check = .ok conn) (q : Sql) (generated : Option String)
    (b : Backend σ) (w : World σ) :
    ∃ es, tc.insertRow q generated b w =
        (.ofExcept (b.insert conn q.text q.args generated w.env).1,
          ⟨(b.insert conn q.text q.args generated w.env).2, w.trace ++ es, w.granted⟩) ∧
      ∀ p : Event → Bool, (∀ r, p (.logged r) = false) → es.filter p =
        [.called conn (.insert q.text q.args generated)
          (Run.succeeded (b.insert conn q.text q.args generated w.env).1)].filter p := by
  simp only [insertRow, h, Run.bind_apply, Run.ofExcept_ok_apply]
  exact tc.traced_run q.text q.args fun _ => rfl

/-- A run that does for a subject what a kind of write says: it ends as that does, no hooks run, and the
driver sees what is sent. -/
def Performs (conn : Connection) (k : Write σ S α) (x : S → Run σ (Ending β × S))
    (made : Ending (Option α) → S → Ending β → S → Prop) : Prop :=
  ∀ (b : Backend σ) (s : S) (w : World σ), ∃ v e s' w' sent, x s b w = (.ok (e, s'), w') ∧
    made v s e s' ∧ k.Sent b conn s w.env v sent ∧ w.Shows sent [] w'

/-- A write behind its hooks does for what they leave what it does without them. -/
theorem afterHooks_gated (h : tc.check = .ok conn) (k : Write σ S α)
    (made : Ending (Option α) → S → Ending β → S → Prop) {write : S → Run σ (Ending β × S)}
    (hwrite : Performs conn k write made) (herror : ∀ f s, made (.error f) s (.error f) s)
    (hpanic : ∀ p s, made (.panic p) s (.panic p) s) (b : Backend σ) (s : S) (w : World σ) :
    ∃ s₁ v e s' w', tc.afterHooks k.place k.table k.columns k.hook s write b w =
        (.ok (e, s'), w') ∧
      made v s₁ e s' ∧ k.Gated b conn tc.interceptors s w s₁ v w' := by
  -- how the chain ends does not depend on the write, which is only reached if it ends well
  obtain ⟨e, s₁, env₁, ran, hscreened⟩ := exists_screened (tc.interceptors.map k.hook) s w.env
  obtain ⟨w₁, hrun, rfl, -, hshown⟩ := hscreened.run k.place k.table k.columns b w rfl
  simp only [afterHooks, h, runHooks, Run.bind_apply, hrun]
  cases e with
  | error f => exact ⟨s₁, _, _, _, _, rfl, herror f s₁, ran, [], .refused hscreened, hshown⟩
  | panic p => exact ⟨s₁, _, _, _, _, rfl, hpanic p s₁, ran, [], .panicked hscreened, hshown⟩
  | ok u =>
    obtain ⟨v, e, s', w', sent, hw, hmade, hsent, hrest⟩ := hwrite b s₁ w₁
    obtain ⟨hrelay, rfl⟩ := hscreened.relay
    have hall := hshown.trans hrest
    rw [List.append_nil, List.length_map] at hall
    exact ⟨s₁, v, e, s', w', hw, hmade, _, sent, .passed hrelay hsent, hall⟩

/-- A statement that is put together and then sent: how that ends is how the write does. -/
theorem planned_run (conn : Connection) (b : Backend σ) (w : World σ) {k : Write σ S α} {s : S}
    {plan : Except Failure Sql} {x : Sql → Run σ α} (hplan : k.plan s = plan.map some)
    (hx : ∀ q, ∃ env es, x q b w =
        (.ofExcept (k.answer b conn q w.env), ⟨env, w.trace ++ es, w.granted⟩) ∧
      ∀ p : Event → Bool, (∀ r, p (.logged r) = false) → es.filter p =
        [.called conn (k.call q) (Run.succeeded (k.answer b conn q w.env))].filter p) :
    ∃ e w' sent, (do let q ← Run.ofExcept plan; x q) b w = (e, w') ∧
      k.Sent b conn s w.env (e.map some) sent ∧ w.Shows sent [] w' := by
  cases plan with
  | error f => exact ⟨.error f, w, [], rfl, .unplanned hplan, .refl w⟩
  | ok q =>
    obtain ⟨env, es, hrun, hes⟩ := hx q
    refine ⟨_, _, _, hrun, ?_, .of_filter [_] rfl hes⟩
    have hmap : (Ending.ofExcept (k.answer b conn q w.env)).map some =
        .ofExcept ((k.answer b conn q w.env).map some) := by
      cases k.answer b conn q w.env <;> rfl
    rw [hmap]
    exact .sent hplan rfl

theorem backfill_backfilled (t : Table) (r : Record) (done : Inserted) :
    t.Backfilled r (.ok (some done)) (backfill t r done).1 (backfill t r done).2 := by
  unfold backfill
  split
  · next column id hc hid =>
    cases hset : r.set column (.int id) with
    | ok r' => exact .assigned hc hid hset
    | error f => exact .misfit hc hid hset
  · next hnone =>
    refine .unreported ?_
    cases hc : t.generated with
    | none => exact .inl rfl
    | some column =>
      cases hid : done.generatedId with
      | none => exact .inr rfl
      | some id => exact (hnone column id hc hid).elim

/-- An insert behind its hooks. -/
theorem insert_gated (h : tc.check = .ok conn) (t : Table) (b : Backend σ) (r : Record)
    (w : World σ) : ∃ r₁ v e r' w', tc.insert t r b w = (.ok (e, r'), w') ∧
      t.Backfilled r₁ v e r' ∧
      (Write.insert t tc.scope).Gated b conn tc.interceptors r w r₁ v w' := by
  refine afterHooks_gated h (Write.insert t tc.scope) (fun v r e r' => t.Backfilled r v e r') ?_
    (fun f r => .failed f) (fun p r => .panicked p) b r w
  intro b r w
  have hplan : (Write.insert (σ := σ) t tc.scope).plan r =
      (Statement.insert t tc.scope r).map some := rfl
  obtain ⟨e, w', sent, hrun, hsent, hshown⟩ := planned_run conn b w hplan fun q =>
    ⟨_, insertRow_sent h q t.generated b w⟩
  simp only [Run.bind_apply, Run.ending_apply] at hrun ⊢
  rw [hrun]
  cases e with
  | ok done => exact ⟨_, _, _, w', sent, rfl, backfill_backfilled t r done, hsent, hshown⟩
  | error f => exact ⟨_, _, _, w', sent, rfl, .failed f, hsent, hshown⟩
  | panic p => exact ⟨_, _, _, w', sent, rfl, .panicked p, hsent, hshown⟩

/-- An update behind its hooks. -/
theorem update_gated (h : tc.check = .ok conn) (t : Table) (b : Backend σ) (r : Record)
    (w : World σ) : ∃ r₁ v w', tc.update t r b w = (.ok (v.map (·.getD 0), r₁), w') ∧
      (Write.update t tc.scope).Gated b conn tc.interceptors r w r₁ v w' := by
  have hwrite : Performs conn (Write.update t tc.scope)
      (fun r => do
        let done ← Run.ending do
          let q ← Run.ofExcept (Statement.update t tc.scope r)
          tc.execute q
        return (done, r))
      (fun v r e r' => e = v.map (·.getD 0) ∧ r' = r) := by
    intro b r w
    have hplan : (Write.update (σ := σ) t tc.scope).plan r =
        (Statement.update t tc.scope r).map some := rfl
    obtain ⟨e, w', sent, hrun, hsent, hshown⟩ := planned_run conn b w hplan fun q =>
      ⟨_, execute_sent h q b w⟩
    refine ⟨e.map some, e, r, w', sent, ?_, ⟨?_, rfl⟩, hsent, hshown⟩
    · simp only [Run.bind_apply, Run.ending_apply, Run.pure_apply] at hrun ⊢
      rw [hrun]
    · cases e <;> rfl
  obtain ⟨r₁, v, _, _, w', hrun, ⟨rfl, rfl⟩, hgated⟩ := afterHooks_gated h
    (Write.update t tc.scope) _ hwrite (fun f r => ⟨rfl, rfl⟩) (fun p r => ⟨rfl, rfl⟩) b r w
  exact ⟨_, v, w', hrun, hgated⟩

/-- What a modifier comes to without its hooks. -/
theorem sendModifier_sent (h : tc.check = .ok conn) (t : Table) (matcher : Matcher) (b : Backend σ)
    (m : Modifier) (w : World σ) :
    ∃ v w' sent, tc.sendModifier t matcher m b w = (v.map (·.getD 0), w') ∧
      (Write.modify t tc.scope matcher).Sent b conn m w.env v sent ∧ w.Shows sent [] w' := by
  unfold sendModifier
  cases hm : m.isEmpty with
  | true =>
    have hplan : Statement.modify t tc.scope m (some matcher) = .ok none := if_pos hm
    exact ⟨.ok none, w, [], rfl, .idle hplan, .refl w⟩
  | false =>
    -- a missing condition is noted first, in a world that differs by no more than that record
    obtain ⟨noted, w₁, hnote, hnoted, henv, hquiet⟩ :=
      noteUnconditioned_run tc t .update matcher b w
    have hshown : w.Shows [] [] w₁ := .of_filter [] hnoted.trace hquiet
    simp only [Bool.false_eq_true, if_false, Run.bind_apply, hnote]
    cases hplan : Statement.modify t tc.scope m (some matcher) with
    | error f => exact ⟨.error f, w₁, [], rfl, .unplanned hplan, hshown⟩
    | ok plan =>
      cases plan with
      | none => exact ⟨.ok none, w₁, [], rfl, .idle hplan, hshown⟩
      | some q =>
        obtain ⟨es, hrun, hes⟩ := execute_sent h q b w₁
        rw [henv] at hrun hes
        have hsent : w₁.Shows _ [] ⟨(b.execute conn q.text q.args w.env).2, w₁.trace ++ es,
            w₁.granted⟩ := .of_filter [_] rfl hes
        refine ⟨_, _, _, ?_, .sent hplan rfl, hshown.trans hsent⟩
        simp only [Run.ofExcept_ok_apply, hrun]
        change _ = ((Ending.ofExcept ((b.execute conn q.text q.args w.env).1.map some)).map _, _)
        cases (b.execute conn q.text q.args w.env).1 <;> rfl

/-- The update of a modifier behind its hooks. -/
theorem modify_gated (h : tc.check = .ok conn) (t : Table) (matcher : Matcher) (b : Backend σ)
    (m : Modifier) (w : World σ) :
    ∃ m₁ v w', tc.modify t m matcher b w = (v.map (·.getD 0), w') ∧
      (Write.modify t tc.scope matcher).Gated b conn tc.interceptors m w m₁ v w' := by
  have hwrite : Performs conn (Write.modify t tc.scope matcher)
      (fun m => do
        let e ← (tc.sendModifier t matcher m).ending
        return (e, m))
      (fun v m e m' => e = v.map (·.getD 0) ∧ m' = m) := by
    intro b m w
    obtain ⟨v, w', sent, hrun, hsent, hshown⟩ := sendModifier_sent h t matcher b m w
    refine ⟨v, _, m, w', sent, ?_, ⟨rfl, rfl⟩, hsent, hshown⟩
    simp only [Run.bind_apply, Run.ending_apply, Run.pure_apply, hrun]
  obtain ⟨m₁, v, _, _, w', hrun, ⟨rfl, rfl⟩, hgated⟩ := afterHooks_gated h
    (Write.modify t tc.scope matcher) _ hwrite (fun f m => ⟨rfl, rfl⟩) (fun p m => ⟨rfl, rfl⟩) b m w
  refine ⟨_, v, w', ?_, hgated⟩
  simp only [Write.modify] at hrun
  simp only [modify, Run.bind_apply, hrun, Run.ofEnding_apply]

/-- Every write of an open context goes through its hooks: an insert, after which the record may get its
generated value, an update, and the update of a modifier. Applying the same modifier once more starts
over from the modifier as the caller has it, whatever hooks made of it the first time. -/
theorem writes_gated (h : tc.check = .ok conn) (b : Backend σ) :
    (∀ (t : Table) (r : Record) (w : World σ), ∃ r₁ v e r' w',
      tc.insert t r b w = (.ok (e, r'), w') ∧ t.Backfilled r₁ v e r' ∧
      (Write.insert t tc.scope).Gated b conn tc.interceptors r w r₁ v w') ∧
    (∀ (t : Table) (r : Record) (w : World σ), ∃ r₁ v w',
      tc.update t r b w = (.ok (v.map (·.getD 0), r₁), w') ∧
      (Write.update t tc.scope).Gated b conn tc.interceptors r w r₁ v w') ∧
    (∀ (t : Table) (m : Modifier) (matcher : Matcher) (w : World σ), ∃ m₁ v w',
      tc.modify t m matcher b w = (v.map (·.getD 0), w') ∧
      (Write.modify t tc.scope matcher).Gated b conn tc.interceptors m w m₁ v w') ∧
    ∀ (t t' : Table) (m : Modifier) (matcher matcher' : Matcher) (w : World σ), ∃ m₁ v w₁ m₂ v' w₂,
      (do
        let _ ← (tc.modify t m matcher).ending
        tc.modify t' m matcher') b w = (v'.map (·.getD 0), w₂) ∧
      (Write.modify t tc.scope matcher).Gated b conn tc.interceptors m w m₁ v w₁ ∧
      (Write.modify t' tc.scope matcher').Gated b conn tc.interceptors m w₁ m₂ v' w₂ := by
  refine ⟨fun t r w => insert_gated h t b r w, fun t r w => update_gated h t b r w,
    fun t m matcher w => modify_gated h t matcher b m w, fun t t' m matcher matcher' w => ?_⟩
  obtain ⟨m₁, v, w₁, hfirst, hgated⟩ := modify_gated h t matcher b m w
  obtain ⟨m₂, v', w₂, hsecond, hgated'⟩ := modify_gated h t' matcher' b m w₁
  refine ⟨m₁, v, w₁, m₂, v', w₂, ?_, hgated, hgated'⟩
  simp only [Run.bind_apply, Run.ending_apply, hfirst, hsecond]

/-- A stamped record whose generated value does not fit its field: the row is written as the stamp left
the record, and the record stays like that. -/
theorem writes_gated_unfit :
    let tc : Context (Scripted Unit) :=
      { writingFirst with
        scope := { traceId := "", values := [("name", .text "root")] }
        interceptors := [Interceptor.stamp "name"] }
    let w : World (Scripted Unit) :=
      { env := { scripts := [{ nextId := 300 }], own := () }, granted := 1 }
    let t : Table := ⟨"t_log", ["id", "name"], some "id", [], none⟩
    let row := fun name => Record.mk [⟨"id", .int .i8, .int 0⟩, ⟨"name", .text, .text name⟩]
    let e : Ending Nat := .error (.decode "id" (.mismatch .tooLarge))
    tc.check = .ok ⟨0, 0⟩ ∧
      ∃ v w', tc.insert t (row "") Scripted.backend w = (.ok (e, row "root"), w') ∧
        (Write.insert t tc.scope).Gated Scripted.backend ⟨0, 0⟩ tc.interceptors (row "") w
          (row "root") v w' ∧
        driverEvents w'.trace = [.called ⟨0, 0⟩
          (.insert "insert into t_log(name) values(?)" [.text "root"] (some "id")) true] := by
  intro tc w t row e
  have hopen : tc.check = .ok ⟨0, 0⟩ := rfl
  obtain ⟨r₁, v, e', r', w', hrun, hfilled, hgated⟩ :=
    (writes_gated hopen Scripted.backend).1 t (row "") w
  have hended : (tc.insert t (row "") Scripted.backend w).1 = .ok (e, row "root") := rfl
  have hseen : driverEvents (tc.insert t (row "") Scripted.backend w).2.trace =
    [.called ⟨0, 0⟩ (.insert "insert into t_log(name) values(?)" [.text "root"] (some "id")) true] :=
      by decide
  rw [hrun] at hended hseen
  cases hended
  rw [hfilled.eq_of_error] at hgated
  exact ⟨hopen, v, w', hrun, hgated, hseen⟩

end Context

end TableAccess
