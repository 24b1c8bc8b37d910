import TableAccess.Proofs.Sql.Splicing
import TableAccess.Proofs.Work.Statements
import TableAccess.Work.Scripted

/-!
Readers that agree.

The same rows can be read as a list, in batches or only up to the first. `Run.Acts` describes a run
without its trace, as a function on the state of the database and of the callers' code; what a list
reader makes of a result is `gathered` then, and a batch reader hands over the same list, cut into
batches. The batches are handed over between the rows, so this holds of handlers that have no state in
common with what maps the rows: `Undisturbed` says that it makes no difference which of the two comes
first. And it holds of batches that there can be room for: a batch reader reserves that of a whole batch,
while a list takes no more than its rows need.
-/

namespace TableAccess

variable {σ α β : Type}

/-! ### Runs without their trace -/

/-- One callback and then, if it came to its value, another. -/
def Callback.andThen (c : Callback σ α) (k : α → Callback σ β) : Callback σ β := fun env =>
  match c env with
  | (.ok a, env) => k a env
  | (.error f, env) => (.error f, env)
  | (.panic p, env) => (.panic p, env)

namespace Run

/-- How a run ends and what it makes of the state depend on the state alone, and `f` says how. -/
def Acts (x : Run σ α) (f : Backend σ → Callback σ α) : Prop :=
  ∀ (b : Backend σ) (w : World σ), (x b w).1 = (f b w.env).1 ∧ (x b w).2.env = (f b w.env).2

/-- What drivers see of a run depends on the state alone, and `f` says what it is. -/
def Sees (x : Run σ α) (f : Backend σ → σ → List Event) : Prop :=
  ∀ (b : Backend σ) (w : World σ),
    driverEvents (x b w).2.trace = driverEvents w.trace ++ f b w.env

/-- A run that no driver sees anything of. -/
abbrev Unseen (x : Run σ α) : Prop := x.Emits fun e => e.isDriver = false

variable {x : Run σ α} {c : Backend σ → Callback σ α} {seen : Backend σ → σ → List Event}

theorem acts_ofEnding (e : Ending α) : (ofEnding e : Run σ α).Acts fun _ env => (e, env) :=
  fun _ _ => ⟨rfl, rfl⟩

theorem acts_callback (c : Callback σ α) : (callback c).Acts fun _ => c := fun _ _ => ⟨rfl, rfl⟩

theorem Acts.bind {f : α → Run σ β} {k : Backend σ → α → Callback σ β} (hx : x.Acts c)
    (hf : ∀ a, (f a).Acts fun b => k b a) : (x >>= f).Acts fun b => (c b).andThen (k b) := by
  intro b w
  obtain ⟨hend, henv⟩ := hx b w
  rw [bind_apply]
  simp only [Callback.andThen]
  rcases hr : x b w with ⟨e, w'⟩
  rw [hr] at hend henv
  rcases hc : c b w.env with ⟨e', env⟩
  rw [hc] at hend henv
  obtain rfl : e = e' := hend
  obtain rfl : w'.env = env := henv
  cases e with
  | ok a => exact hf a b w'
  | error g => exact ⟨rfl, rfl⟩
  | panic p => exact ⟨rfl, rfl⟩

theorem Acts.congr {c' : Backend σ → Callback σ α} (hx : x.Acts c)
    (h : ∀ b env, c b env = c' b env) : x.Acts c' := by
  intro b w
  rw [← h]
  exact hx b w

theorem acts_pure (a : α) : (Pure.pure a : Run σ α).Acts fun _ env => (.ok a, env) :=
  acts_ofEnding (.ok a)

theorem acts_emit (e : Event) : (emit e : Run σ Unit).Acts fun _ env => (.ok (), env) :=
  fun _ _ => ⟨rfl, rfl⟩

/-- The answer to a query. -/
def answer (conn : Connection) (sql : String) (args : List Value) (b : Backend σ) :
    Callback σ RowStream := fun env =>
  (.ofExcept (b.query conn sql args env).1, (b.query conn sql args env).2)

theorem acts_query (conn : Connection) (sql : String) (args : List Value) :
    (query conn sql args : Run σ RowStream).Acts (answer conn sql args) := fun _ _ => ⟨rfl, rfl⟩

/-- What is not seen adds nothing to what is. -/
theorem Unseen.driverEvents_eq (h : x.Unseen) (b : Backend σ) (w : World σ) :
    driverEvents (x b w).2.trace = driverEvents w.trace := by
  obtain ⟨es, hes, hquiet⟩ := h b w
  rw [hes.trace, driverEvents_append, driverEvents_eq_nil hquiet, List.append_nil]

theorem Sees.bind {f : α → Run σ β} (hx : x.Sees seen) (hf : ∀ a, (f a).Unseen) :
    (x >>= f).Sees seen := by
  intro b w
  have hseen := hx b w
  rw [bind_apply]
  rcases hr : x b w with ⟨e, w'⟩
  rw [hr] at hseen
  cases e with
  | ok a =>
    change driverEvents (f a b w').2.trace = _
    rw [(hf a).driverEvents_eq, hseen]
  | error g => exact hseen
  | panic p => exact hseen

theorem Sees.after_log {r : LogRecord} {f : Unit → Run σ β} (hf : (f ()).Sees seen) :
    (log r >>= f).Sees seen := by
  intro b w
  have hsame : driverEvents (w.trace ++ [.logged r]) = driverEvents w.trace := by
    rw [driverEvents_append]
    exact List.append_nil _
  have hlogged := hf b { w with trace := w.trace ++ [.logged r] }
  rwa [hsame] at hlogged

theorem sees_query (conn : Connection) (sql : String) (args : List Value) :
    (query conn sql args : Run σ RowStream).Sees fun b env =>
      [.called conn (.query sql args) (succeeded (b.query conn sql args env).1)] := by
  refine Sees.bind ?_ fun _ => emits_ofExcept _
  intro b w
  rw [call]
  exact driverEvents_append _ _

end Run

namespace Context

variable {tc : Context σ} {x : Run σ α} {sql : String} {args : List Value}

/-- Logging a statement changes neither how it ends nor the state. -/
theorem acts_traced {c : Backend σ → Callback σ α} (hx : x.Acts c) :
    (tc.traced sql args x).Acts c := by
  intro b w
  rw [traced]
  split
  · have hlogged := hx b { w with trace := w.trace ++ [.logged (.statementStarted tc.traceId sql args)] }
    simp only [Run.bind_apply, Run.log_apply, Run.ending_apply]
    rcases hr : x b { w with trace := w.trace ++ [.logged (.statementStarted tc.traceId sql args)] }
      with ⟨e, w'⟩
    rw [hr] at hlogged
    cases e <;> exact hlogged
  · exact hx b w

/-- Drivers see nothing of the logging of a statement. -/
theorem sees_traced {seen : Backend σ → σ → List Event} (hx : x.Sees seen) :
    (tc.traced sql args x).Sees seen := by
  have hlog : ∀ r, (Run.log r : Run σ Unit).Unseen := fun _ => Run.emits_log rfl
  rw [traced]
  split
  · refine Run.Sees.after_log (Run.Sees.bind hx fun e => ?_)
    cases e with
    | ok a => exact (hlog _).bind fun _ => Run.emits_ofEnding _
    | error f => exact (hlog _).bind fun _ => Run.emits_ofEnding _
    | panic p => exact Run.emits_ofEnding _
  · exact hx

end Context

/-! ### What the readers make of a result -/

/-- The rows of a result, unless it fails. -/
def RowStream.rows : RowStream → Except Failure (List Row)
  | [] => .ok []
  | .ok row :: rest => (RowStream.rows rest).map (row :: ·)
  | .error f :: _ => .error f

/-- A callback for each row, up to one that does not go well. -/
def Callback.each (m : Row → Callback σ α) : List Row → Callback σ (List α)
  | [] => fun env => (.ok [], env)
  | row :: rest =>
    (m row).andThen fun a => (Callback.each m rest).andThen fun as env => (.ok (a :: as), env)

/-- What the rows of a result are mapped to, and the state then; none if the result or a row does not
go well. -/
def gathered (m : Row → Callback σ α) : RowStream → σ → Option (List α × σ)
  | [], env => some ([], env)
  | .ok row :: rest, env =>
    match m row env with
    | (.ok a, env) => (gathered m rest env).map fun (as, env) => (a :: as, env)
    | _ => none
  | .error _ :: _, _ => none

theorem Run.acts_pullAll : ∀ stream : RowStream,
    (pullAll stream : Run σ (List Row)).Acts fun _ env => (.ofExcept stream.rows, env)
  | [] => acts_pure _
  | .ok row :: rest => by
    refine ((acts_emit _).bind fun _ => (acts_pullAll rest).bind fun _ => acts_pure _).congr ?_
    intro b env
    simp only [Callback.andThen, RowStream.rows]
    cases RowStream.rows rest <;> rfl
  | .error f :: _ => (acts_emit _).bind fun _ => acts_ofEnding (.error f)

theorem Context.acts_mapRows {f : Row → Run σ α} {m : Row → Callback σ α}
    (hf : ∀ row, (f row).Acts fun _ => m row) : ∀ rows : List Row,
    (mapRows f rows).Acts fun _ => Callback.each m rows
  | [] => Run.acts_pure _
  | row :: rest => (hf row).bind fun _ => (acts_mapRows hf rest).bind fun _ => Run.acts_pure _

/-- The value that something came to and the state then, if it came to one. -/
def settled : Ending α × σ → Option (α × σ)
  | (.ok a, env) => some (a, env)
  | _ => none

/-- Taking all rows and then mapping them gathers what they are mapped to. -/
theorem gathered_eq (m : Row → Callback σ α) : ∀ (stream : RowStream) (env : σ),
    gathered m stream env =
      settled (Callback.andThen (fun env => (.ofExcept stream.rows, env)) (Callback.each m) env)
  | [], env => rfl
  | .ok row :: rest, env => by
    have ih := gathered_eq m rest
    simp only [gathered, RowStream.rows, ih]
    rcases hm : m row env with ⟨e, env₁⟩
    cases RowStream.rows rest with
    | error f => cases e <;> rfl
    | ok rows =>
      simp only [Except.map, Callback.andThen, Ending.ofExcept, Callback.each, hm]
      cases e with
      | ok a =>
        dsimp only
        rcases Callback.each m rows env₁ with ⟨_ | _ | _, env₂⟩ <;> rfl
      | error f => rfl
      | panic p => rfl
  | .error f :: rest, env => rfl

/-! ### Batches -/

/-- A list cut into batches, the first of which has been begun. -/
def cut (size : Nat) : List α → List α → List (List α)
  | held, [] => if held.isEmpty then [] else [held]
  | held, a :: as =>
    if (held ++ [a]).length = size then (held ++ [a]) :: cut size [] as else cut size (held ++ [a]) as

section Cut

variable {size : Nat}

/-- Nothing is lost, repeated or moved. -/
theorem flatten_cut (size : Nat) : ∀ held as : List α, (cut size held as).flatten = held ++ as
  | held, [] => by
    rw [cut]
    split
    · next h => simp [List.isEmpty_iff.mp h]
    · simp
  | held, a :: as => by
    rw [cut]
    split
    · rw [List.flatten_cons, flatten_cut size [] as, List.nil_append, List.append_assoc]
      rfl
    · rw [flatten_cut size (held ++ [a]) as, List.append_assoc]
      rfl

/-- There are no empty batches, and none is too long. -/
theorem length_of_mem_cut : ∀ {held as : List α}, held.length < size →
    ∀ batch ∈ cut size held as, 0 < batch.length ∧ batch.length ≤ size
  | held, [], h, batch, hb => by
    rw [cut] at hb
    split at hb
    · cases hb
    · next hne =>
      obtain rfl := List.mem_singleton.mp hb
      rw [List.isEmpty_iff, ← List.length_eq_zero_iff] at hne
      omega
  | held, a :: as, h, batch, hb => by
    have hlength : (held ++ [a]).length = held.length + 1 := List.length_append ..
    rw [cut] at hb
    split at hb
    · next hfull =>
      rcases List.mem_cons.mp hb with rfl | hb
      · omega
      · have hnil : ([] : List α).length < size := by
          rw [List.length_nil]
          omega
        exact length_of_mem_cut hnil batch hb
    · exact length_of_mem_cut (by omega) batch hb

/-- All batches but the last are full. -/
theorem length_of_mem_dropLast_cut : ∀ {held as : List α},
    ∀ batch ∈ (cut size held as).dropLast, batch.length = size
  | held, [], batch, hb => by
    rw [cut] at hb
    split at hb <;> cases hb
  | held, a :: as, batch, hb => by
    rw [cut] at hb
    split at hb
    · next hfull =>
      by_cases hrest : cut size [] as = []
      · rw [hrest] at hb
        cases hb
      · rw [List.dropLast_cons_of_ne_nil hrest] at hb
        rcases List.mem_cons.mp hb with rfl | hb
        · exact hfull
        · exact length_of_mem_dropLast_cut batch hb
    · exact length_of_mem_dropLast_cut batch hb

end Cut

/-- What a handler makes of the state, given one batch after the other. -/
def handed (handler : List α → Callback σ Unit) (batches : List (List α)) (env : σ) : σ :=
  batches.foldl (fun env batch => (handler batch env).2) env

/-- A handler that keeps every batch it is given has kept them in order. -/
theorem handed_kept {handler : List α → Callback σ Unit} {kept : σ → List (List α)}
    (h : ∀ batch env, kept (handler batch env).2 = kept env ++ [batch]) :
    ∀ (batches : List (List α)) (env : σ), kept (handed handler batches env) = kept env ++ batches
  | [], env => (List.append_nil (kept env)).symm
  | batch :: batches, env => by
    rw [handed, List.foldl_cons, ← handed, handed_kept h batches, h, List.append_assoc]
    rfl

/-- A handler that always goes well and has no state in common with what maps the rows: that does not
notice the handler, and it makes no difference which of the two comes first. -/
structure Undisturbed (m : Row → Callback σ α) (handler : List α → Callback σ Unit) : Prop where
  succeeds : ∀ batch env, (handler batch env).1 = .ok ()
  unnoticed : ∀ row batch env, (m row (handler batch env).2).1 = (m row env).1
  exchanged : ∀ row batch env,
    (m row (handler batch env).2).2 = (handler batch (m row env).2).2

section Delivery

variable {m : Row → Callback σ α} {handler : List α → Callback σ Unit}

/-- What is gathered after a batch has been handed over is what would have been gathered before. -/
theorem Undisturbed.gathered_handler (h : Undisturbed m handler) (batch : List α) :
    ∀ (stream : RowStream) (env : σ), gathered m stream (handler batch env).2 =
      (gathered m stream env).map fun (as, env) => (as, (handler batch env).2)
  | [], env => rfl
  | .ok row :: rest, env => by
    have hm : m row (handler batch env).2 = ((m row env).1, (handler batch (m row env).2).2) :=
      Prod.ext (h.unnoticed row batch env) (h.exchanged row batch env)
    rw [gathered, gathered, hm]
    rcases m row env with ⟨e, env₁⟩
    cases e with
    | ok a =>
      simp only [h.gathered_handler batch rest env₁, Option.map_map]
      rfl
    | error f => rfl
    | panic p => rfl
  | .error f :: rest, env => rfl

theorem handOver_run (hs : ∀ batch env, (handler batch env).1 = .ok ()) (batch : List α)
    (b : Backend σ) (w : World σ) :
    Context.handOver handler batch b w =
      (.ok (), ⟨(handler batch w.env).2, w.trace ++ [.batch batch.length], w.granted⟩) := by
  simp only [Context.handOver, Run.bind_apply, Run.emit_apply, Run.callback_apply, hs]

/-- Delivery hands over what is gathered, cut into batches, and fails if nothing is. -/
theorem deliver_run {width size : Nat} (hroom : HasRoom width size) {f : Row → Run σ α}
    (hf : ∀ row, (f row).Acts fun _ => m row) (h : Undisturbed m handler) (b : Backend σ) :
    ∀ (stream : RowStream) (held : List α) (w : World σ),
      settled ((Context.deliver width size f handler held stream b w).1,
          (Context.deliver width size f handler held stream b w).2.env) =
        (gathered m stream w.env).map fun (as, env) => ((), handed handler (cut size held as) env)
  | [], held, w => by
    simp only [Context.deliver, gathered, Option.map_some, cut]
    split
    · rfl
    · rw [handOver_run h.succeeds]
      rfl
  | .ok row :: rest, held, w => by
    obtain ⟨hend, henv⟩ := hf row b { w with trace := w.trace ++ [.pulled true] }
    rw [Context.deliver, gathered]
    simp only [Run.bind_apply, Run.emit_apply] at hend henv ⊢
    rcases hr : f row b { w with trace := w.trace ++ [.pulled true] } with ⟨e, w₁⟩
    rcases hm : m row w.env with ⟨e', env₁⟩
    simp only [hr, hm] at hend henv
    subst hend henv
    cases e with
    | ok a =>
      dsimp only
      rw [Option.map_map]
      split
      · next hfull =>
        simp only [Run.bind_apply, Run.reserve_eq hroom, Run.pure_apply, handOver_run h.succeeds,
          deliver_run hroom hf h b rest, h.gathered_handler, Option.map_map]
        refine congrArg (Option.map · _) (funext ?_)
        rintro ⟨as, env⟩
        simp only [Function.comp, cut, if_pos hfull, handed, List.foldl_cons]
      · next hfull =>
        rw [deliver_run hroom hf h b rest]
        refine congrArg (Option.map · _) (funext ?_)
        rintro ⟨as, env⟩
        simp only [Function.comp, cut, if_neg hfull]
    | error f => rfl
    | panic p => rfl
  | .error f :: rest, held, w => rfl

end Delivery

/-- A batch reader beside a list reader: one goes well if and only if the other does, and then the
handler has been given the list, in full batches but for the last. -/
structure Delivered (size : Nat) (handler : List α → Callback σ Unit)
    (part : Ending Unit × World σ) (all : Ending (List α) × World σ) : Prop where
  ok_iff : part.1 = .ok () ↔ ∃ as, all.1 = .ok as
  batches : ∀ as, all.1 = .ok as → ∃ batches : List (List α), batches.flatten = as ∧
    (∀ batch ∈ batches, 0 < batch.length ∧ batch.length ≤ size) ∧
    (∀ batch ∈ batches.dropLast, batch.length = size) ∧
    part.2.env = handed handler batches all.2.env

section Delivered

variable {size : Nat} {handler : List α → Callback σ Unit} {part : Ending Unit × World σ}
  {all : Ending (List α) × World σ}

/-- What a handler that keeps its batches has kept is the list. -/
theorem Delivered.flatten_kept (h : Delivered size handler part all) (kept : σ → List (List α))
    (hkept : ∀ batch env, kept (handler batch env).2 = kept env ++ [batch]) {as : List α}
    (has : all.1 = .ok as) (hnone : kept all.2.env = []) : (kept part.2.env).flatten = as := by
  obtain ⟨batches, hflatten, -, -, henv⟩ := h.batches as has
  rw [henv, handed_kept hkept, hnone, List.nil_append, hflatten]

/-- Two readers that are refused alike. -/
theorem delivered_of_error {f g : Failure} (hpart : part.1 = .error f) (hall : all.1 = .error g) :
    Delivered size handler part all where
  ok_iff := by simp [hpart, hall]
  batches as has := by simp [hall] at has

theorem delivered_of_settled (hsize : 0 < size)
    (h : settled (part.1, part.2.env) = (settled (all.1, all.2.env)).map
      fun (as, env) => ((), handed handler (cut size [] as) env)) :
    Delivered size handler part all := by
  obtain ⟨e, w⟩ := part
  obtain ⟨e', w'⟩ := all
  cases e' with
  | ok as =>
    obtain ⟨rfl, henv⟩ : e = .ok () ∧ w.env = handed handler (cut size [] as) w'.env := by
      cases e <;> simp_all [settled]
    refine ⟨⟨fun _ => ⟨as, rfl⟩, fun _ => rfl⟩, ?_⟩
    rintro _ ⟨⟩
    exact ⟨cut size [] as, flatten_cut size [] as, length_of_mem_cut hsize,
      length_of_mem_dropLast_cut, henv⟩
  | error f =>
    have hne : e ≠ .ok () := by
      rintro rfl
      cases h
    exact ⟨iff_of_false hne (by rintro ⟨as, ⟨⟩⟩), fun as has => by cases has⟩
  | panic p =>
    have hne : e ≠ .ok () := by
      rintro rfl
      cases h
    exact ⟨iff_of_false hne (by rintro ⟨as, ⟨⟩⟩), fun as has => by cases has⟩

end Delivered

/-! ### The readers -/

namespace Context

variable {tc : Context σ} {conn : Connection} {q : Sql} {width size : Nat} {f : Row → Run σ α}
  {m : Row → Callback σ α}

theorem queryStream_eq (h : tc.check = .ok conn) (q : Sql) :
    tc.queryStream q = tc.traced q.text q.args (Run.query conn q.text q.args) := by
  rw [queryStream, h]
  rfl

theorem queryRows_eq (h : tc.check = .ok conn) (q : Sql) :
    tc.queryRows q =
      tc.traced q.text q.args (Run.query conn q.text q.args >>= Run.pullAll) := by
  rw [queryRows, h]
  rfl

theorem batches_eq (h : tc.check = .ok conn) (hsize : 0 < size) (handler : List α → Callback σ Unit) :
    tc.batches width size (.ok (q, f)) handler = tc.queryStream q >>= fun stream =>
      Run.reserve width size >>= fun _ => deliver width size f handler [] stream := by
  rw [batches, h, if_neg (Nat.ne_of_gt hsize)]
  rfl

theorem batches_eq_of_room (h : tc.check = .ok conn) (hsize : 0 < size) (hroom : HasRoom width size)
    (handler : List α → Callback σ Unit) : tc.batches width size (.ok (q, f)) handler =
      tc.queryStream q >>= deliver width size f handler [] := by
  rw [batches_eq h hsize, Run.reserve_eq hroom]
  rfl

theorem acts_queryStream (h : tc.check = .ok conn) :
    (tc.queryStream q).Acts (Run.answer conn q.text q.args) := by
  rw [queryStream_eq h]
  exact acts_traced (Run.acts_query conn q.text q.args)

/-- All rows of a query are those of the answer to it. -/
theorem acts_queryRows (h : tc.check = .ok conn) :
    (tc.queryRows q).Acts fun b => (Run.answer conn q.text q.args b).andThen
      fun stream env => (.ofExcept stream.rows, env) := by
  rw [queryRows_eq h]
  exact acts_traced ((Run.acts_query conn q.text q.args).bind fun _ => Run.acts_pullAll _)

/-- A list reader answers with what is gathered from the answer to its query. -/
theorem acts_list (h : tc.check = .ok conn) (hf : ∀ row, (f row).Acts fun _ => m row) :
    (tc.queryRows q >>= mapRows f).Acts fun b =>
      (Run.answer conn q.text q.args b).andThen fun stream =>
        Callback.andThen (fun env => (.ofExcept stream.rows, env)) (Callback.each m) := by
  refine ((acts_queryRows h).bind (acts_mapRows hf)).congr fun b env => ?_
  simp only [Callback.andThen]
  rcases Run.answer conn q.text q.args b env with ⟨_ | _ | _, env'⟩ <;> rfl

/-- What is gathered from the answer to a query is what a list reader comes to. -/
theorem settled_list (h : tc.check = .ok conn) (hf : ∀ row, (f row).Acts fun _ => m row)
    (b : Backend σ) (w : World σ) {stream : RowStream} {env : σ}
    (hanswer : Run.answer conn q.text q.args b w.env = (.ok stream, env)) :
    settled (((tc.queryRows q >>= mapRows f) b w).1, ((tc.queryRows q >>= mapRows f) b w).2.env) =
      gathered m stream env := by
  obtain ⟨hend, henv⟩ := acts_list (q := q) h hf b w
  rw [hend, henv, gathered_eq]
  simp only [Callback.andThen, hanswer]

theorem unseen_of_sends {x : Run σ α} (h : x.Emits (tc.Sends fun _ => False)) : x.Unseen := by
  refine h.mono fun e he => ?_
  cases he with
  | quiet hquiet => exact hquiet
  | call _ ha => exact ha.elim

/-- Of a query and what comes after it drivers see the query. -/
theorem sees_batches (h : tc.check = .ok conn) (hsize : 0 < size)
    (hq : ∀ row, (f row).Emits (tc.Sends fun _ => False)) (handler : List α → Callback σ Unit) :
    (tc.batches width size (.ok (q, f)) handler).Sees fun b env =>
      [.called conn (.query q.text q.args)
        (Run.succeeded (b.query conn q.text q.args env).1)] := by
  rw [batches_eq h hsize, queryStream_eq h]
  exact (sees_traced (Run.sees_query conn q.text q.args)).bind fun stream =>
    (Run.emits_reserve width size).bind fun _ =>
      unseen_of_sends (emits_deliver width size hq handler [] stream)

theorem sees_list (h : tc.check = .ok conn) (hq : ∀ row, (f row).Emits (tc.Sends fun _ => False)) :
    (tc.queryRows q >>= mapRows f).Sees fun b env =>
      [.called conn (.query q.text q.args)
        (Run.succeeded (b.query conn q.text q.args env).1)] := by
  rw [queryRows_eq h]
  have hquery := Run.sees_query (σ := σ) conn q.text q.args
  refine (sees_traced (hquery.bind fun stream => ?_)).bind fun rows => ?_
  · exact Run.emits_pullAll (fun _ => rfl) stream
  · exact unseen_of_sends (emits_mapRows hq rows)

/-- The batches of a statement are the list that it has. -/
theorem delivered_of_check (h : tc.check = .ok conn) (hsize : 0 < size) (hroom : HasRoom width size)
    (hf : ∀ row, (f row).Acts fun _ => m row) {handler : List α → Callback σ Unit}
    (hu : Undisturbed m handler) (b : Backend σ) (w : World σ) :
    Delivered size handler (tc.batches width size (.ok (q, f)) handler b w)
      ((tc.queryRows q >>= mapRows f) b w) := by
  obtain ⟨hend, henv⟩ := acts_queryStream (q := q) h b w
  rw [batches_eq_of_room h hsize hroom, Run.bind_apply]
  rcases hr : tc.queryStream q b w with ⟨e, w₁⟩
  rcases hquery : b.query conn q.text q.args w.env with ⟨outcome, env⟩
  simp only [hr, Run.answer, hquery] at hend henv
  subst hend henv
  cases outcome with
  | error g =>
    obtain ⟨hlist, -⟩ := acts_list (q := q) h hf b w
    refine delivered_of_error (f := g) (g := g) rfl (hlist.trans ?_)
    simp only [Callback.andThen, Run.answer, hquery, Ending.ofExcept]
  | ok stream =>
    refine delivered_of_settled hsize ?_
    have hanswer : Run.answer conn q.text q.args b w.env = (.ok stream, w₁.env) := by
      rw [Run.answer, hquery]
      rfl
    rw [settled_list h hf b w hanswer]
    exact deliver_run hroom hf hu b stream [] w₁

/-- A batch reader and a list reader of one statement are seen alike, and the batches are the list if
there is room for them. -/
theorem agree_statement (h : tc.check = .ok conn) (hsize : 0 < size)
    (hf : ∀ row, (f row).Acts fun _ => m row) (hq : ∀ row, (f row).Emits (tc.Sends fun _ => False))
    (handler : List α → Callback σ Unit) (b : Backend σ) (w : World σ) :
    driverEvents (tc.batches width size (.ok (q, f)) handler b w).2.trace =
        driverEvents ((tc.queryRows q >>= mapRows f) b w).2.trace ∧
      (HasRoom width size → Undisturbed m handler →
        Delivered size handler (tc.batches width size (.ok (q, f)) handler b w)
          ((tc.queryRows q >>= mapRows f) b w)) := by
  refine ⟨?_, fun hroom hu => delivered_of_check h hsize hroom hf hu b w⟩
  rw [sees_batches h hsize hq handler b w, sees_list h hq b w]

/-- The record that a row of a table makes. -/
def bound (t : Table) (columns : List String) (row : Row) : Except Failure Record :=
  match t.bind t.blank columns row.cells with
  | (r, .ok ()) => .ok r
  | (_, .error f) => .error f

theorem acts_bindRow (t : Table) (columns : List String) (row : Row) :
    (bindRow t columns (fresh t) row : Run σ Record).Acts fun _ env =>
      (.ofExcept (bound t columns row), env) := by
  intro b w
  simp only [bindRow, bound, fresh, Run.bind_apply, Run.callback_apply]
  rcases t.bind t.blank columns row.cells with ⟨r, outcome⟩
  cases outcome <;> exact ⟨rfl, rfl⟩

theorem select_eq (h : tc.check = .ok conn) {t : Table} {sel : Selection} {stmt : SelectStatement}
    (hs : Statement.select t tc.scope sel = .ok stmt) (fresh : Callback σ Record) :
    tc.select t sel fresh = tc.queryRows stmt.sql >>= mapRows (bindRow t stmt.columns fresh) := by
  rw [select, h, hs]
  rfl

/-- A reader of a table's records in batches agrees with the reader of their list. -/
theorem agree_select (width : Nat) (hsize : 0 < size) (t : Table) (sel : Selection)
    (handler : List Record → Callback σ Unit) (b : Backend σ) (w : World σ) :
    let part := tc.batches width size ((Statement.select t tc.scope sel).map fun stmt =>
      (stmt.sql, bindRow t stmt.columns (fresh t))) handler b w
    let all := tc.select t sel (fresh t) b w
    driverEvents part.2.trace = driverEvents all.2.trace ∧
      (HasRoom width size → (∀ batch env, (handler batch env).1 = .ok ()) →
        Delivered size handler part all) := by
  cases h : tc.check with
  | error f =>
    simp only [batches, select, h]
    exact ⟨rfl, fun _ _ => delivered_of_error (f := f) (g := f) rfl rfl⟩
  | ok conn =>
    cases hs : Statement.select t tc.scope sel with
    | error f =>
      simp only [batches, select, h, hs, if_neg (Nat.ne_of_gt hsize)]
      exact ⟨rfl, fun _ _ => delivered_of_error (f := f) (g := f) rfl rfl⟩
    | ok stmt =>
      rw [select_eq h hs]
      obtain ⟨hseen, hdelivered⟩ := agree_statement (q := stmt.sql) h hsize
        (acts_bindRow t stmt.columns) (emits_bindRow t stmt.columns (fresh t)) handler b w
      exact ⟨hseen, fun hroom hs => hdelivered hroom ⟨hs, fun _ _ _ => rfl, fun _ _ _ => rfl⟩⟩

/-- A reader of mapped rows in batches agrees with the reader of their list. -/
theorem agree_raw (width : Nat) (hsize : 0 < size) (q : Sql) (mapper : Row → Callback σ α)
    (handler : List α → Callback σ Unit) (b : Backend σ) (w : World σ) :
    let part := tc.queryRawBatches q width size mapper handler b w
    let all := tc.queryRaw q mapper b w
    driverEvents part.2.trace = driverEvents all.2.trace ∧
      (HasRoom width size → Undisturbed mapper handler → Delivered size handler part all) := by
  cases h : tc.check with
  | error f =>
    simp only [queryRawBatches, batches, queryRaw, queryRows, h]
    exact ⟨rfl, fun _ _ => delivered_of_error (f := f) (g := f) rfl rfl⟩
  | ok conn =>
    exact agree_statement h hsize (fun row => Run.acts_callback (mapper row))
      (fun row => Run.emits_callback _) handler b w

/-! ### The first record -/

/-- What a reader of one record makes of a result. -/
def first (t : Table) (columns : List String) : RowStream → Ending (Option Record)
  | [] => .ok none
  | .ok row :: _ => (Ending.ofExcept (bound t columns row)).map some
  | .error f :: _ => .error f

/-- If there is a list, its first record is what the reader of one record makes of the result. -/
theorem first_of_gathered {t : Table} {columns : List String} {stream : RowStream} {env env' : σ}
    {rs : List Record} (h : gathered (fun row env => (.ofExcept (bound t columns row), env)) stream env =
      some (rs, env')) : first t columns stream = .ok rs.head? := by
  match stream with
  | [] =>
    cases h
    rfl
  | .ok row :: rest =>
    rw [gathered] at h
    rw [first]
    cases hr : bound t columns row with
    | error f =>
      rw [hr] at h
      cases h
    | ok r =>
      rw [hr] at h
      obtain ⟨⟨rs', env₁⟩, -, hrs⟩ := Option.map_eq_some_iff.mp h
      cases hrs
      rfl
  | .error f :: rest => cases h

theorem selectFirst_run (h : tc.check = .ok conn) {t : Table} {sel : Selection}
    {stmt : SelectStatement} (hs : Statement.select t tc.scope sel = .ok stmt) (b : Backend σ)
    (w : World σ) {stream : RowStream} {env : σ}
    (hanswer : Run.answer conn stmt.sql.text stmt.sql.args b w.env = (.ok stream, env)) :
    (tc.selectFirst t sel b w).1 = first t stmt.columns stream := by
  obtain ⟨hend, -⟩ := acts_queryStream (q := stmt.sql) h b w
  rw [hanswer] at hend
  simp only [selectFirst, h, hs, Run.bind_apply, Run.ofExcept_ok_apply]
  rcases hr : tc.queryStream stmt.sql b w with ⟨e, w₁⟩
  rw [hr] at hend
  cases hend
  match stream with
  | [] => rfl
  | .ok row :: rest =>
    simp only [Run.pull, Run.bind_apply, Run.emit_apply, Run.pure_apply, first]
    obtain ⟨hbound, -⟩ := acts_bindRow t stmt.columns row b
      { w₁ with trace := w₁.trace ++ [.pulled true] }
    rcases hb : bindRow t stmt.columns (fresh t) row b
      { w₁ with trace := w₁.trace ++ [.pulled true] } with ⟨e, w₂⟩
    simp only [hb] at hbound
    subst hbound
    cases bound t stmt.columns row <;> rfl
  | .error f :: rest => rfl

end Context

/-- A select goes well without its order as well, over the same columns and with the same arguments. -/
theorem Statement.exists_unordered {t : Table} {s : Scope} {matcher : Option Matcher}
    {view : Option View} {orders : List Order} {stmt : SelectStatement}
    (h : select t s { matcher := matcher, view := view, orders := orders } = .ok stmt) :
    ∃ stmt', select t s { matcher := matcher, view := view } = .ok stmt' ∧
      stmt'.columns = stmt.columns ∧ stmt'.sql.args = stmt.sql.args := by
  obtain ⟨cond, order, page, hcheck, hcond, -, -, hcolumns, hsql⟩ := exists_of_select h
  obtain ⟨stmt', hs⟩ :
      ∃ stmt', select t s { matcher := matcher, view := view } = .ok stmt' := by
    simp only [select, hcheck, hcond]
    exact ⟨_, rfl⟩
  obtain ⟨cond', order', page', -, hcond', -, -, hcolumns', hsql'⟩ := exists_of_select hs
  obtain rfl : cond' = cond := Except.ok.inj (hcond'.symm.trans hcond)
  refine ⟨stmt', hs, hcolumns'.trans hcolumns.symm, ?_⟩
  rw [hsql, hsql']
  rfl

namespace Context

variable {tc : Context σ}

/-- If there is a list, its first record is the one that the reader of one record answers with, as long
as the database answers both statements alike. -/
theorem queryOne_of_queryList {t : Table} {matcher : Option Matcher} {view : Option View}
    {orders : List Order} {rs : List Record} {b : Backend σ} {w : World σ}
    (h : (tc.queryList t matcher view orders b w).1 = .ok rs)
    (halike : orders = [] ∨ ∀ conn text text' args env,
      b.query conn text args env = b.query conn text' args env) :
    (tc.queryOne t matcher view b w).1 = .ok rs.head? := by
  cases hc : tc.check with
  | error f =>
    simp only [queryList, select, hc] at h
    cases h
  | ok conn =>
    cases hs : Statement.select t tc.scope
      { matcher := matcher, view := view, orders := orders } with
    | error f =>
      simp only [queryList, select, hc, hs] at h
      cases h
    | ok stmt =>
      rw [queryList, select_eq hc hs] at h
      rcases hquery : b.query conn stmt.sql.text stmt.sql.args w.env with ⟨outcome, env⟩
      cases outcome with
      | error f =>
        rw [(acts_list hc (acts_bindRow t stmt.columns) b w).1] at h
        simp only [Callback.andThen, Run.answer, hquery, Ending.ofExcept] at h
        cases h
      | ok stream =>
        have hanswer : Run.answer conn stmt.sql.text stmt.sql.args b w.env = (.ok stream, env) := by
          rw [Run.answer, hquery]
          rfl
        have hgathered := settled_list hc (acts_bindRow t stmt.columns) b w hanswer
        rw [h] at hgathered
        obtain ⟨stmt', hs', hcolumns, hargs⟩ := Statement.exists_unordered hs
        have hanswer' : Run.answer conn stmt'.sql.text stmt'.sql.args b w.env = (.ok stream, env) := by
          rcases halike with rfl | halike
          · rw [hs] at hs'
            cases hs'
            exact hanswer
          · rw [← hanswer, hargs, Run.answer, Run.answer, halike conn stmt'.sql.text stmt.sql.text]
        rw [queryOne, selectFirst_run hc hs' b w hanswer', hcolumns]
        exact first_of_gathered hgathered.symm

/-- A limit on all rows that is not positive is none. -/
theorem limitPager_of_le {limit : Option Int64} (h : ∀ n ∈ limit, n ≤ 0) : limitPager limit = none := by
  cases limit with
  | none => rfl
  | some n =>
    have hn : ¬ 0 < n := Int64.not_lt.mpr (h n rfl)
    rw [limitPager, Option.filter_some_neg (by simpa using hn), Option.map_none]

theorem limitPager_of_pos {n : Int64} (h : 0 < n) : limitPager (some n) = some (Pager.limit n) := by
  rw [limitPager, Option.filter_some_pos (by simpa using h), Option.map_some]

/-- The readers agree, in any context, whatever the database answers. A batch reader is seen to send
what the list reader sends, or the reader of the page that a positive limit asks for; with a handler
that always goes well and batches that there can be room for it goes well if and only if that one does,
and then the batches are the list. The same holds of mapped rows, if handler and mapper have no state in
common. And where there is a list, its first record, if it has one, is what the reader of one record
answers with. -/
theorem readers_agree (tc : Context σ) (b : Backend σ) (w : World σ) (width : Nat) {size : Nat}
    (hsize : 0 < size) :
    (∀ t matcher view orders limit handler, (∀ n ∈ limit, n ≤ 0) →
      let part := tc.queryBatches t matcher view orders limit width size handler b w
      let all := tc.queryList t matcher view orders b w
      driverEvents part.2.trace = driverEvents all.2.trace ∧
        (HasRoom width size → (∀ batch env, (handler batch env).1 = .ok ()) →
          Delivered size handler part all)) ∧
    (∀ t matcher view orders n handler, 0 < n →
      let part := tc.queryBatches t matcher view orders (some n) width size handler b w
      let all := tc.queryPage t matcher view (Pager.limit n) orders b w
      driverEvents part.2.trace = driverEvents all.2.trace ∧
        (HasRoom width size → (∀ batch env, (handler batch env).1 = .ok ()) →
          Delivered size handler part all)) ∧
    (∀ q (mapper : Row → Callback σ α) handler,
      let part := tc.queryRawBatches q width size mapper handler b w
      let all := tc.queryRaw q mapper b w
      driverEvents part.2.trace = driverEvents all.2.trace ∧
        (HasRoom width size → Undisturbed mapper handler → Delivered size handler part all)) ∧
    ∀ t matcher view orders rs, (tc.queryList t matcher view orders b w).1 = .ok rs →
      (orders = [] ∨ ∀ conn text text' args env,
        b.query conn text args env = b.query conn text' args env) →
      (tc.queryOne t matcher view b w).1 = .ok rs.head? := by
  refine ⟨?_, ?_, ?_, ?_⟩
  · intro t matcher view orders limit handler hlimit
    simp only [queryBatches, queryList, limitPager_of_le hlimit]
    exact agree_select width hsize t _ handler b w
  · intro t matcher view orders n handler hn
    simp only [queryBatches, queryPage, limitPager_of_pos hn]
    exact agree_select width hsize t _ handler b w
  · intro q mapper handler
    exact agree_raw width hsize q mapper handler b w
  · intro t matcher view orders rs h halike
    exact queryOne_of_queryList h halike

/-- Three rows and batches of two: the mapper counts the rows, and the handler keeps what it is given. -/
theorem readers_agree_counted :
    let State := Scripted (Nat × List (List Nat))
    let mapper : Row → Callback State Nat := fun _ env =>
      (.ok env.own.1, { env with own := (env.own.1 + 1, env.own.2) })
    let keep : List Nat → Callback State Unit := fun batch env =>
      (.ok (), { env with own := (env.own.1, env.own.2 ++ [batch]) })
    let note : List Record → Callback State Unit := fun batch env =>
      (.ok (), { env with own := (env.own.1, env.own.2 ++ [[batch.length]]) })
    let rows : RowStream := [7, 8, 9].map fun n => .ok ⟨["id"], [.int n]⟩
    let w : World State := { env := ⟨[{ results := [rows] }], (0, [])⟩ }
    let t : Table := ⟨"t_log", ["id"], some "id", [("id", .int .i64)], none⟩
    let tc : Context State :=
      { style := .none, status := .init, scope := { traceId := "" }, logSql := true,
        connection := some ⟨0, 0⟩, interceptors := [] }
    let part := tc.queryRawBatches ⟨"select id from t_log", []⟩ 8 2 mapper keep Scripted.backend w
    let all := tc.queryRaw ⟨"select id from t_log", []⟩ mapper Scripted.backend w
    0 < 2 ∧ HasRoom 8 2 ∧ Undisturbed mapper keep ∧ Delivered 2 keep part all ∧
      all.1 = .ok [0, 1, 2] ∧ part.2.env.own = (3, [[0, 1], [2]]) ∧
      Delivered 2 note (tc.queryBatches t none none [] (some 0) 8 2 note Scripted.backend w)
        (tc.queryList t none none [] Scripted.backend w) ∧
      Delivered 2 note (tc.queryBatches t none none [] (some 5) 8 2 note Scripted.backend w)
        (tc.queryPage t none none (Pager.limit 5) [] Scripted.backend w) ∧
      (tc.queryOne t none none Scripted.backend w).1 = .ok (some ⟨[⟨"id", .int .i64, .int 7⟩]⟩) := by
  intro State mapper keep note rows w t tc part all
  have hroom : HasRoom 8 2 := by decide
  have hundisturbed : Undisturbed mapper keep := ⟨fun _ _ => rfl, fun _ _ _ => rfl, fun _ _ _ => rfl⟩
  obtain ⟨hlist, hpage, hraw, hone⟩ :=
    readers_agree (α := Nat) tc Scripted.backend w 8 (show 0 < 2 by decide)
  have hzero : ∀ n ∈ some (0 : Int64), n ≤ 0 := by
    rintro _ ⟨⟩
    decide
  have hrecords : (tc.queryList t none none [] Scripted.backend w).1 =
      .ok [⟨[⟨"id", .int .i64, .int 7⟩]⟩, ⟨[⟨"id", .int .i64, .int 8⟩]⟩,
        ⟨[⟨"id", .int .i64, .int 9⟩]⟩] := by
    decide +kernel
  exact ⟨by decide, hroom, hundisturbed, (hraw _ mapper keep).2 hroom hundisturbed,
    by decide +kernel, by decide +kernel,
    (hlist t none none [] (some 0) note hzero).2 hroom fun _ _ => rfl,
    (hpage t none none [] 5 note (by decide)).2 hroom fun _ _ => rfl,
    hone t none none [] _ hrecords (.inl rfl)⟩

/-- Two ways in which a batch reader and a list reader part, with a handler that always goes well. There
is no room for batches as long as that, though there is one row; and a mapper that asks how many batches
the handler has been given is told otherwise where all rows are taken first. -/
theorem readers_disagree :
    let State := Scripted (List (List Nat))
    let keep : List Nat → Callback State Unit := fun batch env =>
      (.ok (), { env with own := env.own ++ [batch] })
    let note : List Record → Callback State Unit := fun batch env => keep [batch.length] env
    let mapper : Row → Callback State Nat := fun _ env => (.ok env.own.length, env)
    let result (ids : List Int64) : World State :=
      { env := ⟨[{ results := [ids.map fun n => .ok ⟨["id"], [.int n]⟩] }], []⟩ }
    let t : Table := ⟨"t_log", ["id"], some "id", [("id", .int .i64)], none⟩
    let tc : Context State :=
      { style := .none, status := .init, scope := { traceId := "" }, logSql := true,
        connection := some ⟨0, 0⟩, interceptors := [] }
    let long := tc.queryBatches t none none [] none 24 9223372036854775807 note Scripted.backend
      (result [7])
    let list := tc.queryList t none none [] Scripted.backend (result [7])
    let single := tc.queryRawBatches ⟨"select id from t_log", []⟩ 8 1 mapper keep Scripted.backend
      (result [7, 8, 9])
    let mapped := tc.queryRaw ⟨"select id from t_log", []⟩ mapper Scripted.backend (result [7, 8, 9])
    (∀ batch env, (keep batch env).1 = .ok ()) ∧ (∀ batch env, (note batch env).1 = .ok ()) ∧
      list.1 = .ok [⟨[⟨"id", .int .i64, .int 7⟩]⟩] ∧ long.1 = .panic "capacity overflow" ∧
      ¬ Delivered 9223372036854775807 note long list ∧ HasRoom 8 1 ∧ mapped.1 = .ok [0, 0, 0] ∧
      single.1 = .ok () ∧ single.2.env.own = [[0], [1], [2]] ∧ ¬ Delivered 1 keep single mapped := by
  intro State keep note mapper result t tc long list single mapped
  have hlist : list.1 = .ok [⟨[⟨"id", .int .i64, .int 7⟩]⟩] := by decide +kernel
  have hlong : long.1 = .panic "capacity overflow" := by decide +kernel
  have hmapped : mapped.1 = .ok [0, 0, 0] := by decide +kernel
  have hsingle : single.2.env.own = [[0], [1], [2]] := by decide +kernel
  refine ⟨fun _ _ => rfl, fun _ _ => rfl, hlist, hlong, ?_, by decide, hmapped, by decide +kernel,
    hsingle, ?_⟩
  · intro hdelivered
    have hok := hdelivered.ok_iff.mpr ⟨_, hlist⟩
    rw [hlong] at hok
    cases hok
  · intro hdelivered
    have hbefore : mapped.2.env.own = [] := by decide +kernel
    have hflatten := hdelivered.flatten_kept (fun env => env.own) (fun _ _ => rfl) hmapped hbefore
    rw [hsingle] at hflatten
    exact absurd hflatten (by decide)

end Context

end TableAccess
