import Mathlib.Data.List.Forall2
import TableAccess.Proofs.Wire.Storage
import TableAccess.Proofs.Work.Readers
import TableAccess.Proofs.Work.Routing

/-!
Rows bound into records.

The cells of a row belong to columns by their position. Each is converted to the type of the field that
its column is mapped to and put there, and as long as no column comes twice two cells do not meet, so it
makes no difference in which order they come. The first cell that does not fit ends the binding, and its
failure names the column; the cells before it stay where they were put. A reader answers with records
only if every one of them has been bound from its row to the end.
-/

namespace TableAccess

namespace Record

variable {r s : Record} {c d : String} {v w : Value} {type : FieldType}
  {cells : List (String × Value)}

/-- The form in which a record takes a cell: that of the field's type, or any if there is no field. -/
def taken (r : Record) (c : String) (v : Value) : Except Failure Value :=
  match r.type? c with
  | none => .ok v
  | some type => type.convert c v

/-- Whether every cell of a known column converts to the type of its field. -/
def Fits (r : Record) (cells : List (String × Value)) : Prop :=
  ∀ c v, (c, v) ∈ cells → ∀ type, r.type? c = some type → ∃ v', type.convert c v = .ok v'

/-- A record that cells have been written into: the known columns hold the converted cells, the other
fields are as they were, and so are the names and types of all. -/
structure Binds (r : Record) (cells : List (String × Value)) (r' : Record) : Prop where
  schema : r'.schema = r.schema
  known : ∀ c v type, (c, v) ∈ cells → r.type? c = some type →
    ∃ v', type.convert c v = .ok v' ∧ r'.get? c = some v'
  others : (r'.fields.filter fun f => f.name ∉ cells.map Prod.fst) =
    r.fields.filter fun f => f.name ∉ cells.map Prod.fst

/-- How a binding ends: with all cells in the record, or with those before the first that does not fit
and a failure that names its column. -/
inductive Filled (r : Record) (cells : List (String × Value)) : Record × Except Failure Unit → Prop
  | all {r' : Record} (fits : r.Fits cells) (binds : r.Binds cells r') : Filled r cells (r', .ok ())
  | upTo {r' : Record} {before after : List (String × Value)} {c : String} {v : Value}
      {type : FieldType} {m : Mismatch} (split : cells = before ++ (c, v) :: after)
      (fits : r.Fits before) (binds : r.Binds before r') (known : r.type? c = some type)
      (fails : type.read v = .error m) : Filled r cells (r', .error (.decode c (.mismatch m)))

/-! ### One cell -/

/-- The record with another value in the field mapped to a column. -/
def put (r : Record) (c : String) (v : Value) : Record := ⟨putValue c v r.fields⟩

theorem schema_put (r : Record) (c : String) (v : Value) : (r.put c v).schema = r.schema :=
  map_putValue c v r.fields

theorem get?_put (h : r.type? c = some type) : (r.put c v).get? c = some v := by
  obtain ⟨f, hf, -⟩ := Option.map_eq_some_iff.mp h
  rw [get?, put, find?_putValue, if_pos rfl, hf, Option.map_some]

theorem putValue_of_find?_eq_none : ∀ {fields : List Field},
    (fields.find? fun f => f.name = c) = none → putValue c v fields = fields
  | [], _ => rfl
  | f :: rest, h => by
    rw [List.find?_cons] at h
    split at h
    · cases h
    · next hf => rw [putValue, if_neg (of_decide_eq_false hf), putValue_of_find?_eq_none h]

/-- A value put into one field is not noticed by another. -/
theorem putValue_comm (h : c ≠ d) : ∀ fields : List Field,
    putValue d w (putValue c v fields) = putValue c v (putValue d w fields)
  | [] => rfl
  | f :: rest => by
    by_cases hc : f.name = c
    · simp [putValue, hc, h]
    · by_cases hd : f.name = d
      · simp [putValue, hd, h.symm]
      · simp only [putValue, if_neg hc, if_neg hd, putValue_comm h rest]

theorem put_comm (h : c ≠ d) : (r.put c v).put d w = (r.put d w).put c v :=
  congrArg Record.mk (putValue_comm h r.fields)

/-- Fields of other names are not touched. -/
theorem filter_putValue {p : Field → Bool} (h : ∀ f : Field, f.name = c → p f = false) :
    ∀ fields : List Field, (putValue c v fields).filter p = fields.filter p
  | [] => rfl
  | f :: rest => by
    rw [putValue]
    split
    · next hf =>
      have hold : p f = false := h f hf
      have hnew : p { f with value := v } = false := h _ hf
      rw [List.filter_cons, List.filter_cons, hold, hnew]
      rfl
    · rw [List.filter_cons, List.filter_cons, filter_putValue h rest]

theorem taken_congr (h : r.schema = s.schema) (c : String) (v : Value) : r.taken c v = s.taken c v := by
  rw [taken, taken, type?_congr h]

/-- What a record does not take does not convert to the type of a field. -/
theorem exists_of_taken_error {e : Failure} (h : r.taken c v = .error e) :
    ∃ type m, r.type? c = some type ∧ type.read v = .error m ∧ e = .decode c (.mismatch m) := by
  rw [taken] at h
  split at h
  · cases h
  · next type htype =>
    rw [FieldType.convert] at h
    cases hread : type.read v with
    | ok v' =>
      rw [hread] at h
      cases h
    | error m =>
      rw [hread] at h
      cases h
      exact ⟨type, m, htype, hread, rfl⟩

/-- A cell is put where it belongs in the form in which the record takes it. -/
theorem set_eq (r : Record) (c : String) (v : Value) :
    r.set c v = (r.taken c v).map (r.put c) := by
  rw [set, taken]
  cases h : r.type? c with
  | none =>
    rw [type?, Option.map_eq_none_iff] at h
    exact congrArg (Except.ok ∘ Record.mk) (putValue_of_find?_eq_none h).symm
  | some type => rfl

theorem setAll_cons (h : r.taken c v = .ok w) :
    r.setAll ((c, v) :: cells) = (r.put c w).setAll cells := by
  rw [setAll, set_eq, h]
  rfl

theorem fits_cons_iff :
    r.Fits ((c, v) :: cells) ↔ (∃ w, r.taken c v = .ok w) ∧ r.Fits cells := by
  constructor
  · intro h
    refine ⟨?_, fun d u hd => h d u (List.mem_cons_of_mem _ hd)⟩
    rw [taken]
    split
    · exact ⟨v, rfl⟩
    · next type htype => exact h c v (List.mem_cons_self ..) type htype
  · rintro ⟨⟨w, hw⟩, hrest⟩ d u hd type htype
    rcases List.mem_cons.mp hd with heq | hd
    · cases heq
      rw [taken, htype] at hw
      exact ⟨w, hw⟩
    · exact hrest d u hd type htype

theorem Fits.congr (h : r.Fits cells) (hs : s.schema = r.schema) : s.Fits cells := by
  intro c v hc type htype
  rw [type?_congr hs] at htype
  exact h c v hc type htype

/-! ### All cells of a row -/

/-- A column that no cell is for is as it was. -/
theorem Binds.get?_eq {r' : Record} (h : r.Binds cells r') (hc : c ∉ cells.map Prod.fst) :
    r'.get? c = r.get? c := by
  have hfind (s : Record) : s.get? c =
      ((s.fields.filter fun f => f.name ∉ cells.map Prod.fst).find? fun f => f.name = c).map
        Field.value := by
    rw [get?, List.find?_filter]
    refine congrArg (Option.map Field.value) (congrArg (List.find? · s.fields) (funext fun f => ?_))
    by_cases hf : f.name = c
    · simp [hf, hc]
    · simp [hf]
  rw [hfind, hfind, h.others]

theorem fits_nil (r : Record) : r.Fits [] := fun _ _ h => absurd h List.not_mem_nil

theorem binds_nil (r : Record) : r.Binds [] r where
  schema := rfl
  known _ _ _ h := absurd h List.not_mem_nil
  others := rfl

/-- One more cell at the front, of a column of its own. -/
theorem Binds.cons {r' : Record} (h : (r.put c w).Binds cells r') (hw : r.taken c v = .ok w)
    (hc : c ∉ cells.map Prod.fst) : r.Binds ((c, v) :: cells) r' where
  schema := h.schema.trans (schema_put r c w)
  known := by
    intro d u type hd htype
    rcases List.mem_cons.mp hd with heq | hd
    · cases heq
      rw [taken, htype] at hw
      exact ⟨w, hw, (h.get?_eq hc).trans (get?_put htype)⟩
    · rw [← type?_congr (schema_put r c w)] at htype
      exact h.known d u type hd htype
  others := by
    have hboth (fields : List Field) :
        (fields.filter fun f => f.name ∉ ((c, v) :: cells).map Prod.fst) =
          (fields.filter fun f => f.name ∉ cells.map Prod.fst).filter fun f => f.name ≠ c := by
      rw [List.filter_filter]
      refine congrArg (List.filter · fields) (funext fun f => ?_)
      simp only [List.map_cons, List.mem_cons, not_or, Bool.decide_and]
    have hput : ((r.put c w).fields.filter fun f => f.name ∉ ((c, v) :: cells).map Prod.fst) =
        r.fields.filter fun f => f.name ∉ ((c, v) :: cells).map Prod.fst :=
      filter_putValue (fun f hf => by simp [hf]) r.fields
    rw [← hput, hboth, hboth, h.others]

/-- Cells of different columns fill a record up to the first that does not fit. -/
theorem setAll_filled (hdistinct : (cells.map Prod.fst).Nodup) : r.Filled cells (r.setAll cells) := by
  induction cells generalizing r with
  | nil => exact .all r.fits_nil r.binds_nil
  | cons cell cells ih =>
    obtain ⟨c, v⟩ := cell
    obtain ⟨hc, hrest⟩ := List.nodup_cons.mp hdistinct
    cases h : r.taken c v with
    | error e =>
      obtain ⟨type, m, htype, hread, rfl⟩ := exists_of_taken_error h
      rw [setAll, set_eq, h]
      exact .upTo rfl r.fits_nil r.binds_nil htype hread
    | ok w =>
      have hfits {front : List (String × Value)} (hf : (r.put c w).Fits front) :
          r.Fits ((c, v) :: front) :=
        fits_cons_iff.mpr ⟨⟨w, h⟩, hf.congr (schema_put r c w).symm⟩
      have hlater := @ih (r.put c w) hrest
      rw [setAll_cons h]
      generalize (r.put c w).setAll cells = result at hlater ⊢
      cases hlater with
      | all fits binds => exact .all (hfits fits) (binds.cons h hc)
      | upTo split fits binds known fails =>
        subst split
        rw [type?_congr (schema_put r c w)] at known
        have hfront : c ∉ (List.map Prod.fst _) := fun hmem =>
          hc (by rw [List.map_append]; exact List.mem_append_left _ hmem)
        exact .upTo rfl (hfits fits) (binds.cons h hfront) known fails

/-- Cells that fit fill a record in any order, and it is the same record. -/
theorem setAll_perm {cells' : List (String × Value)} (h : cells.Perm cells') :
    (cells.map Prod.fst).Nodup → r.Fits cells → r.setAll cells = r.setAll cells' := by
  induction h generalizing r with
  | nil => exact fun _ _ => rfl
  | cons cell _ ih =>
    intro hdistinct hfits
    obtain ⟨c, v⟩ := cell
    obtain ⟨⟨w, hw⟩, hrest⟩ := fits_cons_iff.mp hfits
    rw [setAll_cons hw, setAll_cons hw]
    exact ih (List.nodup_cons.mp hdistinct).2 (hrest.congr (schema_put r c w))
  | swap x y l =>
    intro hdistinct hfits
    obtain ⟨c, v⟩ := x
    obtain ⟨d, u⟩ := y
    obtain ⟨⟨u', hu⟩, hrest⟩ := fits_cons_iff.mp hfits
    obtain ⟨⟨v', hv⟩, -⟩ := fits_cons_iff.mp hrest
    have hne : d ≠ c := by
      rintro rfl
      exact (List.nodup_cons.mp hdistinct).1 (List.mem_cons_self ..)
    have hv' : (r.put d u').taken c v = .ok v' := (taken_congr (schema_put ..) c v).trans hv
    have hu' : (r.put c v').taken d u = .ok u' := (taken_congr (schema_put ..) d u).trans hu
    rw [setAll_cons hu, setAll_cons hv', setAll_cons hv, setAll_cons hu', put_comm hne]
  | trans h₁ _ ih₁ ih₂ =>
    intro hdistinct hfits
    have hmiddle : r.Fits _ := fun c v hc => hfits c v (h₁.mem_iff.mpr hc)
    exact (ih₁ hdistinct hfits).trans (ih₂ ((h₁.map Prod.fst).nodup_iff.mp hdistinct) hmiddle)

end Record

/-! ### The readers -/

variable {σ ρ α β : Type} {b : Backend σ} {w w' : World σ}

/-- A run that comes to a value in steps comes to a value in each of them. -/
theorem Run.exists_of_bind {x : Run σ α} {f : α → Run σ β} {y : β}
    (h : (x >>= f) b w = (.ok y, w')) : ∃ a w₁, x b w = (.ok a, w₁) ∧ f a b w₁ = (.ok y, w') := by
  rw [bind_apply] at h
  rcases hx : x b w with ⟨e, w₁⟩
  rw [hx] at h
  cases e with
  | ok a => exact ⟨a, w₁, rfl, h⟩
  | error g => cases h
  | panic p => cases h

/-- What is checked first has no effect. -/
theorem Run.exists_of_ofExcept_bind {x : Except Failure α} {f : α → Run σ β} {y : β}
    (h : (ofExcept x >>= f) b w = (.ok y, w')) : ∃ a, x = .ok a ∧ f a b w = (.ok y, w') := by
  cases x with
  | ok a => exact ⟨a, rfl, h⟩
  | error e => cases h

/-- A row that is taken is the first one. -/
theorem Run.cons_of_pull {stream rest : RowStream} {row : Row}
    (h : (pull stream : Run σ _) b w = (.ok (some row, rest), w')) : stream = .ok row :: rest := by
  match stream with
  | [] => cases h
  | .ok row' :: rest' =>
    cases h
    rfl
  | .error f :: rest' => cases h

namespace Context

variable {tc : Context σ} {t : Table} {columns : List String} {make : Callback σ Record}

/-- A record that a row has been bound into to the end, after it had been made for it. -/
def Drawn (t : Table) (columns : List String) (make : Callback σ Record) (row : Row) (r : Record) :
    Prop :=
  ∃ env env' start, make env = (.ok start, env') ∧ t.bind start columns row.cells = (r, .ok ())

/-- What the database answers a select over a table with that the context sends, and the columns that
the select projects. -/
def Answered (tc : Context σ) (t : Table) (b : Backend σ) (env : σ) (columns : List String)
    (stream : RowStream) : Prop :=
  ∃ conn q stmt env', tc.check = .ok conn ∧ Statement.select t tc.scope q = .ok stmt ∧
    stmt.columns = columns ∧ Run.answer conn stmt.sql.text stmt.sql.args b env = (.ok stream, env')

/-- Records that have been drawn from all rows of an answer, one from each. -/
def DrawsAll (tc : Context σ) (t : Table) (make : Callback σ Record) (b : Backend σ) (env : σ)
    (rs : List Record) : Prop :=
  ∃ columns stream rows, tc.Answered t b env columns stream ∧ stream.rows = .ok rows ∧
    List.Forall₂ (Drawn t columns make) rows rs

/-- A record that has been drawn from the first row of an answer. -/
def DrawsFirst (tc : Context σ) (t : Table) (make : Callback σ Record) (b : Backend σ) (env : σ)
    (r : Record) : Prop :=
  ∃ columns row rest, tc.Answered t b env columns (.ok row :: rest) ∧ Drawn t columns make row r

/-- A record that comes of a row has been drawn from it. -/
theorem drawn_of_bindRow {row : Row} {r : Record}
    (h : bindRow t columns make row b w = (.ok r, w')) : Drawn t columns make row r := by
  obtain ⟨start, w₁, hmake, h⟩ := Run.exists_of_bind h
  rw [Run.callback_apply] at hmake
  have hstart : (make w.env).1 = .ok start := congrArg Prod.fst hmake
  rcases hbind : t.bind start columns row.cells with ⟨r', outcome⟩
  rw [hbind] at h
  cases outcome with
  | error f => cases h
  | ok u =>
    cases h
    exact ⟨w.env, (make w.env).2, start, Prod.ext hstart rfl, hbind⟩

/-- Records that come of rows have been drawn from them, one from each. -/
theorem drawn_of_mapRows : ∀ {rows : List Row} {rs : List Record} {w w' : World σ},
    mapRows (bindRow t columns make) rows b w = (.ok rs, w') →
    List.Forall₂ (Drawn t columns make) rows rs
  | [], rs, w, w', h => by
    cases h
    exact .nil
  | row :: rows, rs, w, w', h => by
    obtain ⟨r, w₁, hrow, h⟩ := Run.exists_of_bind h
    obtain ⟨rs', w₂, hrows, h⟩ := Run.exists_of_bind h
    cases h
    exact .cons (drawn_of_bindRow hrow) (drawn_of_mapRows hrows)

/-- Rows that are had are all those of an answer. -/
theorem exists_of_queryRows {conn : Connection} {q : Sql} {rows : List Row} (hc : tc.check = .ok conn)
    (h : tc.queryRows q b w = (.ok rows, w')) : ∃ stream env,
      Run.answer conn q.text q.args b w.env = (.ok stream, env) ∧ stream.rows = .ok rows := by
  obtain ⟨hend, -⟩ := acts_queryRows hc b w
  rw [h] at hend
  simp only [Callback.andThen] at hend
  rcases hanswer : Run.answer conn q.text q.args b w.env with ⟨e, env⟩
  rw [hanswer] at hend
  cases e with
  | ok stream =>
    refine ⟨stream, env, rfl, ?_⟩
    cases hrows : stream.rows with
    | ok rows' =>
      simp only [hrows, Ending.ofExcept] at hend
      cases hend
      rfl
    | error f =>
      simp only [hrows, Ending.ofExcept] at hend
      cases hend
  | error f => cases hend
  | panic p => cases hend

theorem drawsAll_of_select {q : Selection} {rs : List Record}
    (h : tc.select t q make b w = (.ok rs, w')) : tc.DrawsAll t make b w.env rs := by
  obtain ⟨conn, hc, h⟩ := Run.exists_of_ofExcept_bind h
  obtain ⟨stmt, hs, h⟩ := Run.exists_of_ofExcept_bind h
  obtain ⟨rows, w₃, hrows, h⟩ := Run.exists_of_bind h
  obtain ⟨stream, env, hanswer, hstream⟩ := exists_of_queryRows hc hrows
  exact ⟨stmt.columns, stream, rows, ⟨conn, q, stmt, env, hc, hs, rfl, hanswer⟩, hstream,
    drawn_of_mapRows h⟩

/-- Among no identifiers nothing is looked for. -/
theorem drawsAll_of_selectAmong {ids : List Int64} {q : Selection} {rs : List Record}
    (h : tc.selectAmong t ids q b w = (.ok rs, w')) :
    rs = [] ∨ tc.DrawsAll t (fresh t) b w.env rs := by
  obtain ⟨conn, hc, h⟩ := Run.exists_of_ofExcept_bind h
  split at h
  · cases h
    exact .inl rfl
  · exact .inr (drawsAll_of_select h)

theorem drawsFirst_of_selectFirst {q : Selection} {r : Record}
    (h : tc.selectFirst t q b w = (.ok (some r), w')) : tc.DrawsFirst t (fresh t) b w.env r := by
  obtain ⟨conn, hc, h⟩ := Run.exists_of_ofExcept_bind h
  obtain ⟨stmt, hs, h⟩ := Run.exists_of_ofExcept_bind h
  obtain ⟨stream, w₃, hstream, h⟩ := Run.exists_of_bind h
  obtain ⟨⟨taken, rest⟩, w₄, hpull, h⟩ := Run.exists_of_bind h
  cases taken with
  | none => cases h
  | some row =>
    obtain ⟨r', w₅, hrow, h⟩ := Run.exists_of_bind h
    cases h
    obtain rfl := Run.cons_of_pull hpull
    obtain ⟨hend, henv⟩ := acts_queryStream hc b w
    rw [hstream] at hend henv
    exact ⟨stmt.columns, row, rest,
      ⟨conn, q, stmt, w₃.env, hc, hs, rfl, Prod.ext hend.symm henv.symm⟩, drawn_of_bindRow hrow⟩

end Context

namespace Operation

/-- What makes the records that the rows of an operation are bound into. -/
def make : Operation σ ρ → Table → Callback σ Record
  | .queryListInto _ _ _ _ _ factory, _ => factory
  | _, t => Context.fresh t

/-- Whatever records an operation on a table answers with have been drawn from rows. -/
structure Draws (op : Operation σ ρ) (tc : Context σ) (b : Backend σ) (env : σ)
    (result : Ending (Answer ρ)) : Prop where
  list : ∀ rs, result = .ok (.records rs) →
    rs = [] ∨ ∃ t, op.table? = some t ∧ tc.DrawsAll t (op.make t) b env rs
  first : ∀ r, result = .ok (.record (some r)) →
    ∃ t, op.table? = some t ∧ tc.DrawsFirst t (op.make t) b env r

variable {op : Operation σ ρ} {tc tc' : Context σ} {t : Table} {report : Report ρ}
  {answer : Answer ρ}

theorem exists_of_plain {f : α → Answer ρ} {x : Run σ α}
    (h : plain tc f x b w = (.ok (report, tc'), w')) (hresult : report.result = .ok answer) :
    ∃ a w₁, x b w = (.ok a, w₁) ∧ f a = answer := by
  simp only [plain, Run.bind_apply, Run.ending_apply] at h
  rcases hx : x b w with ⟨e, w₁⟩
  rw [hx] at h
  cases h
  cases e with
  | ok a => exact ⟨a, _, rfl, Ending.ok.inj hresult⟩
  | error f => cases hresult
  | panic p => cases hresult

theorem affected_of_writing {f : α → List Record} {x : Run σ (Ending Nat × α)}
    (h : writing tc f x b w = (.ok (report, tc'), w')) (hresult : report.result = .ok answer) :
    ∃ rows, answer = .affected rows := by
  obtain ⟨⟨e, a⟩, w₁, -, h⟩ := Run.exists_of_bind h
  cases h
  cases e with
  | ok rows => exact ⟨rows, (Ending.ok.inj hresult).symm⟩
  | error f => cases hresult
  | panic p => cases hresult

theorem done_of_ending {x : Run σ (Ending Unit × Context σ)}
    (h : ending x b w = (.ok (report, tc'), w')) (hresult : report.result = .ok answer) :
    answer = .done := by
  obtain ⟨⟨e, a⟩, w₁, -, h⟩ := Run.exists_of_bind h
  cases h
  cases e with
  | ok u => exact (Ending.ok.inj hresult).symm
  | error f => cases hresult
  | panic p => cases hresult

theorem draws_of_list (ht : op.table? = some t) {x : Run σ (List Record)}
    (hx : ∀ {rs w₁}, x b w = (.ok rs, w₁) → rs = [] ∨ tc.DrawsAll t (op.make t) b w.env rs)
    (h : plain tc .records x b w = (.ok (report, tc'), w')) : op.Draws tc b w.env report.result where
  list rs hresult := by
    obtain ⟨rs', w₁, hrun, heq⟩ := exists_of_plain h hresult
    cases heq
    exact (hx hrun).imp id fun hdraws => ⟨t, ht, hdraws⟩
  first r hresult := by
    obtain ⟨rs', w₁, -, heq⟩ := exists_of_plain h hresult
    cases heq

theorem draws_of_first (ht : op.table? = some t) {x : Run σ (Option Record)}
    (hx : ∀ {r w₁}, x b w = (.ok (some r), w₁) → tc.DrawsFirst t (op.make t) b w.env r)
    (h : plain tc .record x b w = (.ok (report, tc'), w')) : op.Draws tc b w.env report.result where
  list rs hresult := by
    obtain ⟨r', w₁, -, heq⟩ := exists_of_plain h hresult
    cases heq
  first r hresult := by
    obtain ⟨r', w₁, hrun, heq⟩ := exists_of_plain h hresult
    cases heq
    exact ⟨t, ht, hx hrun⟩

/-- What is answered with something else draws nothing. -/
theorem draws_of_other (h : ∀ answer, report.result = .ok answer →
    (∀ rs, answer ≠ .records rs) ∧ ∀ r, answer ≠ .record r) : op.Draws tc b w.env report.result where
  list rs hresult := absurd rfl ((h _ hresult).1 rs)
  first r hresult := absurd rfl ((h _ hresult).2 (some r))

/-- No operation answers with a record that has not been bound to the end. -/
theorem draws_of_run (h : op.run tc b w = (.ok (report, tc'), w')) :
    op.Draws tc b w.env report.result := by
  cases op with
  | getAll | queryList | queryPage | queryListInto | lockList =>
    exact draws_of_list rfl (fun hx => .inr (Context.drawsAll_of_select hx)) h
  | getByIds | lockByIds =>
    exact draws_of_list rfl (fun hx => Context.drawsAll_of_selectAmong hx) h
  | getById | queryOne | lockById | lockOne =>
    exact draws_of_first rfl (fun hx => Context.drawsFirst_of_selectFirst hx) h
  | insert | update | updateList =>
    rw [run] at h
    refine draws_of_other fun answer hresult => ?_
    obtain ⟨rows, rfl⟩ := affected_of_writing h hresult
    exact ⟨nofun, nofun⟩
  | complete | completeWithPanic =>
    refine draws_of_other fun answer hresult => ?_
    obtain rfl := done_of_ending h hresult
    exact ⟨nofun, nofun⟩
  | _ =>
    refine draws_of_other fun answer hresult => ?_
    obtain ⟨a, w₁, -, rfl⟩ := exists_of_plain h hresult
    exact ⟨nofun, nofun⟩

end Operation

namespace Table

variable {t : Table} {r : Record} {columns columns' : List String} {cells cells' : List Value}

theorem bind_eq (h : columns.length = cells.length) :
    t.bind r columns cells = r.setAll (columns.zip cells) := by
  rw [bind, if_neg (not_not.mpr h)]

theorem bind_filled (hdistinct : columns.Nodup) (h : columns.length = cells.length) :
    r.Filled (columns.zip cells) (t.bind r columns cells) := by
  rw [bind_eq h]
  refine Record.setAll_filled ?_
  rwa [List.map_fst_zip (Nat.le_of_eq h)]

/-- A row is bound exactly if all of its cells fit. -/
theorem bind_eq_ok_iff (hdistinct : columns.Nodup) (h : columns.length = cells.length) :
    (t.bind r columns cells).2 = .ok () ↔ r.Fits (columns.zip cells) := by
  have hfilled := bind_filled (t := t) (r := r) hdistinct h
  generalize t.bind r columns cells = result at hfilled ⊢
  cases hfilled with
  | all fits binds => exact iff_of_true rfl fits
  | upTo split fits binds known fails =>
    refine iff_of_false nofun fun hfits => ?_
    rw [split] at hfits
    obtain ⟨v', hv'⟩ := hfits _ _ (List.mem_append_right _ (List.mem_cons_self ..)) _ known
    rw [FieldType.convert, fails] at hv'
    cases hv'

/-- Columns and cells may change places together. -/
theorem bind_perm (hdistinct : columns.Nodup) (h : columns.length = cells.length)
    (h' : columns'.length = cells'.length) (hperm : (columns.zip cells).Perm (columns'.zip cells')) :
    ((t.bind r columns' cells').2 = .ok () ↔ (t.bind r columns cells).2 = .ok ()) ∧
      ((t.bind r columns cells).2 = .ok () → t.bind r columns' cells' = t.bind r columns cells) := by
  have hdistinct' : columns'.Nodup := by
    have hcolumns := hperm.map Prod.fst
    rw [List.map_fst_zip (Nat.le_of_eq h), List.map_fst_zip (Nat.le_of_eq h')] at hcolumns
    exact hcolumns.nodup_iff.mp hdistinct
  rw [bind_eq_ok_iff hdistinct h, bind_eq_ok_iff hdistinct' h']
  refine ⟨⟨fun hfits c v hc => hfits c v (hperm.mem_iff.mp hc),
    fun hfits c v hc => hfits c v (hperm.mem_iff.mpr hc)⟩, fun hfits => ?_⟩
  rw [bind_eq h, bind_eq h']
  refine (Record.setAll_perm hperm ?_ hfits).symm
  rwa [List.map_fst_zip (Nat.le_of_eq h)]

/-- A row is bound by which cell belongs to which column. A row of another width than the projection
fails and leaves the record as it is. Otherwise, if no column comes twice, it is bound exactly if every cell
of a known column converts to the type of its field; then the known columns hold the converted cells and
nothing else has changed, and any order of the columns with their cells comes to the same. If it is not
bound, the failure is of the first cell that does not fit and names its column, and the cells before it,
and no others, are in the record. Whatever records a reader answers with have been bound to the end, in a
list one from each row of the answer. -/
theorem rows_bound :
    (∀ (t : Table) (r : Record) (columns : List String) (cells : List Value),
      columns.length ≠ cells.length →
      t.bind r columns cells = (r, .error (.decode t.name (.rowWidth cells.length columns.length)))) ∧
    (∀ (t : Table) (r : Record) (columns : List String) (cells : List Value),
      columns.Nodup → columns.length = cells.length →
      ((t.bind r columns cells).2 = .ok () ↔ r.Fits (columns.zip cells)) ∧
      ((t.bind r columns cells).2 = .ok () →
        r.Binds (columns.zip cells) (t.bind r columns cells).1) ∧
      (∀ columns' cells', columns'.length = cells'.length →
        (columns.zip cells).Perm (columns'.zip cells') →
        ((t.bind r columns' cells').2 = .ok () ↔ (t.bind r columns cells).2 = .ok ()) ∧
        ((t.bind r columns cells).2 = .ok () → t.bind r columns' cells' = t.bind r columns cells)) ∧
      ∀ e, (t.bind r columns cells).2 = .error e → ∃ before c v after type m,
        columns.zip cells = before ++ (c, v) :: after ∧ r.Fits before ∧
        r.Binds before (t.bind r columns cells).1 ∧ r.type? c = some type ∧
        type.read v = .error m ∧ e = .decode c (.mismatch m)) ∧
    ∀ (op : Operation σ ρ) (tc tc' : Context σ) (b : Backend σ) (w w' : World σ) (report : Report ρ),
      op.run tc b w = (.ok (report, tc'), w') → op.Draws tc b w.env report.result := by
  refine ⟨fun t r columns cells h => if_pos h, ?_, ?_⟩
  · intro t r columns cells hdistinct h
    refine ⟨bind_eq_ok_iff hdistinct h, ?_, fun _ _ h' hperm => bind_perm hdistinct h h' hperm, ?_⟩
    · intro hok
      have hfilled := bind_filled (t := t) (r := r) hdistinct h
      generalize t.bind r columns cells = result at hfilled hok ⊢
      cases hfilled with
      | all fits binds => exact binds
      | upTo => cases hok
    · intro e he
      have hfilled := bind_filled (t := t) (r := r) hdistinct h
      generalize t.bind r columns cells = result at hfilled he ⊢
      cases hfilled with
      | all fits binds => cases he
      | upTo split fits binds known fails =>
        cases he
        exact ⟨_, _, _, _, _, _, split, fits, binds, known, fails, rfl⟩
  · intro op tc tc' b w w' report h
    exact Operation.draws_of_run h

/-- Cells out of order and one of an unknown column, a number that is too large between two that are not,
a row that is too short, and a list of two rows. -/
theorem rows_bound_account :
    let t : Table := ⟨"accounts", ["id", "name", "rank"], some "id",
      [("id", .int .i64), ("name", .text), ("rank", .optional (.int .i8))], none⟩
    let record (id : Int64) (name : String) : Record :=
      ⟨[⟨"id", .int .i64, .int id⟩, ⟨"name", .text, .text name⟩,
        ⟨"rank", .optional (.int .i8), .null⟩]⟩
    let tooLarge : Failure := .decode "rank" (.mismatch .tooLarge)
    let rows : RowStream := [.ok ⟨["id", "name", "rank"], [.int 1, .text "ann", .null]⟩,
      .ok ⟨["id", "name", "rank"], [.int 2, .text "bob", .null]⟩]
    let tc : Context (Scripted Unit) :=
      { style := .none, status := .init, scope := { traceId := "" }, logSql := false,
        connection := some ⟨0, 0⟩, interceptors := [] }
    let w : World (Scripted Unit) := { env := ⟨[{ results := [rows] }], ()⟩ }
    let op : Operation (Scripted Unit) Unit := .getAll t none
    t.bind (record 2 "bob") ["id", "name"] [.int 1] =
        (record 2 "bob", .error (.decode "accounts" (.rowWidth 1 2))) ∧
      t.bind t.blank ["name", "age", "id"] [.text "bob", .int 9, .int 2] = (record 2 "bob", .ok ()) ∧
      t.bind t.blank ["id", "name", "age"] [.int 2, .text "bob", .int 9] = (record 2 "bob", .ok ()) ∧
      t.blank.Binds (["name", "age", "id"].zip [.text "bob", .int 9, .int 2]) (record 2 "bob") ∧
      t.bind t.blank ["id", "rank", "name"] [.int 1, .int 300, .text "x"] =
        (record 1 "", .error tooLarge) ∧
      ¬t.blank.Fits (["id", "rank", "name"].zip [.int 1, .int 300, .text "x"]) ∧
      ∃ report w', op.run tc Scripted.backend w = (.ok (report, tc), w') ∧
        report.result = .ok (.records [record 1 "ann", record 2 "bob"]) ∧
        op.Draws tc Scripted.backend w.env report.result := by
  intro t record tooLarge rows tc w op
  obtain ⟨hwidth, hrows, hreaders⟩ := rows_bound (σ := Scripted Unit) (ρ := Unit)
  have hbob : t.bind t.blank ["name", "age", "id"] [.text "bob", .int 9, .int 2] =
      (record 2 "bob", .ok ()) := by decide +kernel
  have hlarge : t.bind t.blank ["id", "rank", "name"] [.int 1, .int 300, .text "x"] =
      (record 1 "", .error tooLarge) := by decide +kernel
  obtain ⟨-, hbinds, hperm, -⟩ :=
    hrows t t.blank ["name", "age", "id"] [.text "bob", .int 9, .int 2] (by decide) rfl
  obtain ⟨hfits, -, -, -⟩ :=
    hrows t t.blank ["id", "rank", "name"] [.int 1, .int 300, .text "x"] (by decide) rfl
  have hlist : (tc.getAll t none Scripted.backend w).1 = .ok [record 1 "ann", record 2 "bob"] := by
    decide +kernel
  have hmoved := (hperm ["id", "name", "age"] [.int 2, .text "bob", .int 9] rfl
    (by decide)).2 (congrArg Prod.snd hbob)
  have hbinds' := hbinds (congrArg Prod.snd hbob)
  rw [hbob] at hbinds'
  refine ⟨hwidth t (record 2 "bob") ["id", "name"] [.int 1] (by decide), hbob, hmoved.trans hbob,
    hbinds', hlarge, fun h => ?_, _, _, rfl,
    congrArg (Ending.map Answer.records) hlist, hreaders op tc tc _ w _ _ rfl⟩
  have hok := hfits.mpr h
  rw [hlarge] at hok
  cases hok

end Table

end TableAccess
