import TableAccess.Proofs.Sql.Clauses

/-!
Whole statements with their values in place.

A `Request` is a call of one of the functions that put statements together. `Request.written` is the
statement one would write down for it: each value stands where it was supplied for, and the page is
in one of two forms. Whatever a request sends is what is written, and adapting it to the dialect
numbers the marks and changes the form of the page. Only the names that are not checked on the way
are asked to be plain.
-/

namespace TableAccess

open Written

/-- A statement that is asked for. -/
inductive Request where
  | select (q : Selection)
  | count (matcher : Option Matcher)
  | insert (r : Record)
  | update (r : Record)
  | modify (m : Modifier) (matcher : Option Matcher)
  | delete (matcher : Option Matcher)

namespace Request

variable (t : Table) (s : Scope)

/-- The statement that is sent, if there is anything to send. -/
def assemble : Request → Except Failure (Option Sql)
  | select q => (Statement.select t s q).map fun st => some st.sql
  | count matcher => (Statement.count t s matcher).map some
  | insert r => (Statement.insert t s r).map some
  | update r => (Statement.update t s r).map some
  | modify m matcher => Statement.modify t s m matcher
  | delete matcher => (Statement.delete t s matcher).map some

/-- The statement up to its page. -/
def body : Request → Written
  | select q =>
    plain "select " ++ joined "," ((View.resolve q.view t.columns).map plain) ++ plain " from "
      ++ plain (Statement.tableName t s) ++ Matcher.written q.matcher ++ Order.written q.orders
  | count matcher =>
    plain "select count(" ++ plain (t.generated.getD "*") ++ plain ") from "
      ++ plain (Statement.tableName t s) ++ Matcher.written matcher
  | insert r =>
    plain "insert into " ++ plain (Statement.tableName t s) ++ plain "("
      ++ joined "," (t.writable.map plain) ++ plain ") values("
      ++ joined "," (t.writable.map r.written) ++ plain ")"
  | update r =>
    plain "update " ++ plain (Statement.tableName t s) ++ plain " set "
      ++ joined "," (t.writable.map fun c => plain c ++ plain " = " ++ r.written c)
      ++ plain " where " ++ plain t.idColumn ++ plain " = " ++ r.written t.idColumn
  | modify m matcher =>
    plain "update " ++ plain (Statement.tableName t s) ++ plain " set "
      ++ joined "," (m.assignments.map Assignment.written) ++ Matcher.written matcher
  | delete matcher =>
    plain "delete from " ++ plain (Statement.tableName t s) ++ Matcher.written matcher

/-- The page of a request. -/
def pager? : Request → Option Pager
  | select q => q.pager
  | _ => none

/-- The lock of a request. -/
def lock? : Request → Option RowLock
  | select q => q.lock
  | _ => none

/-- The condition of a request. -/
def matcher? : Request → Option Matcher
  | select q => q.matcher
  | count matcher | modify _ matcher | delete matcher => matcher
  | insert _ | update _ => none

/-- The columns that a statement names and that are not checked when it is put together, apart from
those of its condition. -/
def columns : Request → List String
  | select _ | delete _ => []
  | count _ => t.generated.toList
  | insert _ => t.writable
  | update _ => t.idColumn :: t.writable
  | modify m _ => m.columns

/-- The whole statement with its values in place. -/
def written (form : PageForm) (r : Request) : Written :=
  r.body t s ++ plain ((r.pager?.map (Pager.written form)).getD "")
    ++ plain ((r.lock?.map RowLock.text).getD "")

/-- The names that are not checked when a statement is put together are plain identifiers. -/
structure Plain (r : Request) : Prop where
  table : Ident.isPlain (Statement.tableName t s) = true
  columns : ∀ c ∈ r.columns t, Ident.isPlain c = true
  condition : ∀ m ∈ r.matcher?, m.toCondition.isPlain = true

/-! ### What is sent -/

/-- What a request sends, and what is known of it since it is sent at all. -/
structure Sends (r : Request) (q : Sql) : Prop where
  sql : q = (r.written t s .assembled).sql
  mild : (r.body t s).Mild
  page : ∀ p ∈ r.pager?, 0 ≤ p.size.toInt ∧ 0 ≤ p.skipped

variable {t s} {q : Sql}

/-- Without a page and a lock the body is everything. -/
theorem sends_of_body {r : Request} (hpager : r.pager? = none) (hlock : r.lock? = none)
    (hsql : q = (r.body t s).sql) (hmild : (r.body t s).Mild) : r.Sends t s q := by
  refine ⟨?_, hmild, ?_⟩
  · have hend : plain "" = [] := rfl
    rw [written, hpager, hlock, Option.map_none, Option.map_none, Option.getD_none, hend,
      List.append_nil, List.append_nil]
    exact hsql
  · rw [hpager]
    exact nofun

theorem Plain.mild_table {r : Request} (hp : r.Plain t s) :
    (plain (Statement.tableName t s)).Mild := mild_of_isPlain hp.table

theorem sends_select {sel : Selection} {st : SelectStatement} (hp : (select sel).Plain t s)
    (h : Statement.select t s sel = .ok st) : (select sel).Sends t s st.sql := by
  obtain ⟨⟨⟩, hcolumns, h⟩ := exists_of_bind_eq_ok h
  obtain ⟨cond, hcond, h⟩ := exists_of_bind_eq_ok h
  obtain ⟨tail, htail, h⟩ := exists_of_bind_eq_ok h
  obtain ⟨order, horder, htail⟩ := exists_of_bind_eq_ok htail
  obtain ⟨page, hpage, htail⟩ := exists_of_bind_eq_ok htail
  cases h
  cases htail
  obtain ⟨horders, horder⟩ := ordering_eq horder
  obtain ⟨hnumbers, rfl⟩ := paging_eq hpage
  refine ⟨?_, ?_, hnumbers⟩
  · obtain rfl := condition_eq hp.condition hcond
    simp only [written, body, joined_plain, sql_append, sql_plain, Sql.raw_append, horder,
      Sql.append_assoc]
    rfl
  · have hselect : (plain "select ").Mild := by decide
    have hfrom : (plain " from ").Mild := by decide
    have hnames := mild_names (isPlain_of_checkColumns hcolumns)
    have hhead := ((hselect.append hnames).append hfrom).append hp.mild_table
    exact (hhead.append (Matcher.mild_written hp.condition)).append (Order.mild_written horders)

theorem sends_count {matcher : Option Matcher} (hp : (count matcher).Plain t s)
    (h : Statement.count t s matcher = .ok q) : (count matcher).Sends t s q := by
  obtain ⟨cond, hcond, h⟩ := exists_of_bind_eq_ok h
  cases h
  obtain rfl := condition_eq hp.condition hcond
  refine sends_of_body rfl rfl ?_ ?_
  · simp only [body, matcher?, sql_append, sql_plain, Sql.raw_append, Sql.append_assoc]
  · have hcount : (plain "select count(").Mild := by decide
    have hfrom : (plain ") from ").Mild := by decide
    have hcolumn : (plain (t.generated.getD "*")).Mild := by
      cases hg : t.generated with
      | none => decide
      | some c => exact mild_of_isPlain (hp.columns c (Option.mem_toList.mpr hg))
    have hhead := ((hcount.append hcolumn).append hfrom).append hp.mild_table
    exact hhead.append (Matcher.mild_written hp.condition)

theorem sends_insert {r : Record} (hp : (insert r).Plain t s)
    (h : Statement.insert t s r = .ok q) : (insert r).Sends t s q := by
  obtain ⟨vs, hvalues, h⟩ := exists_of_bind_eq_ok h
  cases h
  have hwritten := written_of_extract hvalues
  rw [if_pos rfl] at hwritten
  refine sends_of_body rfl rfl ?_ ?_
  · simp only [body, joined_plain, hwritten, ← bindList_eq, sql_append, sql_plain, Sql.raw_append,
      Sql.append_assoc]
  · have hinsert : (plain "insert into ").Mild := by decide
    have hopen : (plain "(").Mild := by decide
    have hbetween : (plain ") values(").Mild := by decide
    have hclose : (plain ")").Mild := by decide
    have hvs : (joined "," (t.writable.map r.written)).Mild := by
      rw [hwritten]
      exact mild_values vs
    have hhead := ((hinsert.append hp.mild_table).append hopen).append (mild_names hp.columns)
    exact ((hhead.append hbetween).append hvs).append hclose

/-- What an update of a record's row is put together from. -/
theorem of_update {r : Record} (h : Statement.update t s r = .ok q) :
    ∃ id, r.get? t.idColumn = some id ∧ ∃ vs, Table.extract r t.writable = .ok vs ∧
      ∃ cond, Statement.condition (some (Matcher.equals t.idColumn id)) = .ok cond ∧
        q = Sql.raw ("update " ++ Statement.tableName t s ++ " set ")
          ++ ⟨",".intercalate (t.writable.map (· ++ " = ?")), vs⟩ ++ cond := by
  rw [Statement.update] at h
  split at h
  · next id hget =>
    obtain ⟨_, hid, h⟩ := exists_of_bind_eq_ok h
    cases hid
    obtain ⟨vs, hvalues, h⟩ := exists_of_bind_eq_ok h
    obtain ⟨cond, hcond, h⟩ := exists_of_bind_eq_ok h
    cases h
    exact ⟨id, hget, vs, hvalues, cond, hcond, rfl⟩
  · cases h

theorem sends_update {r : Record} (hp : (update r).Plain t s)
    (h : Statement.update t s r = .ok q) : (update r).Sends t s q := by
  obtain ⟨id, hget, vs, hvalues, cond, hcond, rfl⟩ := of_update h
  have hid : Ident.isPlain t.idColumn = true := hp.columns _ (List.mem_cons_self ..)
  have hwritable : ∀ c ∈ t.writable, Ident.isPlain c = true :=
    fun c hc => hp.columns c (List.mem_cons_of_mem _ hc)
  have hrow := sql_ownRow hid hget hcond
  have hsets := sql_sets hvalues
  refine sends_of_body rfl rfl ?_ ?_
  · rw [hrow]
    simp only [body, ← hsets, sql_append, sql_plain, Sql.raw_append, Sql.append_assoc]
  · have hupdate : (plain "update ").Mild := by decide
    have hset : (plain " set ").Mild := by decide
    have hwhere : (plain " where ").Mild := by decide
    have hequals : (plain " = ").Mild := by decide
    have hassigned :=
      mild_commas fun c hc => ((mild_of_isPlain (hwritable c hc)).append hequals).append
        (r.mild_written c)
    have hhead := ((hupdate.append hp.mild_table).append hset).append hassigned
    have hcolumn := (hhead.append hwhere).append (mild_of_isPlain hid)
    exact (hcolumn.append hequals).append (r.mild_written _)

theorem sends_modify {m : Modifier} {matcher : Option Matcher} (hp : (modify m matcher).Plain t s)
    (h : Statement.modify t s m matcher = .ok (some q)) : (modify m matcher).Sends t s q := by
  rw [Statement.modify] at h
  split at h
  · cases h
  · next hempty =>
    obtain ⟨cond, hcond, h⟩ := exists_of_bind_eq_ok h
    cases h
    obtain rfl := required_eq hp.condition hcond
    refine sends_of_body rfl rfl ?_ ?_
    · simp only [body, matcher?, Modifier.compile, if_neg hempty, ← sql_assignments, sql_append,
        sql_plain, Sql.raw_append, Sql.append_assoc]
      rfl
    · have hupdate : (plain "update ").Mild := by decide
      have hset : (plain " set ").Mild := by decide
      have hassigned : (joined "," (m.assignments.map Assignment.written)).Mild := by
        refine mild_commas ?_
        intro a ha
        exact Assignment.mild_written (hp.columns _ (List.mem_map_of_mem ha))
      have hhead := ((hupdate.append hp.mild_table).append hset).append hassigned
      exact hhead.append (Matcher.mild_written hp.condition)

theorem sends_delete {matcher : Option Matcher} (hp : (delete matcher).Plain t s)
    (h : Statement.delete t s matcher = .ok q) : (delete matcher).Sends t s q := by
  obtain ⟨cond, hcond, h⟩ := exists_of_bind_eq_ok h
  cases h
  obtain rfl := required_eq hp.condition hcond
  refine sends_of_body rfl rfl ?_ ?_
  · simp only [body, matcher?, sql_append, sql_plain, Sql.raw_append]
  · have hdelete : (plain "delete from ").Mild := by decide
    exact (hdelete.append hp.mild_table).append (Matcher.mild_written hp.condition)

/-- Whatever a request sends is what is written for it. -/
theorem sends_assemble {r : Request} (hp : r.Plain t s) (h : r.assemble t s = .ok (some q)) :
    r.Sends t s q := by
  cases r with
  | select sel =>
    obtain ⟨st, hst, hq⟩ := exists_of_map_eq_ok h
    cases hq
    exact sends_select hp hst
  | count matcher =>
    obtain ⟨_, hq, h⟩ := exists_of_map_eq_ok h
    cases h
    exact sends_count hp hq
  | insert r =>
    obtain ⟨_, hq, h⟩ := exists_of_map_eq_ok h
    cases h
    exact sends_insert hp hq
  | update r =>
    obtain ⟨_, hq, h⟩ := exists_of_map_eq_ok h
    cases h
    exact sends_update hp hq
  | modify m matcher => exact sends_modify hp h
  | delete matcher =>
    obtain ⟨_, hq, h⟩ := exists_of_map_eq_ok h
    cases h
    exact sends_delete hp hq

/-- A statement that is sent has one mark for each argument, its arguments put back in give what is
written, and in the dialect the marks are numbered and the page is turned round, and that is all. -/
theorem assemble_written {r : Request} (hp : r.Plain t s)
    (h : r.assemble t s = .ok (some q)) :
    q = (r.written t s .assembled).sql ∧ q.placeholderCount = q.args.length ∧
      q.inline = r.written t s .assembled ∧
      Dialect.adapt q.text = String.ofList ((r.written t s .dialect).numbered 0) := by
  obtain ⟨rfl, hbody, hpage⟩ := sends_assemble hp h
  obtain ⟨hlock, hparted⟩ := mild_lock r.lock?
  have hquiet : (r.written t s .assembled).Quiet := by
    refine (hbody.quiet.append ?_).append hlock.quiet
    cases hpager : r.pager? with
    | none => exact nofun
    | some p =>
      obtain ⟨hsize, hskipped⟩ := hpage p hpager
      exact quiet_page hsize hskipped
  refine ⟨rfl, placeholderCount_sql hquiet, inline_sql hquiet, ?_⟩
  rw [written, written]
  cases hpager : r.pager? with
  | none => exact Dialect.adapt_sql ((hbody.append mild_nil).append hlock)
  | some p =>
    obtain ⟨hsize, hskipped⟩ := hpage p hpager
    have hs := isNumber_toString hsize
    rw [Option.map_some, Option.map_some, Option.getD_some, Option.getD_some, Pager.written,
      Pager.written]
    by_cases hfirst : p.number = 1
    · rw [if_pos hfirst, if_pos hfirst]
      exact Dialect.adapt_firstPage hbody hs hlock hparted
    · rw [if_neg hfirst, if_neg hfirst]
      exact Dialect.adapt_page hbody (isNumber_toString hskipped) hs hlock hparted

/-- The third page of a table that is called like the page clause, as is one of its columns. -/
theorem assemble_written_limit :
    let t : Table := ⟨"limit", ["id", "limit"], some "id", [], none⟩
    let s : Scope := { traceId := "" }
    let r := select
      { matcher := some ⟨.or, [.leaf (.compare .gte "limit" (.int 5)),
          .leaf (.between "id" (some (.int 1)) (some (.int 9)))]⟩
        pager := some ⟨10, 3⟩
        orders := [⟨"limit", true⟩]
        lock := some .wait }
    r.Plain t s ∧ ∃ q, r.assemble t s = .ok (some q) ∧
      q.text = "select id,limit from limit where (limit >= ? or id between ? and ?)" ++
        " order by limit desc limit 20,10 for update" ∧
      q.args = [.int 5, .int 1, .int 9] ∧ q.placeholderCount = q.args.length ∧
      q.inline = r.written t s .assembled ∧
      Dialect.adapt q.text =
        "select id,limit from limit where (limit >= $1 or id between $2 and $3)" ++
          " order by limit desc limit 10 offset 20 for update" := by
  intro t s r
  have hp : r.Plain t s := by
    refine ⟨by decide, nofun, ?_⟩
    intro m hm
    cases hm
    decide
  obtain ⟨q, hsent⟩ : ∃ q, r.assemble t s = .ok (some q) := ⟨_, rfl⟩
  obtain ⟨rfl, hcount, hinline, hadapt⟩ := assemble_written hp hsent
  refine ⟨hp, _, hsent, ?_, ?_, hcount, hinline, hadapt.trans ?_⟩
  · decide +kernel
  · decide +kernel
  · decide +kernel

end Request

end TableAccess
