import TableAccess.Proofs.Sql.Adapting
import TableAccess.Proofs.Sql.Conditions
import TableAccess.Statement

/-!
The parts of a statement with their values in place: conditions, orders, assignments, lists of
columns and of their values, pages and locks.

Each part is sent as it is written. The names that are checked on the way are plain since there is an
answer at all, and on plain names every part but the page is mild. A page is in one of two forms and
has numbers in it that are not negative, so there is nothing in it but the clause.
-/

namespace TableAccess

open Written

/-- A page as statements are assembled, `limit OFFSET,SIZE`, and in the dialect,
`limit SIZE offset OFFSET`. -/
inductive PageForm where
  | assembled | dialect

/-- A page in one of its forms. The first one is the same in both. -/
def Pager.written (form : PageForm) (p : Pager) : String :=
  if p.number = 1 then " limit " ++ toString p.size.toInt
  else
    match form with
    | .assembled => " limit " ++ toString p.skipped ++ "," ++ toString p.size.toInt
    | .dialect => " limit " ++ toString p.size.toInt ++ " offset " ++ toString p.skipped

/-- A condition with its operands in place, or nothing if it says nothing. -/
def Matcher.written (matcher : Option Matcher) : Written :=
  match matcher with
  | none => []
  | some m =>
    if m.toCondition.written = [] then [] else plain " where " ++ m.toCondition.written

/-- The columns to order by. -/
def Order.written (orders : List Order) : Written :=
  if orders.isEmpty then []
  else plain " order by " ++ joined "," (orders.map fun o => plain (Statement.orderText o))

/-- An assignment with its value in place. -/
def Assignment.written (a : Assignment) : Written :=
  match a.op with
  | .set => plain (a.column ++ "=") ++ [.value a.value]
  | .add => plain (a.column ++ "=" ++ a.column ++ "+") ++ [.value a.value]
  | .subtract => plain (a.column ++ "=" ++ a.column ++ "-") ++ [.value a.value]

/-- The value of the field mapped to a column. -/
def Record.written (r : Record) (column : String) : Written :=
  (r.get? column).toList.map .value

/-! ### Lists of names and values -/

theorem joined_plain (separator : String) : ∀ names : List String,
    joined separator (names.map plain) = plain (separator.intercalate names)
  | [] => rfl
  | [c] => by rw [List.map_singleton, joined_singleton, String.intercalate_singleton]
  | c :: d :: names => by
    have hrest := joined_plain separator (d :: names)
    rw [List.map_cons] at hrest
    rw [List.map_cons, List.map_cons, joined_cons_cons, hrest, String.intercalate_cons_cons,
      plain_append, plain_append]

theorem mild_names {names : List String} (h : ∀ c ∈ names, Ident.isPlain c = true) :
    (joined "," (names.map plain)).Mild :=
  mild_commas fun c hc => mild_of_isPlain (h c hc)

theorem Record.mild_written (r : Record) (column : String) : (r.written column).Mild := by
  rw [Record.written]
  cases r.get? column with
  | none => exact mild_nil
  | some v => exact mild_value v

/-- Every column that is read has a field, whose value stands in the column's place. -/
theorem written_of_extract {r : Record} : ∀ {columns : List String} {vs : List Value},
    Table.extract r columns = .ok vs → columns.map r.written = vs.map fun v => [.value v]
  | [], vs, h => by
    cases h
    rfl
  | c :: cs, vs, h => by
    obtain ⟨v, hv, h⟩ := exists_of_bind_eq_ok h
    obtain ⟨vs', hvs, h⟩ := exists_of_bind_eq_ok h
    cases h
    have hc : r.written c = [.value v] := by
      rw [Table.fieldOf] at hv
      rw [Record.written]
      split at hv
      · next hget =>
        cases hv
        rw [hget]
        rfl
      · cases hv
    rw [List.map_cons, List.map_cons, hc, written_of_extract hvs]

/-- Columns that are set to the values read from a record. -/
theorem sql_sets {r : Record} {columns : List String} {vs : List Value}
    (h : Table.extract r columns = .ok vs) :
    (joined "," (columns.map fun c => plain c ++ plain " = " ++ r.written c)).sql =
      ⟨",".intercalate (columns.map (· ++ " = ?")), vs⟩ := by
  have hwritten := written_of_extract h
  have htext : ∀ c ∈ columns,
      (plain c ++ plain " = " ++ r.written c).sql.text = c ++ " = ?" := by
    intro c hc
    have hmem : r.written c ∈ columns.map r.written := List.mem_map_of_mem hc
    rw [hwritten] at hmem
    obtain ⟨v, -, hv⟩ := List.mem_map.mp hmem
    rw [← hv, sql_append, sql_append, sql_plain, sql_plain, sql_value, Sql.text_append,
      Sql.text_append]
    exact String.append_assoc ..
  have hvalues : columns.flatMap (fun c => (plain c ++ plain " = " ++ r.written c).values) = vs := by
    have hflat : (columns.map r.written).flatMap values = vs := by
      rw [hwritten, List.flatMap_map]
      exact List.flatMap_singleton' vs
    rw [List.flatMap_map] at hflat
    simpa only [values_append, values_plain, List.nil_append] using hflat
  have hsql : ∀ w : Written, w.sql = ⟨w.sql.text, w.values⟩ := fun _ => rfl
  rw [hsql, text_joined, values_joined, List.map_map, List.flatMap_map, hvalues]
  exact congrArg (fun texts => Sql.mk (",".intercalate texts) vs) (List.map_congr_left htext)

/-- An assignment is sent as it is written. -/
theorem Assignment.sql_written (a : Assignment) : a.written.sql = a.compile := by
  rw [Assignment.written, Assignment.compile]
  cases a.op <;> rw [sql_append, sql_plain, sql_value]

theorem sql_assignments : ∀ assignments : List Assignment,
    (joined "," (assignments.map Assignment.written)).sql = Modifier.join assignments
  | [] => rfl
  | [a] => by rw [List.map_singleton, joined_singleton, Assignment.sql_written, Modifier.join]
  | a :: b :: rest => by
    have hrest := sql_assignments (b :: rest)
    have hjoin : Modifier.join (a :: b :: rest) =
        a.compile ++ Sql.raw "," ++ Modifier.join (b :: rest) := rfl
    rw [List.map_cons] at hrest
    rw [hjoin, List.map_cons, List.map_cons, joined_cons_cons, sql_append, sql_append,
      Assignment.sql_written, hrest, sql_plain]

theorem Assignment.mild_written {a : Assignment} (h : Ident.isPlain a.column = true) :
    a.written.Mild := by
  have hname : (plain a.column).Mild := mild_of_isPlain h
  have hequals : (plain (a.column ++ "=")).Mild := mild_append_plain hname (by decide)
  rw [Assignment.written]
  cases a.op with
  | set => exact hequals.append (mild_value _)
  | add =>
    exact (mild_append_plain (mild_append_plain hequals hname) (by decide)).append (mild_value _)
  | subtract =>
    exact (mild_append_plain (mild_append_plain hequals hname) (by decide)).append (mild_value _)

/-! ### Conditions, orders and pages -/

section Clauses

variable {matcher : Option Matcher} {orders : List Order} {pager : Option Pager}

theorem Matcher.mild_written (h : ∀ m ∈ matcher, m.toCondition.isPlain = true) :
    (Matcher.written matcher).Mild := by
  cases matcher with
  | none => exact mild_nil
  | some m =>
    rw [Matcher.written]
    split
    · exact mild_nil
    · exact Mild.append (by decide) (Condition.mild_written (h m rfl))

/-- A condition is sent as it is written. -/
theorem condition_eq {q : Sql} (hp : ∀ m ∈ matcher, m.toCondition.isPlain = true)
    (h : Statement.condition matcher = .ok q) : q = (Matcher.written matcher).sql := by
  cases matcher with
  | none =>
    cases h
    rfl
  | some m =>
    obtain ⟨c, hc, h⟩ := exists_of_bind_eq_ok h
    obtain rfl : c = m.toCondition.written.sql := Condition.compile_eq (hp m rfl) hc
    cases h
    rw [Matcher.written]
    by_cases hempty : m.toCondition.written = []
    · rw [if_pos hempty, if_pos (isEmpty_sql.mpr hempty), sql_nil]
    · rw [if_neg hempty, if_neg (mt isEmpty_sql.mp hempty), sql_append, sql_plain]
      rfl

/-- A condition that a mutation must have is sent as it is written. -/
theorem required_eq {mutation : Mutation} {q : Sql}
    (hp : ∀ m ∈ matcher, m.toCondition.isPlain = true)
    (h : Statement.required mutation matcher = .ok q) : q = (Matcher.written matcher).sql := by
  obtain ⟨c, hc, h⟩ := exists_of_bind_eq_ok h
  split at h
  · cases h
  · cases h
    exact condition_eq hp hc

/-- Names that were let through are plain. -/
theorem isPlain_of_checkColumns {clause : Clause} : ∀ {names : List String},
    Statement.checkColumns clause names = .ok () → ∀ c ∈ names, Ident.isPlain c = true
  | [], _ => nofun
  | c :: cs, h => by
    obtain ⟨⟨⟩, hc, h⟩ := exists_of_bind_eq_ok h
    have hplain : Ident.isPlain c = true := by
      rw [Statement.checkColumn] at hc
      split at hc
      · assumption
      · cases hc
    intro d hd
    rcases List.mem_cons.mp hd with rfl | hd
    · exact hplain
    · exact isPlain_of_checkColumns h d hd

/-- An order is sent as it is written, and its columns are plain. -/
theorem ordering_eq {text : String} (h : Statement.ordering orders = .ok text) :
    (∀ o ∈ orders, Ident.isPlain o.column = true) ∧ Sql.raw text = (Order.written orders).sql := by
  obtain ⟨⟨⟩, hcheck, h⟩ := exists_of_bind_eq_ok h
  cases h
  refine ⟨fun o ho => isPlain_of_checkColumns hcheck _ (List.mem_map_of_mem ho), ?_⟩
  rw [Order.written]
  split
  · rfl
  · have hmap : orders.map (fun o => plain (Statement.orderText o)) =
        (orders.map Statement.orderText).map plain := by
      rw [List.map_map]
      rfl
    rw [hmap, joined_plain, sql_append, sql_plain, sql_plain]
    rfl

theorem Order.mild_written (h : ∀ o ∈ orders, Ident.isPlain o.column = true) :
    (Order.written orders).Mild := by
  rw [Order.written]
  split
  · exact mild_nil
  · refine Mild.append (by decide) (mild_commas ?_)
    intro o ho
    refine mild_append_plain (mild_of_isPlain (h o ho)) ?_
    cases o.descending <;> decide

/-- A number that is not negative is written in digits. -/
theorem isNumber_toString {n : Int} (h : 0 ≤ n) : Dialect.IsNumber (toString n).toList := by
  obtain ⟨k, rfl⟩ := Int.eq_ofNat_of_zero_le h
  have htext : (toString (k : Int)).toList = Nat.toDigits 10 k := Nat.toList_repr
  rw [htext]
  exact Dialect.isNumber_toDigits k

/-- The numbers of a page that has an offset, and the offset itself. -/
theorem offset_eq {p : Pager} {offset : Int64} (h : p.offset = .ok offset) :
    0 ≤ p.size.toInt ∧ 0 ≤ p.skipped ∧ offset.toInt = p.skipped := by
  rw [Pager.offset] at h
  split at h
  · cases h
  · next hvalid =>
    cases h
    simp only [Int64.le_iff_toInt_le, Int64.toInt_maxValue, Int64.toInt_zero, not_or,
      Int.not_le, Int.not_lt] at hvalid
    obtain ⟨hsize, hnumber, hskipped⟩ := hvalid
    have hpositive : 0 ≤ p.skipped := by
      rw [Pager.skipped]
      exact Int.mul_nonneg (by omega) (by omega)
    exact ⟨by omega, hpositive, Int64.toInt_ofInt_of_le (by omega) (by omega)⟩

/-- A page is sent as it is written, with numbers in it that are not negative. -/
theorem paging_eq {text : String} (h : Statement.paging pager = .ok text) :
    (∀ p ∈ pager, 0 ≤ p.size.toInt ∧ 0 ≤ p.skipped) ∧
      text = (pager.map (Pager.written .assembled)).getD "" := by
  cases pager with
  | none =>
    cases h
    exact ⟨nofun, rfl⟩
  | some p =>
    obtain ⟨offset, hoffset, h⟩ := exists_of_bind_eq_ok h
    obtain ⟨hsize, hskipped, heq⟩ := offset_eq hoffset
    cases h
    refine ⟨?_, ?_⟩
    · intro _ hp
      cases hp
      exact ⟨hsize, hskipped⟩
    · rw [Option.map_some, Option.getD_some, Pager.written, heq]
      rfl

theorem quiet_of_isNumber {text : String} (h : Dialect.IsNumber text.toList) :
    (plain text).Quiet := by
  intro c hc
  obtain ⟨d, hd, hcd⟩ := List.mem_map.mp hc
  cases hcd
  obtain ⟨hmark, hquestion, -⟩ := Dialect.calm_of_isDigit (h.2 c hd)
  exact ⟨hmark, hquestion⟩

/-- There are no marks and no quotes in a page. -/
theorem quiet_page {p : Pager} (hsize : 0 ≤ p.size.toInt) (hskipped : 0 ≤ p.skipped) :
    (plain (p.written .assembled)).Quiet := by
  have hlimit : (plain " limit ").Quiet := Mild.quiet (by decide)
  have hcomma : (plain ",").Quiet := Mild.quiet (by decide)
  have hlast := quiet_of_isNumber (isNumber_toString hsize)
  have hfirst := quiet_of_isNumber (isNumber_toString hskipped)
  rw [Pager.written]
  split
  · rw [plain_append]
    exact hlimit.append hlast
  · simp only [plain_append]
    exact ((hlimit.append hfirst).append hcomma).append hlast

/-- A lock is mild, and it is not read together with the page before it. -/
theorem mild_lock (lock : Option RowLock) :
    (plain ((lock.map RowLock.text).getD "")).Mild ∧
      Dialect.Parted (plain ((lock.map RowLock.text).getD "")).marked := by
  match lock with
  | none => exact ⟨by decide, .inl rfl⟩
  | some .wait => exact ⟨by decide, .inr ⟨'f', _, rfl, by decide, by decide, by decide⟩⟩
  | some .skipLocked => exact ⟨by decide, .inr ⟨'f', _, rfl, by decide, by decide, by decide⟩⟩

end Clauses

/-- A record's own row is found by the identifier it has. -/
theorem sql_ownRow {r : Record} {column : String} {id : Value} {cond : Sql}
    (hcolumn : Ident.isPlain column = true) (hid : r.get? column = some id)
    (h : Statement.condition (some (Matcher.equals column id)) = .ok cond) :
    cond = (plain " where " ++ plain column ++ plain " = " ++ r.written column).sql := by
  have hplain : ∀ m ∈ some (Matcher.equals column id), m.toCondition.isPlain = true := by
    intro m hm
    cases hm
    simp [Matcher.equals, Matcher.toCondition, Condition.isPlain, Condition.allPlain,
      Predicate.column?, hcolumn]
  have hleaf : (Matcher.equals column id).toCondition.written =
      plain (column ++ " " ++ "=" ++ " ") ++ [.value id] := by
    have hne : (Condition.leaf (.compare .eq column id)).written ≠ [] := by
      simp [Condition.written, Predicate.written]
    have hand : ¬(Logic.and = .or ∧ 1 < 1) := by decide
    rw [Matcher.equals, Matcher.toCondition, Condition.written, Condition.writtenAll,
      Condition.writtenAll, if_neg hne, Logic.written, List.length_singleton, if_neg hand,
      joined_singleton, Condition.written, Predicate.written]
    rfl
  have hwritten : r.written column = [.value id] := by
    rw [Record.written, hid]
    rfl
  rw [condition_eq hplain h, Matcher.written, hleaf, if_neg (by simp), hwritten]
  simp only [sql_append, sql_plain, sql_value, Sql.raw_append, Sql.append_assoc]
  rfl

end TableAccess
