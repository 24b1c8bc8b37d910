import TableAccess.Proofs.Sql.Clauses
import TableAccess.Proofs.Sql.Silence

/-!
Names that callers supply, and the statements that have them in their text.

A select refuses the columns that it projects and the columns that it is ordered by unless they are
plain identifiers. These are the only names that are looked at: the column of a predicate, at any depth
of a condition, and the columns that a modifier assigns are in the text of every statement that has
them, whatever they are, and neither a count nor a mutation is ever refused for a name.
-/

namespace TableAccess

/-- A text that has a name in it. -/
def Splices (text name : String) : Prop := name.toList <:+: text.toList

instance (text name : String) : Decidable (Splices text name) :=
  inferInstanceAs (Decidable (_ <:+: _))

namespace Splices

variable {s t name : String}

theorem refl (name : String) : Splices name name := List.infix_rfl

theorem trans (hst : Splices s t) (htn : Splices t name) : Splices s name := List.IsInfix.trans htn hst

/-- What is in a text is in the text with more behind it. -/
theorem before (h : Splices s name) (t : String) : Splices (s ++ t) name := by
  rw [Splices, String.toList_append]
  exact List.IsInfix.trans h (List.prefix_append ..).isInfix

/-- What is in a text is in the text with more in front of it. -/
theorem after (h : Splices t name) (s : String) : Splices (s ++ t) name := by
  rw [Splices, String.toList_append]
  exact List.IsInfix.trans h (List.suffix_append ..).isInfix

/-- Each of some texts is in all of them together. -/
theorem intercalate (separator : String) : ∀ {texts : List String}, s ∈ texts →
    Splices (separator.intercalate texts) s
  | [], h => nomatch h
  | [t], h => by
    obtain rfl := List.mem_singleton.mp h
    rw [String.intercalate_singleton]
    exact refl s
  | t :: u :: rest, h => by
    rw [String.intercalate_cons_cons]
    rcases List.mem_cons.mp h with rfl | h
    · exact ((refl s).before _).before _
    · exact (intercalate separator h).after _

/-- Only the empty name is in the empty text. -/
theorem eq_empty (h : Splices "" name) : name = "" :=
  String.toList_eq_nil_iff.mp (List.infix_nil.mp h)

/-- The empty name is in every text. -/
theorem empty (text : String) : Splices text "" := List.nil_infix

end Splices

/-! ### Conditions -/

/-- A predicate that says something says it about its column. -/
theorem Predicate.splices {p : Predicate} {q : Sql} {name : String} (h : p.compile = .ok q)
    (hv : p.isVoid = false) (hn : p.column? = some name) : Splices q.text name := by
  have hbefore : ∀ t, Splices (name ++ t) name := (Splices.refl name).before
  cases p with
  | compare op column value =>
    cases hn
    cases h
    exact ((hbefore _).before _).before _ |>.before _
  | among column values negated =>
    cases hn
    rw [compile] at h
    split at h
    · cases h
    · cases h
      exact ((hbefore _).before _).before _
  | like column text style =>
    cases hn
    rw [compile] at h
    split at h
    · next ht => simp [isVoid, ht] at hv
    · split at h
      · next hp =>
        simp [isVoid, (likePattern_eq_none_iff text).mp hp] at hv
      · cases h
        exact (hbefore _).before _
  | null column negated =>
    cases hn
    cases h
    exact hbefore _
  | between column low high =>
    cases hn
    cases low with
    | none =>
      cases high with
      | none => cases hv
      | some high =>
        cases h
        exact (hbefore _).before _
    | some low =>
      cases high with
      | none =>
        cases h
        exact (hbefore _).before _
      | some high =>
        cases h
        exact (((hbefore _).before _).before _).before _
  | scalar text => cases hn
  | bits column mask target =>
    cases hn
    cases h
    exact (((hbefore _).before _).before _).before _

/-- A group has the texts of its children in it. -/
theorem Logic.splices_join (logic : Logic) {fragments : List String} {f : String}
    (h : f ∈ fragments) : Splices (logic.join fragments) f := by
  rw [join]
  split
  · exact ((Splices.intercalate logic.separator h).after "(").before ")"
  · exact Splices.intercalate logic.separator h

/-- What fails in steps fails in one of them. -/
theorem eq_error_of_bind {ε α β : Type} {x : Except ε α} {f : α → Except ε β} {e : ε}
    (h : (x >>= f) = .error e) : x = .error e ∨ ∃ a, x = .ok a ∧ f a = .error e := by
  cases x with
  | error e' =>
    cases h
    exact .inl rfl
  | ok a => exact .inr ⟨a, rfl, h⟩

namespace Condition

variable {p : Predicate} {name : String}

mutual

/-- The column of a predicate that says something is in the text of every condition around it. -/
theorem splices_of_mem_leaves (hv : p.isVoid = false) (hn : p.column? = some name) :
    ∀ {c : Condition} {args : List Value} {q : Sql}, p ∈ c.leaves → c.compile args = .ok q →
      Splices q.text name
  | .leaf p', args, q, hp, h => by
    rw [leaves] at hp
    obtain rfl := List.mem_singleton.mp hp
    rw [compile] at h
    obtain ⟨r, hr, h⟩ := exists_of_bind_eq_ok h
    cases h
    have hname : Splices r.text name := Predicate.splices hr hv hn
    exact hname
  | .custom f, args, q, hp, h => by
    rw [leaves] at hp
    cases hp
  | .group logic children, args, q, hp, h => by
    rw [leaves] at hp
    rw [compile] at h
    obtain ⟨⟨fragments, args'⟩, hr, h⟩ := exists_of_bind_eq_ok h
    cases h
    rcases splices_of_mem_leavesAll hv hn hp hr with rfl | ⟨f, hf, hname⟩
    · exact Splices.empty _
    · exact (logic.splices_join hf).trans hname

/-- The column is in one of the texts that the children leave, unless there is nothing to be found. -/
theorem splices_of_mem_leavesAll (hv : p.isVoid = false) (hn : p.column? = some name) :
    ∀ {cs : List Condition} {args : List Value} {r : List String × List Value},
      p ∈ leavesAll cs → compileAll cs args = .ok r →
      name = "" ∨ ∃ f ∈ r.1, Splices f name
  | [], args, r, hp, h => by
    rw [leavesAll] at hp
    cases hp
  | c :: cs, args, r, hp, h => by
    rw [leavesAll] at hp
    rw [compileAll] at h
    obtain ⟨q, hq, h⟩ := exists_of_bind_eq_ok h
    obtain ⟨⟨fragments, args'⟩, hr, h⟩ := exists_of_bind_eq_ok h
    cases h
    by_cases ht : q.text = ""
    · simp only [if_pos (String.isEmpty_iff.mpr ht)]
      rcases List.mem_append.mp hp with hp | hp
      · have hname := splices_of_mem_leaves hv hn hp hq
        rw [ht] at hname
        exact .inl hname.eq_empty
      · exact splices_of_mem_leavesAll hv hn hp hr
    · simp only [if_neg (mt String.isEmpty_iff.mp ht)]
      rcases List.mem_append.mp hp with hp | hp
      · exact .inr ⟨q.text, List.mem_cons_self .., splices_of_mem_leaves hv hn hp hq⟩
      · rcases splices_of_mem_leavesAll hv hn hp hr with hname | ⟨f, hf, hname⟩
        · exact .inl hname
        · exact .inr ⟨f, List.mem_cons_of_mem _ hf, hname⟩

end

/-- The columns that stand in the text of a condition: those of the predicates that say something. -/
def names (c : Condition) : List String :=
  (c.leaves.filter fun p => !p.isVoid).filterMap Predicate.column?

theorem splices_of_mem_names {c : Condition} {args : List Value} {q : Sql} (hn : name ∈ c.names)
    (h : c.compile args = .ok q) : Splices q.text name := by
  obtain ⟨p, hp, hcolumn⟩ := List.mem_filterMap.mp hn
  rw [List.mem_filter, Bool.not_eq_true'] at hp
  exact splices_of_mem_leaves hp.2 hcolumn hp.1 h

/-- A condition that is made of predicates is refused for an empty membership only. -/
theorem noParamValues_of_compile {c : Condition} {args : List Value} {e : Failure}
    (hb : c.isBuiltIn = true) (h : c.compile args = .error e) :
    ∃ column, e = .noParamValues column := by
  cases hc : c.leaves.findSome? Predicate.emptyAmong? with
  | none =>
    obtain ⟨q, hq, -⟩ := exists_compile args hb hc
    rw [hq] at h
    cases h
  | some column =>
    rw [compile_error args hb hc] at h
    cases h
    exact ⟨column, rfl⟩

end Condition

/-- The columns that stand in the text of a condition that there may be. -/
def Matcher.names : Option Matcher → List String
  | none => []
  | some m => m.toCondition.names

/-- Whether a condition, if there is one, is made of predicates only. -/
def Matcher.isBuiltIn : Option Matcher → Bool
  | none => true
  | some m => m.toCondition.isBuiltIn

/-! ### Assignments -/

/-- An assignment is about its column. -/
theorem Assignment.splices (a : Assignment) : Splices a.compile.text a.column := by
  have hbefore : ∀ t, Splices (a.column ++ t) a.column := (Splices.refl a.column).before
  obtain ⟨column, op, value⟩ := a
  cases op with
  | set => exact (hbefore _).before _
  | add => exact (((hbefore _).before _).before _).before _
  | subtract => exact (((hbefore _).before _).before _).before _

namespace Modifier

theorem splices_join {a : Assignment} : ∀ {assignments : List Assignment}, a ∈ assignments →
    Splices (join assignments).text a.column
  | [], h => nomatch h
  | [b], h => by
    obtain rfl := List.mem_singleton.mp h
    exact a.splices
  | b :: c :: rest, h => by
    have hjoin : join (b :: c :: rest) = b.compile ++ Sql.raw "," ++ join (c :: rest) := rfl
    rw [hjoin, Sql.text_append, Sql.text_append]
    rcases List.mem_cons.mp h with rfl | h
    · exact (a.splices.before _).before _
    · exact (splices_join h).after _

/-- A modifier has the columns that it assigns in its clause. -/
theorem splices_compile {m : Modifier} {name : String} (h : name ∈ m.columns) :
    Splices m.compile.text name := by
  obtain ⟨a, ha, rfl⟩ := List.mem_map.mp h
  have hne : ¬ m.isEmpty = true := by
    rw [isEmpty, List.isEmpty_iff]
    exact List.ne_nil_of_mem ha
  rw [compile, if_neg hne, Sql.text_append]
  exact (splices_join ha).after _

end Modifier

/-! ### Statements -/

namespace Statement

variable {t : Table} {s : Scope} {matcher : Option Matcher} {name : String}

theorem splices_condition {q : Sql} (hn : name ∈ Matcher.names matcher)
    (h : condition matcher = .ok q) : Splices q.text name := by
  cases matcher with
  | none => cases hn
  | some m =>
    obtain ⟨c, hc, h⟩ := exists_of_bind_eq_ok h
    have hname : Splices c.text name := Condition.splices_of_mem_names hn hc
    cases h
    by_cases ht : c.isEmpty = true
    · rw [if_pos ht]
      rw [String.isEmpty_iff.mp ht] at hname
      exact hname
    · rw [if_neg ht]
      exact hname.after _

theorem noParamValues_of_condition {e : Failure} (hb : Matcher.isBuiltIn matcher = true)
    (h : condition matcher = .error e) : ∃ column, e = .noParamValues column := by
  cases matcher with
  | none => cases h
  | some m =>
    rcases eq_error_of_bind h with h | ⟨c, -, h⟩
    · exact Condition.noParamValues_of_compile hb h
    · cases h

/-- A condition that a mutation has is the one that there is. -/
theorem condition_of_required {mutation : Mutation} {q : Sql}
    (h : required mutation matcher = .ok q) : condition matcher = .ok q := by
  obtain ⟨c, hc, h⟩ := exists_of_bind_eq_ok h
  split at h
  · cases h
  · cases h
    exact hc

/-- A condition is never refused for a name, and neither is a mutation that must have it. -/
theorem condition_ne_validation (hb : Matcher.isBuiltIn matcher = true) (cause : Invalid) :
    condition matcher ≠ .error (.validation cause) := by
  intro h
  obtain ⟨column, h⟩ := noParamValues_of_condition hb h
  cases h

theorem required_ne_validation (mutation : Mutation) (hb : Matcher.isBuiltIn matcher = true)
    (cause : Invalid) : required mutation matcher ≠ .error (.validation cause) := by
  intro h
  rcases eq_error_of_bind h with h | ⟨c, -, h⟩
  · exact condition_ne_validation hb cause h
  · split at h <;> cases h

/-- The first name that is no plain identifier is refused. -/
theorem checkColumns_eq (clause : Clause) : ∀ names : List String,
    checkColumns clause names =
      match names.find? fun c => !Ident.isPlain c with
      | none => .ok ()
      | some c => .error (.validation (.column clause c))
  | [] => rfl
  | c :: cs => by
    rw [checkColumns, checkColumn, List.find?_cons]
    by_cases hc : Ident.isPlain c = true
    · rw [if_pos hc, hc]
      exact checkColumns_eq clause cs
    · rw [if_neg hc, Bool.not_eq_true _ |>.mp hc]
      rfl

/-- An order has its columns in its text. -/
theorem splices_ordering {orders : List Order} {text : String} (h : ordering orders = .ok text)
    {o : Order} (ho : o ∈ orders) : Splices text o.column := by
  obtain ⟨⟨⟩, -, h⟩ := exists_of_bind_eq_ok h
  cases h
  have hne : ¬ orders.isEmpty = true := by
    rw [List.isEmpty_iff]
    exact List.ne_nil_of_mem ho
  have hcolumn : Splices (orderText o) o.column := (Splices.refl o.column).before _
  rw [if_neg hne]
  exact ((Splices.intercalate "," (List.mem_map_of_mem ho)).trans hcolumn).after _

/-- The parts of a select that there is. -/
theorem exists_of_select {q : Selection} {r : SelectStatement} (h : select t s q = .ok r) :
    ∃ cond order page, checkColumns .select (View.resolve q.view t.columns) = .ok () ∧
      condition q.matcher = .ok cond ∧ ordering q.orders = .ok order ∧
      paging q.pager = .ok page ∧ r.columns = View.resolve q.view t.columns ∧
      r.sql = Sql.raw ("select " ++ ",".intercalate (View.resolve q.view t.columns) ++ " from "
        ++ tableName t s) ++ cond ++ Sql.raw (order ++ page)
        ++ Sql.raw ((q.lock.map RowLock.text).getD "") := by
  obtain ⟨⟨⟩, hcheck, h⟩ := exists_of_bind_eq_ok h
  obtain ⟨cond, hcond, h⟩ := exists_of_bind_eq_ok h
  obtain ⟨tail, htail, h⟩ := exists_of_bind_eq_ok h
  obtain ⟨order, horder, htail⟩ := exists_of_bind_eq_ok htail
  obtain ⟨page, hpage, htail⟩ := exists_of_bind_eq_ok htail
  cases htail
  cases h
  exact ⟨cond, order, page, hcheck, hcond, horder, hpage, rfl, rfl⟩

/-- The names in the text of a select: those of its columns and of its order, which are plain, and
those of its condition. -/
theorem splices_select {q : Selection} {r : SelectStatement} (h : select t s q = .ok r) :
    (∀ c ∈ r.columns ++ q.orders.map Order.column,
      Ident.isPlain c = true ∧ Splices r.sql.text c) ∧
    ∀ c ∈ Matcher.names q.matcher, Splices r.sql.text c := by
  obtain ⟨cond, order, page, hcheck, hcond, horder, -, hcolumns, hsql⟩ := exists_of_select h
  simp only [hcolumns, hsql, Sql.text_append]
  refine ⟨fun c hc => ?_, fun c hc => ?_⟩
  · rcases List.mem_append.mp hc with hc | hc
    · refine ⟨isPlain_of_checkColumns hcheck c hc, ?_⟩
      have hname := (Splices.intercalate "," hc).after "select "
      exact ((((hname.before _).before _).before _).before _).before _
    · obtain ⟨o, ho, rfl⟩ := List.mem_map.mp hc
      refine ⟨(ordering_eq horder).1 o ho, ?_⟩
      exact (((splices_ordering horder ho).before page).after _).before _
  · exact (((splices_condition hc hcond).after _).before _).before _

/-- A select is refused for the first of its columns that is no plain identifier. -/
theorem select_of_column {q : Selection} {c : String}
    (h : (View.resolve q.view t.columns).find? (fun c => !Ident.isPlain c) = some c) :
    select t s q = .error (.validation (.column .select c)) := by
  simp only [select, checkColumns_eq, h, bind, Except.bind]

/-- A select whose columns are plain and whose condition is not refused is refused for the first column
of its order that is no plain identifier. -/
theorem select_of_order {q : Selection} {cond : Sql} {c : String}
    (hcolumns : ∀ c ∈ View.resolve q.view t.columns, Ident.isPlain c = true)
    (hcond : condition q.matcher = .ok cond)
    (h : (q.orders.map Order.column).find? (fun c => !Ident.isPlain c) = some c) :
    select t s q = .error (.validation (.column .orderBy c)) := by
  have hnone : (View.resolve q.view t.columns).find? (fun c => !Ident.isPlain c) = none := by
    rw [List.find?_eq_none]
    intro c hc
    simp [hcolumns c hc]
  simp only [select, suffix, ordering, checkColumns_eq, hnone, hcond, h, bind, Except.bind]

/-- What a check refuses is one of its names. -/
theorem column_of_checkColumns {clause : Clause} {names : List String} {cause : Invalid}
    (h : checkColumns clause names = .error (.validation cause)) :
    ∃ c ∈ names, cause = .column clause c ∧ Ident.isPlain c = false := by
  rw [checkColumns_eq] at h
  split at h
  · cases h
  · next c hc =>
    cases h
    exact ⟨c, List.mem_of_find?_eq_some hc, rfl, by simpa using List.find?_some hc⟩

theorem paging_ne_validation (pager : Option Pager) (cause : Invalid) :
    paging pager ≠ .error (.validation cause) := by
  intro h
  cases pager with
  | none => cases h
  | some p =>
    rcases eq_error_of_bind h with h | ⟨offset, -, h⟩
    · rw [Pager.offset] at h
      split at h <;> cases h
    · cases h

/-- What follows a condition is refused for no name but a column of its order. -/
theorem column_of_suffix {pager : Option Pager} {orders : List Order} {cause : Invalid}
    (h : suffix pager orders = .error (.validation cause)) :
    ∃ c ∈ orders.map Order.column, cause = .column .orderBy c ∧ Ident.isPlain c = false := by
  rcases eq_error_of_bind h with h | ⟨order, -, h⟩
  · rcases eq_error_of_bind h with h | ⟨⟨⟩, -, h⟩
    · exact column_of_checkColumns h
    · cases h
  · rcases eq_error_of_bind h with h | ⟨page, -, h⟩
    · exact absurd h (paging_ne_validation pager cause)
    · cases h

/-- A select whose condition is made of predicates is refused for no other name. -/
theorem column_of_select {q : Selection} {cause : Invalid}
    (hb : Matcher.isBuiltIn q.matcher = true)
    (h : select t s q = .error (.validation cause)) :
    ∃ clause, ∃ c ∈ View.resolve q.view t.columns ++ q.orders.map Order.column,
      cause = .column clause c ∧ Ident.isPlain c = false := by
  rcases eq_error_of_bind h with h | ⟨⟨⟩, -, h⟩
  · obtain ⟨c, hc, hcause⟩ := column_of_checkColumns h
    exact ⟨.select, c, List.mem_append_left _ hc, hcause⟩
  · rcases eq_error_of_bind h with h | ⟨cond, -, h⟩
    · exact absurd h (condition_ne_validation hb cause)
    · rcases eq_error_of_bind h with h | ⟨tail, -, h⟩
      · obtain ⟨c, hc, hcause⟩ := column_of_suffix h
        exact ⟨.orderBy, c, List.mem_append_right _ hc, hcause⟩
      · cases h

/-- A count or a mutation has the columns of its condition in its text. -/
theorem splices_count {q : Sql} (h : count t s matcher = .ok q)
    (hn : name ∈ Matcher.names matcher) : Splices q.text name := by
  obtain ⟨cond, hcond, h⟩ := exists_of_bind_eq_ok h
  cases h
  exact (splices_condition hn hcond).after _

theorem splices_delete {q : Sql} (h : delete t s matcher = .ok q)
    (hn : name ∈ Matcher.names matcher) : Splices q.text name := by
  obtain ⟨cond, hcond, h⟩ := exists_of_bind_eq_ok h
  cases h
  exact (splices_condition hn (condition_of_required hcond)).after _

/-- An update has the columns that it assigns in its text as well. -/
theorem splices_modify {m : Modifier} {q : Sql} (h : modify t s m matcher = .ok (some q))
    (hn : name ∈ m.columns ++ Matcher.names matcher) : Splices q.text name := by
  rw [modify] at h
  split at h
  · cases h
  · obtain ⟨cond, hcond, h⟩ := exists_of_bind_eq_ok h
    cases h
    rcases List.mem_append.mp hn with hn | hn
    · exact ((Modifier.splices_compile hn).after _).before _
    · exact (splices_condition hn (condition_of_required hcond)).after _

/-- Neither a count nor a mutation is refused for a name. -/
theorem ne_validation (hb : Matcher.isBuiltIn matcher = true) (m : Modifier) (cause : Invalid) :
    count t s matcher ≠ .error (.validation cause) ∧
      delete t s matcher ≠ .error (.validation cause) ∧
      modify t s m matcher ≠ .error (.validation cause) := by
  refine ⟨fun h => ?_, fun h => ?_, fun h => ?_⟩
  · rcases eq_error_of_bind h with h | ⟨cond, -, h⟩
    · exact condition_ne_validation hb cause h
    · cases h
  · rcases eq_error_of_bind h with h | ⟨cond, -, h⟩
    · exact required_ne_validation .delete hb cause h
    · cases h
  · rw [modify] at h
    split at h
    · cases h
    · rcases eq_error_of_bind h with h | ⟨cond, -, h⟩
      · exact required_ne_validation .update hb cause h
      · cases h

/-- Which names are checked. A select has its columns and the columns of its order in its text and
refuses them unless they are plain, and there is no other name that it is refused for. The columns of
predicates, at any depth, and the columns of a modifier are in the text of the statement whatever they
are, and no count and no mutation is refused for a name. -/
theorem names_checked (t : Table) (s : Scope) :
    (∀ q r, select t s q = .ok r → r.columns = View.resolve q.view t.columns ∧
      (∀ c ∈ r.columns ++ q.orders.map Order.column,
        Ident.isPlain c = true ∧ Splices r.sql.text c) ∧
      ∀ c ∈ Matcher.names q.matcher, Splices r.sql.text c) ∧
    (∀ q c, (View.resolve q.view t.columns).find? (fun c => !Ident.isPlain c) = some c →
      select t s q = .error (.validation (.column .select c))) ∧
    (∀ q cond c, (∀ c ∈ View.resolve q.view t.columns, Ident.isPlain c = true) →
      condition q.matcher = .ok cond →
      (q.orders.map Order.column).find? (fun c => !Ident.isPlain c) = some c →
      select t s q = .error (.validation (.column .orderBy c))) ∧
    (∀ q cause, Matcher.isBuiltIn q.matcher = true → select t s q = .error (.validation cause) →
      ∃ clause, ∃ c ∈ View.resolve q.view t.columns ++ q.orders.map Order.column,
        cause = .column clause c ∧ Ident.isPlain c = false) ∧
    (∀ matcher q, count t s matcher = .ok q → ∀ c ∈ Matcher.names matcher, Splices q.text c) ∧
    (∀ matcher q, delete t s matcher = .ok q → ∀ c ∈ Matcher.names matcher, Splices q.text c) ∧
    (∀ m matcher q, modify t s m matcher = .ok (some q) →
      ∀ c ∈ m.columns ++ Matcher.names matcher, Splices q.text c) ∧
    ∀ m matcher cause, Matcher.isBuiltIn matcher = true →
      count t s matcher ≠ .error (.validation cause) ∧
      delete t s matcher ≠ .error (.validation cause) ∧
      modify t s m matcher ≠ .error (.validation cause) := by
  refine ⟨fun q r h => ?_, fun q c h => select_of_column h,
    fun q cond c hcolumns hcond h => select_of_order hcolumns hcond h,
    fun q cause hb h => column_of_select hb h, fun matcher q h c hc => splices_count h hc,
    fun matcher q h c hc => splices_delete h hc, fun m matcher q h c hc => splices_modify h hc,
    fun m matcher cause hb => ne_validation hb m cause⟩
  obtain ⟨-, -, -, -, -, -, -, hcolumns, -⟩ := exists_of_select h
  exact ⟨hcolumns, splices_select h⟩

/-- A comparison, deep in a condition, with a name that changes what the condition says, and a modifier
with one that sets another column. -/
theorem names_checked_nested :
    let t : Table := ⟨"accounts", ["id", "name", "balance"], some "id", [], none⟩
    let s : Scope := { traceId := "" }
    let wild := "id = id or name"
    let matcher : Matcher := ⟨.and, [.group .or [.leaf (.like "name" "" 0),
      .group .and [.leaf (.compare .eq wild (.int 1))]]]⟩
    let m : Modifier := ⟨[⟨"balance=0,name", .set, .text "x"⟩]⟩
    (∃ r, select t s { matcher := some matcher, view := some (.only ["id"]) } = .ok r ∧
      Ident.isPlain "id" = true ∧ Splices r.sql.text wild) ∧
    select t s { view := some (.only ["id", wild]) } = .error (.validation (.column .select wild)) ∧
    select t s { matcher := some matcher, orders := [⟨"id", true⟩, ⟨wild, false⟩] } =
      .error (.validation (.column .orderBy wild)) ∧
    (∃ q, count t s (some matcher) = .ok q ∧ Splices q.text wild) ∧
    (∃ q, delete t s (some matcher) = .ok q ∧ Splices q.text wild) ∧
    ∃ q, modify t s m (some matcher) = .ok (some q) ∧ Splices q.text "balance=0,name" := by
  intro t s wild matcher m
  obtain ⟨hselect, hcolumn, horder, -, hcount, hdelete, hmodify, -⟩ := names_checked t s
  have hmem : wild ∈ Matcher.names (some matcher) := by decide +kernel
  have hassigned : "balance=0,name" ∈ m.columns ++ Matcher.names (some matcher) := by
    decide +kernel
  obtain ⟨r, hr⟩ : ∃ r, select t s { matcher := some matcher, view := some (.only ["id"]) } = .ok r :=
    ⟨_, rfl⟩
  obtain ⟨counted, hcounted⟩ : ∃ q, count t s (some matcher) = .ok q := ⟨_, rfl⟩
  obtain ⟨deleted, hdeleted⟩ : ∃ q, delete t s (some matcher) = .ok q := ⟨_, rfl⟩
  obtain ⟨modified, hmodified⟩ : ∃ q, modify t s m (some matcher) = .ok (some q) := ⟨_, rfl⟩
  obtain ⟨cond, hcond⟩ : ∃ q, condition (some matcher) = .ok q := ⟨_, rfl⟩
  obtain ⟨hcolumns, hplain, hnames⟩ := hselect _ r hr
  refine ⟨⟨r, hr, (hplain "id" ?_).1, hnames wild hmem⟩, hcolumn _ wild (by decide +kernel),
    horder _ cond wild (by decide +kernel) hcond (by decide +kernel),
    ⟨counted, hcounted, hcount _ counted hcounted wild hmem⟩,
    ⟨deleted, hdeleted, hdelete _ deleted hdeleted wild hmem⟩,
    ⟨modified, hmodified, hmodify m _ modified hmodified _ hassigned⟩⟩
  rw [hcolumns]
  exact List.mem_append_left _ (List.mem_singleton_self "id")

/-- A condition that compares a name that is no plain identifier is sent with it. -/
theorem unchecked_name :
    Ident.isPlain "id = id or 1" = false ∧
    "id = id or 1" ∈ Matcher.names (some (Matcher.equals "id = id or 1" (.int 1))) ∧
    delete ⟨"accounts", ["id", "name", "balance", "operator_id"], some "id", [], none⟩
        { traceId := "t" } (some (Matcher.equals "id = id or 1" (.int 1))) =
      .ok ⟨"delete from accounts where id = id or 1 = ?", [.int 1]⟩ ∧
    Splices "delete from accounts where id = id or 1 = ?" "id = id or 1" :=
  ⟨by decide +kernel, by decide +kernel, rfl, by decide +kernel⟩

end Statement

end TableAccess
