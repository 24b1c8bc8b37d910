import TableAccess.Proofs.Sql.Requests

/-!
The tables that statements name.

Every statement that is put together for a table names one table, in the place where statements of its
kind do, and that is the physical table of the key that the scope carries. `Statement.Over` lists the
places; what follows the name, if anything does, is set off from it, so the name is neither cut short nor
run on.
-/

namespace TableAccess

namespace Statement

/-- A text that may follow a name without being read together with it. -/
def Apart (rest : String) : Prop := rest = "" ∨ ∃ more, rest = " " ++ more

/-- Statement text over a table: where its name stands in each kind of statement. -/
inductive Over (table : String) : String → Prop
  | select {columns : List String} {rest : String}
      (hc : ∀ c ∈ columns, Ident.isPlain c = true) (hr : Apart rest) :
    Over table ("select " ++ ",".intercalate columns ++ " from " ++ table ++ rest)
  | count {column rest : String} (hr : Apart rest) :
    Over table ("select count(" ++ column ++ ") from " ++ table ++ rest)
  | insert {rest : String} : Over table ("insert into " ++ table ++ "(" ++ rest)
  | update {rest : String} : Over table ("update " ++ table ++ " set " ++ rest)
  | delete {rest : String} (hr : Apart rest) : Over table ("delete from " ++ table ++ rest)

/-! ### What follows the name -/

theorem apart_empty : Apart "" := .inl rfl

theorem Apart.append {a b : String} (ha : Apart a) (hb : Apart b) : Apart (a ++ b) := by
  rcases ha with rfl | ⟨more, rfl⟩
  · rwa [String.empty_append]
  · exact .inr ⟨more ++ b, String.append_assoc ..⟩

variable {t : Table} {s : Scope} {q : Sql} {cond : Sql} {matcher : Option Matcher}

theorem apart_condition (h : condition matcher = .ok cond) : Apart cond.text := by
  cases matcher with
  | none =>
    cases h
    exact apart_empty
  | some m =>
    obtain ⟨c, -, h⟩ := exists_of_bind_eq_ok h
    cases h
    by_cases hc : c.isEmpty = true
    · rw [if_pos hc]
      exact apart_empty
    · rw [if_neg hc]
      exact .inr ⟨"where " ++ c.text, rfl⟩

theorem apart_required {mutation : Mutation} (h : required mutation matcher = .ok cond) :
    Apart cond.text := by
  obtain ⟨c, hc, h⟩ := exists_of_bind_eq_ok h
  split at h
  · cases h
  · cases h
    exact apart_condition hc

theorem apart_suffix {pager : Option Pager} {orders : List Order} {text : String}
    (h : suffix pager orders = .ok text) : Apart text := by
  obtain ⟨order, horder, h⟩ := exists_of_bind_eq_ok h
  obtain ⟨page, hpage, h⟩ := exists_of_bind_eq_ok h
  cases h
  refine Apart.append ?_ ?_
  · obtain ⟨_, -, horder⟩ := exists_of_bind_eq_ok horder
    cases horder
    split
    · exact apart_empty
    · exact .inr ⟨"order by " ++ ",".intercalate (orders.map orderText), rfl⟩
  · cases pager with
    | none =>
      cases hpage
      exact apart_empty
    | some p =>
      obtain ⟨offset, -, hpage⟩ := exists_of_bind_eq_ok hpage
      cases hpage
      split
      · exact .inr ⟨s!"limit {p.size.toInt}", rfl⟩
      · exact .inr ⟨s!"limit {offset.toInt},{p.size.toInt}", rfl⟩

theorem apart_lock (lock : Option RowLock) : Apart ((lock.map RowLock.text).getD "") := by
  rcases lock with _ | _ | _
  · exact apart_empty
  · exact .inr ⟨"for update", rfl⟩
  · exact .inr ⟨"for update skip locked", rfl⟩

/-! ### Statement by statement -/

theorem over_select {sel : Selection} {stmt : SelectStatement} (h : select t s sel = .ok stmt) :
    Over (tableName t s) stmt.sql.text := by
  obtain ⟨⟨⟩, hcolumns, h⟩ := exists_of_bind_eq_ok h
  obtain ⟨cond, hcond, h⟩ := exists_of_bind_eq_ok h
  obtain ⟨tail, htail, h⟩ := exists_of_bind_eq_ok h
  cases h
  simp only [Sql.text_append, Sql.raw]
  rw [String.append_assoc, String.append_assoc]
  exact .select (isPlain_of_checkColumns hcolumns)
    ((apart_condition hcond).append ((apart_suffix htail).append (apart_lock sel.lock)))

theorem over_count (h : count t s matcher = .ok q) : Over (tableName t s) q.text := by
  obtain ⟨cond, hcond, h⟩ := exists_of_bind_eq_ok h
  cases h
  exact .count (apart_condition hcond)

theorem over_insert {r : Record} (h : insert t s r = .ok q) : Over (tableName t s) q.text := by
  obtain ⟨vs, -, h⟩ := exists_of_bind_eq_ok h
  cases h
  simp only [Sql.text_append, Sql.raw]
  rw [String.append_assoc, String.append_assoc, String.append_assoc]
  exact .insert

theorem over_update {r : Record} (h : update t s r = .ok q) : Over (tableName t s) q.text := by
  obtain ⟨id, -, vs, -, cond, -, rfl⟩ := Request.of_update h
  simp only [Sql.text_append, Sql.raw]
  rw [String.append_assoc]
  exact .update

theorem over_modify {m : Modifier} (h : modify t s m matcher = .ok (some q)) :
    Over (tableName t s) q.text := by
  rw [modify] at h
  split at h
  · cases h
  · next hm =>
    obtain ⟨cond, -, h⟩ := exists_of_bind_eq_ok h
    cases h
    have hset : "update " ++ tableName t s ++ " " ++ "set " = "update " ++ tableName t s ++ " set " :=
      String.append_assoc ..
    simp only [Sql.text_append, Sql.raw, Modifier.compile, if_neg hm]
    rw [← String.append_assoc, hset, String.append_assoc]
    exact .update

theorem over_delete (h : delete t s matcher = .ok q) : Over (tableName t s) q.text := by
  obtain ⟨cond, hcond, h⟩ := exists_of_bind_eq_ok h
  cases h
  exact .delete (apart_required hcond)

end Statement

end TableAccess
