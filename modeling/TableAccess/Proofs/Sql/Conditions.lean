import TableAccess.Proofs.Sql.Written
import TableAccess.Sql.Condition

/-!
Conditions with their operands in place.

`Condition.written` is the condition one would write down: each predicate with its own operands, the
children of a group that say something with the group's word between them, and parentheses where two
alternatives meet. Compiling a condition sends what is written, behind the arguments that were
collected before it, and on plain columns all of it is mild.
-/

namespace TableAccess

open Written

/-- A predicate with its operands in place; nothing if it says nothing. -/
def Predicate.written : Predicate → Written
  | compare op column value => plain (column ++ " " ++ op.symbol ++ " ") ++ [.value value]
  | among column values negated =>
    plain (column ++ (if negated then " not in (" else " in ("))
      ++ joined "," (values.map fun v => [.value v]) ++ plain ")"
  | like column text style =>
    if text.isEmpty then []
    else
      match likePattern style text with
      | none => []
      | some pattern => plain (column ++ " like ") ++ [.value (.text pattern)]
  | null column negated => plain (column ++ (if negated then " is not null" else " is null"))
  | between _ none none => []
  | between column (some low) none => plain (column ++ " >= ") ++ [.value low]
  | between column none (some high) => plain (column ++ " <= ") ++ [.value high]
  | between column (some low) (some high) =>
    plain (column ++ " between ") ++ [.value low] ++ plain " and " ++ [.value high]
  | scalar text => plain text
  | bits column mask target =>
    plain (column ++ " & ") ++ [.value mask] ++ plain " = " ++ [.value target]

/-- The pieces of a group with its word between them. -/
def Logic.written (logic : Logic) (pieces : List Written) : Written :=
  if logic = .or ∧ 1 < pieces.length then plain "(" ++ joined logic.separator pieces ++ plain ")"
  else joined logic.separator pieces

namespace Condition

mutual

/-- A condition with its operands in place. -/
def written : Condition → Written
  | leaf p => p.written
  | group logic children => logic.written (writtenAll children)
  | custom _ => []

/-- The children that say something. -/
def writtenAll : List Condition → List Written
  | [] => []
  | c :: cs => if c.written = [] then writtenAll cs else c.written :: writtenAll cs

end

end Condition

/-- The column of a predicate, unless it is text of its own. -/
def Predicate.column? : Predicate → Option String
  | scalar _ => none
  | compare _ column _ | among column _ _ | like column _ _ | null column _ | between column _ _
  | bits column _ _ => some column

namespace Condition

mutual

/-- Whether a condition is made of predicates on plain columns. -/
def isPlain : Condition → Bool
  | leaf p => p.column?.any Ident.isPlain
  | group _ children => allPlain children
  | custom _ => false

def allPlain : List Condition → Bool
  | [] => true
  | c :: cs => c.isPlain && allPlain cs

end

end Condition

/-! ### What is sent -/

theorem bindList_eq (vs : List Value) :
    Sql.bindList vs = (joined "," (vs.map fun v => [.value v])).sql := by
  match vs with
  | [] => rfl
  | [v] => rfl
  | v :: u :: vs =>
    have hrest := bindList_eq (u :: vs)
    rw [List.map_cons] at hrest
    rw [Sql.bindList, hrest, List.map_cons, List.map_cons, joined_cons_cons, sql_append, sql_append,
      sql_plain, sql_value]
    exact nofun

/-- A predicate sends what is written. -/
theorem Predicate.compile_eq {p : Predicate} {q : Sql} (h : p.compile = .ok q) :
    q = p.written.sql := by
  cases p with
  | compare op column value =>
    cases h
    simp only [written, sql_append, sql_plain, sql_value]
  | among column values negated =>
    simp only [compile] at h
    split at h
    · cases h
    · cases h
      simp only [written, sql_append, sql_plain, bindList_eq]
  | like column text style =>
    rw [compile] at h
    rw [written]
    by_cases ht : text.isEmpty = true
    · rw [if_pos ht] at h ⊢
      cases h
      rfl
    · rw [if_neg ht] at h ⊢
      cases hp : likePattern style text with
      | none =>
        rw [hp] at h
        cases h
        rfl
      | some pattern =>
        rw [hp] at h
        cases h
        simp only [sql_append, sql_plain, sql_value]
  | null column negated =>
    cases h
    simp only [written, sql_plain]
  | between column low high =>
    cases low <;> cases high <;> cases h <;>
      simp only [written, sql_append, sql_plain, sql_value, sql_nil]
  | scalar text =>
    cases h
    simp only [written, sql_plain]
  | bits column mask target =>
    cases h
    simp only [written, sql_append, sql_plain, sql_value]

theorem text_joined (separator : String) : ∀ pieces : List Written,
    (joined separator pieces).sql.text = separator.intercalate (pieces.map fun p => p.sql.text)
  | [] => rfl
  | [p] => by rw [joined_singleton, List.map_singleton, String.intercalate_singleton]
  | p :: q :: rest => by
    rw [joined_cons_cons, sql_append, sql_append, sql_plain, Sql.text_append, Sql.text_append,
      text_joined separator (q :: rest)]
    simp only [List.map_cons]
    rw [String.intercalate_cons_cons]
    rfl

theorem values_joined (separator : String) : ∀ pieces : List Written,
    (joined separator pieces).values = pieces.flatMap values
  | [] => rfl
  | [p] => by rw [joined_singleton, List.flatMap_singleton]
  | p :: q :: rest => by
    rw [joined_cons_cons, values_append, values_append, values_plain, List.append_nil,
      values_joined separator (q :: rest)]
    simp only [List.flatMap_cons]

/-- A group sends its pieces, joined. -/
theorem Logic.join_eq (logic : Logic) (pieces : List Written) :
    logic.join (pieces.map fun p => p.sql.text) = (logic.written pieces).sql.text ∧
      (logic.written pieces).values = pieces.flatMap values := by
  rw [Logic.join, Logic.written, List.length_map]
  split
  · refine ⟨?_, ?_⟩
    · rw [sql_append, sql_append, Sql.text_append, Sql.text_append, text_joined, sql_plain, sql_plain]
      rfl
    · rw [values_append, values_append, values_plain, values_plain, values_joined, List.nil_append,
        List.append_nil]
  · exact ⟨(text_joined _ _).symm, values_joined _ _⟩

/-- What comes to a value in steps comes to a value in each of them. -/
theorem exists_of_bind_eq_ok {ε α β : Type} {x : Except ε α} {f : α → Except ε β} {b : β}
    (h : (x >>= f) = .ok b) : ∃ a, x = .ok a ∧ f a = .ok b := by
  cases x with
  | error e => cases h
  | ok a => exact ⟨a, rfl, h⟩

theorem exists_of_map_eq_ok {ε α β : Type} {x : Except ε α} {f : α → β} {b : β}
    (h : x.map f = .ok b) : ∃ a, x = .ok a ∧ f a = b := by
  cases x with
  | error e => cases h
  | ok a => exact ⟨a, rfl, Except.ok.inj h⟩

namespace Condition

mutual

/-- A condition sends what is written, behind the arguments before it. -/
theorem compile_eq : ∀ {c : Condition} {args : List Value} {q : Sql}, c.isPlain = true →
    c.compile args = .ok q → q = ⟨c.written.sql.text, args ++ c.written.values⟩
  | .leaf p, args, q, _, h => by
    obtain ⟨r, hr, hq⟩ := exists_of_bind_eq_ok (by simpa only [compile] using h)
    cases hq
    rw [Predicate.compile_eq hr]
    simp only [written]
    rfl
  | .group logic children, args, q, hplain, h => by
    obtain ⟨⟨fragments, args'⟩, hr, hq⟩ := exists_of_bind_eq_ok (by simpa only [compile] using h)
    cases hq
    rw [isPlain] at hplain
    obtain ⟨rfl, rfl⟩ := Prod.mk.inj (compileAll_eq hplain hr)
    obtain ⟨htext, hvalues⟩ := logic.join_eq (writtenAll children)
    simp only [written, htext, hvalues]

/-- The children that say something are sent, and no argument is lost with the others. -/
theorem compileAll_eq : ∀ {cs : List Condition} {args : List Value}
    {r : List String × List Value}, allPlain cs = true → compileAll cs args = .ok r →
    r = ((writtenAll cs).map fun p => p.sql.text, args ++ (writtenAll cs).flatMap values)
  | [], args, r, _, h => by
    rw [compileAll] at h
    cases h
    simp [writtenAll]
  | c :: cs, args, r, hplain, h => by
    simp only [allPlain, Bool.and_eq_true] at hplain
    rw [compileAll] at h
    obtain ⟨q, hq, h⟩ := exists_of_bind_eq_ok h
    obtain ⟨⟨fragments, args'⟩, hrest, h⟩ := exists_of_bind_eq_ok h
    cases h
    obtain rfl := compile_eq hplain.1 hq
    obtain ⟨rfl, rfl⟩ := Prod.mk.inj (compileAll_eq hplain.2 hrest)
    have hempty : c.written.sql.text.isEmpty = true ↔ c.written = [] := isEmpty_sql
    rw [writtenAll]
    by_cases hc : c.written = []
    · rw [if_pos (hempty.mpr hc), if_pos hc, hc]
      simp [values]
    · rw [if_neg (mt hempty.mp hc), if_neg hc]
      simp

end

end Condition

/-! ### What is written is mild -/

theorem mild_append_plain {s t : String} (hs : (plain s).Mild) (ht : (plain t).Mild) :
    (plain (s ++ t)).Mild := by
  rw [plain_append]
  exact hs.append ht

theorem mild_values (vs : List Value) : (joined "," (vs.map fun v => [.value v])).Mild :=
  mild_commas fun v _ => mild_value v

/-- A predicate on a plain column is mild. -/
theorem Predicate.mild_written {p : Predicate} (h : p.column?.any Ident.isPlain = true) :
    p.written.Mild := by
  cases p with
  | scalar text => cases h
  | compare op column value =>
    have hsymbol : (plain op.symbol).Mild := by cases op <;> decide
    refine Mild.append ?_ (mild_value value)
    exact mild_append_plain (mild_append_plain (mild_append_plain (mild_of_isPlain h) (by decide))
      hsymbol) (by decide)
  | among column values negated =>
    refine Mild.append (Mild.append (mild_append_plain (mild_of_isPlain h) ?_) (mild_values values))
      (by decide)
    cases negated <;> decide
  | like column text style =>
    simp only [written]
    split
    · exact mild_nil
    · split
      · exact mild_nil
      · exact (mild_append_plain (mild_of_isPlain h) (by decide)).append (mild_value _)
  | null column negated =>
    refine mild_append_plain (mild_of_isPlain h) ?_
    cases negated <;> decide
  | between column low high =>
    have hname : (plain column).Mild := mild_of_isPlain h
    cases low with
    | none =>
      cases high with
      | none => exact mild_nil
      | some high => exact (mild_append_plain hname (by decide)).append (mild_value high)
    | some low =>
      cases high with
      | none => exact (mild_append_plain hname (by decide)).append (mild_value low)
      | some high =>
        exact (((mild_append_plain hname (by decide)).append (mild_value low)).append
          (by decide)).append (mild_value high)
  | bits column mask target =>
    exact (((mild_append_plain (mild_of_isPlain h) (by decide)).append (mild_value mask)).append
      (by decide)).append (mild_value target)

theorem Logic.mild_written (logic : Logic) {pieces : List Written} (h : ∀ p ∈ pieces, p.Mild) :
    (logic.written pieces).Mild := by
  have hseparator : (plain logic.separator).Mild := by cases logic <;> decide
  have hjoined := mild_joined hseparator h
  rw [Logic.written]
  split
  · exact (Mild.append (by decide) hjoined).append (by decide)
  · exact hjoined

namespace Condition

mutual

/-- A condition on plain columns is mild. -/
theorem mild_written : ∀ {c : Condition}, c.isPlain = true → c.written.Mild
  | .leaf p, h => by
    rw [isPlain] at h
    rw [written]
    exact Predicate.mild_written h
  | .group logic children, h => by
    rw [isPlain] at h
    rw [written]
    exact logic.mild_written (mild_writtenAll h)

theorem mild_writtenAll : ∀ {cs : List Condition}, allPlain cs = true → ∀ p ∈ writtenAll cs, p.Mild
  | [], _, p, hp => by
    rw [writtenAll] at hp
    cases hp
  | c :: cs, h, p, hp => by
    simp only [allPlain, Bool.and_eq_true] at h
    rw [writtenAll] at hp
    split at hp
    · exact mild_writtenAll h.2 p hp
    · rcases List.mem_cons.mp hp with rfl | hp
      · exact mild_written h.1
      · exact mild_writtenAll h.2 p hp

end

end Condition

end TableAccess
