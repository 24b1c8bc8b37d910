import TableAccess.Proofs.Sql.Conditions

/-!
Statements put together piece by piece.

A `Builder` is the list of operations that a statement is put together with, any of which may put in
another statement that is put together in the same way. `Builder.written` is what they write, each value
where its mark was put. The marks are found again by a scan of the whole text, which sees the quotes of
every piece. The two agree as long as each piece closes the quotes that it opens and has no question
mark of its own outside of them: then no piece changes what the scan finds in another.
-/

namespace TableAccess

open Written

/-- The operations that a statement is put together with, the last one outermost. -/
inductive Builder where
  | new (text : String)
  | push (b : Builder) (text : String)
  | bind (b : Builder) (v : Value)
  | bindList (b : Builder) (vs : List Value)
  | append (b other : Builder)

/-- Whether a text closes the quotes that it opens and has no free question mark. -/
def Quotes.Closed (text : String) : Prop :=
  after none text.toList = none ∧ placeholders none text.toList = 0

instance (text : String) : Decidable (Quotes.Closed text) := inferInstanceAs (Decidable (_ ∧ _))

namespace Builder

/-- The statement. -/
def sql : Builder → Sql
  | new text => .raw text
  | push b text => b.sql ++ .raw text
  | bind b v => b.sql ++ .bind v
  | bindList b vs => b.sql ++ .bindList vs
  | append b other => b.sql ++ other.sql

/-- The statement with each value where its mark was put. -/
def written : Builder → Written
  | new text => plain text
  | push b text => b.written ++ plain text
  | bind b v => b.written ++ [.value v]
  | bindList b vs => b.written ++ joined "," (vs.map fun v => [.value v])
  | append b other => b.written ++ other.written

/-- What there is after each of the operations, those of the statements that are put in included. -/
def stages : Builder → List Builder
  | new text => [new text]
  | push b text => push b text :: b.stages
  | bind b v => bind b v :: b.stages
  | bindList b vs => bindList b vs :: b.stages
  | append b other => append b other :: (b.stages ++ other.stages)

/-- Whether each text that is pushed closes its quotes and has no free question mark. -/
def Closed : Builder → Prop
  | new text => Quotes.Closed text
  | push b text => b.Closed ∧ Quotes.Closed text
  | bind b _ => b.Closed
  | bindList b _ => b.Closed
  | append b other => b.Closed ∧ other.Closed

instance decidableClosed : (b : Builder) → Decidable b.Closed
  | new text => inferInstanceAs (Decidable (Quotes.Closed text))
  | push b text =>
    have := decidableClosed b
    inferInstanceAs (Decidable (b.Closed ∧ Quotes.Closed text))
  | bind b _ => decidableClosed b
  | bindList b _ => decidableClosed b
  | append b other =>
    have := decidableClosed b
    have := decidableClosed other
    inferInstanceAs (Decidable (b.Closed ∧ other.Closed))

end Builder

/-! ### Text behind text -/

/-- What is no free question mark stays. -/
theorem inlineFrom_kept {q : Quotes.State} {c : Char} (h : ¬(q.isNone ∧ c = '?')) (cs : List Char)
    (vs : List Value) :
    inlineFrom q (c :: cs) vs = .char c :: inlineFrom (Quotes.step q c) cs vs := by
  cases vs with
  | nil => rfl
  | cons v vs => rw [inlineFrom, if_neg h]

/-- The marks of a text that has as many of them as there are arguments take these, and leave the rest
of the arguments to the text behind. -/
theorem inlineFrom_append {q : Quotes.State} {front back : List Char} {us vs : List Value}
    (h : Quotes.placeholders q front = us.length) :
    inlineFrom q (front ++ back) (us ++ vs) =
      inlineFrom q front us ++ inlineFrom (Quotes.after q front) back vs := by
  induction front generalizing q us with
  | nil =>
    obtain rfl : us = [] := List.eq_nil_of_length_eq_zero h.symm
    rfl
  | cons c front ih =>
    rw [Quotes.placeholders] at h
    by_cases hfree : q.isNone ∧ c = '?'
    · rw [if_pos (by simp [hfree])] at h
      cases us with
      | nil => simp at h
      | cons u us =>
        have hrest : Quotes.placeholders (Quotes.step q c) front = us.length := by
          rw [List.length_cons] at h
          omega
        rw [List.cons_append, List.cons_append, inlineFrom, inlineFrom, if_pos hfree, if_pos hfree,
          ih hrest]
        rfl
    · rw [if_neg (by simpa using hfree), Nat.zero_add] at h
      rw [List.cons_append, inlineFrom_kept hfree, inlineFrom_kept hfree, ih h]
      rfl

theorem inlineFrom_nil (q : Quotes.State) (cs : List Char) : inlineFrom q cs [] = cs.map .char := by
  induction cs generalizing q with
  | nil => rfl
  | cons c cs ih => rw [inlineFrom, ih, List.map_cons]

/-- The marks of a text behind one that leaves no quote open are added to those of that text. -/
theorem Sql.placeholderCount_append {a b : Sql} (h : Quotes.after none a.text.toList = none) :
    (a ++ b).placeholderCount = a.placeholderCount + b.placeholderCount := by
  rw [placeholderCount, text_append, String.toList_append, Quotes.placeholders_append, h]
  rfl

theorem Sql.empty_append (a : Sql) : Sql.empty ++ a = a := by
  change Sql.mk ("" ++ a.text) ([] ++ a.args) = a
  rw [String.empty_append, List.nil_append]

theorem Sql.append_empty (a : Sql) : a ++ Sql.empty = a := by
  change Sql.mk (a.text ++ "") (a.args ++ []) = a
  rw [String.append_empty, List.append_nil]

/-! ### Marks and values in lockstep -/

/-- What is sent leaves no quote open and has one free mark for each value, the one that stands for it. -/
structure Written.Lockstep (w : Written) : Prop where
  closed : Quotes.after none w.marked = none
  counted : Quotes.placeholders none w.marked = w.values.length
  inlined : inlineFrom none w.marked w.values = w

namespace Written

/-- What is written behind something in lockstep does not disturb it. -/
theorem Lockstep.append {u w : Written} (hu : u.Lockstep) (hw : w.Lockstep) : (u ++ w).Lockstep where
  closed := by rw [marked_append, Quotes.after_append, hu.closed, hw.closed]
  counted := by
    rw [marked_append, Quotes.placeholders_append, hu.closed, hu.counted, hw.counted, values_append,
      List.length_append]
  inlined := by
    rw [marked_append, values_append, inlineFrom_append hu.counted, hu.closed, hu.inlined, hw.inlined]

theorem lockstep_plain {text : String} (h : Quotes.Closed text) : (plain text).Lockstep where
  closed := by rw [marked_plain, h.1]
  counted := by rw [marked_plain, values_plain, h.2, List.length_nil]
  inlined := by rw [marked_plain, values_plain, inlineFrom_nil, plain]

/-- What is quiet opens no quote. -/
theorem after_of_quiet : ∀ {w : Written}, w.Quiet → Quotes.after none w.marked = none
  | [], _ => rfl
  | .value _ :: w, h => by
    rw [marked, Quotes.after]
    exact after_of_quiet fun d hd => h d (List.mem_cons_of_mem _ hd)
  | .char c :: w, h => by
    have hstep : Quotes.step none c = none := by simp [Quotes.step, h c (List.mem_cons_self ..)]
    rw [marked, Quotes.after, hstep]
    exact after_of_quiet fun d hd => h d (List.mem_cons_of_mem _ hd)

theorem Quiet.lockstep {w : Written} (h : w.Quiet) : w.Lockstep where
  closed := after_of_quiet h
  counted := (inline_of_quiet h).1
  inlined := (inline_of_quiet h).2

end Written

namespace Builder

/-- A builder sends what it writes. -/
theorem sql_eq (b : Builder) : b.sql = b.written.sql := by
  induction b with
  | new text => exact (sql_plain text).symm
  | push b text ih => rw [sql, ih, written, sql_append, sql_plain]
  | bind b v ih => rw [sql, ih, written, sql_append, sql_value]
  | bindList b vs ih => rw [sql, ih, written, sql_append, bindList_eq]
  | append b other ih ih' => rw [sql, ih, ih', written, sql_append]

/-- Whatever is put together from closed texts is in lockstep. -/
theorem Closed.lockstep {b : Builder} (h : b.Closed) : b.written.Lockstep := by
  induction b with
  | new text => exact lockstep_plain h
  | push b text ih => exact (ih h.1).append (lockstep_plain h.2)
  | bind b v ih => exact (ih h).append (mild_value v).quiet.lockstep
  | bindList b vs ih => exact (ih h).append (mild_values vs).quiet.lockstep
  | append b other ih ih' => exact (ih h.1).append (ih' h.2)

/-- What there is on the way is put together from closed texts as well. -/
theorem Closed.stage {b stage : Builder} (h : b.Closed) (hstage : stage ∈ b.stages) :
    stage.Closed := by
  induction b with
  | new text =>
    obtain rfl := List.mem_singleton.mp hstage
    exact h
  | push b text ih =>
    rcases List.mem_cons.mp hstage with rfl | hstage
    · exact h
    · exact ih h.1 hstage
  | bind b v ih =>
    rcases List.mem_cons.mp hstage with rfl | hstage
    · exact h
    · exact ih h hstage
  | bindList b vs ih =>
    rcases List.mem_cons.mp hstage with rfl | hstage
    · exact h
    · exact ih h hstage
  | append b other ih ih' =>
    rcases List.mem_cons.mp hstage with rfl | hstage
    · exact h
    · rcases List.mem_append.mp hstage with hstage | hstage
      · exact ih h.1 hstage
      · exact ih' h.2 hstage

/-- A statement that is put together from texts that close their quotes and have no free question mark
has after every operation as many free question marks as arguments, and each of them is the one that was
put there with its argument: putting the arguments back in gives what was written. More generally the
marks of two texts add up if the first one leaves no quote open, and putting statements together is
associative and has the empty statement as its unit. -/
theorem build_lockstep :
    (∀ b : Builder, b.Closed → ∀ stage ∈ b.stages,
      stage.sql.placeholderCount = stage.sql.args.length ∧
        stage.sql = stage.written.sql ∧ stage.sql.inline = stage.written) ∧
    (∀ a b : Sql, Quotes.after none a.text.toList = none →
      (a ++ b).placeholderCount = a.placeholderCount + b.placeholderCount) ∧
    (∀ a b c : Sql, a ++ b ++ c = a ++ (b ++ c)) ∧
    ∀ a : Sql, Sql.empty ++ a = a ∧ a ++ Sql.empty = a := by
  refine ⟨?_, fun a b => Sql.placeholderCount_append, Sql.append_assoc, fun a => ?_⟩
  · intro b hb stage hstage
    have hlockstep := (hb.stage hstage).lockstep
    have hsql := stage.sql_eq
    refine ⟨?_, hsql, ?_⟩
    · rw [hsql, Sql.placeholderCount, Written.sql, String.toList_ofList]
      exact hlockstep.counted
    · rw [hsql, Sql.inline, Written.sql, String.toList_ofList]
      exact hlockstep.inlined
  · exact ⟨a.empty_append, a.append_empty⟩

/-- Quoted question marks and quotes in quotes do not count, in a statement that is put in neither. -/
theorem build_lockstep_quoted :
    let inner := ((new "\"it's ?\" in (").bindList [.int 2, .int 3]).push ")"
    let outer := (((new "a <> '?\"' and a = ").bind (.int 1)).push " and ").append inner
    outer.Closed ∧ inner ∈ outer.stages ∧ outer.sql.placeholderCount = 3 ∧
      outer.sql.inline = plain "a <> '?\"' and a = " ++ [.value (.int 1)] ++
        plain " and \"it's ?\" in (" ++ [.value (.int 2)] ++ plain "," ++ [.value (.int 3)] ++
          plain ")" := by
  intro inner outer
  have hclosed : outer.Closed := by decide
  obtain ⟨hcount, -, hinline⟩ := build_lockstep.1 outer hclosed outer (List.mem_cons_self ..)
  refine ⟨hclosed, ?_, hcount, hinline.trans ?_⟩
  · exact List.mem_cons_of_mem _ (List.mem_append_right _ (List.mem_cons_self ..))
  · decide

end Builder

end TableAccess
