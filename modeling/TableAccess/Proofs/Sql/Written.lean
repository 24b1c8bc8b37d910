import TableAccess.Proofs.Sql.Identifiers
import TableAccess.Sql.Dialect
import TableAccess.Sql.Fragment

/-!
Statements with their values in place.

A written statement is a list of characters and values, each value where it was supplied for.
`Written.sql` is the statement that is sent instead: a question mark for each value, and the values in
the order of their marks. `Sql.inline` puts values back into the free question marks of any statement.
The two are inverse as long as the characters are mild: no quote opens a span, no question mark stands
for itself, and no digit follows a blank, so nothing in them looks like a page clause either. Pieces
that are mild are mild when put together, which is how whole statements are shown to be.
-/

namespace TableAccess

open Digits (isDigit)

/-- A character of a statement, or a value in it. -/
inductive Token where
  | char (c : Char)
  | value (v : Value)
  deriving DecidableEq

/-- A statement with its values in place. -/
abbrev Written := List Token

namespace Written

/-- Text without values. -/
def plain (text : String) : Written := text.toList.map .char

/-- Pieces with a text between them. -/
def joined (separator : String) (pieces : List Written) : Written :=
  (plain separator).intercalate pieces

/-- The characters, and a question mark for each value. -/
def marked : Written → List Char
  | [] => []
  | .char c :: w => c :: marked w
  | .value _ :: w => '?' :: marked w

/-- The values. -/
def values : Written → List Value
  | [] => []
  | .char _ :: w => values w
  | .value v :: w => v :: values w

/-- The characters, and for each value its number, counted on from `n`. -/
def numbered : Nat → Written → List Char
  | _, [] => []
  | n, .char c :: w => c :: numbered n w
  | n, .value _ :: w => Dialect.mark (n + 1) ++ numbered (n + 1) w

/-- The statement that is sent. -/
def sql (w : Written) : Sql := ⟨String.ofList w.marked, w.values⟩

/-- Whether the characters are mild. `blank` says whether what comes before is a blank. -/
def calm (blank : Bool) : Written → Bool
  | [] => true
  | .value _ :: w => calm false w
  | .char c :: w =>
    !Quotes.isMark c && c != '?' && !(blank && isDigit c) && calm (Dialect.isBlank c) w

/-- No quotes and no question marks. -/
def Quiet (w : Written) : Prop := ∀ c, .char c ∈ w → Quotes.isMark c = false ∧ c ≠ '?'

/-- No quotes, no question marks, and no digit at the start or after a blank. -/
def Mild (w : Written) : Prop := w.calm true = true

instance (w : Written) : Decidable w.Mild := inferInstanceAs (Decidable (_ = _))

end Written

/-- The free question marks of a text replaced by values from left to right, as long as there are
any. -/
def inlineFrom : Quotes.State → List Char → List Value → Written
  | _, [], _ => []
  | q, c :: cs, [] => .char c :: inlineFrom (Quotes.step q c) cs []
  | q, c :: cs, v :: vs =>
    if q.isNone ∧ c = '?' then .value v :: inlineFrom (Quotes.step q c) cs vs
    else .char c :: inlineFrom (Quotes.step q c) cs (v :: vs)

/-- A statement with its arguments put in place of its free question marks. -/
def Sql.inline (q : Sql) : Written := inlineFrom none q.text.toList q.args

theorem Sql.append_assoc (a b c : Sql) : a ++ b ++ c = a ++ (b ++ c) := by
  change Sql.mk (a.text ++ b.text ++ c.text) (a.args ++ b.args ++ c.args) = _
  rw [String.append_assoc, List.append_assoc]
  rfl

theorem Sql.raw_append (a b : String) : Sql.raw (a ++ b) = Sql.raw a ++ Sql.raw b := rfl

namespace Written

variable {u w : Written}

/-! ### What is sent, piece by piece -/

theorem marked_append (u w : Written) : (u ++ w).marked = u.marked ++ w.marked := by
  induction u with
  | nil => rfl
  | cons t u ih =>
    cases t with
    | char c => exact congrArg (c :: ·) ih
    | value v => exact congrArg ('?' :: ·) ih

theorem values_append (u w : Written) : (u ++ w).values = u.values ++ w.values := by
  induction u with
  | nil => rfl
  | cons t u ih =>
    cases t with
    | char c => exact ih
    | value v => exact congrArg (v :: ·) ih

theorem numbered_append (n : Nat) (u w : Written) :
    (u ++ w).numbered n = u.numbered n ++ w.numbered (n + u.values.length) := by
  induction u generalizing n with
  | nil => rfl
  | cons t u ih =>
    cases t with
    | char c => exact congrArg (c :: ·) (ih n)
    | value v =>
      simp only [List.cons_append, numbered, ih, values, List.length_cons, List.append_assoc]
      rw [Nat.add_assoc, Nat.add_comm 1]

theorem marked_plain (text : String) : (plain text).marked = text.toList := by
  rw [plain]
  induction text.toList with
  | nil => rfl
  | cons c cs ih => exact congrArg (c :: ·) ih

theorem values_plain (text : String) : (plain text).values = [] := by
  rw [plain]
  induction text.toList with
  | nil => rfl
  | cons c cs ih => exact ih

theorem numbered_plain (n : Nat) (text : String) : (plain text).numbered n = text.toList := by
  rw [plain]
  induction text.toList with
  | nil => rfl
  | cons c cs ih => exact congrArg (c :: ·) ih

theorem plain_append (s t : String) : plain (s ++ t) = plain s ++ plain t := by
  simp [plain]

@[simp]
theorem sql_append (u w : Written) : (u ++ w).sql = u.sql ++ w.sql := by
  rw [sql, marked_append, values_append, String.ofList_append]
  rfl

@[simp]
theorem sql_plain (text : String) : (plain text).sql = Sql.raw text := by
  rw [sql, marked_plain, values_plain, String.ofList_toList]
  rfl

@[simp]
theorem sql_value (v : Value) : sql [.value v] = Sql.bind v := rfl

@[simp]
theorem sql_nil : sql [] = Sql.empty := rfl

theorem marked_eq_nil : w.marked = [] ↔ w = [] := by
  match w with
  | [] => exact ⟨fun _ => rfl, fun _ => rfl⟩
  | .char _ :: _ => exact ⟨nofun, nofun⟩
  | .value _ :: _ => exact ⟨nofun, nofun⟩

/-- A statement has no text exactly if nothing is written. -/
theorem isEmpty_sql : w.sql.isEmpty = true ↔ w = [] := by
  rw [Sql.isEmpty, sql, String.isEmpty_iff, String.ofList_eq_empty_iff, marked_eq_nil]

theorem joined_cons_cons (separator : String) (p q : Written) (rest : List Written) :
    joined separator (p :: q :: rest) = p ++ plain separator ++ joined separator (q :: rest) := by
  simp [joined, List.intercalate]

theorem joined_singleton (separator : String) (p : Written) : joined separator [p] = p := by
  simp [joined, List.intercalate]

/-! ### Mild pieces -/

/-- It is enough to be calm after a blank. -/
theorem calm_of_mild (h : w.Mild) (blank : Bool) : w.calm blank = true := by
  match w with
  | [] => rfl
  | .value _ :: _ => exact h
  | .char c :: _ =>
    simp only [Mild, calm, Bool.true_and, Bool.and_eq_true] at h ⊢
    refine ⟨⟨h.1.1, ?_⟩, h.2⟩
    cases blank with
    | true => exact h.1.2
    | false => rfl

/-- A mild piece may follow anything. -/
theorem calm_append (hw : w.Mild) : ∀ {u : Written} (blank : Bool),
    u.calm blank = true → (u ++ w).calm blank = true
  | [], blank, _ => calm_of_mild hw blank
  | .value _ :: _, _, h => calm_append hw false h
  | .char c :: u, _, h => by
    simp only [calm, Bool.and_eq_true, List.cons_append] at h ⊢
    exact ⟨h.1, calm_append hw _ h.2⟩

theorem mild_nil : Mild [] := rfl

theorem mild_value (v : Value) : Mild [.value v] := rfl

theorem Mild.append (hu : u.Mild) (hw : w.Mild) : (u ++ w).Mild := calm_append hw true hu

theorem mild_joined {separator : String} (hs : (plain separator).Mild) :
    ∀ {pieces : List Written}, (∀ p ∈ pieces, p.Mild) → (joined separator pieces).Mild
  | [], _ => mild_nil
  | [p], h => by
    rw [joined_singleton]
    exact h p (List.mem_singleton_self p)
  | p :: q :: rest, h => by
    rw [joined_cons_cons]
    have hrest := mild_joined hs fun r hr => h r (List.mem_cons_of_mem p hr)
    exact ((h p (List.mem_cons_self ..)).append hs).append hrest

/-- A list of mild pieces with commas between them is mild. -/
theorem mild_commas {α : Type} {f : α → Written} {xs : List α} (h : ∀ x ∈ xs, (f x).Mild) :
    (joined "," (xs.map f)).Mild := by
  refine mild_joined (by decide) ?_
  intro p hp
  obtain ⟨x, hx, rfl⟩ := List.mem_map.mp hp
  exact h x hx

/-! ### Plain identifiers are mild -/

/-- A character of an identifier is neither a quote nor a question mark nor a blank. -/
theorem calm_char {c : Char} (h : Ident.isWord c = true ∨ c = '.') :
    Quotes.isMark c = false ∧ c ≠ '?' ∧ Dialect.isBlank c = false := by
  refine ⟨?_, ?_, ?_⟩
  · rw [← Bool.not_eq_true]
    intro hmark
    simp only [Quotes.isMark, Bool.or_eq_true, beq_iff_eq] at hmark
    rcases hmark with rfl | rfl <;> exact absurd h (by decide)
  · rintro rfl
    exact absurd h (by decide)
  · rw [← Bool.not_eq_true]
    intro hblank
    simp only [Dialect.isBlank, Bool.or_eq_true, beq_iff_eq] at hblank
    rcases hblank with (((rfl | rfl) | rfl) | rfl) | rfl <;> exact absurd h (by decide)

theorem calm_of_chars : ∀ {cs : List Char}, (∀ c ∈ cs, Ident.isWord c = true ∨ c = '.') →
    calm false (cs.map .char) = true
  | [], _ => rfl
  | c :: cs, h => by
    obtain ⟨hmark, hquestion, hblank⟩ := calm_char (h c (List.mem_cons_self ..))
    have hrest := calm_of_chars fun d hd => h d (List.mem_cons_of_mem c hd)
    simp [calm, hmark, hquestion, hblank, hrest]

/-- An identifier does not start with a digit. -/
theorem isDigit_of_isStart {c : Char} (h : Ident.isStart c = true) : isDigit c = false := by
  simp only [Ident.isStart, Ident.isLetter, Bool.or_eq_true, Bool.and_eq_true, decide_eq_true_eq,
    beq_iff_eq, Char.le_def, UInt32.le_iff_toNat_le] at h
  rcases h with (h | h) | rfl
  · have h9 : ('9' : Char).val.toNat = 57 := rfl
    have ha : ('a' : Char).val.toNat = 97 := rfl
    simp only [isDigit, Bool.and_eq_false_iff, decide_eq_false_iff_not, Char.le_def,
      UInt32.le_iff_toNat_le]
    omega
  · have h9 : ('9' : Char).val.toNat = 57 := rfl
    have hA : ('A' : Char).val.toNat = 65 := rfl
    simp only [isDigit, Bool.and_eq_false_iff, decide_eq_false_iff_not, Char.le_def,
      UInt32.le_iff_toNat_le]
    omega
  · rfl

/-- A plain identifier is mild. -/
theorem mild_of_isPlain {name : String} (h : Ident.isPlain name = true) : (plain name).Mild := by
  have hcalm := calm_of_chars fun _ hc => Ident.chars_of_isPlain h hc
  obtain ⟨first, rest, hname, hstart⟩ := Ident.exists_start_of_isPlain h
  rw [hname] at hcalm
  rw [Mild, plain, hname]
  simp only [List.map_cons, calm, Bool.false_and, Bool.not_false, Bool.and_true, Bool.true_and,
    isDigit_of_isStart hstart] at hcalm ⊢
  exact hcalm

/-! ### Back from what is sent -/

theorem Quiet.append (hu : u.Quiet) (hw : w.Quiet) : (u ++ w).Quiet := by
  intro c hc
  rcases List.mem_append.mp hc with hc | hc
  · exact hu c hc
  · exact hw c hc

/-- What is calm is quiet. -/
theorem quiet_of_calm : ∀ {w : Written} (blank : Bool), w.calm blank = true → w.Quiet
  | [], _, _ => nofun
  | .value _ :: _, _, h => by
    intro c hc
    exact quiet_of_calm false h c (by simpa using hc)
  | .char d :: w, _, h => by
    simp only [calm, Bool.and_eq_true, Bool.not_eq_true', bne_iff_ne] at h
    intro c hc
    rcases List.mem_cons.mp hc with hc | hc
    · cases hc
      exact h.1.1
    · exact quiet_of_calm _ h.2 c hc

theorem Mild.quiet (h : w.Mild) : w.Quiet := quiet_of_calm true h

/-- A quiet statement has as many free question marks as values, and putting its values back in gives
what was written. -/
theorem inline_of_quiet : ∀ {w : Written}, w.Quiet →
    Quotes.placeholders none w.marked = w.values.length ∧
      inlineFrom none w.marked w.values = w
  | [], _ => ⟨rfl, rfl⟩
  | .value v :: w, h => by
    obtain ⟨hcount, hinline⟩ := inline_of_quiet fun c hc => h c (List.mem_cons_of_mem _ hc)
    refine ⟨?_, ?_⟩
    · simp [marked, values, Quotes.placeholders, Quotes.step, Quotes.isMark, hcount, Nat.add_comm]
    · simp [marked, values, inlineFrom, Quotes.step, Quotes.isMark, hinline]
  | .char c :: w, h => by
    obtain ⟨hmark, hquestion⟩ := h c (List.mem_cons_self ..)
    obtain ⟨hcount, hinline⟩ := inline_of_quiet fun d hd => h d (List.mem_cons_of_mem _ hd)
    have hstep : Quotes.step none c = none := by simp [Quotes.step, hmark]
    refine ⟨?_, ?_⟩
    · simp [marked, values, Quotes.placeholders, hstep, hquestion, hcount]
    · simp only [marked, values]
      cases hv : values w with
      | nil =>
        rw [hv] at hinline
        rw [inlineFrom, hstep, hinline]
      | cons v vs =>
        rw [hv] at hinline
        rw [inlineFrom, if_neg (by simp [hquestion]), hstep, hinline]

theorem placeholderCount_sql (h : w.Quiet) : w.sql.placeholderCount = w.sql.args.length := by
  rw [Sql.placeholderCount, sql, String.toList_ofList]
  exact (inline_of_quiet h).1

theorem inline_sql (h : w.Quiet) : w.sql.inline = w := by
  rw [Sql.inline, sql, String.toList_ofList]
  exact (inline_of_quiet h).2

end Written

end TableAccess
