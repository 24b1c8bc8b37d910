import TableAccess.Proofs.Sql.Reading
import TableAccess.Proofs.Sql.Silence

/-!
Predicates as they are read.

Text is cut in two wherever a mark stands between the parts, which is how the pieces of a predicate
are cut apart: the column, the phrase after it, and the operands. A predicate that says something on
a plain column that is no keyword is read as one item, and reading goes on after it.
-/

namespace TableAccess.Reading

open Written

variable {u w : Written} {kind : Glyph} {run : List Char} {s column : String}

/-! ### Cutting at marks -/

/-- What ends a word or a sign before it: a mark, an operand or the end. -/
def Apart : Written → Prop
  | .char c :: _ => glyph c = .mark
  | _ => True

theorem lexFrom_apart (h : Apart w) (kind : Glyph) (run : List Char) :
    lexFrom kind run w = ended kind run ++ lex w := by
  match w, h with
  | [], _ => exact (List.append_nil _).symm
  | .value _ :: _, _ => rfl
  | .char c :: w, h =>
    have hc : glyph c = .mark := h
    rw [lex, lexFrom, lexFrom, if_neg (fun hk => hk.2 (hk.1.symm.trans hc)),
      if_neg (fun hk => hk.2 rfl)]
    rfl

theorem lexFrom_append (hw : Apart w) (u : Written) (kind : Glyph) (run : List Char) :
    lexFrom kind run (u ++ w) = lexFrom kind run u ++ lex w := by
  induction u generalizing kind run with
  | nil => exact lexFrom_apart hw kind run
  | cons t u ih =>
    cases t with
    | value v => rw [List.cons_append, lexFrom, lexFrom, ih, List.append_assoc, List.cons_append]
    | char c =>
      rw [List.cons_append, lexFrom, lexFrom]
      split
      · exact ih ..
      · rw [ih, List.append_assoc]

theorem lex_append (hw : Apart w) (u : Written) : lex (u ++ w) = lex u ++ lex w :=
  lexFrom_append hw u _ _

theorem lex_value (v : Value) (w : Written) : lex ([.value v] ++ w) = .operand v :: lex w := rfl

/-- A mark stands for itself whatever follows. -/
theorem lex_mark {c : Char} (hc : glyph c = .mark) (w : Written) :
    lex (.char c :: w) = mark c ++ lex w := by
  rw [lex, lexFrom, if_neg (fun hk => hk.2 rfl), hc]
  match w with
  | [] => rfl
  | .value _ :: _ => simp [lexFrom, lex, ended]
  | .char d :: w => simp [lexFrom, lex, ended]

/-- Whether a text starts with a mark. -/
def Leads (s : String) : Prop := s.toList.head?.any fun c => glyph c = .mark

/-- Whether a text ends with a mark. -/
def Closes (s : String) : Prop := s.toList.getLast?.any fun c => glyph c = .mark

instance (s : String) : Decidable (Leads s) := inferInstanceAs (Decidable (_ = _))

instance (s : String) : Decidable (Closes s) := inferInstanceAs (Decidable (_ = _))

theorem apart_plain (hs : Leads s) (w : Written) : Apart (plain s ++ w) := by
  rw [Leads] at hs
  rw [plain]
  cases hcs : s.toList with
  | nil =>
    rw [hcs] at hs
    cases hs
  | cons c cs =>
    rw [hcs] at hs
    have hc : glyph c = .mark := of_decide_eq_true hs
    exact hc

/-- A text that ends with a mark is cut by itself. -/
theorem lex_plain_append (hs : Closes s) (w : Written) :
    lex (plain s ++ w) = lex (plain s) ++ lex w := by
  obtain ⟨c, hlast, hc⟩ := (Option.any_eq_true ..).mp hs
  obtain ⟨init, hinit⟩ := List.getLast?_eq_some_iff.mp hlast
  have hmark : glyph c = .mark := of_decide_eq_true hc
  have hcut (w : Written) : lex (plain s ++ w) = lex (init.map .char) ++ (mark c ++ lex w) := by
    have hapart : Apart (.char c :: w) := hmark
    rw [plain, hinit, List.map_append, List.append_assoc, ← lex_mark hmark w]
    exact lex_append hapart _
  have hnil : lex (plain s) = lex (init.map .char) ++ mark c := by
    have hend := hcut []
    rwa [List.append_nil, show lex [] = [] from rfl, List.append_nil] at hend
  rw [hcut, hnil, List.append_assoc]

/-- A run of characters of one kind to the end of a text. -/
theorem lexFrom_run (hkind : kind ≠ .mark) {cs : List Char} (h : ∀ c ∈ cs, glyph c = kind)
    (run : List Char) : lexFrom kind run (cs.map .char) = ended kind (run ++ cs) := by
  induction cs generalizing run with
  | nil => rw [List.map_nil, lexFrom, List.append_nil]
  | cons c cs ih =>
    rw [List.map_cons, lexFrom, if_pos ⟨h c (List.mem_cons_self ..), hkind⟩,
      ih fun d hd => h d (List.mem_cons_of_mem c hd), List.append_assoc]
    rfl

/-! ### Columns and the phrases after them -/

/-- A plain identifier that is no keyword is a name. -/
theorem lex_column (hplain : Ident.isPlain column = true) (hword : keyword? column = none) :
    lex (plain column) = [.name column] := by
  have hglyph : ∀ c ∈ column.toList, glyph c = .word := by
    intro c hc
    have hchar := Ident.chars_of_isPlain hplain hc
    rw [glyph, if_pos (by simpa using hchar)]
  have hback : String.ofList column.toList = column := String.ofList_toList
  obtain ⟨c, cs, hcs, -⟩ := Ident.exists_start_of_isPlain hplain
  rw [hcs] at hglyph hback
  have hc := hglyph c (List.mem_cons_self ..)
  have hrun := lexFrom_run (show Glyph.word ≠ .mark by decide)
    (fun d hd => hglyph d (List.mem_cons_of_mem c hd)) [c]
  rw [plain, hcs, List.map_cons, lex, lexFrom, if_neg (fun hk => hk.2 rfl), hc, hrun,
    List.singleton_append]
  simp only [ended, List.flatMap_nil, List.nil_append, hback, hword]

/-- A text between marks and what it is cut into. -/
def Phrase (s : String) (ls : List Lexeme) : Prop := Leads s ∧ Closes s ∧ lex (plain s) = ls

instance (s : String) (ls : List Lexeme) : Decidable (Phrase s ls) :=
  inferInstanceAs (Decidable (_ ∧ _ ∧ _))

/-- A column, a phrase after it, and what follows. -/
theorem lex_phrase (hplain : Ident.isPlain column = true) (hword : keyword? column = none)
    {ls : List Lexeme} (hs : Phrase s ls) (w : Written) :
    lex (plain (column ++ s) ++ w) = .name column :: (ls ++ lex w) := by
  obtain ⟨hleads, hcloses, rfl⟩ := hs
  rw [plain_append, List.append_assoc, lex_append (apart_plain hleads w),
    lex_column hplain hword, lex_plain_append hcloses]
  rfl

/-- A list of operands up to its closing parenthesis. -/
theorem operands?_joined (w : Written) : ∀ {vs : List Value}, vs ≠ [] →
    operands? (lex (joined "," (vs.map fun v => [.value v]) ++ plain ")" ++ w)) = some (vs, lex w)
  | [v], _ => by
    rw [List.map_singleton, joined_singleton, List.append_assoc, lex_value,
      lex_plain_append (by decide)]
    rfl
  | v :: u :: vs, _ => by
    have hrest := operands?_joined w (List.cons_ne_nil u vs)
    rw [List.map_cons, List.map_cons, joined_cons_cons, List.append_assoc, List.append_assoc,
      List.append_assoc, lex_value, lex_plain_append (by decide),
      ← List.append_assoc]
    rw [List.map_cons] at hrest
    have hcomma : lex (plain ",") = [.comma] := by decide
    rw [hcomma, List.singleton_append, operands?, hrest]
    rfl

end TableAccess.Reading

namespace TableAccess

open Written Reading

/-- What a predicate says; nothing if it is void. A range with one bound is a comparison, and text
of the caller's own says what only the caller knows. -/
def Predicate.atom? : Predicate → Option Atom
  | compare op column value => some (.compare op column value)
  | among column values negated => some (.among column values negated)
  | like column text style =>
    if text.isEmpty then none
    else (likePattern style text).map fun pattern => .like column (.text pattern)
  | null column negated => some (.null column negated)
  | between _ none none => none
  | between column (some low) none => some (.compare .gte column low)
  | between column none (some high) => some (.compare .lte column high)
  | between column (some low) (some high) => some (.between column low high)
  | scalar _ => none
  | bits column mask target => some (.bits column mask target)

/-- A predicate that can be told from the words around it: its column is a plain identifier and no
keyword, and a membership has a list. -/
structure Predicate.Legible (p : Predicate) : Prop where
  column : ∃ column, p.column? = some column ∧ Ident.isPlain column = true ∧ keyword? column = none
  list : p.emptyAmong? = none

variable {p : Predicate}

/-- What is written of a predicate is read as what it says, and reading goes on after it. -/
theorem Predicate.Legible.atom?_written (h : p.Legible) {a : Atom} (ha : p.atom? = some a)
    {w : Written} (hw : Apart w) :
    ∃ column ls, lex (p.written ++ w) = .name column :: ls ∧
      Reading.atom? (.name column :: ls) = some (a, lex w) := by
  obtain ⟨⟨column, hcolumn, hplain, hword⟩, hlist⟩ := h
  cases p with
  | compare op c value =>
    cases hcolumn
    cases ha
    have hphrase : Phrase (" " ++ op.symbol ++ " ") [.sign (.compare op)] := by
      cases op <;> decide
    refine ⟨column, .sign (.compare op) :: .operand value :: lex w, ?_, rfl⟩
    have htext : column ++ " " ++ op.symbol ++ " " = column ++ (" " ++ op.symbol ++ " ") := by
      simp only [String.append_assoc]
    rw [written, htext, List.append_assoc, lex_phrase hplain hword hphrase]
    rfl
  | among c values negated =>
    cases hcolumn
    cases ha
    have hvalues : values ≠ [] := by
      rintro rfl
      cases hlist
    have hoperands := operands?_joined w hvalues
    rw [written, List.append_assoc]
    rw [List.append_assoc] at hoperands ⊢
    cases negated with
    | false =>
      have hphrase : Phrase " in (" [.keyword .in, .opening] := by decide
      refine ⟨column, _, lex_phrase hplain hword hphrase _, ?_⟩
      simp only [List.cons_append, List.nil_append, Reading.atom?, hoperands, Option.map_some]
    | true =>
      have hphrase : Phrase " not in (" [.keyword .not, .keyword .in, .opening] := by decide
      refine ⟨column, _, lex_phrase hplain hword hphrase _, ?_⟩
      simp only [List.cons_append, List.nil_append, Reading.atom?, hoperands, Option.map_some]
  | like c text style =>
    cases hcolumn
    rw [atom?] at ha
    split at ha
    case isTrue => cases ha
    case isFalse ht =>
      obtain ⟨pattern, hpattern, rfl⟩ := Option.map_eq_some_iff.mp ha
      have hphrase : Phrase " like " [.keyword .like] := by decide
      refine ⟨column, .keyword .like :: .operand (.text pattern) :: lex w, ?_, rfl⟩
      rw [written, if_neg ht, hpattern, List.append_assoc, lex_phrase hplain hword hphrase]
      rfl
  | null c negated =>
    cases hcolumn
    cases ha
    rw [written, plain_append, List.append_assoc]
    cases negated with
    | false =>
      have hphrase : lex (plain " is null") = [.keyword .is, .keyword .null] := by decide
      refine ⟨column, .keyword .is :: .keyword .null :: lex w, ?_, rfl⟩
      rw [lex_append (apart_plain (by decide) w), lex_column hplain hword,
        if_neg Bool.false_ne_true, lex_append hw, hphrase]
      rfl
    | true =>
      have hphrase : lex (plain " is not null") =
          [.keyword .is, .keyword .not, .keyword .null] := by
        decide
      refine ⟨column, .keyword .is :: .keyword .not :: .keyword .null :: lex w, ?_, rfl⟩
      rw [lex_append (apart_plain (by decide) w), lex_column hplain hword, if_pos rfl,
        lex_append hw, hphrase]
      rfl
  | between c low high =>
    cases hcolumn
    cases low with
    | none =>
      cases high with
      | none => cases ha
      | some high =>
        cases ha
        have hphrase : Phrase " <= " [.sign (.compare .lte)] := by decide
        refine ⟨column, .sign (.compare .lte) :: .operand high :: lex w, ?_, rfl⟩
        rw [written, List.append_assoc, lex_phrase hplain hword hphrase]
        rfl
    | some low =>
      cases high with
      | none =>
        cases ha
        have hphrase : Phrase " >= " [.sign (.compare .gte)] := by decide
        refine ⟨column, .sign (.compare .gte) :: .operand low :: lex w, ?_, rfl⟩
        rw [written, List.append_assoc, lex_phrase hplain hword hphrase]
        rfl
      | some high =>
        cases ha
        have hphrase : Phrase " between " [.keyword .between] := by decide
        have hand : lex (plain " and ") = [.keyword .and] := by decide
        refine ⟨column,
          .keyword .between :: .operand low :: .keyword .and :: .operand high :: lex w, ?_, rfl⟩
        rw [written, List.append_assoc, List.append_assoc, List.append_assoc,
          lex_phrase hplain hword hphrase, lex_value,
          lex_plain_append (by decide), hand]
        rfl
  | scalar text => cases ha
  | bits c mask target =>
    cases hcolumn
    cases ha
    have hphrase : Phrase " & " [.sign .mask] := by decide
    have hequals : lex (plain " = ") = [.sign (.compare .eq)] := by decide
    refine ⟨column,
      .sign .mask :: .operand mask :: .sign (.compare .eq) :: .operand target :: lex w, ?_, rfl⟩
    rw [written, List.append_assoc, List.append_assoc, List.append_assoc,
      lex_phrase hplain hword hphrase, lex_value,
      lex_plain_append (by decide), hequals]
    rfl

/-- Nothing is written of a predicate that says nothing. -/
theorem Predicate.Legible.written_eq_nil (h : p.Legible) (ha : p.atom? = none) :
    p.written = [] := by
  obtain ⟨⟨column, hcolumn, -, -⟩, -⟩ := h
  cases p with
  | like c text style =>
    rw [atom?] at ha
    rw [written]
    split at ha
    case isTrue ht => rw [if_pos ht]
    case isFalse ht => rw [if_neg ht, Option.map_eq_none_iff.mp ha]
  | between c low high =>
    cases low with
    | none =>
      cases high with
      | none => rfl
      | some high => cases ha
    | some low => cases high <;> cases ha
  | scalar text => cases hcolumn
  | compare | among | null | bits => cases ha

theorem Predicate.atom?_of_isVoid (h : p.isVoid = true) : p.atom? = none := by
  cases p with
  | like c text style =>
    rw [isVoid] at h
    rw [atom?]
    split
    case isTrue => rfl
    case isFalse ht =>
      rw [Bool.eq_false_iff.mpr ht, Bool.false_or, Bool.not_eq_true'] at h
      rw [(likePattern_eq_none_iff text).mpr h, Option.map_none]
  | between c low high =>
    cases low with
    | none =>
      cases high with
      | none => rfl
      | some high => cases h
    | some low => cases high <;> cases h
  | scalar text => rfl
  | compare | among | null | bits => cases h

/-- A predicate that is read gets the next number. -/
theorem items?_atom {c : String} {ls rest : List Lexeme} {a : Atom}
    (h : atom? (.name c :: ls) = some (a, rest)) (n : Nat) :
    items? n (.name c :: ls) = (items? (n + 1) rest).map (.atom a n :: ·) := by
  rw [items?]
  split
  case h_1 a' rest' h' =>
    cases h.symm.trans h'
    rfl
  case h_2 h' => cases h.symm.trans h'
  -- a name is neither a parenthesis nor a keyword
  all_goals
    intro hname
    cases hname

end TableAccess
