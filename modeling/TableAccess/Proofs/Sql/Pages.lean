import TableAccess.Proofs.Sql.Adapting

/-!
Page clauses as they are written.

A `PageText` is a page clause with nothing around it: the word in either case, a blank or more, the
offset, a comma that may have blanks around it, and the size. `pageClause?` finds such a clause, with no
word going on after it, and nothing else. `HasPage` says that there is one anywhere in a text, free and
where a word may start, without saying how it is looked for.
-/

namespace TableAccess

/-- A character that is neither a quote nor a question mark. -/
def Quotes.Quiet (c : Char) : Prop := isMark c = false ∧ c ≠ '?'

instance (c : Char) : Decidable (Quotes.Quiet c) := inferInstanceAs (Decidable (_ ∧ _))

namespace Dialect

open Digits (isDigit)

/-! ### The readers and what they take off -/

variable {p : Char → Bool} {cs rest ds : List Char}

/-- What is left when the characters of a kind are dropped does not start with one of them. -/
theorem dropWhile_eq_iff : cs.dropWhile p = rest ↔
    ∃ front, (∀ c ∈ front, p c = true) ∧ cs = front ++ rest ∧ rest.head?.any p = false := by
  constructor
  · rintro rfl
    refine ⟨cs.takeWhile p, fun c hc => List.all_eq_true.mp List.all_takeWhile c hc,
      List.takeWhile_append_dropWhile.symm, ?_⟩
    have hhead := List.head?_dropWhile_not p cs
    cases h : (cs.dropWhile p).head? with
    | none => rfl
    | some c =>
      rw [h] at hhead
      simpa using hhead
  · rintro ⟨front, hfront, rfl, hrest⟩
    rw [List.dropWhile_append_of_pos hfront]
    cases rest with
    | nil => rfl
    | cons c cs => exact List.dropWhile_cons_of_neg (by simpa using hrest)

theorem afterWord?_eq_some_iff : ∀ {ws cs : List Char},
    afterWord? ws cs = some rest ↔ ∃ word, word.map Char.toLower = ws ∧ cs = word ++ rest
  | [], cs => by
    simp only [afterWord?, Option.some.injEq, List.map_eq_nil_iff]
    constructor
    · intro h
      exact ⟨[], rfl, h⟩
    · rintro ⟨_, rfl, h⟩
      exact h
  | w :: ws, [] => by
    constructor
    · rintro ⟨⟩
    · rintro ⟨word, hword, h⟩
      rw [(List.append_eq_nil_iff.mp h.symm).1] at hword
      cases hword
  | w :: ws, c :: cs => by
    simp only [afterWord?]
    split
    · next hc =>
      rw [afterWord?_eq_some_iff]
      constructor
      · rintro ⟨word, rfl, rfl⟩
        exact ⟨c :: word, by rw [List.map_cons, hc], rfl⟩
      · rintro ⟨word, hword, h⟩
        cases word with
        | nil => cases hword
        | cons d word =>
          cases h
          exact ⟨word, (List.cons.inj hword).2, rfl⟩
    · next hc =>
      constructor
      · rintro ⟨⟩
      · rintro ⟨word, hword, h⟩
        cases word with
        | nil => cases hword
        | cons d word =>
          cases h
          exact absurd (List.cons.inj hword).1 hc

theorem afterBlanks?_eq_some_iff : afterBlanks? cs = some rest ↔
    ∃ gap, gap ≠ [] ∧ (∀ c ∈ gap, isBlank c = true) ∧ cs = gap ++ rest ∧
      rest.head?.any isBlank = false := by
  cases cs with
  | nil =>
    constructor
    · rintro ⟨⟩
    · rintro ⟨gap, hne, -, h, -⟩
      exact absurd (List.append_eq_nil_iff.mp h.symm).1 hne
  | cons c cs =>
    simp only [afterBlanks?]
    split
    · next hc =>
      rw [Option.some.injEq, dropWhile_eq_iff]
      constructor
      · rintro ⟨front, hfront, rfl, hrest⟩
        exact ⟨c :: front, List.cons_ne_nil _ _, List.forall_mem_cons.mpr ⟨hc, hfront⟩, rfl, hrest⟩
      · rintro ⟨gap, hne, hgap, h, hrest⟩
        cases gap with
        | nil => exact absurd rfl hne
        | cons d gap =>
          cases h
          exact ⟨gap, (List.forall_mem_cons.mp hgap).2, rfl, hrest⟩
    · next hc =>
      constructor
      · rintro ⟨⟩
      · rintro ⟨gap, hne, hgap, h, -⟩
        cases gap with
        | nil => exact absurd rfl hne
        | cons d gap =>
          cases h
          exact absurd (hgap c (List.mem_cons_self ..)) hc

theorem afterComma?_eq_some_iff : afterComma? cs = some rest ↔
    ∃ before after, (∀ c ∈ before, isBlank c = true) ∧ (∀ c ∈ after, isBlank c = true) ∧
      cs = before ++ ',' :: (after ++ rest) ∧ rest.head?.any isBlank = false := by
  rw [afterComma?]
  constructor
  · split
    · next tail hcomma =>
      intro h
      obtain ⟨before, hbefore, rfl, -⟩ := dropWhile_eq_iff.mp hcomma
      obtain ⟨after, hafter, rfl, hrest⟩ := dropWhile_eq_iff.mp (Option.some.inj h)
      exact ⟨before, after, hbefore, hafter, rfl, hrest⟩
    · rintro ⟨⟩
  · rintro ⟨before, after, hbefore, hafter, rfl, hrest⟩
    have hcomma : (before ++ ',' :: (after ++ rest)).dropWhile isBlank = ',' :: (after ++ rest) :=
      dropWhile_eq_iff.mpr ⟨before, hbefore, rfl, rfl⟩
    rw [hcomma]
    exact congrArg some (dropWhile_eq_iff.mpr ⟨after, hafter, rfl, hrest⟩)

theorem digits?_eq_some_iff : digits? cs = some (ds, rest) ↔
    IsNumber ds ∧ cs = ds ++ rest ∧ rest.head?.any isDigit = false := by
  constructor
  · intro h
    simp only [digits?] at h
    split at h
    · cases h
    · next hne =>
      cases h
      refine ⟨⟨by simpa using hne, fun c hc => List.all_eq_true.mp List.all_takeWhile c hc⟩,
        List.takeWhile_append_dropWhile.symm, ?_⟩
      obtain ⟨-, -, -, hrest⟩ := dropWhile_eq_iff.mp (Eq.refl (cs.dropWhile isDigit))
      exact hrest
  · rintro ⟨hds, rfl, hrest⟩
    refine digits?_append hds ?_
    cases rest with
    | nil => rfl
    | cons c cs => simpa using hrest

/-! ### The clause -/

/-- A page clause as it is written. -/
structure PageText where
  word : List Char
  gap : List Char
  offset : List Char
  before : List Char
  after : List Char
  size : List Char
  word_limit : word.map Char.toLower = ['l', 'i', 'm', 'i', 't']
  gap_blank : gap ≠ [] ∧ ∀ c ∈ gap, isBlank c = true
  offset_number : IsNumber offset
  before_blank : ∀ c ∈ before, isBlank c = true
  after_blank : ∀ c ∈ after, isBlank c = true
  size_number : IsNumber size

namespace PageText

variable (t : PageText)

/-- The characters of a clause. -/
def chars : List Char := t.word ++ (t.gap ++ (t.offset ++ (t.before ++ ',' :: (t.after ++ t.size))))

/-- What is read of a clause, with a text after it. -/
def clause (rest : List Char) : PageClause := ⟨t.offset, t.size, rest⟩

end PageText

/-- A number starts with a digit, which is no blank. -/
theorem head_of_isNumber (h : IsNumber ds) (rest : List Char) :
    (ds ++ rest).head?.any isBlank = false := by
  cases ds with
  | nil => exact absurd rfl h.1
  | cons d ds => simpa using (calm_of_isDigit (h.2 d (List.mem_cons_self ..))).2.2

/-- What follows the offset is no digit: it is a blank or the comma. -/
theorem head_of_blanks {before : List Char} (h : ∀ c ∈ before, isBlank c = true)
    (rest : List Char) : (before ++ ',' :: rest).head?.any isDigit = false := by
  cases before with
  | nil => rfl
  | cons c before =>
    have hc := h c (List.mem_cons_self ..)
    cases hd : isDigit c with
    | false => simpa using hd
    | true => rw [(calm_of_isDigit hd).2.2] at hc; cases hc

/-- A page clause is found exactly where one is written that no word goes on after. -/
theorem pageClause?_eq_some_iff {found : PageClause} : pageClause? cs = some found ↔
    ∃ (t : PageText) (rest : List Char), cs = t.chars ++ rest ∧
      rest.head?.any Ident.isWord = false ∧ found = t.clause rest := by
  simp only [pageClause?, Option.bind_eq_bind, Option.bind_eq_some_iff]
  constructor
  · rintro ⟨cs₁, hword, cs₂, hgap, ⟨offset, cs₃⟩, hread, cs₄, hcomma, ⟨size, rest⟩, hread', h⟩
    obtain ⟨word, hlimit, rfl⟩ := afterWord?_eq_some_iff.mp hword
    obtain ⟨gap, hne, hblank, rfl, -⟩ := afterBlanks?_eq_some_iff.mp hgap
    obtain ⟨hoffset, rfl, -⟩ := digits?_eq_some_iff.mp hread
    obtain ⟨before, after, hbefore, hafter, rfl, -⟩ := afterComma?_eq_some_iff.mp hcomma
    obtain ⟨hsize, rfl, -⟩ := digits?_eq_some_iff.mp hread'
    split at h
    · cases h
    · next hrest =>
      cases h
      exact ⟨⟨word, gap, offset, before, after, size, hlimit, ⟨hne, hblank⟩, hoffset, hbefore,
        hafter, hsize⟩, rest, by simp [PageText.chars], by simpa using hrest, rfl⟩
  · rintro ⟨t, rest, rfl, hrest, rfl⟩
    have hdigit : rest.head?.any isDigit = false := by
      cases rest with
      | nil => rfl
      | cons c rest =>
        simp only [List.head?_cons, Option.any_some] at hrest ⊢
        simp only [Ident.isWord, Bool.or_eq_false_iff] at hrest
        exact hrest.1.2
    refine ⟨_, afterWord?_eq_some_iff.mpr ⟨t.word, t.word_limit, ?_⟩,
      _, afterBlanks?_eq_some_iff.mpr ⟨t.gap, t.gap_blank.1, t.gap_blank.2, rfl, ?_⟩,
      _, digits?_eq_some_iff.mpr ⟨t.offset_number, rfl, ?_⟩,
      _, afterComma?_eq_some_iff.mpr ⟨t.before, t.after, t.before_blank, t.after_blank, rfl, ?_⟩,
      _, digits?_eq_some_iff.mpr ⟨t.size_number, rfl, hdigit⟩, ?_⟩
    · simp only [PageText.chars, List.append_assoc, List.cons_append]
    · exact head_of_isNumber t.offset_number _
    · exact head_of_blanks t.before_blank _
    · exact head_of_isNumber t.size_number _
    · simp only [hrest, Bool.false_eq_true, if_false]
      rfl

/-! ### What a clause is made of -/

/-- A character that starts nothing: no span, no argument and no page clause. -/
def Inert (c : Char) : Prop := Quotes.Quiet c ∧ c.toLower ≠ 'l'

instance (c : Char) : Decidable (Inert c) := inferInstanceAs (Decidable (_ ∧ _))

/-- A letter in either case is neither a quote nor a question mark nor the dollar sign. -/
theorem quiet_letter {c : Char} (h : Ident.isLetter c.toLower = true) :
    Quotes.Quiet c ∧ c ≠ '$' := by
  refine ⟨⟨?_, ?_⟩, ?_⟩
  · cases hmark : Quotes.isMark c with
    | false => rfl
    | true =>
      simp only [Quotes.isMark, Bool.or_eq_true, beq_iff_eq] at hmark
      rcases hmark with rfl | rfl <;> exact absurd h (by decide)
  · rintro rfl
    exact absurd h (by decide)
  · rintro rfl
    exact absurd h (by decide)

theorem inert_letter {c : Char} (h : c.toLower ∈ ['i', 'm', 'i', 't']) : Inert c ∧ c ≠ '$' := by
  obtain ⟨hletter, hl⟩ : Ident.isLetter c.toLower = true ∧ c.toLower ≠ 'l' := by
    simp only [List.mem_cons, List.not_mem_nil, or_false] at h
    rcases h with h | h | h | h <;> rw [h] <;> decide
  exact ⟨⟨(quiet_letter hletter).1, hl⟩, (quiet_letter hletter).2⟩

theorem inert_digit {c : Char} (h : isDigit c = true) : Inert c ∧ c ≠ '$' := by
  obtain ⟨hmark, hquestion, hl⟩ := inert_of_isDigit h
  refine ⟨⟨⟨hmark, hquestion⟩, hl⟩, ?_⟩
  rintro rfl
  exact absurd h (by decide)

theorem inert_blank {c : Char} (h : isBlank c = true) : Inert c ∧ c ≠ '$' := by
  simp only [isBlank, Bool.or_eq_true, beq_iff_eq] at h
  rcases h with (((rfl | rfl) | rfl) | rfl) | rfl <;> decide

/-- Whether a word may start after a text. -/
def wordStarts : Bool → List Char → Bool
  | start, [] => start
  | _, c :: cs => wordStarts (!Ident.isWord c) cs

theorem wordStarts_append (front : List Char) (start : Bool) :
    wordStarts start (front ++ cs) = wordStarts (wordStarts start front) cs := by
  induction front generalizing start with
  | nil => rfl
  | cons c front ih => exact ih (!Ident.isWord c)

/-- After a number no word starts. -/
theorem wordStarts_number : ∀ {ds : List Char}, IsNumber ds → ∀ start, wordStarts start ds = false
  | [], ⟨hne, _⟩, _ => absurd rfl hne
  | [d], ⟨_, hd⟩, _ => by
    have hdigit := hd d (List.mem_singleton_self d)
    simp only [isDigit] at hdigit
    simp [wordStarts, Ident.isWord, hdigit]
  | c :: d :: ds, ⟨_, hd⟩, _ =>
    wordStarts_number ⟨List.cons_ne_nil d ds, (List.forall_mem_cons.mp hd).2⟩ (!Ident.isWord c)

/-- A clause is a letter that starts it and characters that start nothing, and ends in a digit. -/
theorem PageText.chars_inert (t : PageText) : ∃ first tail, t.chars = first :: tail ∧
    first.toLower = 'l' ∧ (∀ c ∈ tail, Inert c ∧ c ≠ '$') ∧
    ∀ start, wordStarts start t.chars = false := by
  have hends : ∀ start, wordStarts start t.chars = false := by
    intro start
    have hassoc : t.chars =
        t.word ++ (t.gap ++ (t.offset ++ (t.before ++ ',' :: t.after))) ++ t.size := by
      simp [chars]
    rw [hassoc, wordStarts_append]
    exact wordStarts_number t.size_number _
  have hword := t.word_limit
  have hchars : t.chars =
    t.word ++ (t.gap ++ (t.offset ++ (t.before ++ ',' :: (t.after ++ t.size)))) := rfl
  cases hw : t.word with
  | nil => rw [hw] at hword; cases hword
  | cons first letters =>
    rw [hw, List.map_cons, List.cons.injEq] at hword
    refine ⟨first, letters ++ (t.gap ++ (t.offset ++ (t.before ++ ',' :: (t.after ++ t.size)))),
      by rw [hchars, hw, List.cons_append], hword.1, ?_, hends⟩
    intro c hc
    simp only [List.mem_append, List.mem_cons] at hc
    rcases hc with hc | hc | hc | hc | rfl | hc | hc
    · exact inert_letter (hword.2 ▸ List.mem_map_of_mem hc)
    · exact inert_blank (t.gap_blank.2 c hc)
    · exact inert_digit (t.offset_number.2 c hc)
    · exact inert_blank (t.before_blank c hc)
    · decide
    · exact inert_blank (t.after_blank c hc)
    · exact inert_digit (t.size_number.2 c hc)

/-! ### Texts with a clause -/

/-- There is a free page clause in a text: what stands before it has closed its spans and lets a word
start, and no word goes on after it. The text goes on from a state. -/
def HasPage (q : Quotes.State) (start : Bool) (cs : List Char) : Prop :=
  ∃ (front : List Char) (t : PageText) (rest : List Char), cs = front ++ (t.chars ++ rest) ∧
    Quotes.after q front = none ∧ wordStarts start front = true ∧
    rest.head?.any Ident.isWord = false

variable {q : Quotes.State} {start : Bool} {c : Char}

theorem not_hasPage_nil : ¬HasPage q start [] := by
  rintro ⟨front, t, rest, h, -⟩
  obtain ⟨first, tail, hchars, -⟩ := t.chars_inert
  rw [hchars] at h
  cases front <;> cases h

/-- A clause is at the start of a text or after its first character. -/
theorem hasPage_cons : HasPage q start (c :: cs) ↔
    (q = none ∧ start = true ∧ ∃ found, pageClause? (c :: cs) = some found) ∨
      HasPage (Quotes.step q c) (!Ident.isWord c) cs := by
  constructor
  · rintro ⟨front, t, rest, h, hquote, hstart, hrest⟩
    cases front with
    | nil => exact .inl ⟨hquote, hstart, _, pageClause?_eq_some_iff.mpr ⟨t, rest, h, hrest, rfl⟩⟩
    | cons d front =>
      cases h
      exact .inr ⟨front, t, rest, rfl, hquote, hstart, hrest⟩
  · rintro (⟨hquote, hstart, found, hfound⟩ | ⟨front, t, rest, rfl, hquote, hstart, hrest⟩)
    · obtain ⟨t, rest, h, hrest, -⟩ := pageClause?_eq_some_iff.mp hfound
      exact ⟨[], t, rest, h, hquote, hstart, hrest⟩
    · exact ⟨c :: front, t, rest, rfl, hquote, hstart, hrest⟩

/-- Characters that start nothing are passed over. -/
theorem hasPage_append : ∀ {front : List Char} {start : Bool}, (∀ c ∈ front, Inert c) →
    (HasPage none start (front ++ cs) ↔ HasPage none (wordStarts start front) cs)
  | [], _, _ => Iff.rfl
  | c :: front, start, h => by
    obtain ⟨⟨⟨hmark, -⟩, hl⟩, hfront⟩ := List.forall_mem_cons.mp h
    have hstep : Quotes.step none c = none := by simp [Quotes.step, hmark]
    rw [List.cons_append, hasPage_cons, pageClause?_of_head hl, hstep, hasPage_append hfront]
    simp [wordStarts]

end Dialect

end TableAccess
