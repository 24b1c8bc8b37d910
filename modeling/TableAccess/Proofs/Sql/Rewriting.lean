import TableAccess.Proofs.Sql.Pages

/-!
Adapting any statement.

`Dialect.Adapts` says what adapting may do to a text, whatever quotes there are in it: a free question
mark becomes its number, a free page clause is turned round, and everything else is copied. Whatever
adapts a text in this way numbers as many marks as the text has placeholders, leaves none and keeps the
quoted spans. What the scan writes has no free page clause either, so nothing is left to do to it.
-/

namespace TableAccess

namespace Quotes

/-- The quoted spans of a text with their marks, the last of which may not be closed. What is left of
the span that a text goes on in comes first. -/
def spans : State → List Char → List (List Char)
  | none, [] => []
  | some _, [] => [[]]
  | none, c :: cs =>
    if isMark c then (spans (some c) cs).modifyHead (c :: ·) else spans none cs
  | some mark, c :: cs =>
    if c = mark then [c] :: spans none cs else (spans (some mark) cs).modifyHead (c :: ·)

variable {q : State} {c : Char} {cs out : List Char}

/-- The spans after a character decide those before it. -/
theorem spans_cons_congr (h : spans (step q c) out = spans (step q c) cs) :
    spans q (c :: out) = spans q (c :: cs) := by
  cases q with
  | none =>
    rw [spans, spans]
    by_cases hc : isMark c = true
    · rw [step, if_pos hc] at h
      rw [if_pos hc, if_pos hc, h]
    · rw [step, if_neg hc] at h
      rw [if_neg hc, if_neg hc, h]
  | some mark =>
    rw [spans, spans]
    by_cases hc : c = mark
    · rw [step, if_pos hc] at h
      rw [if_pos hc, if_pos hc, h]
    · rw [step, if_neg hc] at h
      rw [if_neg hc, if_neg hc, h]

/-- Quiet characters are outside of the spans. -/
theorem spans_append : ∀ {front : List Char}, (∀ c ∈ front, Quiet c) →
    spans none (front ++ cs) = spans none cs
  | [], _ => rfl
  | c :: front, h => by
    obtain ⟨⟨hmark, -⟩, hfront⟩ := List.forall_mem_cons.mp h
    simp [spans, hmark, spans_append hfront]

/-- Quiet characters open no span and do not count. -/
theorem after_of_quiet : ∀ {front : List Char}, (∀ c ∈ front, Quiet c) →
    after none front = none ∧ placeholders none front = 0
  | [], _ => ⟨rfl, rfl⟩
  | c :: front, h => by
    obtain ⟨⟨hmark, hquestion⟩, hfront⟩ := List.forall_mem_cons.mp h
    simp [after, placeholders, step, hmark, hquestion, after_of_quiet hfront]

theorem placeholders_quiet_append {front : List Char} (h : ∀ c ∈ front, Quiet c) :
    placeholders none (front ++ cs) = placeholders none cs := by
  obtain ⟨hafter, hcount⟩ := after_of_quiet h
  rw [placeholders_append, hafter, hcount, Nat.zero_add]

/-- A character that is no free question mark does not count. -/
theorem placeholders_cons (h : q = none → c ≠ '?') :
    placeholders q (c :: cs) = placeholders (step q c) cs := by
  cases q with
  | none => simp [placeholders, h rfl]
  | some mark => simp [placeholders]

end Quotes

namespace Dialect

/-- What may become of a text that goes on from a state after a number of marks, and how many marks
have been numbered in the end. -/
inductive Adapts : Quotes.State → Nat → List Char → List Char → Nat → Prop
  | done {q : Quotes.State} {n : Nat} : Adapts q n [] [] n
  | number {n k : Nat} {cs out : List Char} : Adapts none (n + 1) cs out k →
      Adapts none n ('?' :: cs) (mark (n + 1) ++ out) k
  | turn {n k : Nat} {rest out : List Char} (t : PageText) : Adapts none n rest out k →
      Adapts none n (t.chars ++ rest) (page (t.clause rest) ++ out) k
  | keep {q : Quotes.State} {n k : Nat} {c : Char} {cs out : List Char} :
      (q = none → c ≠ '?') → Adapts (Quotes.step q c) n cs out k → Adapts q n (c :: cs) (c :: out) k

variable {q : Quotes.State} {n k : Nat} {c : Char} {cs out : List Char}

/-! ### What is written for marks and clauses -/

/-- The characters of a mark are the dollar sign and digits. -/
theorem mark_inert (n : Nat) : ∀ c ∈ mark n, Inert c :=
  List.forall_mem_cons.mpr ⟨by decide, fun c hc => (inert_digit ((isNumber_toDigits n).2 c hc)).1⟩

theorem wordStarts_mark (n : Nat) (start : Bool) : wordStarts start (mark n) = false :=
  wordStarts_number (isNumber_toDigits n) true

theorem quiet_of_inert {front : List Char} (h : ∀ c ∈ front, Inert c) :
    ∀ c ∈ front, Quotes.Quiet c := fun c hc => (h c hc).1

namespace PageText

variable (t : PageText) (rest : List Char)

/-- A clause has no quotes and no question marks. -/
theorem quiet_chars : ∀ c ∈ t.chars, Quotes.Quiet c := by
  obtain ⟨first, tail, hchars, hfirst, htail, -⟩ := t.chars_inert
  rw [hchars]
  refine List.forall_mem_cons.mpr ⟨(quiet_letter ?_).1, fun c hc => (htail c hc).1.1⟩
  rw [hfirst]
  decide

/-- A turned clause is a letter and characters that start nothing, and ends in a digit. -/
theorem page_inert : ∃ tail, page (t.clause rest) = 'l' :: tail ∧ (∀ c ∈ tail, Inert c) ∧
    ∀ start, wordStarts start (page (t.clause rest)) = false := by
  have hdigits : ∀ {ds : List Char}, IsNumber ds → ∀ c ∈ ds, Inert c :=
    fun hds c hc => (inert_digit (hds.2 c hc)).1
  refine ⟨['i', 'm', 'i', 't', ' '] ++ (t.size ++
    ([' ', 'o', 'f', 'f', 's', 'e', 't', ' '] ++ t.offset)), ?_, ?_, ?_⟩
  · rw [clause, page_chars]
    rfl
  · simp only [List.forall_mem_append, List.forall_mem_cons, List.not_mem_nil, false_implies,
      implies_true, and_true]
    refine ⟨?_, hdigits t.size_number, ?_, hdigits t.offset_number⟩ <;> decide
  · intro start
    have hends : page (t.clause rest) =
      "limit ".toList ++ t.size ++ " offset ".toList ++ t.offset := rfl
    rw [hends, wordStarts_append]
    exact wordStarts_number t.offset_number _

theorem quiet_page : ∀ c ∈ page (t.clause rest), Quotes.Quiet c := by
  obtain ⟨tail, hpage, htail, -⟩ := t.page_inert rest
  rw [hpage]
  exact List.forall_mem_cons.mpr ⟨by decide, quiet_of_inert htail⟩

/-- A clause is not turned round twice. -/
theorem pageClause?_turned (out : List Char) :
    pageClause? (page (t.clause rest) ++ out) = none := by
  have hparted : Parted (' ' :: 'o' :: 'f' :: 'f' :: 's' :: 'e' :: 't' :: ' ' :: (t.offset ++ out)) :=
    .inr ⟨'o', _, rfl, by decide, by decide, by decide⟩
  rw [clause, page_chars]
  simpa using pageClause?_first t.size_number hparted

end PageText

/-! ### Whatever is adapted -/

namespace Adapts

/-- The marks that have been numbered are the placeholders. -/
theorem count (h : Adapts q n cs out k) : k = n + Quotes.placeholders q cs := by
  induction h with
  | done => rfl
  | number _ ih =>
    rw [ih, Quotes.placeholders, Nat.add_assoc]
    rfl
  | turn t _ ih => rw [ih, Quotes.placeholders_quiet_append t.quiet_chars]
  | keep hc _ ih => rw [ih, Quotes.placeholders_cons hc]

/-- No placeholder is left. -/
theorem placeholders_eq (h : Adapts q n cs out k) : Quotes.placeholders q out = 0 := by
  induction h with
  | done => rfl
  | number _ ih => rw [Quotes.placeholders_quiet_append (quiet_of_inert (mark_inert _)), ih]
  | turn t _ ih => rw [Quotes.placeholders_quiet_append (t.quiet_page _), ih]
  | keep hc _ ih => rw [Quotes.placeholders_cons hc, ih]

/-- The quoted spans stay as they are. -/
theorem spans_eq (h : Adapts q n cs out k) : Quotes.spans q out = Quotes.spans q cs := by
  induction h with
  | done => rfl
  | number _ ih =>
    rw [Quotes.spans_append (quiet_of_inert (mark_inert _)), ih]
    rfl
  | turn t _ ih => rw [Quotes.spans_append (t.quiet_page _), Quotes.spans_append t.quiet_chars, ih]
  | keep _ _ ih => exact Quotes.spans_cons_congr ih

end Adapts

/-! ### The scan -/

/-- What the scan does at a character: it numbers a free question mark, turns a free page clause round
where a word may start, and copies what is neither. -/
theorem adaptFrom_cases (s : State) (c : Char) (cs : List Char) :
    (s.quote = none ∧ c = '?' ∧
      adaptFrom s (c :: cs) =
        mark (s.numbered + 1) ++ adaptFrom ⟨none, s.numbered + 1, false⟩ cs) ∨
    (s.quote = none ∧ s.wordStart = true ∧ ∃ (t : PageText) (rest : List Char),
      c :: cs = t.chars ++ rest ∧ rest.head?.any Ident.isWord = false ∧
      adaptFrom s (c :: cs) =
        page (t.clause rest) ++ adaptFrom ⟨none, s.numbered, false⟩ rest) ∨
    (s.quote = none → c ≠ '?' ∧ (s.wordStart = true → pageClause? (c :: cs) = none)) ∧
      adaptFrom s (c :: cs) =
        c :: adaptFrom ⟨Quotes.step s.quote c, s.numbered, !Ident.isWord c⟩ cs := by
  obtain ⟨q, n, start⟩ := s
  cases q with
  | some quote => exact .inr (.inr ⟨nofun, by rw [adaptFrom]; rfl⟩)
  | none =>
    by_cases hc : c = '?'
    · exact .inl ⟨rfl, hc, by rw [hc, adaptFrom_mark]⟩
    · cases hfound : (if start then pageClause? (c :: cs) else none) with
      | some found =>
        obtain ⟨rfl, hfound⟩ : start = true ∧ pageClause? (c :: cs) = some found := by
          simpa using hfound
        obtain ⟨t, rest, htext, hrest, rfl⟩ := pageClause?_eq_some_iff.mp hfound
        exact .inr (.inl ⟨rfl, rfl, t, rest, htext, hrest, adaptFrom_page _ hc hfound⟩)
      | none =>
        refine .inr (.inr ⟨fun _ => ⟨hc, by simpa using hfound⟩, ?_⟩)
        rw [adaptFrom, if_neg (by simp), if_neg hc]
        split
        · next found h => rw [hfound] at h; cases h
        · rfl

theorem PageText.length_rest (t : PageText) {rest : List Char} (h : c :: cs = t.chars ++ rest) :
    rest.length < (c :: cs).length := by
  obtain ⟨first, tail, hchars, -⟩ := t.chars_inert
  rw [h, hchars]
  simp only [List.cons_append, List.length_cons, List.length_append]
  omega

/-- The scan adapts a text. -/
theorem adapts_adaptFrom (s : State) :
    (cs : List Char) → ∃ k, Adapts s.quote s.numbered cs (adaptFrom s cs) k
  | [] => ⟨s.numbered, by rw [adaptFrom_nil]; exact .done⟩
  | c :: cs => by
    rcases adaptFrom_cases s c cs with ⟨hquote, rfl, hscan⟩ |
      ⟨hquote, -, t, rest, htext, -, hscan⟩ | ⟨hkept, hscan⟩
    · obtain ⟨k, hk⟩ := adapts_adaptFrom ⟨none, s.numbered + 1, false⟩ cs
      rw [hscan, hquote]
      exact ⟨k, .number hk⟩
    · have hshorter := t.length_rest htext
      obtain ⟨k, hk⟩ := adapts_adaptFrom ⟨none, s.numbered, false⟩ rest
      rw [hscan, hquote, htext]
      exact ⟨k, .turn t hk⟩
    · obtain ⟨k, hk⟩ :=
        adapts_adaptFrom ⟨Quotes.step s.quote c, s.numbered, !Ident.isWord c⟩ cs
      rw [hscan]
      exact ⟨k, .keep (fun hquote => (hkept hquote).1) hk⟩
termination_by cs => cs.length
decreasing_by
  · exact Nat.lt_succ_self _
  · exact hshorter
  · exact Nat.lt_succ_self _

/-- A text without placeholders and clauses stays as it is. -/
theorem adaptFrom_eq_self (s : State) : (cs : List Char) →
    Quotes.placeholders s.quote cs = 0 → ¬HasPage s.quote s.wordStart cs → adaptFrom s cs = cs
  | [], _, _ => adaptFrom_nil s
  | c :: cs, hcount, hpage => by
    rcases adaptFrom_cases s c cs with ⟨hquote, rfl, -⟩ |
      ⟨hquote, hstart, t, rest, htext, hrest, -⟩ | ⟨hkept, hscan⟩
    · simp [hquote, Quotes.placeholders] at hcount
    · exact absurd ⟨[], t, rest, htext, hquote, hstart, hrest⟩ hpage
    · rw [Quotes.placeholders_cons fun hquote => (hkept hquote).1] at hcount
      rw [hscan, adaptFrom_eq_self _ cs hcount fun h => hpage (hasPage_cons.mpr (.inr h))]

/-! ### What the scan leaves -/

/-- Characters that the scan writes in no other way than by copying them were in the text. -/
theorem adaptFrom_copied {rest' : List Char} : ∀ {front cs : List Char} (start : Bool),
    (∀ c ∈ front, Inert c ∧ c ≠ '$') → adaptFrom ⟨none, n, start⟩ cs = front ++ rest' →
    ∃ rest, cs = front ++ rest ∧ adaptFrom ⟨none, n, wordStarts start front⟩ rest = rest'
  | [], cs, _, _, h => ⟨cs, rfl, h⟩
  | d :: front, [], _, _, h => by
    rw [adaptFrom_nil] at h
    cases h
  | d :: front, c :: cs, start, hfront, h => by
    obtain ⟨⟨⟨⟨hmark, -⟩, hl⟩, hdollar⟩, hothers⟩ := List.forall_mem_cons.mp hfront
    rcases adaptFrom_cases ⟨none, n, start⟩ c cs with ⟨-, -, hscan⟩ | ⟨-, -, t, rest, -, -, hscan⟩ |
      ⟨-, hscan⟩
    · rw [hscan] at h
      exact absurd (List.cons.inj h).1.symm hdollar
    · obtain ⟨tail, hpage, -⟩ := t.page_inert rest
      rw [hscan, hpage] at h
      rw [← (List.cons.inj h).1] at hl
      exact absurd rfl hl
    · rw [hscan] at h
      obtain ⟨rfl, hlater⟩ := List.cons.inj h
      have hstep : Quotes.step none c = none := by simp [Quotes.step, hmark]
      simp only [hstep] at hlater
      obtain ⟨rest, rfl, hrest⟩ := adaptFrom_copied (!Ident.isWord c) hothers hlater
      exact ⟨rest, rfl, hrest⟩

/-- Where no clause starts none is made by what the scan writes: such a clause would have been copied
up to its last digit, and what is written after that goes on with a word only if the text does. -/
theorem pageClause?_adaptFrom (hpage : pageClause? (c :: cs) = none) :
    pageClause? (c :: adaptFrom ⟨none, n, !Ident.isWord c⟩ cs) = none := by
  rw [Option.eq_none_iff_forall_ne_some]
  intro found hfound
  obtain ⟨t, rest', htext, hrest', -⟩ := pageClause?_eq_some_iff.mp hfound
  obtain ⟨first, tail, hchars, -, htail, hends⟩ := t.chars_inert
  rw [hchars] at htext hends
  obtain ⟨rfl, hlater⟩ := List.cons.inj htext
  obtain ⟨rest, rfl, hrest⟩ := adaptFrom_copied (!Ident.isWord c) htail hlater
  have hword : rest.head?.any Ident.isWord = false := by
    cases rest with
    | nil => rfl
    | cons d rest =>
      rw [show wordStarts (!Ident.isWord c) tail = false from hends true] at hrest
      rcases adaptFrom_cases ⟨none, n, false⟩ d rest with ⟨-, rfl, -⟩ | ⟨-, hstart, -⟩ | ⟨-, hscan⟩
      · rfl
      · cases hstart
      · rw [hscan] at hrest
        rwa [← hrest] at hrest'
  have hfound : pageClause? (c :: (tail ++ rest)) = some (t.clause rest) :=
    pageClause?_eq_some_iff.mpr ⟨t, rest, by rw [hchars]; rfl, hword, rfl⟩
  rw [hpage] at hfound
  cases hfound

/-- The scan leaves no clause. -/
theorem not_hasPage_adaptFrom (s : State) :
    (cs : List Char) → ¬HasPage s.quote s.wordStart (adaptFrom s cs)
  | [] => by
    rw [adaptFrom_nil]
    exact not_hasPage_nil
  | c :: cs => by
    rcases adaptFrom_cases s c cs with ⟨hquote, rfl, hscan⟩ |
      ⟨hquote, -, t, rest, htext, -, hscan⟩ | ⟨hkept, hscan⟩
    · rw [hscan, hquote, hasPage_append (mark_inert _), wordStarts_mark]
      exact not_hasPage_adaptFrom ⟨none, s.numbered + 1, false⟩ cs
    · have hshorter := t.length_rest htext
      obtain ⟨tail, hpage, htail, hends⟩ := t.page_inert rest
      have hturned := t.pageClause?_turned rest (adaptFrom ⟨none, s.numbered, false⟩ rest)
      rw [hpage] at hturned hends hscan
      rw [hscan, hquote, List.cons_append, hasPage_cons, ← List.cons_append, hturned]
      rintro (⟨-, -, found, hfound⟩ | hlater)
      · cases hfound
      · rw [show Quotes.step none 'l' = none from rfl, hasPage_append htail,
          show wordStarts (!Ident.isWord 'l') tail = false from hends true] at hlater
        exact not_hasPage_adaptFrom ⟨none, s.numbered, false⟩ rest hlater
    · rw [hscan, hasPage_cons]
      rintro (⟨hquote, hstart, found, hfound⟩ | hlater)
      · by_cases hl : c.toLower = 'l'
        · have hstep : Quotes.step s.quote c = none := by
            have hmark := (quiet_letter (c := c) (by rw [hl]; decide)).1.1
            simp [hquote, Quotes.step, hmark]
          rw [hstep, pageClause?_adaptFrom ((hkept hquote).2 hstart)] at hfound
          cases hfound
        · rw [pageClause?_of_head hl] at hfound
          cases hfound
      · exact not_hasPage_adaptFrom ⟨Quotes.step s.quote c, s.numbered, !Ident.isWord c⟩ cs hlater
termination_by cs => cs.length
decreasing_by
  · exact Nat.lt_succ_self _
  · exact hshorter
  · exact Nat.lt_succ_self _

/-- Adapting a statement numbers its placeholders in their order and leaves none, keeps its quoted
spans, and changes nothing that has neither a placeholder nor a free page clause. Since it leaves no
such clause either, adapting again changes nothing. -/
theorem adapt_normalizes (q : Sql) :
    Adapts none 0 q.text.toList (adapt q.text).toList q.placeholderCount ∧
      (Sql.raw (adapt q.text)).placeholderCount = 0 ∧
      Quotes.spans none (adapt q.text).toList = Quotes.spans none q.text.toList ∧
      adapt (adapt q.text) = adapt q.text ∧
      (q.placeholderCount = 0 → ¬HasPage none true q.text.toList → adapt q.text = q.text) := by
  have hfixed : ∀ text : String, Quotes.placeholders none text.toList = 0 →
      ¬HasPage none true text.toList → adapt text = text := by
    intro text hcount hpage
    rw [adapt, adaptFrom_eq_self {} text.toList hcount hpage, String.ofList_toList]
  have hscan : (adapt q.text).toList = adaptFrom {} q.text.toList := String.toList_ofList
  obtain ⟨k, hadapts⟩ := adapts_adaptFrom {} q.text.toList
  have hcount : k = q.placeholderCount := by rw [hadapts.count, Nat.zero_add]; rfl
  have hnone : Quotes.placeholders none (adapt q.text).toList = 0 := by
    rw [hscan]
    exact hadapts.placeholders_eq
  refine ⟨?_, hnone, ?_, hfixed _ hnone ?_, hfixed q.text⟩
  · rw [hscan, ← hcount]
    exact hadapts
  · rw [hscan]
    exact hadapts.spans_eq
  · rw [hscan]
    exact not_hasPage_adaptFrom {} q.text.toList

end Dialect

end TableAccess
