import TableAccess.Proofs.Sql.Written

/-!
Adapting what is sent to the dialect.

Nothing in a mild statement looks like a page clause: wherever the scan stands, the word `limit` is
not followed by blanks and a digit. So the scan only numbers the marks, and it does so up to a page
clause that is put at the end, which is found where it stands and turned round.
-/

namespace TableAccess.Dialect

open Digits (isDigit)

/-- A text that may follow a statement without being read together with it: it is empty, or a blank
stands before something that is no blank, no digit and no comma. -/
def Parted (tail : List Char) : Prop :=
  tail = [] ∨ ∃ c rest, tail = ' ' :: c :: rest ∧ isBlank c = false ∧ isDigit c = false ∧ c ≠ ','

/-! ### Looking for a page clause -/

theorem digits?_eq_none {c : Char} (h : isDigit c = false) (cs : List Char) :
    digits? (c :: cs) = none := by
  simp [digits?, h]

variable {tail : List Char}

/-- After blanks there is no number in a mild statement. -/
theorem digits?_dropWhile (ht : Parted tail) : ∀ {w : Written}, w.Mild →
    digits? ((w.marked ++ tail).dropWhile isBlank) = none
  | [], _ => by
    rcases ht with rfl | ⟨c, rest, rfl, hblank, hdigit, -⟩
    · rfl
    · have hspace : isBlank ' ' = true := by decide
      simp only [Written.marked, List.nil_append, List.dropWhile_cons, hspace, hblank, if_true]
      exact digits?_eq_none hdigit rest
  | .value _ :: w, _ => digits?_eq_none (by decide) _
  | .char c :: w, h => by
    simp only [Written.Mild, Written.calm, Bool.and_eq_true, Bool.true_and,
      Bool.not_eq_true'] at h
    simp only [Written.marked, List.cons_append, List.dropWhile_cons]
    split
    · next hblank =>
      rw [hblank] at h
      exact digits?_dropWhile ht h.2
    · exact digits?_eq_none h.1.2 _

/-- Taking a word off a calm statement leaves a calm one. -/
theorem afterWord?_marked (ht : Parted tail) : ∀ {word rest : List Char} {w : Written}
    (blank : Bool), ' ' ∉ word → w.calm blank = true →
    afterWord? word (w.marked ++ tail) = some rest →
    ∃ blank' w', Written.calm blank' w' = true ∧ rest = w'.marked ++ tail
  | [], _, w, blank, _, hw, h => ⟨blank, w, hw, (Option.some.inj h).symm⟩
  | x :: word, _, [], _, hword, _, h => by
    rcases ht with rfl | ⟨c, rest, rfl, -⟩
    · cases h
    · have hx : ' ' ≠ x := by
        rintro rfl
        exact hword (List.mem_cons_self ..)
      simp [Written.marked, afterWord?, hx] at h
  | x :: word, _, .value _ :: w, _, hword, hw, h => by
    simp only [Written.marked, List.cons_append, afterWord?] at h
    split at h
    · exact afterWord?_marked ht false (fun hm => hword (List.mem_cons_of_mem _ hm)) hw h
    · cases h
  | x :: word, _, .char c :: w, _, hword, hw, h => by
    simp only [Written.calm, Bool.and_eq_true] at hw
    simp only [Written.marked, List.cons_append, afterWord?] at h
    split at h
    · exact afterWord?_marked ht _ (fun hm => hword (List.mem_cons_of_mem _ hm)) hw.2 h
    · cases h

/-- After blanks, of which there must be one, there is no number in a calm statement. -/
theorem digits?_afterBlanks? (ht : Parted tail) {rest : List Char} {w : Written} (blank : Bool)
    (hw : w.calm blank = true) (h : afterBlanks? (w.marked ++ tail) = some rest) :
    digits? rest = none := by
  match w with
  | [] =>
    rcases ht with rfl | ⟨c, rest, rfl, hblank, hdigit, -⟩
    · cases h
    · have hspace : isBlank ' ' = true := by decide
      simp only [Written.marked, List.nil_append, afterBlanks?, hspace, if_true,
        List.dropWhile_cons, hblank, Bool.false_eq_true, if_false, Option.some.injEq] at h
      rw [← h]
      exact digits?_eq_none hdigit _
  | .value _ :: w =>
    have hmark : isBlank '?' = false := by decide
    simp [Written.marked, afterBlanks?, hmark] at h
  | .char c :: w =>
    simp only [Written.calm, Bool.and_eq_true] at hw
    simp only [Written.marked, List.cons_append, afterBlanks?] at h
    split at h
    · next hblank =>
      rw [hblank] at hw
      rw [← Option.some.inj h]
      exact digits?_dropWhile ht hw.2
    · cases h

/-- No page clause starts in a calm statement. -/
theorem pageClause?_marked (ht : Parted tail) {w : Written} (blank : Bool)
    (hw : w.calm blank = true) : pageClause? (w.marked ++ tail) = none := by
  rw [pageClause?, Option.bind_eq_bind, Option.bind_eq_none_iff]
  intro cs hword
  rw [Option.bind_eq_bind, Option.bind_eq_none_iff]
  intro cs' hblanks
  obtain ⟨blank', w', hw', rfl⟩ := afterWord?_marked ht blank (by decide) hw hword
  rw [digits?_afterBlanks? ht blank' hw' hblanks]
  rfl

/-! ### The scan -/

section Scan

variable (n : Nat) (start : Bool)

theorem adaptFrom_nil (s : State) : adaptFrom s [] = [] := by
  rw [adaptFrom]

theorem adaptFrom_mark (cs : List Char) :
    adaptFrom ⟨none, n, start⟩ ('?' :: cs) = mark (n + 1) ++ adaptFrom ⟨none, n + 1, false⟩ cs := by
  rw [adaptFrom]
  rfl

theorem adaptFrom_char {c : Char} {cs : List Char} (hmark : Quotes.isMark c = false) (hc : c ≠ '?')
    (hpage : start = true → pageClause? (c :: cs) = none) :
    adaptFrom ⟨none, n, start⟩ (c :: cs) = c :: adaptFrom ⟨none, n, !Ident.isWord c⟩ cs := by
  have hnone : (if start then pageClause? (c :: cs) else none) = none := by
    cases start with
    | true => exact hpage rfl
    | false => rfl
  rw [adaptFrom, if_neg (by simp), if_neg hc]
  split
  · next p hp => rw [hnone] at hp; cases hp
  · simp [Quotes.step, hmark]

theorem adaptFrom_page {c : Char} {cs : List Char} {p : PageClause} (hc : c ≠ '?')
    (hpage : pageClause? (c :: cs) = some p) :
    adaptFrom ⟨none, n, true⟩ (c :: cs) = page p ++ adaptFrom ⟨none, n, false⟩ p.rest := by
  rw [adaptFrom, if_neg (by simp), if_neg hc]
  split
  · next q hq =>
    rw [if_pos rfl, hpage] at hq
    cases hq
    rfl
  · next hq => rw [if_pos rfl, hpage] at hq; cases hq

end Scan

/-- In a calm statement the marks are numbered and everything else stays as it is. -/
theorem adaptFrom_marked (ht : Parted tail) : ∀ {w : Written} (blank : Bool),
    w.calm blank = true → ∀ (n : Nat) (start : Bool), ∃ start',
      adaptFrom ⟨none, n, start⟩ (w.marked ++ tail) =
        w.numbered n ++ adaptFrom ⟨none, n + w.values.length, start'⟩ tail
  | [], _, _, _, start => ⟨start, rfl⟩
  | .value v :: w, _, hw, n, start => by
    obtain ⟨start', hrest⟩ := adaptFrom_marked ht false hw (n + 1) false
    refine ⟨start', ?_⟩
    rw [Written.marked, List.cons_append, adaptFrom_mark, hrest, Written.numbered, Written.values,
      List.length_cons, List.append_assoc, Nat.add_assoc, Nat.add_comm 1]
  | .char c :: w, blank, hw, n, start => by
    have hpage := pageClause?_marked ht blank hw
    simp only [Written.calm, Bool.and_eq_true, Bool.not_eq_true', bne_iff_ne] at hw
    obtain ⟨start', hrest⟩ := adaptFrom_marked ht _ hw.2 n (!Ident.isWord c)
    refine ⟨start', ?_⟩
    rw [Written.marked, List.cons_append] at hpage ⊢
    rw [adaptFrom_char n start hw.1.1.1 hw.1.1.2 fun _ => hpage, hrest]
    rfl

/-- A mild statement is adapted by numbering its marks. -/
theorem adapt_sql {w : Written} (hw : w.Mild) :
    adapt w.sql.text = String.ofList (w.numbered 0) := by
  obtain ⟨start, h⟩ := adaptFrom_marked (.inl rfl) true hw 0 true
  rw [adaptFrom_nil, List.append_nil, List.append_nil] at h
  rw [adapt, Written.sql, String.toList_ofList]
  exact congrArg String.ofList h

/-! ### A page clause at the end -/

/-- The decimal digits of a number: there is one, and there is nothing else. -/
def IsNumber (ds : List Char) : Prop := ds ≠ [] ∧ ∀ c ∈ ds, isDigit c = true

theorem isNumber_toDigits (n : Nat) : IsNumber (Nat.toDigits 10 n) := by
  refine ⟨Nat.toDigits_ne_nil, ?_⟩
  intro c hc
  have hdigit := Nat.isDigit_of_mem_toDigits (by decide) (by decide) hc
  simp only [Char.isDigit, Bool.and_eq_true, decide_eq_true_eq] at hdigit
  simp only [isDigit, Bool.and_eq_true, decide_eq_true_eq]
  exact hdigit

section Page

variable {offset size rest : List Char}

theorem digits?_append (hs : IsNumber size) (hr : rest.head?.all (!isDigit ·) = true) :
    digits? (size ++ rest) = some (size, rest) := by
  have htake : (size ++ rest).takeWhile isDigit = size := by
    rw [List.takeWhile_append_of_pos hs.2]
    cases rest with
    | nil => simp
    | cons c cs => simp_all
  have hdrop : (size ++ rest).dropWhile isDigit = rest := by
    rw [List.dropWhile_append_of_pos hs.2]
    cases rest with
    | nil => rfl
    | cons c cs => simp_all
  simp [digits?, htake, hdrop, hs.1]

/-- What may follow a number is neither a digit nor a letter nor a comma after blanks. -/
theorem head_of_parted (hr : Parted rest) :
    rest.head?.all (!isDigit ·) = true ∧ rest.head?.any Ident.isWord = false ∧
      afterComma? rest = none := by
  rcases hr with rfl | ⟨c, cs, rfl, hblank, -, hcomma⟩
  · exact ⟨rfl, rfl, rfl⟩
  · refine ⟨rfl, rfl, ?_⟩
    have hspace : isBlank ' ' = true := by decide
    have hdrop : (' ' :: c :: cs).dropWhile isBlank = c :: cs := by
      simp [hspace, hblank]
    rw [afterComma?, hdrop]
    split
    · next h =>
      cases h
      exact absurd rfl hcomma
    · rfl

/-- A digit is neither a quote nor a question mark nor a blank. -/
theorem calm_of_isDigit {c : Char} (hc : isDigit c = true) :
    Quotes.isMark c = false ∧ c ≠ '?' ∧ isBlank c = false := by
  refine Written.calm_char (.inl ?_)
  simp only [Ident.isWord, Bool.or_eq_true]
  exact .inl (.inr hc)

/-- No blanks stand before a number. -/
theorem dropWhile_isBlank (hs : IsNumber size) :
    (size ++ rest).dropWhile isBlank = size ++ rest := by
  match size, hs with
  | [], ⟨hne, _⟩ => exact absurd rfl hne
  | d :: ds, ⟨_, hd⟩ => simp [(calm_of_isDigit (hd d (List.mem_cons_self ..))).2.2]

/-- A page clause is found where it stands. -/
theorem pageClause?_page (ho : IsNumber offset) (hs : IsNumber size) (hr : Parted rest) :
    pageClause? ('l' :: 'i' :: 'm' :: 'i' :: 't' :: ' ' :: (offset ++ ',' :: (size ++ rest))) =
      some ⟨offset, size, rest⟩ := by
  have hspace : isBlank ' ' = true := by decide
  have hword : afterWord? ['l', 'i', 'm', 'i', 't']
      ('l' :: 'i' :: 'm' :: 'i' :: 't' :: ' ' :: (offset ++ ',' :: (size ++ rest))) =
      some (' ' :: (offset ++ ',' :: (size ++ rest))) := rfl
  have hblanks : afterBlanks? (' ' :: (offset ++ ',' :: (size ++ rest))) =
      some (offset ++ ',' :: (size ++ rest)) := by
    rw [afterBlanks?, if_pos hspace, dropWhile_isBlank ho]
  have hcomma : afterComma? (',' :: (size ++ rest)) = some (size ++ rest) := by
    have hdrop : (',' :: (size ++ rest)).dropWhile isBlank = ',' :: (size ++ rest) := rfl
    rw [afterComma?, hdrop]
    exact congrArg some (dropWhile_isBlank hs)
  obtain ⟨hdigit, hnoword, -⟩ := head_of_parted hr
  have hoffset : digits? (offset ++ ',' :: (size ++ rest)) =
      some (offset, ',' :: (size ++ rest)) := digits?_append ho rfl
  simp only [pageClause?, hword, hblanks, hoffset, hcomma, digits?_append hs hdigit, hnoword,
    Option.bind_eq_bind, Option.bind_some, Bool.false_eq_true, if_false]

/-- A number alone is no page clause. -/
theorem pageClause?_first (hs : IsNumber size) (hr : Parted rest) :
    pageClause? ('l' :: 'i' :: 'm' :: 'i' :: 't' :: ' ' :: (size ++ rest)) = none := by
  have hspace : isBlank ' ' = true := by decide
  have hword : afterWord? ['l', 'i', 'm', 'i', 't']
      ('l' :: 'i' :: 'm' :: 'i' :: 't' :: ' ' :: (size ++ rest)) = some (' ' :: (size ++ rest)) :=
    rfl
  have hblanks : afterBlanks? (' ' :: (size ++ rest)) = some (size ++ rest) := by
    rw [afterBlanks?, if_pos hspace, dropWhile_isBlank hs]
  obtain ⟨hdigit, -, hcomma⟩ := head_of_parted hr
  simp only [pageClause?, hword, hblanks, digits?_append hs hdigit, hcomma, Option.bind_eq_bind,
    Option.bind_some, Option.bind_none]

/-- A page clause starts with a letter of its own. -/
theorem pageClause?_of_head {c : Char} (hc : c.toLower ≠ 'l') (cs : List Char) :
    pageClause? (c :: cs) = none := by
  simp [pageClause?, afterWord?, hc]

/-- Characters that start no page clause stay as they are. -/
theorem adaptFrom_inert : ∀ {cs : List Char},
    (∀ c ∈ cs, Quotes.isMark c = false ∧ c ≠ '?' ∧ c.toLower ≠ 'l') → ∀ (n : Nat) (start : Bool),
      ∃ start', adaptFrom ⟨none, n, start⟩ (cs ++ rest) = cs ++ adaptFrom ⟨none, n, start'⟩ rest
  | [], _, _, start => ⟨start, rfl⟩
  | c :: cs, h, n, start => by
    obtain ⟨hmark, hquestion, hl⟩ := h c (List.mem_cons_self ..)
    obtain ⟨start', hrest⟩ := adaptFrom_inert (fun d hd => h d (List.mem_cons_of_mem c hd)) n
      (!Ident.isWord c)
    refine ⟨start', ?_⟩
    rw [List.cons_append, adaptFrom_char n start hmark hquestion fun _ => pageClause?_of_head hl _,
      hrest]
    rfl

/-- A digit starts no page clause. -/
theorem inert_of_isDigit {c : Char} (hc : isDigit c = true) :
    Quotes.isMark c = false ∧ c ≠ '?' ∧ c.toLower ≠ 'l' := by
  obtain ⟨hmark, hquestion, -⟩ := calm_of_isDigit hc
  refine ⟨hmark, hquestion, ?_⟩
  have hlower : c.toLower = c := by
    refine dif_neg ?_
    rintro ⟨hlow, -⟩
    simp only [isDigit, Bool.and_eq_true, decide_eq_true_eq] at hc
    exact absurd (UInt32.le_trans hlow hc.2) (by decide)
  rw [hlower]
  rintro rfl
  exact absurd hc (by decide)

end Page

section Paged

variable {w lock : Written} {offset size : String}

/-- A page clause in the dialect, character by character. -/
theorem page_chars (o s rest : List Char) : page ⟨o, s, rest⟩ =
    'l' :: 'i' :: 'm' :: 'i' :: 't' :: ' ' ::
      (s ++ ' ' :: 'o' :: 'f' :: 'f' :: 's' :: 'e' :: 't' :: ' ' :: o) := by
  have hlimit : "limit ".toList = ['l', 'i', 'm', 'i', 't', ' '] := rfl
  have hoffset : " offset ".toList = [' ', 'o', 'f', 'f', 's', 'e', 't', ' '] := rfl
  unfold page
  simp only [hlimit, hoffset, List.append_assoc, List.cons_append, List.nil_append]

/-- What comes last, and is mild, is adapted by itself. -/
theorem adaptFrom_last (hl : lock.Mild) (n : Nat) (start : Bool) :
    adaptFrom ⟨none, n, start⟩ lock.marked = lock.numbered n := by
  obtain ⟨start', h⟩ := adaptFrom_marked (.inl rfl) true hl n start
  rwa [adaptFrom_nil, List.append_nil, List.append_nil] at h

/-- What comes before a clause is adapted by itself, and then the clause is where a word may start. -/
theorem adaptFrom_clause (hw : w.Mild) (clause : List Char) :
    adaptFrom {} (w.marked ++ ' ' :: 'l' :: clause) =
      w.numbered 0 ++ ' ' :: adaptFrom ⟨none, w.values.length, true⟩ ('l' :: clause) := by
  have hparted : Parted (' ' :: 'l' :: clause) :=
    .inr ⟨'l', clause, rfl, by decide, by decide, by decide⟩
  obtain ⟨start, h⟩ := adaptFrom_marked hparted true hw 0 true
  refine h.trans ?_
  rw [adaptFrom_char _ start (by decide) (by decide) fun _ => pageClause?_of_head (by decide) _,
    Nat.zero_add]
  rfl

/-- A page clause at the end of a mild statement is turned round. -/
theorem adapt_page (hw : w.Mild) (ho : IsNumber offset.toList) (hs : IsNumber size.toList)
    (hl : lock.Mild) (hp : Parted lock.marked) :
    adapt (w ++ Written.plain (" limit " ++ offset ++ "," ++ size) ++ lock).sql.text =
      String.ofList
        ((w ++ Written.plain (" limit " ++ size ++ " offset " ++ offset) ++ lock).numbered 0) := by
  have hlimit : " limit ".toList = [' ', 'l', 'i', 'm', 'i', 't', ' '] := rfl
  have hcomma : ",".toList = [','] := rfl
  have hoffset : " offset ".toList = [' ', 'o', 'f', 'f', 's', 'e', 't', ' '] := rfl
  have htext : (w ++ Written.plain (" limit " ++ offset ++ "," ++ size) ++ lock).marked =
      w.marked ++ ' ' :: 'l' :: 'i' :: 'm' :: 'i' :: 't' :: ' ' ::
        (offset.toList ++ ',' :: (size.toList ++ lock.marked)) := by
    simp only [Written.marked_append, Written.marked_plain, String.toList_append, hlimit, hcomma,
      List.append_assoc, List.cons_append, List.nil_append]
  rw [adapt, Written.sql, String.toList_ofList, htext]
  refine congrArg String.ofList ((adaptFrom_clause hw _).trans ?_)
  rw [adaptFrom_page _ (by decide) (pageClause?_page ho hs hp), page_chars, adaptFrom_last hl]
  simp only [Written.numbered_append, Written.numbered_plain, Written.values_plain,
    String.toList_append, hlimit, hoffset, List.append_assoc, List.cons_append, List.nil_append,
    Nat.zero_add, List.length_nil, Nat.add_zero]

/-- The clause of the first page stays as it is. -/
theorem adapt_firstPage (hw : w.Mild) (hs : IsNumber size.toList) (hl : lock.Mild)
    (hp : Parted lock.marked) :
    adapt (w ++ Written.plain (" limit " ++ size) ++ lock).sql.text =
      String.ofList ((w ++ Written.plain (" limit " ++ size) ++ lock).numbered 0) := by
  have hlimit : " limit ".toList = [' ', 'l', 'i', 'm', 'i', 't', ' '] := rfl
  have htext : (w ++ Written.plain (" limit " ++ size) ++ lock).marked =
      w.marked ++ ' ' :: 'l' :: 'i' :: 'm' :: 'i' :: 't' :: ' ' :: (size.toList ++ lock.marked) := by
    simp only [Written.marked_append, Written.marked_plain, String.toList_append, hlimit,
      List.append_assoc, List.cons_append, List.nil_append]
  have hinert : ∀ c ∈ 'i' :: 'm' :: 'i' :: 't' :: ' ' :: size.toList,
      Quotes.isMark c = false ∧ c ≠ '?' ∧ c.toLower ≠ 'l' := by
    intro c hc
    rcases List.mem_append.mp (show c ∈ ['i', 'm', 'i', 't', ' '] ++ size.toList from hc) with
      hc | hc
    · simp only [List.mem_cons, List.not_mem_nil, or_false] at hc
      rcases hc with rfl | rfl | rfl | rfl | rfl <;> decide
    · exact inert_of_isDigit (hs.2 c hc)
  obtain ⟨start, h⟩ := @adaptFrom_inert lock.marked _ hinert w.values.length (!Ident.isWord 'l')
  rw [adapt, Written.sql, String.toList_ofList, htext]
  refine congrArg String.ofList ((adaptFrom_clause hw _).trans ?_)
  rw [adaptFrom_char _ _ (by decide) (by decide) fun _ => pageClause?_first hs hp]
  rw [List.cons_append, List.cons_append, List.cons_append, List.cons_append, List.cons_append] at h
  rw [h, adaptFrom_last hl]
  simp only [Written.numbered_append, Written.numbered_plain, Written.values_plain,
    String.toList_append, hlimit, List.append_assoc, List.cons_append, List.nil_append,
    Nat.zero_add, List.length_nil, Nat.add_zero]

end Paged

end TableAccess.Dialect
