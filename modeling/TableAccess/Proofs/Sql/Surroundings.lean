import TableAccess.Proofs.Sql.Rewriting

/-!
Page clauses and what stands around them.

A text that ends in no word is adapted by itself before a page clause, since no clause that starts in it
can go on into the letter that follows. So are a page clause and a text after it that no word starts.
What is left of the text before is where the scan takes up: how many marks have been numbered, and
whether a word may start. The second is read off what has been written, and a number has been written
for a question mark, so a clause that stands right behind one is copied like any other word. Behind
everything else that is no word it is turned round.
-/

namespace TableAccess.Dialect

variable {n : Nat} {front back cs : List Char}

/-! ### What stands before -/

/-- A page clause ends in a digit, hence in a word. -/
theorem PageText.isWord_getLast (t : PageText) : ∃ c ∈ t.chars.getLast?, Ident.isWord c = true := by
  obtain ⟨hne, hdigits⟩ := t.size_number
  have hassoc : t.chars =
      t.word ++ (t.gap ++ (t.offset ++ (t.before ++ ',' :: t.after))) ++ t.size := by
    simp [chars]
  refine ⟨t.size.getLast hne, ?_, ?_⟩
  · rw [hassoc, List.getLast?_append, List.getLast?_eq_some_getLast hne]
    rfl
  · have hdigit := hdigits _ (List.getLast_mem hne)
    simp only [Digits.isDigit] at hdigit
    simp [Ident.isWord, hdigit]

/-- A text that begins with a page clause and ends in no word goes on behind the clause. -/
theorem PageText.ne_nil_of_last (t : PageText)
    (h : ∀ c ∈ (t.chars ++ back).getLast?, Ident.isWord c = false) : back ≠ [] := by
  rintro rfl
  obtain ⟨c, hc, hword⟩ := t.isWord_getLast
  rw [List.append_nil] at h
  rw [h c hc] at hword
  cases hword

/-- A page clause before the letter that starts another is one that ends before it. -/
theorem pageClause?_append {l : Char} (hne : front ≠ [])
    (hlast : ∀ c ∈ front.getLast?, Ident.isWord c = false) (hl : l.toLower = 'l') :
    pageClause? (front ++ l :: cs) =
      (pageClause? front).map fun p => ⟨p.offset, p.size, p.rest ++ l :: cs⟩ := by
  ext found
  rw [pageClause?_eq_some_iff, Option.map_eq_some_iff]
  constructor
  · rintro ⟨t, rest, htext, hrest, rfl⟩
    rcases List.append_eq_append_iff.mp htext with ⟨inside, hchars, hcs⟩ | ⟨after, hfront, hafter⟩
    · -- the clause would go on over the letter or end right before it
      exfalso
      cases inside with
      | nil =>
        rw [← List.append_nil front, ← hchars, ← List.append_nil t.chars] at hlast
        exact t.ne_nil_of_last hlast rfl
      | cons d inside =>
        obtain ⟨first, tail, hcons, -, htail, -⟩ := t.chars_inert
        obtain ⟨c, front, rfl⟩ := List.exists_cons_of_ne_nil hne
        rw [hchars, List.cons_append, List.cons.injEq] at hcons
        obtain ⟨rfl, -⟩ := List.cons.inj hcs
        have hmem : l ∈ tail := by
          rw [← hcons.2]
          simp
        exact (htail l hmem).1.2 hl
    · refine ⟨t.clause after, pageClause?_eq_some_iff.mpr ⟨t, after, hfront, ?_, rfl⟩, ?_⟩
      · cases after with
        | nil => rfl
        | cons d after =>
          rw [hafter] at hrest
          simpa using hrest
      · rw [PageText.clause, hafter]
        rfl
  · rintro ⟨found', hfound', rfl⟩
    obtain ⟨t, after, rfl, hafter, rfl⟩ := pageClause?_eq_some_iff.mp hfound'
    refine ⟨t, after ++ l :: cs, by rw [List.append_assoc], ?_, rfl⟩
    cases after with
    | nil => exact absurd rfl (t.ne_nil_of_last hlast)
    | cons d after => simpa using hafter

/-- What a text ends in, its last part does. -/
theorem getLast?_of_append {P : Char → Prop} (h : ∀ c ∈ (front ++ back).getLast?, P c) :
    ∀ c ∈ back.getLast?, P c := by
  intro c hc
  refine h c ?_
  rw [List.getLast?_append, Option.mem_def.mp hc]
  rfl

/-- Whether a word may start after what is written for a text that ends in no word: a number is written
for a question mark. -/
def startsAfter (start : Bool) (front : List Char) : Bool := front.getLast?.elim start (· != '?')

theorem startsAfter_cons (start : Bool) (c : Char) (front : List Char) :
    startsAfter start (c :: front) = startsAfter (c != '?') front := by
  cases front with
  | nil => rfl
  | cons d front => rw [startsAfter, startsAfter, List.getLast?_cons_cons]; rfl

/-- The last character decides, if there is one. -/
theorem startsAfter_append (start start' : Bool) (hne : back ≠ []) :
    startsAfter start (front ++ back) = startsAfter start' back := by
  rw [startsAfter, startsAfter, List.getLast?_append, List.getLast?_eq_some_getLast hne]
  rfl

/-- A text goes on in the span of a quote. -/
theorem isMark_step {q : Quotes.State} (h : ∀ m ∈ q, Quotes.isMark m = true) (c : Char) :
    ∀ m ∈ Quotes.step q c, Quotes.isMark m = true := by
  intro m hm
  cases q with
  | none =>
    simp only [Quotes.step] at hm
    split at hm
    · next hc =>
      cases hm
      exact hc
    · cases hm
  | some opening =>
    simp only [Quotes.step] at hm
    split at hm
    · cases hm
    · cases hm
      exact h m rfl

/-- Behind a character that is copied a word may start as it may behind what is written for it. -/
theorem startsAfter_kept (start : Bool) {q : Quotes.State} {c : Char}
    (hq : ∀ m ∈ q, Quotes.isMark m = true) (hkept : q = none → c ≠ '?')
    (hquote : Quotes.after q (c :: front) = none)
    (hlast : ∀ d ∈ (c :: front).getLast?, Ident.isWord d = false) :
    startsAfter (!Ident.isWord c) front = startsAfter start (c :: front) := by
  cases front with
  | cons d front => rw [startsAfter_cons, startsAfter_cons, startsAfter_cons]
  | nil =>
    -- a character that closes a span is the quote that opened it
    have hc : c ≠ '?' := by
      cases q with
      | none => exact hkept rfl
      | some opening =>
        rintro rfl
        simp only [Quotes.after, Quotes.step] at hquote
        split at hquote
        · next hsame =>
          have hmark := hq opening rfl
          rw [← hsame] at hmark
          exact absurd hmark (by decide)
        · cases hquote
    simp [startsAfter, hlast c rfl, hc]

/-- What is neither a free question mark nor the start of a free page clause is copied. -/
theorem adaptFrom_kept {s : State} {c : Char}
    (h : s.quote = none → c ≠ '?' ∧ (s.wordStart = true → pageClause? (c :: cs) = none)) :
    adaptFrom s (c :: cs) = c :: adaptFrom ⟨Quotes.step s.quote c, s.numbered, !Ident.isWord c⟩ cs := by
  rcases adaptFrom_cases s c cs with ⟨hnone, hc, -⟩ | ⟨hnone, hstart, t, rest, htext, hrest, -⟩ |
    ⟨-, hscan⟩
  · exact absurd hc (h hnone).1
  · have hfound := pageClause?_eq_some_iff.mpr ⟨t, rest, htext, hrest, rfl⟩
    rw [(h hnone).2 hstart] at hfound
    cases hfound
  · exact hscan

/-- A text that ends in no word is adapted by itself if the letter of a page clause comes after it. -/
theorem adaptFrom_append {l : Char} (hl : l.toLower = 'l') {q : Quotes.State} (n : Nat) (start : Bool)
    (hq : ∀ m ∈ q, Quotes.isMark m = true) :
    (front : List Char) → Quotes.after q front = none →
    (∀ c ∈ front.getLast?, Ident.isWord c = false) →
    adaptFrom ⟨q, n, start⟩ (front ++ l :: cs) = adaptFrom ⟨q, n, start⟩ front ++
      adaptFrom ⟨none, n + Quotes.placeholders q front, startsAfter start front⟩ (l :: cs)
  | [], hquote, _ => by
    obtain rfl : q = none := hquote
    rw [adaptFrom_nil]
    rfl
  | c :: front, hquote, hlast => by
    have hclause : pageClause? (c :: front ++ l :: cs) = _ :=
      pageClause?_append (List.cons_ne_nil c front) hlast hl
    have hends : ∀ d ∈ front.getLast?, Ident.isWord d = false :=
      getLast?_of_append (show ∀ d ∈ ([c] ++ front).getLast?, _ from hlast)
    rw [List.cons_append] at hclause ⊢
    rcases adaptFrom_cases ⟨q, n, start⟩ c front with ⟨rfl, rfl, hscan⟩ |
      ⟨rfl, rfl, t, rest, htext, hrest, hscan⟩ | ⟨hkept, hscan⟩
    · have hlater : adaptFrom ⟨none, n + 1, false⟩ (front ++ l :: cs) = _ :=
        adaptFrom_append hl (n + 1) false (by simp) front hquote hends
      rw [adaptFrom_mark, hscan, hlater, List.append_assoc, startsAfter_cons, Nat.add_assoc]
      rfl
    · -- the clause ends before the last character, so the scan goes on behind it
      have hne : rest ≠ [] := t.ne_nil_of_last (htext ▸ hlast)
      have hshorter := t.length_rest htext
      have hfound : pageClause? (c :: front) = some (t.clause rest) :=
        pageClause?_eq_some_iff.mpr ⟨t, rest, htext, hrest, rfl⟩
      have hc : c ≠ '?' := by
        obtain ⟨first, tail, hchars, -⟩ := t.chars_inert
        rw [hchars, List.cons_append, List.cons.injEq] at htext
        refine (t.quiet_chars c ?_).2
        rw [hchars, htext.1]
        exact List.mem_cons_self ..
      rw [hfound] at hclause
      rw [htext] at hlast hquote
      rw [Quotes.after_append, (Quotes.after_of_quiet t.quiet_chars).1] at hquote
      rw [hscan, adaptFrom_page n hc hclause, htext, List.append_assoc,
        startsAfter_append true false hne, Quotes.placeholders_quiet_append t.quiet_chars]
      exact congrArg _ (adaptFrom_append (q := none) hl n false (by simp) rest hquote (getLast?_of_append hlast))
    · have hstarts := startsAfter_kept start hq (fun hnone => (hkept hnone).1) hquote hlast
      have hkept' : q = none →
          c ≠ '?' ∧ (start = true → pageClause? (c :: (front ++ l :: cs)) = none) := by
        intro hnone
        refine ⟨(hkept hnone).1, fun hstart => ?_⟩
        rw [hclause, (hkept hnone).2 hstart]
        rfl
      rw [hscan, adaptFrom_kept hkept', Quotes.placeholders_cons fun hnone => (hkept hnone).1, ← hstarts]
      exact congrArg (c :: ·) (adaptFrom_append hl n _ (isMark_step hq c) front hquote hends)
termination_by front => front.length
decreasing_by
  · exact Nat.lt_succ_self _
  · exact hshorter
  · exact Nat.lt_succ_self _

/-! ### What stands after -/

/-- The letter of a page clause is one in either case. -/
theorem isWord_of_toLower {c : Char} (h : c.toLower = 'l') : Ident.isWord c = true := by
  delta Char.toLower at h
  split at h
  · next hupper =>
    have hletter : Ident.isLetter c = true := by
      simp only [Ident.isLetter, Bool.or_eq_true, Bool.and_eq_true, decide_eq_true_eq]
      exact .inr hupper
    rw [Ident.isWord, hletter]
    rfl
  · rw [h]
    decide

/-- Where no word starts it makes no difference whether one may. -/
theorem adaptFrom_wordStart (start start' : Bool) (h : cs.head?.any Ident.isWord = false) :
    adaptFrom ⟨none, n, start⟩ cs = adaptFrom ⟨none, n, start'⟩ cs := by
  cases cs with
  | nil => rw [adaptFrom_nil, adaptFrom_nil]
  | cons c cs =>
    have hword : Ident.isWord c = false := by simpa using h
    have hl : c.toLower ≠ 'l' := by
      intro hl
      rw [isWord_of_toLower hl] at hword
      cases hword
    by_cases hc : c = '?'
    · rw [hc, adaptFrom_mark, adaptFrom_mark]
    · rw [adaptFrom_kept fun _ => ⟨hc, fun _ => pageClause?_of_head hl cs⟩,
        adaptFrom_kept fun _ => ⟨hc, fun _ => pageClause?_of_head hl cs⟩]

/-- A page clause where a word may start, before a text that goes on with none, is turned round. -/
theorem adaptFrom_clauseText (t : PageText) (h : back.head?.any Ident.isWord = false) :
    adaptFrom ⟨none, n, true⟩ (t.chars ++ back) =
      page (t.clause back) ++ adaptFrom ⟨none, n, true⟩ back := by
  obtain ⟨first, tail, hchars, -⟩ := t.chars_inert
  have hfound : pageClause? (t.chars ++ back) = some (t.clause back) :=
    pageClause?_eq_some_iff.mpr ⟨t, back, rfl, h, rfl⟩
  have hfirst : first ≠ '?' := (t.quiet_chars first (by simp [hchars])).2
  rw [hchars, List.cons_append] at hfound ⊢
  rw [adaptFrom_page n hfirst hfound, adaptFrom_wordStart true false h]
  rfl

/-- A page clause where no word may start is copied. -/
theorem adaptFrom_clauseText_copied (t : PageText) (h : back.head?.any Ident.isWord = false) :
    adaptFrom ⟨none, n, false⟩ (t.chars ++ back) = t.chars ++ adaptFrom ⟨none, n, true⟩ back := by
  obtain ⟨first, tail, hchars, -, htail, -⟩ := t.chars_inert
  have hfirst := t.quiet_chars first (by simp [hchars])
  obtain ⟨start, hrest⟩ := @adaptFrom_inert back tail
    (fun c hc => ⟨(htail c hc).1.1.1, (htail c hc).1.1.2, (htail c hc).1.2⟩) n (!Ident.isWord first)
  rw [hchars, List.cons_append, adaptFrom_char n false hfirst.1 hfirst.2 nofun, hrest,
    adaptFrom_wordStart start true h]
  rfl

/-! ### The whole statement -/

/-- Texts with characters between them. -/
theorem ofList_between (a b : String) (cs ds : List Char) :
    String.ofList (a.toList ++ cs ++ b.toList ++ ds) =
      a ++ String.ofList cs ++ b ++ String.ofList ds := by
  simp only [String.ofList_append, String.ofList_toList]

theorem ofList_page (p : PageClause) : String.ofList (page p) =
    "limit " ++ String.ofList p.size ++ " offset " ++ String.ofList p.offset :=
  ofList_between "limit " " offset " p.size p.offset

/-- A page clause of a statement, which leaves no span open before it and in which the clause is a word
by itself: what stands before the clause is adapted by itself, and what stands after it is adapted with
the numbers going on. The clause is turned round, unless it stands right behind a question mark; it is
copied there. -/
theorem adapt_surrounded (p s : String) (t : PageText) (hquote : Quotes.after none p.toList = none)
    (hbefore : ∀ c ∈ p.toList.getLast?, Ident.isWord c = false)
    (hafter : ∀ c ∈ s.toList.head?, Ident.isWord c = false) :
    adapt (p ++ String.ofList t.chars ++ s) =
      adapt p ++
        (if p.toList.getLast? = some '?' then String.ofList t.chars
          else "limit " ++ String.ofList t.size ++ " offset " ++ String.ofList t.offset) ++
        String.ofList (adaptFrom { numbered := (Sql.raw p).placeholderCount } s.toList) := by
  obtain ⟨first, tail, hchars, hfirst, -⟩ := t.chars_inert
  have hback : s.toList.head?.any Ident.isWord = false := by
    cases h : s.toList.head? with
    | none => rfl
    | some c => exact hafter c h
  have hsplit : adaptFrom {} (p.toList ++ (t.chars ++ s.toList)) = adaptFrom {} p.toList ++
      adaptFrom ⟨none, (Sql.raw p).placeholderCount, startsAfter true p.toList⟩
        (t.chars ++ s.toList) := by
    rw [hchars, List.cons_append, adaptFrom_append hfirst 0 true (by simp) p.toList hquote hbefore,
      Nat.zero_add]
    rfl
  rw [adapt, String.toList_append, String.toList_append, String.toList_ofList, List.append_assoc,
    hsplit, adapt]
  split
  · next hmark =>
    have hstart : startsAfter true p.toList = false := by simp [startsAfter, hmark]
    rw [hstart, adaptFrom_clauseText_copied t hback, String.ofList_append, String.ofList_append,
      String.append_assoc]
  · next hmark =>
    have hstart : startsAfter true p.toList = true := by
      cases h : p.toList.getLast? with
      | none => simp [startsAfter, h]
      | some c =>
        rw [h, Option.some.injEq] at hmark
        simp [startsAfter, h, hmark]
    rw [hstart, adaptFrom_clauseText t hback, String.ofList_append, String.ofList_append, ofList_page,
      ← String.append_assoc]
    rfl

/-- A clause in capitals and with other blanks, behind a quoted question mark and a free one. -/
theorem adapt_surrounded_blanks :
    let p := "select '?' as q from t where a = ? "
    let t : PageText :=
      { word := ['L', 'i', 'M', 'i', 'T'], gap := ['\n', ' '], offset := ['2', '0'], before := [' '],
        after := ['\t'], size := ['1', '0'], word_limit := by decide,
        gap_blank := ⟨by decide, List.all_eq_true.mp (by decide)⟩,
        offset_number := ⟨by decide, List.all_eq_true.mp (by decide)⟩,
        before_blank := List.all_eq_true.mp (by decide),
        after_blank := List.all_eq_true.mp (by decide),
        size_number := ⟨by decide, List.all_eq_true.mp (by decide)⟩ }
    Quotes.after none p.toList = none ∧ (∀ c ∈ p.toList.getLast?, Ident.isWord c = false) ∧
      (∀ c ∈ ";?".toList.head?, Ident.isWord c = false) ∧
      adapt (p ++ String.ofList t.chars ++ ";?") =
        "select '?' as q from t where a = $1 limit 10 offset 20;$2" := by
  intro p t
  have hquote : Quotes.after none p.toList = none := by decide
  have hlast : p.toList.getLast? = some ' ' := by decide
  have hbefore : ∀ c ∈ p.toList.getLast?, Ident.isWord c = false := by
    rw [hlast]
    rintro c ⟨⟩
    decide
  have hafter : ∀ c ∈ ";?".toList.head?, Ident.isWord c = false := by
    rintro c ⟨⟩
    decide
  refine ⟨hquote, hbefore, hafter, (adapt_surrounded p ";?" t hquote hbefore hafter).trans ?_⟩
  decide +kernel

/-- Behind a question mark a clause stays as it is, though no span is open and no word ends there: the
number that is written for the mark ends in a digit. -/
theorem clause_behind_mark :
    let p := "select id from t where a = ?"
    Quotes.after none p.toList = none ∧ (∀ c ∈ p.toList.getLast?, Ident.isWord c = false) ∧
      adapt (p ++ "limit 20,10") ≠ adapt p ++ "limit 10 offset 20" := by
  intro p
  have hlast : p.toList.getLast? = some '?' := by decide
  refine ⟨by decide, ?_, by decide +kernel⟩
  rw [hlast]
  rintro c ⟨⟩
  decide

end TableAccess.Dialect
