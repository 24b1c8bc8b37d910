import TableAccess.Text.Digits
import TableAccess.Text.Ident
import TableAccess.Text.Quotes

/-!
Statements in the dialect of PostgreSQL.

Statements are assembled with question marks for arguments and `limit OFFSET,SIZE` for pages.
`Dialect.adapt` numbers the free question marks `$1`, `$2`, … and turns such a page clause into
`limit SIZE offset OFFSET`; quoted spans and everything else stay as they are.

The text is scanned once, from the left. A page clause is looked for where a word may start, and
that is decided from what has been written so far: after a letter, a digit or an underscore no word
starts.
-/

namespace TableAccess.Dialect

open Digits (isDigit)

/-- The blanks that may stand in a page clause. -/
def isBlank (c : Char) : Bool :=
  c == ' ' || c == '\t' || c == '\n' || c == '\x0c' || c == '\r'

/-- The rest of a text after a lower-case word, read in either case. -/
def afterWord? : List Char → List Char → Option (List Char)
  | [], cs => some cs
  | w :: ws, c :: cs => if c.toLower = w then afterWord? ws cs else none
  | _ :: _, [] => none

/-- A page clause: its two numbers as written and the text after it. -/
structure PageClause where
  offset : List Char
  size : List Char
  rest : List Char

/-- The longest run of digits at the start of a text and the text after it, if there is a digit. -/
def digits? (cs : List Char) : Option (List Char × List Char) :=
  let ds := cs.takeWhile isDigit
  if ds.isEmpty then none else some (ds, cs.dropWhile isDigit)

/-- The rest of a text after blanks, of which there must be one. -/
def afterBlanks? (cs : List Char) : Option (List Char) :=
  match cs with
  | c :: rest => if isBlank c then some (rest.dropWhile isBlank) else none
  | [] => none

/-- The rest of a text after a comma with blanks around it. -/
def afterComma? (cs : List Char) : Option (List Char) :=
  match cs.dropWhile isBlank with
  | ',' :: rest => some (rest.dropWhile isBlank)
  | _ => none

/-- A page clause at the start of a text. The second number must not run on into a word. -/
def pageClause? (cs : List Char) : Option PageClause := do
  let cs ← afterWord? ['l', 'i', 'm', 'i', 't'] cs
  let cs ← afterBlanks? cs
  let (offset, cs) ← digits? cs
  let cs ← afterComma? cs
  let (size, rest) ← digits? cs
  if rest.head?.any Ident.isWord then none else some ⟨offset, size, rest⟩

theorem length_dropWhile_le (p : Char → Bool) (cs : List Char) :
    (cs.dropWhile p).length ≤ cs.length := (List.dropWhile_sublist p).length_le

theorem length_afterWord? : ∀ {ws cs rest : List Char},
    afterWord? ws cs = some rest → rest.length ≤ cs.length
  | [], _, _, h => by simp only [afterWord?, Option.some.injEq] at h; simp [h]
  | _ :: _, [], _, h => by simp [afterWord?] at h
  | w :: ws, c :: cs, rest, h => by
    simp only [afterWord?] at h
    split at h
    · have := length_afterWord? h
      simp only [List.length_cons]; omega
    · simp at h

theorem length_afterBlanks? {cs rest : List Char} (h : afterBlanks? cs = some rest) :
    rest.length < cs.length := by
  unfold afterBlanks? at h
  split at h
  · split at h
    · simp only [Option.some.injEq] at h
      subst h
      have := length_dropWhile_le isBlank ‹List Char›
      simp only [List.length_cons]; omega
    · simp at h
  · simp at h

theorem length_digits? {cs ds rest : List Char} (h : digits? cs = some (ds, rest)) :
    rest.length ≤ cs.length := by
  simp only [digits?] at h
  split at h
  · simp at h
  · simp only [Option.some.injEq, Prod.mk.injEq] at h
    rw [← h.2]
    exact length_dropWhile_le isDigit cs

theorem length_afterComma? {cs rest : List Char} (h : afterComma? cs = some rest) :
    rest.length ≤ cs.length := by
  unfold afterComma? at h
  split at h
  · next tail heq =>
    simp only [Option.some.injEq] at h
    subst h
    have h1 := length_dropWhile_le isBlank tail
    have h2 := length_dropWhile_le isBlank cs
    rw [heq] at h2
    simp only [List.length_cons] at h2
    omega
  · simp at h

/-- A page clause takes characters off the text, so the scan goes on with less. -/
theorem length_pageClause? {cs : List Char} {p : PageClause} (h : pageClause? cs = some p) :
    p.rest.length < cs.length := by
  simp only [pageClause?, Option.bind_eq_bind, Option.bind_eq_some_iff] at h
  obtain ⟨a, ha, b, hb, ⟨o, c⟩, hc, d, hd, ⟨s, e⟩, he, hp⟩ := h
  have h1 := length_afterWord? ha
  have h2 := length_afterBlanks? hb
  have h3 := length_digits? hc
  have h4 := length_afterComma? hd
  have h5 := length_digits? he
  simp only at h3 h4 h5 hp
  split at hp
  · simp at hp
  · simp only [Option.some.injEq] at hp
    subst hp
    simp only
    omega

/-- How far a statement has been adapted: the quoted span the scan is in, how many question marks it
has numbered, and whether a word may start here. -/
structure State where
  quote : Quotes.State := none
  numbered : Nat := 0
  wordStart : Bool := true
  deriving DecidableEq

/-- The mark of an argument. -/
def mark (n : Nat) : List Char := '$' :: Nat.toDigits 10 n

/-- A page clause in the dialect. -/
def page (p : PageClause) : List Char :=
  "limit ".toList ++ p.size ++ " offset ".toList ++ p.offset

/-- Adapts a text on from a state. -/
def adaptFrom (s : State) : (cs : List Char) → List Char
  | [] => []
  | c :: cs =>
    if s.quote.isSome then
      c :: adaptFrom ⟨Quotes.step s.quote c, s.numbered, !Ident.isWord c⟩ cs
    else if c = '?' then
      mark (s.numbered + 1) ++ adaptFrom ⟨none, s.numbered + 1, false⟩ cs
    else
      match _found : if s.wordStart then pageClause? (c :: cs) else none with
      | some p => page p ++ adaptFrom ⟨none, s.numbered, false⟩ p.rest
      | none => c :: adaptFrom ⟨Quotes.step none c, s.numbered, !Ident.isWord c⟩ cs
termination_by cs => cs.length
decreasing_by
  · simp
  · simp
  · split at _found
    · exact length_pageClause? _found
    · simp at _found
  · simp

/-- A statement in the dialect. -/
def adapt (sql : String) : String := String.ofList (adaptFrom {} sql.toList)

end TableAccess.Dialect
