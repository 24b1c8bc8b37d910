import TableAccess.Text.Split

/-!
Plain identifiers.

A plain identifier is one or more segments joined by single dots, each an ASCII letter or an
underscore followed by ASCII letters, digits and underscores. Column names are spliced into
statement text, and this is the test that keeps anything else out of it.
-/

namespace TableAccess.Ident

/-- A letter of the ASCII alphabet. -/
def isLetter (c : Char) : Bool := ('a' ≤ c && c ≤ 'z') || ('A' ≤ c && c ≤ 'Z')

/-- An ASCII letter or digit or an underscore. -/
def isWord (c : Char) : Bool := isLetter c || ('0' ≤ c && c ≤ '9') || c == '_'

/-- What a segment may start with. -/
def isStart (c : Char) : Bool := isLetter c || c == '_'

/-- A segment of an identifier. -/
def isSegment : List Char → Bool
  | [] => false
  | c :: cs => isStart c && cs.all isWord

/-- Whether a text is a plain identifier. -/
def isPlain (s : String) : Bool := (splitAt '.' s.toList).all isSegment

end TableAccess.Ident
