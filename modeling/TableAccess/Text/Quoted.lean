import TableAccess.Text.Extending
import TableAccess.Text.Unprinted

/-!
Text between double quotes, for people to read.

Quotes, backslashes and the usual control characters have a short escape. Every other character that
leaves no mark of its own on paper, such as a control character, a blank that is no plain space or
an accent that joins the letter before it, is written by its number.
-/

namespace TableAccess.Quoted

/-- Whether a character is one of the two voicing marks of half width. They extend the letter before
them, but have a place of their own. -/
def isHalfwidthVoicing (c : Char) : Bool := c == '\uFF9E' || c == '\uFF9F'

/-- Whether a character leaves no mark of its own on paper, the plain space apart. -/
def isMarkless (c : Char) : Bool :=
  (isUnprinted c && c != ' ') || isFiller c || (isExtending c && !isHalfwidthVoicing c)

/-- A character's number in braces. -/
def byNumber (c : Char) : List Char := "\\u\x7b".toList ++ Nat.toDigits 16 c.toNat ++ ['\x7d']

/-- A character between the quotes. -/
def escape (c : Char) : List Char :=
  if c = '"' ∨ c = '\\' then ['\\', c]
  else if c = '\t' then ['\\', 't']
  else if c = '\n' then ['\\', 'n']
  else if c = '\r' then ['\\', 'r']
  else if c.toNat = 0 then ['\\', '0']
  else if isMarkless c then byNumber c
  else [c]

/-- A text in quotes. -/
def quote (s : String) : String := String.ofList ('"' :: (s.toList.flatMap escape ++ ['"']))

end TableAccess.Quoted
