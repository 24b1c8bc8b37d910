/-!
Quoted spans in statement text.

A single or a double quote opens a span that the same character closes; inside a span the other
quote is an ordinary character. What is being scanned is therefore either free or inside the span of
one mark, and `Quotes.after` folds a text into that state.
-/

namespace TableAccess.Quotes

/-- Whether a character opens a span. -/
def isMark (c : Char) : Bool := c == '\'' || c == '"'

/-- Inside the span of a mark, or free. -/
abbrev State := Option Char

/-- The state after one more character. -/
def step : State → Char → State
  | some mark, c => if c = mark then none else some mark
  | none, c => if isMark c then some c else none

/-- The state after a text. -/
def after : State → List Char → State
  | q, [] => q
  | q, c :: cs => after (step q c) cs

/-- How many of a text's characters are free question marks. -/
def placeholders : State → List Char → Nat
  | _, [] => 0
  | q, c :: cs => (if q.isNone && c == '?' then 1 else 0) + placeholders (step q c) cs

/-- A text goes on in the state that the text before it leaves. -/
theorem after_append (q : State) (front back : List Char) :
    after q (front ++ back) = after (after q front) back := by
  induction front generalizing q with
  | nil => rfl
  | cons c front ih => exact ih (step q c)

/-- What is counted in the text behind depends on the state that the text before it leaves. -/
theorem placeholders_append (q : State) (front back : List Char) :
    placeholders q (front ++ back) = placeholders q front + placeholders (after q front) back := by
  induction front generalizing q with
  | nil => exact (Nat.zero_add _).symm
  | cons c front ih => rw [List.cons_append, placeholders, placeholders, after, ih, Nat.add_assoc]

end TableAccess.Quotes
