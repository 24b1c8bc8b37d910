import TableAccess.Text.Digits

/-!
The tokens of JSON text.

The lexer is one fold over the characters: `Scan.step` says what the next character does to what has
been read so far. A numeral keeps its digits and a quoted text its code units, so that nothing is
decided here about what they stand for; the units may hold halves of a surrogate pair that only an
escape can write.
-/

namespace TableAccess.Json

open Digits (isDigit hexValue?)

/-- A number as written. -/
structure Numeral where
  negative : Bool
  whole : List Char
  fraction : Option (List Char)
  exponent : Option (Bool × List Char)
  deriving DecidableEq

inductive Token where
  | openArray
  | closeArray
  | openObject
  | closeObject
  | comma
  | colon
  | null
  | bool (b : Bool)
  | numeral (n : Numeral)
  | quoted (units : List Nat)
  deriving DecidableEq

/-- How far a numeral has been read. Digits are kept last first. -/
inductive Phase where
  | sign
  | zero
  | whole (ds : List Char)
  | point (ds : List Char)
  | fraction (ds fs : List Char)
  | mark (ds : List Char) (fs : Option (List Char))
  | markSign (ds : List Char) (fs : Option (List Char)) (down : Bool)
  | exponent (ds : List Char) (fs : Option (List Char)) (down : Bool) (es : List Char)

/-- What is being read. Letters and units are kept last first. -/
inductive Scan where
  | between
  | word (letters : List Char)
  | numeral (negative : Bool) (phase : Phase)
  | quoted (units : List Nat)
  | escape (units : List Nat)
  | hex (units : List Nat) (owed value : Nat)

def isBlank (c : Char) : Bool := c == ' ' || c == '\n' || c == '\t' || c == '\r'

/-- The numeral read so far, if it may end here. -/
def Phase.finish? (negative : Bool) : Phase → Option Numeral
  | .zero => some ⟨negative, ['0'], none, none⟩
  | .whole ds => some ⟨negative, ds.reverse, none, none⟩
  | .fraction ds fs => some ⟨negative, ds.reverse, some fs.reverse, none⟩
  | .exponent ds fs down es =>
    some ⟨negative, ds.reverse, fs.map List.reverse, some (down, es.reverse)⟩
  | _ => none

/-- The numeral with one more character, if it goes on with that character. A zero is not followed
by a digit. -/
def Phase.next? : Phase → Char → Option Phase
  | .sign, c => if c = '0' then some .zero else if isDigit c then some (.whole [c]) else none
  | .zero, c => wholeEnd ['0'] c
  | .whole ds, c => if isDigit c then some (.whole (c :: ds)) else wholeEnd ds c
  | .point ds, c => if isDigit c then some (.fraction ds [c]) else none
  | .fraction ds fs, c =>
    if isDigit c then some (.fraction ds (c :: fs))
    else if c = 'e' ∨ c = 'E' then some (.mark ds (some fs))
    else none
  | .mark ds fs, c =>
    if c = '+' then some (.markSign ds fs false)
    else if c = '-' then some (.markSign ds fs true)
    else if isDigit c then some (.exponent ds fs false [c])
    else none
  | .markSign ds fs down, c => if isDigit c then some (.exponent ds fs down [c]) else none
  | .exponent ds fs down es, c =>
    if isDigit c then some (.exponent ds fs down (c :: es)) else none
where
  /-- What may follow the digits before the point. -/
  wholeEnd (ds : List Char) (c : Char) : Option Phase :=
    if c = '.' then some (.point ds)
    else if c = 'e' ∨ c = 'E' then some (.mark ds none)
    else none

/-- The token of a bare word. -/
def word? (letters : List Char) : Option Token :=
  let w := String.ofList letters
  if w = "null" then some .null
  else if w = "true" then some (.bool true)
  else if w = "false" then some (.bool false)
  else none

/-- The unit that a one-letter escape stands for. -/
def shortEscape? (c : Char) : Option Nat :=
  if c = '"' ∨ c = '\\' ∨ c = '/' then some c.toNat
  else if c = 'b' then some 8
  else if c = 'f' then some 12
  else if c = 'n' then some 10
  else if c = 'r' then some 13
  else if c = 't' then some 9
  else none

/-- A character between tokens. -/
def Scan.start (c : Char) (tokens : List Token) : Option (Scan × List Token) :=
  if isBlank c then some (.between, tokens)
  else if c = '[' then some (.between, .openArray :: tokens)
  else if c = ']' then some (.between, .closeArray :: tokens)
  else if c = '\x7b' then some (.between, .openObject :: tokens)
  else if c = '\x7d' then some (.between, .closeObject :: tokens)
  else if c = ',' then some (.between, .comma :: tokens)
  else if c = ':' then some (.between, .colon :: tokens)
  else if c = '"' then some (.quoted [], tokens)
  else if c = '-' then some (.numeral true .sign, tokens)
  else if isDigit c then (Phase.next? .sign c).map fun p => (.numeral false p, tokens)
  else if 'a' ≤ c ∧ c ≤ 'z' then some (.word [c], tokens)
  else none

/-- One character. Tokens are kept last first. -/
def Scan.step : Scan → Char → List Token → Option (Scan × List Token)
  | .between, c, tokens => start c tokens
  | .word letters, c, tokens =>
    if 'a' ≤ c ∧ c ≤ 'z' then some (.word (c :: letters), tokens)
    else (word? letters.reverse).bind fun t => start c (t :: tokens)
  | .numeral negative phase, c, tokens =>
    match phase.next? c with
    | some p => some (.numeral negative p, tokens)
    | none =>
      if isDigit c then none
      else (phase.finish? negative).bind fun n => start c (.numeral n :: tokens)
  | .quoted units, c, tokens =>
    if c = '"' then some (.between, .quoted units.reverse :: tokens)
    else if c = '\\' then some (.escape units, tokens)
    else if c.toNat < 32 then none
    else some (.quoted (c.toNat :: units), tokens)
  | .escape units, c, tokens =>
    if c = 'u' then some (.hex units 4 0, tokens)
    else (shortEscape? c).map fun u => (.quoted (u :: units), tokens)
  | .hex units owed value, c, tokens =>
    (hexValue? c).map fun d =>
      let value := 16 * value + d
      if owed ≤ 1 then (.quoted (value :: units), tokens) else (.hex units (owed - 1) value, tokens)

/-- The end of the text. -/
def Scan.finish : Scan → List Token → Option (List Token)
  | .between, tokens => some tokens
  | .word letters, tokens => (word? letters.reverse).map (· :: tokens)
  | .numeral negative phase, tokens => (phase.finish? negative).map (.numeral · :: tokens)
  | _, _ => none

/-- Reads characters on from a state. -/
def Scan.run : Scan → List Token → List Char → Option (List Token)
  | scan, tokens, [] => scan.finish tokens
  | scan, tokens, c :: cs =>
    match scan.step c tokens with
    | some (scan, tokens) => run scan tokens cs
    | none => none

/-- The tokens of a text, if it is made of tokens. -/
def tokens? (cs : List Char) : Option (List Token) := (Scan.run .between [] cs).map List.reverse

end TableAccess.Json
