import TableAccess.Json.Basic
import TableAccess.Json.Source

/-!
What JSON text stands for.

The text of a document is read in two stages: the syntax tree, and the document it stands for. The
second stage decides what the numerals mean, joins surrogate pairs, orders the members of an object
with the last of equal names winning, and refuses nesting deeper than 127.

A numeral without point and exponent is a whole number if it fits into 64 bits. Any other is a
double: as many leading digits as fit into 64 unsigned bits make the significand, which is rounded
to a double and then multiplied or divided by one power of ten, so the last digit may differ from
correct rounding.
-/

namespace TableAccess.Json

/-- Significands are below this. -/
def significandLimit : Nat := UInt64.size

/-- The value of a digit. -/
def digitValue (c : Char) : Nat := c.toNat - 48

/-- The significand of digits before the point, and how many of them did not fit. -/
def takeWhole : Nat → List Char → Nat × Nat
  | n, [] => (n, 0)
  | n, c :: cs =>
    if 10 * n + digitValue c < significandLimit then takeWhole (10 * n + digitValue c) cs
    else (n, cs.length + 1)

/-- The significand with digits after the point, and how many of them fit. -/
def takeFraction : Nat → List Char → Nat × Nat
  | n, [] => (n, 0)
  | n, c :: cs =>
    if 10 * n + digitValue c < significandLimit then
      let (m, k) := takeFraction (10 * n + digitValue c) cs
      (m, k + 1)
    else (n, 0)

/-- A double of positive sign times a power of ten; none if it would not be finite. Exponents past
308 are taken off 308 at a time, and three times that is below every double. -/
def scale : Nat → Double → Int → Option Double
  | fuel, f, e =>
    if 0 ≤ e ∧ e ≤ 308 then
      let g := f.timesPowerOfTen e.toNat
      if g.isFinite then some g else none
    else if -308 ≤ e ∧ e < 0 then some (f.overPowerOfTen (-e).toNat)
    else if f = Double.zero then some f
    else if 0 ≤ e then none
    else
      match fuel with
      | 0 => some Double.zero
      | fuel + 1 => scale fuel (f.overPowerOfTen 308) (e + 308)

/-- A double with a sign put to it. -/
def signed (negative : Bool) (x : Double) : Double := if negative then x.neg else x

/-- Exponents that are added up are below this. -/
def exponentLimit : Nat := 2147483648

/-- The double of a numeral; none if it would not be finite. -/
def Numeral.float? (n : Numeral) : Option Double :=
  let (whole, dropped) := takeWhole 0 n.whole
  let (m, placed) := takeFraction whole (n.fraction.getD [])
  let start : Int := (dropped : Int) - placed
  match n.exponent with
  | none => (scale 4 (Double.ofNat m) start).map (signed n.negative)
  | some (down, es) =>
    let e := Digits.value es
    if exponentLimit ≤ e then
      if m ≠ 0 ∧ !down then none else some (signed n.negative Double.zero)
    else
      let exponent := if down then start - e else start + e
      (scale 4 (Double.ofNat m) exponent).map (signed n.negative)

/-- The whole number of a numeral without point and exponent, if it fits into 64 bits. A negative
zero is no whole number. -/
def Numeral.whole? (n : Numeral) : Option Int :=
  if n.fraction.isSome || n.exponent.isSome then none
  else
    let v := Digits.value n.whole
    let signed : Int := if n.negative then -v else v
    if n.negative && v = 0 then none
    else if Int64.minValue.toInt ≤ signed ∧ signed < UInt64.size then some signed
    else none

/-- The document of a numeral. -/
def Numeral.read? (n : Numeral) : Option Json :=
  match n.whole? with
  | some v => some (.whole v)
  | none => n.float?.map .float

/-- The characters of code units, a high half of a surrogate pair joined with the low half that
follows; none if a half stands alone. -/
def characters? : List Nat → Option (List Char)
  | [] => some []
  | u :: rest =>
    if 0xD800 ≤ u ∧ u < 0xDC00 then
      match rest with
      | v :: rest =>
        if 0xDC00 ≤ v ∧ v < 0xE000 then
          (characters? rest).map
            (Char.ofNat (0x10000 + (u - 0xD800) * 0x400 + (v - 0xDC00)) :: ·)
        else none
      | [] => none
    else if 0xDC00 ≤ u ∧ u < 0xE000 then none
    else (characters? rest).map (Char.ofNat u :: ·)

/-- The text of code units. -/
def text? (units : List Nat) : Option String := (characters? units).map String.ofList

namespace Source

mutual

/-- The document of a tree that is nested no deeper than `depth`. -/
def document? (depth : Nat) : Source → Option Json
  | .null => some .null
  | .bool b => some (.bool b)
  | .numeral n => n.read?
  | .quoted units => (text? units).map .text
  | .array items => if depth = 0 then none else (documents? (depth - 1) items).map .array
  | .object members =>
    if depth = 0 then none else (members? (depth - 1) members []).map .object

def documents? (depth : Nat) : List Source → Option (List Json)
  | [] => some []
  | item :: rest => do
    let v ← document? depth item
    let vs ← documents? depth rest
    return v :: vs

/-- The members of an object, put in one after the other. -/
def members? (depth : Nat) :
    List (List Nat × Source) → List (String × Json) → Option (List (String × Json))
  | [], put => some put
  | (name, item) :: rest, put => do
    let n ← text? name
    let v ← document? depth item
    members? depth rest (putMember n v put)

end

end Source

/-- How deep a document may be nested. -/
def depthLimit : Nat := 127

/-- The document that a text writes. -/
def ofText? (cs : List Char) : Option Json :=
  (Source.ofText? cs).bind (Source.document? depthLimit)

end TableAccess.Json
