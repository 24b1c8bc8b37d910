import TableAccess.Text.Digits
import TableAccess.Text.Split

/-!
The text of internet addresses.

An address of version 4 is four numbers below 256 without leading zeros, joined by dots; one of
version 6 is eight groups of up to four hexadecimal digits, joined by colons, of which one run of
zero groups may be left out as `::` and the last two may be written as an address of version 4.
-/

namespace TableAccess.IpAddress

/-- A number of an address of version 4. -/
def isOctet (cs : List Char) : Bool :=
  decide (1 ≤ cs.length ∧ cs.length ≤ 3) && cs.all Digits.isDigit
    && (cs.length == 1 || cs.head? != some '0') && decide (Digits.value cs < 256)

def isVersion4 (cs : List Char) : Bool :=
  let parts := splitAt '.' cs
  parts.length == 4 && parts.all isOctet

/-- A group of an address of version 6. -/
def isGroup (cs : List Char) : Bool :=
  decide (1 ≤ cs.length ∧ cs.length ≤ 4) && cs.all fun c => (Digits.hexValue? c).isSome

/-- How many groups a run of groups has, if it is one; `last` says whether it ends the address,
where two groups may be written as an address of version 4. -/
def groups? (last : Bool) : List (List Char) → Option Nat
  | [] => some 0
  | [g] => if isGroup g then some 1 else if last && isVersion4 g then some 2 else none
  | g :: rest => if isGroup g then (groups? last rest).map (· + 1) else none

/-- The groups between colons; there are none in an empty text. -/
def groupsOf (cs : List Char) : List (List Char) := if cs.isEmpty then [] else splitAt ':' cs

/-- The text before the first `::` and the text after it. -/
def atGap : List Char → List Char → Option (List Char × List Char)
  | before, ':' :: ':' :: rest => some (before.reverse, rest)
  | before, c :: rest => atGap (c :: before) rest
  | _, [] => none

def isVersion6 (cs : List Char) : Bool :=
  match atGap [] cs with
  | none => groups? true (splitAt ':' cs) == some 8
  | some (before, rest) =>
    match groups? false (groupsOf before), groups? true (groupsOf rest) with
    | some m, some n => decide (m + n ≤ 7)
    | _, _ => false

/-- Whether a text is an address of either version. -/
def isAddress (cs : List Char) : Bool := isVersion4 cs || isVersion6 cs

end TableAccess.IpAddress
