import TableAccess.Text.Digits
import TableAccess.Text.Utf8

/-!
Universally unique identifiers and their text.

An identifier is sixteen bytes. Its own text is 32 lower-case digits in five groups; reading also
takes capitals, the digits without hyphens, and the grouped form in braces or after `urn:uuid:`, in
letters of either case. The length in bytes settles which of these a text can be. A text that is
none of them is refused with the first reason that holds: more bytes than any form has, a character
that is no digit, digits without hyphens of a wrong number, a wrong number of groups, a group of a
wrong length.
-/

namespace TableAccess

/-- Sixteen bytes. -/
structure Uuid where
  bytes : List UInt8
  size_eq : bytes.length = 16
  deriving DecidableEq

namespace Uuid

/-- The identifier of sixteen zero bytes. -/
def nil : Uuid := ⟨List.replicate 16 0, by decide⟩

/-- Sixteen bytes as an identifier. -/
def ofBytes? (bytes : List UInt8) : Option Uuid :=
  if h : bytes.length = 16 then some ⟨bytes, h⟩ else none

/-- Why a text is no identifier. Places count bytes from 0. -/
inductive Malformed where
  | character (found : Char) (place : Nat)
  | length (found : Nat)
  | groupCount (found : Nat)
  | groupLength (group expected found : Nat)
  deriving DecidableEq

/-- The reason in words. -/
def Malformed.message : Malformed → String
  | character c place => s!"invalid character: found `{c}` at {place}"
  | length n => s!"invalid length: found {n}"
  | groupCount n => s!"invalid group count: expected 5, found {n}"
  | groupLength group expected n =>
    s!"invalid group length in group {group}: expected {expected}, found {n}"

/-- How many digits each group has. -/
def groupSizes : List Nat := [8, 4, 4, 4, 12]

/-- The digits cut into groups of the given sizes, joined by hyphens. -/
def hyphenate : List Nat → List Char → List Char
  | [], _ => []
  | [n], ds => ds.take n
  | n :: sizes, ds => ds.take n ++ '-' :: hyphenate sizes (ds.drop n)

/-- The text of an identifier. -/
def text (u : Uuid) : List Char := hyphenate groupSizes (Digits.hex u.bytes)

/-- Sixteen bytes from 32 digits. -/
def ofDigits? (ds : List Char) : Option Uuid := (Digits.ofHex? ds).bind ofBytes?

/-- An identifier from its digits in hyphenated groups. -/
def ofGroups? (cs : List Char) : Option Uuid :=
  if cs.length = 36 ∧ [8, 13, 18, 23].all (cs[·]? == some '-') then
    ofDigits? (cs.filter (· ≠ '-'))
  else none

/-- What may stand around the groups. -/
inductive Dress where
  | bare
  | braces
  | scheme
  deriving DecidableEq

/-- The mark before the grouped form in a name of its own. -/
def scheme : List Char := "urn:uuid:".toList

/-- How many bytes stand before what is dressed. -/
def Dress.skipped : Dress → Nat
  | bare => 0
  | braces => 1
  | scheme => 9

/-- What stands inside braces. -/
def inBraces? (cs : List Char) : Option (List Char) :=
  match cs with
  | '{' :: rest => if rest.getLast? = some '}' then some rest.dropLast else none
  | _ => none

/-- What stands after the mark, written in letters of either case. -/
def afterScheme? (cs : List Char) : Option (List Char) :=
  if (cs.take scheme.length).map Char.toLower = scheme then some (cs.drop scheme.length) else none

/-- The dress of a text and what it dresses. -/
def undress (cs : List Char) : Dress × List Char :=
  match inBraces? cs with
  | some inner => (.braces, inner)
  | none =>
    match afterScheme? cs with
    | some rest => (.scheme, rest)
    | none => (.bare, cs)

/-- How many bytes the grouped form has. -/
def groupedSize : Nat := 36

/-- How many bytes the longest form has. -/
def greatestSize : Nat := 45

/-- The part of a text that is as long as the grouped form: the text itself, or what it dresses. -/
def grouped? (cs : List Char) : Option (List Char) :=
  if Utf8.size cs = groupedSize then some cs
  else if Utf8.size (undress cs).2 = groupedSize then some (undress cs).2
  else none

/-- The first character that is neither a digit nor a hyphen, with its place in bytes. -/
def badCharacter? : Nat → List Char → Option (Char × Nat)
  | _, [] => none
  | place, c :: cs =>
    if c = '-' ∨ (Digits.hexValue? c).isSome then badCharacter? (place + c.utf8Size) cs
    else some (c, place)

/-- The lengths of the runs between hyphens. -/
def runLengths : Nat → List Char → List Nat
  | n, [] => [n]
  | n, c :: cs => if c = '-' then n :: runLengths 0 cs else runLengths (n + 1) cs

/-- The first group whose length is not the expected one, with its number. -/
def wrongGroup? : Nat → List Nat → List Nat → Option (Nat × Nat × Nat)
  | i, e :: es, n :: ns => if n = e then wrongGroup? (i + 1) es ns else some (i, e, n)
  | _, _, _ => none

/-- What is wrong with the groups of a text whose characters are all right. The last group is to
blame if no other is, and `last` is its length. -/
def misgrouped (last : Nat) (runs : List Nat) : Malformed :=
  if runs.length ≠ 5 then .groupCount runs.length
  else
    match wrongGroup? 0 (groupSizes.take 4) (runs.take 4) with
    | some (group, expected, found) => .groupLength group expected found
    | none => .groupLength 4 12 last

/-- Why a text as long as the grouped form is not of that form. Places count from its own start. -/
def diagnoseGroups (cs : List Char) : Malformed :=
  match badCharacter? 0 cs with
  | some (c, place) => .character c place
  | none => misgrouped (Utf8.size cs - 24) (runLengths 0 cs)

/-- Why a text that is not as long as the grouped form is no identifier. Places count from the start
of the text, and so does the length of the last group. -/
def diagnose (cs : List Char) : Malformed :=
  let (dress, inner) := undress cs
  match badCharacter? dress.skipped inner with
  | some (c, place) => .character c place
  | none =>
    let runs := runLengths 0 inner
    if runs.length = 1 ∧ dress = .bare then .length (Utf8.size cs)
    else misgrouped (Utf8.size cs - 24) runs

/-- The identifier a text stands for, or why it stands for none. -/
def ofText (cs : List Char) : Except Malformed Uuid :=
  if greatestSize < Utf8.size cs then .error (.length (Utf8.size cs))
  else
    match grouped? cs with
    | some groups =>
      match ofGroups? groups with
      | some u => .ok u
      | none => .error (diagnoseGroups groups)
    | none =>
      match if Utf8.size cs = 32 then ofDigits? cs else none with
      | some u => .ok u
      | none => .error (diagnose cs)

end Uuid

end TableAccess
