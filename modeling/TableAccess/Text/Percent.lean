import TableAccess.Text.Digits
import TableAccess.Text.Utf8

/-!
Percent-encoded text: a percent sign and two hexadecimal digits stand for a byte, and everything
else, a percent sign without two digits too, for itself.
-/

namespace TableAccess.Percent

/-- The byte that two hexadecimal digits write. -/
def byte? (a b : Char) : Option UInt8 := do
  let high ← Digits.hexValue? a
  let low ← Digits.hexValue? b
  return UInt8.ofNat (16 * high + low)

/-- The bytes that a percent-encoded text stands for. -/
def decode : List Char → List UInt8
  | '%' :: a :: b :: rest =>
    match byte? a b with
    | some x => x :: decode rest
    | none => Utf8.encodeChar '%' ++ decode (a :: b :: rest)
  | c :: rest => Utf8.encodeChar c ++ decode rest
  | [] => []

/-- The text that a percent-encoded text stands for, if its bytes are text. -/
def decodeText? (cs : List Char) : Option (List Char) := (Utf8.decode (decode cs)).toOption

end TableAccess.Percent
