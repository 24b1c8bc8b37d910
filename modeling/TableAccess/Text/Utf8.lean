/-!
The UTF-8 form of text.

`encode` writes characters as bytes and `decode` reads them back; a byte sequence that is no text is
refused with the place of the first character that cannot be read and, unless the bytes just end too
early, how many bytes of it are already wrong.
-/

namespace TableAccess.Utf8

/-- Why bytes are no text: `after` bytes are good, and the next character is wrong after `wrong`
bytes, or cut off if there is no such number. -/
structure Malformed where
  after : Nat
  wrong : Option Nat
  deriving DecidableEq

/-- The reason in words. -/
def Malformed.message (m : Malformed) : String :=
  match m.wrong with
  | some n => s!"invalid utf-8 sequence of {n} bytes from index {m.after}"
  | none => s!"incomplete utf-8 byte sequence from index {m.after}"

/-- The bytes of a character. -/
def encodeChar (c : Char) : List UInt8 :=
  let n := c.toNat
  if n < 0x80 then [UInt8.ofNat n]
  else if n < 0x800 then [UInt8.ofNat (0xC0 + n / 64), UInt8.ofNat (0x80 + n % 64)]
  else if n < 0x10000 then
    [UInt8.ofNat (0xE0 + n / 4096), UInt8.ofNat (0x80 + n / 64 % 64), UInt8.ofNat (0x80 + n % 64)]
  else
    [UInt8.ofNat (0xF0 + n / 262144), UInt8.ofNat (0x80 + n / 4096 % 64),
      UInt8.ofNat (0x80 + n / 64 % 64), UInt8.ofNat (0x80 + n % 64)]

/-- The bytes of a text. -/
def encode (cs : List Char) : List UInt8 := cs.flatMap encodeChar

/-- How many bytes characters take. -/
def size : List Char → Nat
  | [] => 0
  | c :: cs => c.utf8Size + size cs

/-- A continuation byte. -/
def isTail (b : UInt8) : Bool := 0x80 ≤ b && b ≤ 0xBF

/-- The second bytes that may follow a first byte of three or four: none that would write a
character with more bytes than it needs, a surrogate, or a number past the last character. -/
def secondOk (first second : UInt8) : Bool :=
  if first = 0xE0 then 0xA0 ≤ second && second ≤ 0xBF
  else if first = 0xED then 0x80 ≤ second && second ≤ 0x9F
  else if first = 0xF0 then 0x90 ≤ second && second ≤ 0xBF
  else if first = 0xF4 then 0x80 ≤ second && second ≤ 0x8F
  else isTail second

/-- The six low bits of a continuation byte. -/
def low (b : UInt8) : Nat := b.toNat % 64

/-- Reads characters from the left; `after` bytes have been read so far. -/
def decodeFrom (after : Nat) : List UInt8 → Except Malformed (List Char)
  | [] => .ok []
  | a :: rest =>
    if a < 0x80 then
      (decodeFrom (after + 1) rest).map (Char.ofNat a.toNat :: ·)
    else if 0xC2 ≤ a && a ≤ 0xDF then
      match rest with
      | [] => .error ⟨after, none⟩
      | b :: rest =>
        if !isTail b then .error ⟨after, some 1⟩
        else (decodeFrom (after + 2) rest).map (Char.ofNat (a.toNat % 32 * 64 + low b) :: ·)
    else if 0xE0 ≤ a && a ≤ 0xEF then
      match rest with
      | [] => .error ⟨after, none⟩
      | b :: rest =>
        if !secondOk a b then .error ⟨after, some 1⟩
        else
          match rest with
          | [] => .error ⟨after, none⟩
          | c :: rest =>
            if !isTail c then .error ⟨after, some 2⟩
            else (decodeFrom (after + 3) rest).map
              (Char.ofNat (a.toNat % 16 * 4096 + low b * 64 + low c) :: ·)
    else if 0xF0 ≤ a && a ≤ 0xF4 then
      match rest with
      | [] => .error ⟨after, none⟩
      | b :: rest =>
        if !secondOk a b then .error ⟨after, some 1⟩
        else
          match rest with
          | [] => .error ⟨after, none⟩
          | c :: rest =>
            if !isTail c then .error ⟨after, some 2⟩
            else
              match rest with
              | [] => .error ⟨after, none⟩
              | d :: rest =>
                if !isTail d then .error ⟨after, some 3⟩
                else (decodeFrom (after + 4) rest).map
                  (Char.ofNat (a.toNat % 8 * 262144 + low b * 4096 + low c * 64 + low d) :: ·)
    else .error ⟨after, some 1⟩

/-- The text that bytes write. -/
def decode (bytes : List UInt8) : Except Malformed (List Char) := decodeFrom 0 bytes

end TableAccess.Utf8
