import TableAccess.Number.Double

/-!
The shortest decimal text of a double.

A double stands for every real that rounds to it, so the shortest text is found by asking, for one,
two, … seventeen digits, whether one of the value's two neighbours on that decimal grid still rounds
to it. The first grid with a hit wins, and of two hits the nearer. What remains is a matter of
notation, and a `Notation` says it: which of two equally near hits is taken, which exponents are
written out in full and how the others are marked.
-/

namespace TableAccess

/-- A decimal number without sign, `digits · 10 ^ power`. -/
structure Decimal where
  digits : Nat
  power : Int
  deriving DecidableEq

namespace Decimal

/-- The decimal digits of a natural number. -/
def digitsOf (n : Nat) : List Char := Nat.toDigits 10 n

/-- The same number without trailing zeros in its digits. -/
def trim : Nat → Decimal → Decimal
  | 0, d => d
  | fuel + 1, d =>
    if d.digits % 10 = 0 then trim fuel ⟨d.digits / 10, d.power + 1⟩ else d

/-- Which of two neighbours on a grid stands for a value halfway between them. -/
inductive Tie where
  | even
  | up
  deriving DecidableEq

/-- The neighbour that a tie goes to, of a number of steps and the next one. -/
def Tie.settle : Tie → Nat → Nat
  | even, below => below + below % 2
  | up, below => below + 1

/-- The reals between two ratios, the ends counted only if `closed`. All three numbers are
numerators over one denominator. -/
structure Window where
  low : Nat
  value : Nat
  high : Nat
  den : Nat
  closed : Bool

namespace Window

/-- Whether `n` grid steps of `10 ^ k` lie in the window, for a grid given as a ratio `up / down`.
-/
def holds (w : Window) (up down n : Nat) : Bool :=
  let x := n * up * w.den
  if w.closed then decide (w.low * down ≤ x) && decide (x ≤ w.high * down)
  else decide (w.low * down < x) && decide (x < w.high * down)

/-- The window's value found on the grid of step `up / down`: of the value's two neighbours the one
in the window, of two the nearer, and of two equally near the one that `tie` says. -/
def hit (w : Window) (tie : Tie) (up down : Nat) : Option Nat :=
  let below := w.value * down / (up * w.den)
  let above := below + 1
  match w.holds up down below, w.holds up down above with
  | false, false => none
  | true, false => some below
  | false, true => some above
  | true, true =>
    let toBelow := w.value * down - below * up * w.den
    let toAbove := above * up * w.den - w.value * down
    if toBelow < toAbove then some below
    else if toAbove < toBelow then some above
    else some (tie.settle below)

/-- Tries grids of ever more digits, the first of step `10 ^ power`. -/
def search (w : Window) (tie : Tie) : Nat → Int → Decimal
  | 0, power => ⟨0, power⟩
  | fuel + 1, power =>
    match w.hit tie (Nat.pow 10 power.toNat) (Nat.pow 10 (-power).toNat) with
    | some n => ⟨n, power⟩
    | none => search w tie fuel (power - 1)

end Window

/-- The reals that round to a finite pattern of the 64-bit format: half a step to each side, but a
quarter below a power of two, where the steps get finer. -/
def window (pattern : Nat) : Window :=
  let f := BinaryFormat.double
  let m := f.significand pattern
  let e := f.exponent pattern
  let unit := Nat.pow 2 e
  let low :=
    if m = Nat.pow 2 f.fractionBits && decide (1 < f.field pattern) then 4 * m - 1 else 4 * m - 2
  ⟨low * unit, 4 * m * unit, (4 * m + 2) * unit, 4 * Nat.pow 2 f.places, m % 2 == 0⟩

/-- The power of ten just above a positive ratio: `num / den < 10 ^ result`. -/
def magnitude (num den : Nat) : Int :=
  ((digitsOf (num * Nat.pow 10 400 / den)).length : Int) - 400

/-- The shortest decimal that rounds to the given pattern. -/
def shortest (tie : Tie) (pattern : Nat) : Decimal :=
  if pattern = 0 then ⟨0, 0⟩
  else
    let w := window pattern
    trim 20 (w.search tie 18 (magnitude w.value w.den - 1))

/-- How a decimal is written. Exponents from `least` to `greatest` are written in full, the others
after an `e`, with a plus sign if `plus`. A value halfway between two shortest decimals is written
as `tie` says. -/
structure Notation where
  least : Int
  greatest : Int
  plus : Bool
  tie : Tie

/-- The exponent of a decimal written with one digit before its point. -/
def exponent (d : Decimal) : Int := d.power + ((digitsOf d.digits).length : Int) - 1

/-- The text of a decimal in full, always with a point. -/
def inFull (d : Decimal) : List Char :=
  let ds := digitsOf d.digits
  if 0 ≤ d.power then ds ++ List.replicate d.power.toNat '0' ++ ['.', '0']
  else
    let places := (-d.power).toNat
    if places < ds.length then ds.take (ds.length - places) ++ '.' :: ds.drop (ds.length - places)
    else '0' :: '.' :: (List.replicate (places - ds.length) '0' ++ ds)

/-- The text of a decimal with one digit before its point and its exponent after an `e`. -/
def withExponent (plus : Bool) (d : Decimal) : List Char :=
  let mantissa :=
    match digitsOf d.digits with
    | [] => []
    | [c] => [c]
    | c :: cs => c :: '.' :: cs
  let e := d.exponent
  let sign := if e < 0 then ['-'] else if plus then ['+'] else []
  mantissa ++ 'e' :: (sign ++ digitsOf e.natAbs)

/-- The text of a decimal. -/
def write (n : Notation) (d : Decimal) : List Char :=
  if d.digits = 0 then ['0', '.', '0']
  else if n.least ≤ d.exponent && d.exponent ≤ n.greatest then d.inFull
  else d.withExponent n.plus

end Decimal

/-- The text of a finite double. -/
def Double.write (n : Decimal.Notation) (x : Double) : String :=
  String.ofList ((if x.negative then ['-'] else []) ++ (Decimal.shortest n.tie x.magnitude).write n)

end TableAccess
