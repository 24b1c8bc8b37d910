import TableAccess.Text.Digits

/-!
Days and moments of the proleptic Gregorian calendar.

A `Date` is the number of its day, counted from the first of January 2000, inside the years −262143
to 262142; a `Timestamp` is a date, a second of its day and a part of that second. Counting days
makes the calendar arithmetic of the rest plain addition, and year, month and day of the month are a
view, `Date.civil`, with `Date.ofCivil?` as its inverse.

A leap second is the second before it with more than one second's worth of nanoseconds, so it exists
only at the end of a minute.
-/

namespace TableAccess

namespace Calendar

/-- Days from the first of March of year 0 to the first of January 2000. -/
def daysBeforeEpoch : Int := 730425

/-- Days in 400 years. -/
def daysPerEra : Int := 146097

/-- The number of a day given by year, month and day of the month. Years are counted from March, so
that the leap day is the last of its year. -/
def dayNumber (year : Int) (month day : Nat) : Int :=
  let y := if month ≤ 2 then year - 1 else year
  let era := y / 400
  let yearOfEra := y - era * 400
  let monthFromMarch : Int := if month ≤ 2 then (month : Int) + 9 else (month : Int) - 3
  let dayOfYear := (153 * monthFromMarch + 2) / 5 + (day : Int) - 1
  let dayOfEra := yearOfEra * 365 + yearOfEra / 4 - yearOfEra / 100 + dayOfYear
  era * daysPerEra + dayOfEra - daysBeforeEpoch

/-- Year, month and day of the month of a day number. -/
def civil (number : Int) : Int × Nat × Nat :=
  let z := number + daysBeforeEpoch
  let era := z / daysPerEra
  let dayOfEra := z - era * daysPerEra
  let yearOfEra := (dayOfEra - dayOfEra / 1460 + dayOfEra / 36524 - dayOfEra / 146096) / 365
  let dayOfYear := dayOfEra - (365 * yearOfEra + yearOfEra / 4 - yearOfEra / 100)
  let monthFromMarch := (5 * dayOfYear + 2) / 153
  let day := dayOfYear - (153 * monthFromMarch + 2) / 5 + 1
  let month := if monthFromMarch < 10 then monthFromMarch + 3 else monthFromMarch - 9
  let year := yearOfEra + era * 400 + (if month ≤ 2 then 1 else 0)
  (year, month.toNat, day.toNat)

def isLeap (year : Int) : Bool := year % 4 == 0 && (year % 100 != 0 || year % 400 == 0)

/-- How many days a month has; none for a number that is no month. -/
def daysIn (year : Int) : Nat → Nat
  | 1 | 3 | 5 | 7 | 8 | 10 | 12 => 31
  | 4 | 6 | 9 | 11 => 30
  | 2 => if isLeap year then 29 else 28
  | _ => 0

/-- The first day of year −262143. -/
def firstDay : Int := -96476249

/-- The last day of year 262142. -/
def lastDay : Int := 95015279

end Calendar

/-- A day, by its number from the first of January 2000. -/
structure Date where
  number : Int
  inRange : Calendar.firstDay ≤ number ∧ number ≤ Calendar.lastDay
  deriving DecidableEq

namespace Date

/-- The day of a number, if the calendar reaches that far. -/
def ofNumber? (number : Int) : Option Date :=
  if h : Calendar.firstDay ≤ number ∧ number ≤ Calendar.lastDay then some ⟨number, h⟩ else none

/-- The day of a year, month and day of the month, if there is such a day. -/
def ofCivil? (year : Int) (month day : Nat) : Option Date :=
  if 1 ≤ day ∧ day ≤ Calendar.daysIn year month then ofNumber? (Calendar.dayNumber year month day)
  else none

/-- Year, month and day of the month. -/
def civil (d : Date) : Int × Nat × Nat := Calendar.civil d.number

/-- The first of January 1970. -/
def unixEpoch : Date := ⟨-10957, by decide⟩

/-- Four digits for the years 0 to 9999, and outside them a sign and at least four digits. -/
def yearText (year : Int) : List Char :=
  if 0 ≤ year ∧ year ≤ 9999 then Digits.padded 4 year.natAbs
  else (if year < 0 then '-' else '+') :: Digits.padded 4 year.natAbs

/-- Year, month and day, joined by hyphens. -/
def text (d : Date) : List Char :=
  let (year, month, day) := d.civil
  yearText year ++ '-' :: (Digits.padded 2 month ++ '-' :: Digits.padded 2 day)

end Date

/-- A moment without a zone: a day, a second of it, and nanoseconds into that second; a second or
more of nanoseconds is a leap second, which only the last second of a minute has. -/
structure Timestamp where
  date : Date
  second : Nat
  nano : Nat
  second_lt : second < 86400
  nano_lt : nano < 2000000000
  leap_at_end : 1000000000 ≤ nano → second % 60 = 59
  deriving DecidableEq

namespace Timestamp

/-- Midnight of a day. -/
def midnight (d : Date) : Timestamp := ⟨d, 0, 0, by decide, by decide, by decide⟩

/-- The moment at a time of day, if there is such a time. -/
def ofParts? (date : Date) (hour minute second nano : Nat) : Option Timestamp :=
  let s := hour * 3600 + minute * 60 + second
  if h : hour < 24 ∧ minute < 60 ∧ second < 60 ∧ nano < 2000000000 ∧
      (1000000000 ≤ nano → second = 59) then
    some ⟨date, s, nano, by omega, by omega, by omega⟩
  else none

/-- Hour, minute and second, as `ofParts?` takes them. -/
def clock (t : Timestamp) : Nat × Nat × Nat := (t.second / 3600, t.second / 60 % 60, t.second % 60)

/-- A leap second is written as second 60. -/
def secondShown (t : Timestamp) : Nat := t.second % 60 + t.nano / 1000000000

/-- The part of the second: nothing, or three, six or nine digits, as many as it needs. -/
def fractionText (nano : Nat) : List Char :=
  if nano = 0 then []
  else if nano % 1000000 = 0 then '.' :: Digits.padded 3 (nano / 1000000)
  else if nano % 1000 = 0 then '.' :: Digits.padded 6 (nano / 1000)
  else '.' :: Digits.padded 9 nano

/-- The day and the time of day, joined by a `T`. -/
def text (t : Timestamp) : List Char :=
  let (hour, minute, _) := t.clock
  t.date.text ++ 'T' :: (Digits.padded 2 hour ++ ':' :: (Digits.padded 2 minute ++
    ':' :: (Digits.padded 2 t.secondShown ++ fractionText (t.nano % 1000000000))))

/-- Nanoseconds from the first moment of 2000; a leap second runs into the next minute. -/
def nanosSinceEpoch (t : Timestamp) : Int :=
  (t.date.number * 86400 + t.second) * 1000000000 + t.nano

/-- Whole microseconds from the first moment of 2000, rounded toward it. -/
def micros (t : Timestamp) : Int := Int.tdiv t.nanosSinceEpoch 1000

/-- The moment some microseconds from the first moment of 2000, if the calendar reaches that far. -/
def ofMicros? (micros : Int) : Option Timestamp :=
  (Date.ofNumber? (micros / 86400000000)).map fun date =>
    let inDay := (micros % 86400000000).toNat
    ⟨date, inDay / 1000000, inDay % 1000000 * 1000, by omega, by omega, by omega⟩

end Timestamp

end TableAccess
