import ForwardProxy.Text.Decimal

/-!
# Dates

Moments are counted in seconds since the start of the year 1970. They are written as dates of the
Gregorian calendar, as certificates have them: digits for year, month, day, hour, minute and second,
and a Z. A short form with two digits for the year serves for the years from 1950 to 2049.
-/

namespace ForwardProxy.Calendar

/-- A day of the calendar. -/
structure Date where
  year : Nat
  month : Nat
  day : Nat
  deriving DecidableEq, Repr

/-- Seconds of a day. -/
def daySeconds : Nat := 86400

/-- Days from the first of March of the year 0 to the start of 1970. -/
def epochDays : Nat := 719468

/-- The date of a day that is counted from the start of 1970. Years are counted from March, in
groups of 400 with 146097 days. -/
def dateOf (days : Nat) : Date :=
  let z := days + epochDays
  let era := z / 146097
  let doe := z % 146097
  let yoe := (doe - doe / 1460 + doe / 36524 - doe / 146096) / 365
  let doy := doe - (365 * yoe + yoe / 4 - yoe / 100)
  let mp := (5 * doy + 2) / 153
  let month := if mp < 10 then mp + 3 else mp - 9
  ⟨yoe + era * 400 + (if month ≤ 2 then 1 else 0), month, doy - (153 * mp + 2) / 5 + 1⟩

/-- The number of a date's day, counted from the start of 1970. -/
def dayOf (d : Date) : Nat :=
  let y := if d.month ≤ 2 then d.year - 1 else d.year
  let yoe := y % 400
  let mp := (d.month + 9) % 12
  let doy := (153 * mp + 2) / 5 + d.day - 1
  y / 400 * 146097 + yoe * 365 + yoe / 4 - yoe / 100 + doy - epochDays

/-- A number in at least two digits. -/
def twoDigits (n : Nat) : String := (if n < 10 then "0" else "") ++ toString n

/-- Month, day and time of a moment. -/
def renderBelowYear (d : Date) (seconds : Nat) : String :=
  String.join ([d.month, d.day, seconds / 3600, seconds / 60 % 60, seconds % 60].map twoDigits) ++ "Z"

/-- Does the short form serve for a year? -/
def isShortYear (year : Nat) : Bool := 1950 ≤ year && year < 2050

/-- A moment in its form, and whether that is the short one. -/
def render (moment : Nat) : String × Bool :=
  let d := dateOf (moment / daySeconds)
  let rest := renderBelowYear d (moment % daySeconds)
  if isShortYear d.year then (twoDigits (d.year % 100) ++ rest, true) else (toString d.year ++ rest, false)

/-- Pairs of digits as numbers. -/
def readPairs : List Char → Option (List Nat)
  | a :: b :: rest => do
    let tail ← readPairs rest
    if Text.isDigit a && Text.isDigit b then some (Text.digitsValue [a, b] :: tail) else none
  | [] => some []
  | _ => none

/-- The moment of a date and a time of day. -/
def moment (year month day hour minute second : Nat) : Option Nat :=
  if 1 ≤ month && month ≤ 12 && 1 ≤ day && day ≤ 31 && hour < 24 && minute < 60 && second < 60 &&
      1970 ≤ year then
    some (dayOf ⟨year, month, day⟩ * daySeconds + hour * 3600 + minute * 60 + second)
  else none

/-- Reads a moment in the short form or in the long one. -/
def read (short : Bool) (cs : List Char) : Option Nat :=
  if cs.getLast? = some 'Z' then
    match short, readPairs cs.dropLast with
    | true, some [y, mo, d, h, mi, s] => moment (if y < 50 then 2000 + y else 1900 + y) mo d h mi s
    | false, some [c, y, mo, d, h, mi, s] => moment (100 * c + y) mo d h mi s
    | _, _ => none
  else none

end ForwardProxy.Calendar
