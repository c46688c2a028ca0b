import ForwardProxy.Text.Decimal
import ForwardProxy.Text.Ascii
import ForwardProxy.Toml.Value

/-!
# Numbers and moments of TOML

Readers for values that are neither texts nor made of other values. Each takes the characters of the
value from the front and gives what stands behind them.
-/

namespace ForwardProxy.Toml

/-- A reader: a result and the rest of the characters, or failure. -/
abbrev Reader (α : Type) := List Char → Option (α × List Char)

/-! ## Digits -/

/-- A digit in base sixteen. -/
def hexValue? (c : Char) : Option Nat :=
  if Text.isDigit c then some (c.toNat - 48)
  else if 'a' ≤ c && c ≤ 'f' then some (c.toNat - 87)
  else if 'A' ≤ c && c ≤ 'F' then some (c.toNat - 55)
  else none

/-- A digit in the given base. -/
def isDigitOf (base : Nat) (c : Char) : Bool :=
  match hexValue? c with
  | some v => v < base
  | none => false

/-- More digits, between which single underscores may stand. -/
def moreDigits (base : Nat) : List Char → List Char × List Char
  | '_' :: c :: rest =>
    if isDigitOf base c then
      let (ds, rest) := moreDigits base rest
      (c :: ds, rest)
    else ([], '_' :: c :: rest)
  | c :: rest =>
    if isDigitOf base c then
      let (ds, rest) := moreDigits base rest
      (c :: ds, rest)
    else ([], c :: rest)
  | [] => ([], [])

/-- One digit or more. The underscores are left out. -/
def digits (base : Nat) : Reader (List Char)
  | c :: rest =>
    if isDigitOf base c then
      let (ds, rest) := moreDigits base rest
      some (c :: ds, rest)
    else none
  | [] => none

/-- The value of digits. -/
def valueOf (base : Nat) (ds : List Char) : Nat :=
  ds.foldl (fun n c => base * n + (hexValue? c).getD 0) 0

/-! ## Whole numbers -/

/-- A sign, if there is one. The result says whether it is a minus. -/
def sign : List Char → Bool × List Char
  | '-' :: rest => (true, rest)
  | '+' :: rest => (false, rest)
  | cs => (false, cs)

/-- The digits of a decimal number, which has no leading zeros. -/
def decimalDigits : Reader (List Char)
  | '0' :: rest => some (['0'], rest)
  | cs => digits 10 cs

/-- The number, if it fits into 64 bits. -/
def fitting (n : Int) : Option Value :=
  if -0x8000000000000000 ≤ n && n < 0x8000000000000000 then some (.integer n) else none

/-- A whole number in base sixteen, eight or two. -/
def basedInteger (base : Nat) (cs : List Char) : Option (Value × List Char) := do
  let (ds, rest) ← digits base cs
  some (← fitting (valueOf base ds), rest)

/-- A whole number. -/
def integer : Reader Value
  | '0' :: 'x' :: rest => basedInteger 16 rest
  | '0' :: 'o' :: rest => basedInteger 8 rest
  | '0' :: 'b' :: rest => basedInteger 2 rest
  | cs => do
    let (minus, cs) := sign cs
    let (ds, rest) ← decimalDigits cs
    let n : Int := valueOf 10 ds
    some (← fitting (if minus then -n else n), rest)

/-! ## Numbers with a point or an exponent -/

/-- A point and digits, if there is a point. -/
def fraction : Reader (Option (List Char))
  | '.' :: rest => (digits 10 rest).map fun (ds, rest) => (some ds, rest)
  | cs => some (none, cs)

/-- An exponent, if there is one. -/
def exponent : Reader (Option Int)
  | c :: rest =>
    if c = 'e' || c = 'E' then do
      let (minus, cs) := sign rest
      let (ds, rest) ← digits 10 cs
      let n : Int := valueOf 10 ds
      some (some (if minus then -n else n), rest)
    else some (none, c :: rest)
  | [] => some (none, [])

/-- Halfway from the largest number of 64 bits with a point to the next power of two. -/
def floatBound : Nat := (1 <<< 1024) - (1 <<< 970)

/-- The number `mantissa * 10 ^ exponent` is too large for a number of 64 bits with a point. -/
def overflows (mantissa : Nat) (exponent : Int) : Bool :=
  let size : Int := (Nat.toDigits 10 mantissa).length + exponent
  if mantissa = 0 || size < 300 then false
  else if 320 < size then true
  else if 0 ≤ exponent then floatBound ≤ mantissa * Nat.pow 10 exponent.toNat
  else floatBound * Nat.pow 10 (-exponent).toNat ≤ mantissa

/-- The characters in front of a rest. -/
def taken (cs rest : List Char) : String := String.ofList (cs.take (cs.length - rest.length))

/-- A number with a point or an exponent or both. Positive ones must not be too large. -/
def plainFloat (cs : List Char) : Option (Value × List Char) := do
  let (minus, ds) := sign cs
  let (whole, rest) ← decimalDigits ds
  let (part, rest) ← fraction rest
  let (power, rest) ← exponent rest
  if part.isNone && power.isNone then none
  let part := part.getD []
  if !minus && overflows (valueOf 10 (whole ++ part)) (power.getD 0 - part.length) then none
  some (.float (taken cs rest), rest)

/-- One of the numbers that are named. -/
def namedFloat (cs : List Char) : Option (Value × List Char) :=
  match (sign cs).2 with
  | 'i' :: 'n' :: 'f' :: rest => some (.float (taken cs rest), rest)
  | 'n' :: 'a' :: 'n' :: rest => some (.float (taken cs rest), rest)
  | _ => none

/-! ## Moments -/

/-- So many digits, whose value is between two bounds. -/
def fixedDigits (count low high : Nat) (cs : List Char) : Option (Nat × List Char) :=
  let ds := cs.take count
  let n := Text.digitsValue ds
  if ds.length = count && ds.all Text.isDigit && low ≤ n && n ≤ high then some (n, cs.drop count)
  else none

/-- One certain character. -/
def expect (c : Char) : Reader Unit
  | d :: rest => if d = c then some ((), rest) else none
  | [] => none

/-- The days of a month. -/
def daysIn (year month : Nat) : Nat :=
  if month = 2 then
    if (year % 4 = 0 && year % 100 != 0) || year % 400 = 0 then 29 else 28
  else if [4, 6, 9, 11].contains month then 30
  else 31

/-- A date. -/
def date (cs : List Char) : Option (Unit × List Char) := do
  let (year, cs) ← fixedDigits 4 0 9999 cs
  let (_, cs) ← expect '-' cs
  let (month, cs) ← fixedDigits 2 1 12 cs
  let (_, cs) ← expect '-' cs
  let (_, cs) ← fixedDigits 2 1 (daysIn year month) cs
  some ((), cs)

/-- A time of day, which may have a part of a second and may be a leap second. -/
def time (cs : List Char) : Option (Unit × List Char) := do
  let (_, cs) ← fixedDigits 2 0 23 cs
  let (_, cs) ← expect ':' cs
  let (_, cs) ← fixedDigits 2 0 59 cs
  let (_, cs) ← expect ':' cs
  let (_, cs) ← fixedDigits 2 0 60 cs
  match cs with
  | '.' :: rest =>
    let ds := rest.takeWhile Text.isDigit
    if ds.isEmpty then none else some ((), rest.dropWhile Text.isDigit)
  | _ => some ((), cs)

/-- A distance from universal time, if there is one. -/
def offset : Reader Unit
  | 'Z' :: rest | 'z' :: rest => some ((), rest)
  | '+' :: rest | '-' :: rest => do
    let (_, cs) ← fixedDigits 2 0 23 rest
    let (_, cs) ← expect ':' cs
    let (_, cs) ← fixedDigits 2 0 59 cs
    some ((), cs)
  | cs => some ((), cs)

/-- A time behind a date, if there is one. -/
def timeBehind : Reader Unit
  | c :: rest =>
    if c = 'T' || c = 't' || c = ' ' then
      match time rest with
      | some (_, rest) => offset rest
      | none => some ((), c :: rest)
    else some ((), c :: rest)
  | [] => some ((), [])

/-- A date, a time or both. -/
def moment (cs : List Char) : Option (Value × List Char) :=
  match date cs with
  | some (_, rest) => (timeBehind rest).map fun (_, rest) => (.moment (taken cs rest), rest)
  | none => (time cs).map fun (_, rest) => (.moment (taken cs rest), rest)

/-! ## All of them -/

/-- A truth value. -/
def boolean : Reader Value
  | 't' :: 'r' :: 'u' :: 'e' :: rest => some (.boolean true, rest)
  | 'f' :: 'a' :: 'l' :: 's' :: 'e' :: rest => some (.boolean false, rest)
  | _ => none

/-- A value that is neither a text nor made of other values. -/
def scalar (cs : List Char) : Option (Value × List Char) :=
  moment cs <|> plainFloat cs <|> namedFloat cs <|> integer cs <|> boolean cs

end ForwardProxy.Toml
