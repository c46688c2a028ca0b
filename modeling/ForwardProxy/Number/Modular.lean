/-!
# Arithmetic modulo a number

Powers and inverses modulo a number, and a test for primes that errs only on numbers that are no
primes, and on those hardly ever.
-/

namespace ForwardProxy.Number

/-- `acc * base ^ e % m` for an exponent below `2 ^ bits`. -/
def powModUpTo (m : Nat) : (bits : Nat) → (base e acc : Nat) → Nat
  | 0, _, _, acc => acc % m
  | bits + 1, base, e, acc =>
    if e = 0 then acc % m
    else
      powModUpTo m bits (base * base % m) (e / 2) (if e % 2 = 1 then acc * base % m else acc)

/-- `base ^ e % m`. -/
def powMod (base e m : Nat) : Nat := powModUpTo m (Nat.log2 e + 1) (base % m) e 1

/-- Divides with remainder again and again: `r` and `s` are the last two remainders, `x` and `y`
the factors of the first number in them. -/
def inverseUpTo : (limit : Nat) → (r s : Nat) → (x y : Int) → Int
  | 0, _, _, x, _ => x
  | limit + 1, r, s, x, y =>
    if s = 0 then x else inverseUpTo limit s (r % s) y (x - (r / s : Nat) * y)

/-- The inverse of `a` modulo `m`, if the two have no common factor. -/
def inverseMod (a m : Nat) : Nat :=
  (inverseUpTo (2 * Nat.log2 m + 4) (a % m) m 1 0 % (m : Int)).toNat

/-- Squares `x` at most `limit` times until it is -1 modulo `n`. -/
def reachesMinusOne (n : Nat) : (limit : Nat) → Nat → Bool
  | 0, _ => false
  | limit + 1, x => x == n - 1 || reachesMinusOne n limit (x * x % n)

/-- The power of two in a number. -/
def twos : (limit : Nat) → Nat → Nat
  | 0, _ => 0
  | limit + 1, n => if n % 2 = 0 then twos limit (n / 2) + 1 else 0

/-- The odd number `n` behaves like a prime to base `a`. -/
def passes (n a : Nat) : Bool :=
  let s := twos (Nat.log2 n + 1) (n - 1)
  let x := powMod a ((n - 1) >>> s) n
  x == 1 || reachesMinusOne n s x

/-- Small primes, by which candidates are divided first. -/
def smallPrimes : List Nat :=
  (List.range 2000).filter fun n => 1 < n && (List.range 45).all fun d => d < 2 || n ≤ d || n % d != 0

/-- The product of the small primes. -/
def smallProduct : Nat := smallPrimes.foldl (· * ·) 1

/-- Bases for the test. -/
def bases : List Nat := [2, 3, 5, 7, 11, 13, 17, 19]

/-- The number is taken for a prime. -/
def isLikelyPrime (n : Nat) : Bool :=
  if n < 2000 then smallPrimes.contains n
  else Nat.gcd n smallProduct == 1 && bases.all (passes n)

/-- The first of at most `limit` numbers from the odd number `n` on, in steps of two, that is taken
for a prime and fits. -/
def primeFrom (fits : Nat → Bool) : (limit : Nat) → Nat → Option Nat
  | 0, _ => none
  | limit + 1, n => if isLikelyPrime n && fits n then some n else primeFrom fits limit (n + 2)

end ForwardProxy.Number
