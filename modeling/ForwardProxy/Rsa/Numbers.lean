import ForwardProxy.Number.Entropy
import ForwardProxy.Number.Modular
import ForwardProxy.Rsa.PrivateKey

/-!
# Keys and signatures of RSA

The numbers of a key, how a key is made, and signatures over SHA-256 with the padding of the first
kind.
-/

namespace ForwardProxy.Rsa

/-- The size of keys that are made, in bits. -/
def keyBits : Nat := 2048

/-- The public exponent of keys that are made. -/
def publicExponent : Nat := 65537

/-- A public key. -/
structure PublicKey where
  modulus : Nat
  exponent : Nat
  deriving DecidableEq, Repr

/-- The numbers of a private key, in the order in which they are written. -/
structure Numbers where
  modulus : Nat
  exponent : Nat
  privateExponent : Nat
  prime1 : Nat
  prime2 : Nat
  exponent1 : Nat
  exponent2 : Nat
  coefficient : Nat
  deriving DecidableEq, Repr

namespace Numbers

/-- The public half. -/
def publicKey (k : Numbers) : PublicKey := ⟨k.modulus, k.exponent⟩

/-- The key with two primes. -/
def ofPrimes (p q : Nat) : Numbers :=
  let d := Number.inverseMod publicExponent ((p - 1) * (q - 1) / Nat.gcd (p - 1) (q - 1))
  ⟨p * q, publicExponent, d, p, q, d % (p - 1), d % (q - 1), Number.inverseMod q p⟩

/-- A prime of half the size of a key, for a random number of that size. Its highest two bits are
set, so that the product of two such primes has full size. -/
def primeNear (random : Nat) : Option Nat :=
  let top := 3 <<< (keyBits / 2 - 2)
  let start := top + random % (1 <<< (keyBits / 2 - 3)) / 2 * 2 + 1
  Number.primeFrom (fun p => Nat.gcd (p - 1) publicExponent == 1) (8 * keyBits) start

/-- Makes a key, unless no primes are found. -/
def generate (e : Number.Entropy) : Option Numbers × Number.Entropy :=
  let (x, e) := e.number (keyBits / 16)
  let (y, e) := e.number (keyBits / 16)
  match primeNear x, primeNear y with
  | some p, some q => (if p = q then none else some (ofPrimes p q), e)
  | _, _ => (none, e)

/-- The plain form of the key. -/
def write (k : Numbers) : Bytes :=
  Der.sequence ([0, k.modulus, k.exponent, k.privateExponent, k.prime1, k.prime2, k.exponent1,
    k.exponent2, k.coefficient].map Der.natural)

/-- The numbers of a plain key. -/
def read (b : Bytes) : Option Numbers :=
  if isPlainKey b then
    match Der.readSequence b with
    | some items =>
      match items.map fun i => Der.number i.content with
      | [_, n, e, d, p, q, x, y, c] => some ⟨n, e, d, p, q, x, y, c⟩
      | _ => none
    | none => none
  else none

/-- The key can sign: its numbers belong together and it is large enough. -/
def canSign (k : Numbers) : Bool :=
  1 <<< (keyBits - 1) ≤ k.modulus && k.modulus < 1 <<< (4 * keyBits) &&
    k.prime1 * k.prime2 == k.modulus && 2 < k.exponent && k.exponent < 1 <<< 33 &&
    1 < k.prime1 && 1 < k.prime2 &&
    k.exponent * k.privateExponent % (k.prime1 - 1) == 1 &&
    k.exponent * k.privateExponent % (k.prime2 - 1) == 1 &&
    k.exponent1 == k.privateExponent % (k.prime1 - 1) &&
    k.exponent2 == k.privateExponent % (k.prime2 - 1) &&
    k.coefficient * k.prime2 % k.prime1 == 1

end Numbers

/-! ## Signatures -/

/-- How many bytes a number of the size of the modulus takes. -/
def PublicKey.size (k : PublicKey) : Nat := Nat.log2 k.modulus / 8 + 1

/-- The digest of a message with the name of the digest, as it is signed. -/
def digestInfo (message : Bytes) : Bytes :=
  Der.sequence [Der.sequence [Der.Oid.sha256.write, Der.item Der.nullTag []],
    Der.item Der.octetStringTag (Digest.Sha256.hash message)]

/-- The message as a number that fills `size` bytes. -/
def padded (size : Nat) (message : Bytes) : Nat :=
  let info := digestInfo message
  Der.number ([0, 1] ++ List.replicate (size - info.length - 3) 0xFF ++ [0] ++ info)

/-- A number in `size` bytes. -/
def fixedBytes (size n : Nat) : Bytes :=
  let b := Der.numberBytes n
  List.replicate (size - b.length) 0 ++ b

/-- The signature of a message. -/
def Numbers.sign (k : Numbers) (message : Bytes) : Bytes :=
  let size := k.publicKey.size
  let m := padded size message
  let m1 := Number.powMod m k.exponent1 k.prime1
  let m2 := Number.powMod m k.exponent2 k.prime2
  let h := k.coefficient * (m1 + k.prime1 * (m2 / k.prime1 + 1) - m2) % k.prime1
  fixedBytes size (m2 + h * k.prime2)

/-- The signature belongs to the message. -/
def PublicKey.verifies (k : PublicKey) (message signature : Bytes) : Bool :=
  signature.length == k.size &&
    Number.powMod (Der.number signature) k.exponent k.modulus == padded k.size message

end ForwardProxy.Rsa
