import ForwardProxy.Bytes
import ForwardProxy.Text.Ascii
import ForwardProxy.Text.Decimal
import ForwardProxy.Text.Split

/-!
# IP addresses

Addresses of both versions as octets, their text forms, and socket addresses. An address of version
four is four decimal octets without leading zeros. One of version six is eight groups of at most
four hexadecimal digits; one `::` may stand for one or more groups of zeros, and the last two groups
may be written as an address of version four. In a socket address it may be followed by a scope, as in
`[fe80::1%3]:80`.
-/

namespace ForwardProxy.Address

/-- An address: four octets, or eight groups of sixteen bits. -/
inductive Ip
  | v4 (octets : List Nat)
  | v6 (groups : List Nat)
  deriving DecidableEq, Repr

namespace Ip

/-! ## Reading -/

/-- A decimal octet: one to three digits, no leading zero, below 256. -/
def readOctet (cs : List Char) : Option Nat :=
  if cs.isEmpty || 3 < cs.length || !cs.all Text.isDigit then none
  else if cs.head? = some '0' && 1 < cs.length then none
  else if Text.digitsValue cs < 256 then some (Text.digitsValue cs) else none

/-- Four octets between points. -/
def readV4 (cs : List Char) : Option (List Nat) := do
  let octets ← (cs.splitOnP (· = '.')).mapM readOctet
  if octets.length = 4 then some octets else none

/-- A group: one to four hexadecimal digits. -/
def readGroup (cs : List Char) : Option Nat :=
  if cs.isEmpty || 4 < cs.length then none
  else cs.foldlM (fun n c => (Bytes.hexValue? c).map (16 * n + ·)) 0

/-- Groups between colons; the last may be an address of version four, which counts for two. -/
def readGroups (mayEndInV4 : Bool) (cs : List Char) : Option (List Nat) :=
  if cs.isEmpty then some []
  else
    let parts := cs.splitOnP (· = ':')
    match mayEndInV4, (parts.getLast?).bind readV4 with
    | true, some [a, b, c, d] => do
      let front ← parts.dropLast.mapM readGroup
      some (front ++ [256 * a + b, 256 * c + d])
    | _, _ => parts.mapM readGroup

/-- What stands before and after the first double colon. -/
def splitDoubleColon : List Char → Option (List Char × List Char)
  | ':' :: ':' :: rest => some ([], rest)
  | c :: rest => (splitDoubleColon rest).map fun p => (c :: p.1, p.2)
  | [] => none

/-- Eight groups, or fewer around one double colon. -/
def readV6 (cs : List Char) : Option (List Nat) :=
  match splitDoubleColon cs with
  | none => do
    let groups ← readGroups true cs
    if groups.length = 8 then some groups else none
  | some (front, back) => do
    let head ← readGroups false front
    let tail ← readGroups true back
    if head.length + tail.length ≤ 7 then
      some (head ++ List.replicate (8 - head.length - tail.length) 0 ++ tail)
    else none

/-- Reads an address of either version. -/
def read (cs : List Char) : Option Ip :=
  match readV4 cs with
  | some octets => some (v4 octets)
  | none => (readV6 cs).map v6

/-! ## Writing -/

/-- The digits of a number in base sixteen. -/
def hexNumber (n : Nat) : String := String.ofList (Nat.toDigits 16 n)

/-- The length of the run of zeros at the front. -/
def zeros (groups : List Nat) : Nat := (groups.takeWhile (· = 0)).length

/-- Where the first of the longest runs of zeros starts, and its length. -/
def longestZeros (groups : List Nat) : Nat × Nat :=
  (List.range groups.length).foldl
    (fun best i => if best.2 < zeros (groups.drop i) then (i, zeros (groups.drop i)) else best)
    (0, 0)

/-- Groups between colons. -/
def joinGroups (groups : List Nat) : String := String.intercalate ":" (groups.map hexNumber)

/-- Octets between points. -/
def renderOctets (octets : List Nat) : String := String.intercalate "." (octets.map toString)

/-- The address as text. A double colon stands for the first longest run of two or more zero
groups, and an address of version four mapped into version six ends in its octets. -/
def render : Ip → String
  | v4 octets => renderOctets octets
  | v6 groups =>
    match groups with
    | [0, 0, 0, 0, 0, 0xffff, a, b] =>
      "::ffff:" ++ renderOctets [a / 256, a % 256, b / 256, b % 256]
    | _ =>
      let (start, length) := longestZeros groups
      if 1 < length then
        joinGroups (groups.take start) ++ "::" ++ joinGroups (groups.drop (start + length))
      else joinGroups groups

/-- The address as octets. -/
def octets : Ip → Bytes
  | v4 os => os.map UInt8.ofNat
  | v6 gs => gs.flatMap fun g => [UInt8.ofNat (g / 256), UInt8.ofNat (g % 256)]

end Ip

/-! ## Sockets -/

/-- The address of a socket. One of version six has a scope: the number of the link on which it is good, or zero if
it is good everywhere. -/
inductive Scoped
  | v4 (octets : List Nat)
  | v6 (groups : List Nat) (scope : Nat)
  deriving DecidableEq, Repr

/-- Reads digits whose value is below `bound`, without a sign. -/
def readDigits (bound : Nat) (cs : List Char) : Option Nat :=
  if cs.head? = some '+' then none else Text.readBelow bound cs

namespace Scoped

/-- The address without its scope. -/
def ip : Scoped → Ip
  | v4 octets => .v4 octets
  | v6 groups _ => .v6 groups

/-- Reads an address of version six. Its scope, a number below 2^32, may follow behind a percent sign. -/
def readV6 (cs : List Char) : Option Scoped :=
  match Text.splitLast '%' cs with
  | some (address, scope) => do
    let groups ← Ip.readV6 address
    let scope ← readDigits 0x100000000 scope
    some (v6 groups scope)
  | none => (Ip.readV6 cs).map (v6 · 0)

/-- The address as it stands in front of a port: one of version six in brackets, with its scope unless that is
zero. -/
def render : Scoped → String
  | v4 octets => Ip.renderOctets octets
  | v6 groups scope =>
    if scope = 0 then "[" ++ (Ip.v6 groups).render ++ "]"
    else "[" ++ (Ip.v6 groups).render ++ "%" ++ toString scope ++ "]"

end Scoped

/-- An address and a port. -/
structure Socket where
  address : Scoped
  port : Nat
  deriving DecidableEq, Repr

namespace Socket

/-- The address alone. -/
def ip (s : Socket) : Ip := s.address.ip

/-- Reads an address and a port; an address of version six stands in brackets. -/
def read (text : String) : Option Socket := do
  let (host, port) ← Text.splitLast ':' text.toList
  let port ← readDigits 65536 port
  match host with
  | '[' :: inner =>
    if inner.getLast? = some ']' then (Scoped.readV6 inner.dropLast).map (⟨·, port⟩) else none
  | _ => (Ip.readV4 host).map fun octets => ⟨.v4 octets, port⟩

/-- Address and port as text. -/
def render (s : Socket) : String := s.address.render ++ ":" ++ toString s.port

end Socket
end ForwardProxy.Address
