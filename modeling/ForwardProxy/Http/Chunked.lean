import ForwardProxy.Bytes

/-!
# Chunked bodies

A body in chunks is a sequence of pieces, each behind a line with its size in base sixteen; a piece
of size zero ends it, followed by trailer lines, which are passed over, and a blank line.
-/

namespace ForwardProxy.Http.Chunked

/-! ## Reading -/

/-- The part of a chunked body that the next byte belongs to. -/
inductive Part
  /-- The first digit of a size. -/
  | start
  /-- Further digits of a size. -/
  | size (n : Nat)
  /-- Blanks behind a size. -/
  | blank (n : Nat)
  /-- Anything behind a semicolon. -/
  | extension (n : Nat)
  /-- The line feed of a size line. -/
  | sizeEnd (n : Nat)
  /-- Data, of which this much is left. -/
  | data (left : Nat)
  /-- The carriage return behind data. -/
  | dataReturn
  /-- The line feed behind data. -/
  | dataEnd
  /-- The first byte of a line behind the last chunk. -/
  | tail
  /-- A trailer line. -/
  | trailer
  /-- The line feed of a trailer line. -/
  | trailerEnd
  /-- The line feed of the blank line. -/
  | lastEnd
  deriving DecidableEq, Repr

/-- What a byte does. -/
inductive Step
  /-- It leads on. -/
  | next (part : Part)
  /-- It is data and leads on. -/
  | keep (part : Part)
  /-- It ends the body. -/
  | finish
  /-- It is out of place. -/
  | refuse
  deriving DecidableEq, Repr

/-- Sizes stay below this. -/
def sizeBound : Nat := 0x10000000000000000

/-- The part behind a size line. -/
def behindSize (n : Nat) : Part := if n = 0 then .tail else .data n

/-- What byte `b` does in a part. -/
def step (part : Part) (b : UInt8) : Step :=
  let digit? := Bytes.hexValue? (Char.ofNat b.toNat)
  match part with
  | .start =>
    match digit? with
    | some d => .next (.size d)
    | none => .refuse
  | .size n =>
    match digit? with
    | some d => if 16 * n + d < sizeBound then .next (.size (16 * n + d)) else .refuse
    | none =>
      if b == 32 || b == 9 then .next (.blank n)
      else if b == 59 then .next (.extension n)
      else if b == 13 then .next (.sizeEnd n)
      else .refuse
  | .blank n =>
    if b == 32 || b == 9 then .next (.blank n)
    else if b == 59 then .next (.extension n)
    else if b == 13 then .next (.sizeEnd n)
    else .refuse
  | .extension n =>
    if b == 13 then .next (.sizeEnd n)
    else if b == 10 then .refuse
    else .next (.extension n)
  | .sizeEnd n => if b == 10 then .next (behindSize n) else .refuse
  | .data left => .keep (if left ≤ 1 then .dataReturn else .data (left - 1))
  | .dataReturn => if b == 13 then .next .dataEnd else .refuse
  | .dataEnd => if b == 10 then .next .start else .refuse
  | .tail => .next (if b == 13 then .lastEnd else .trailer)
  | .trailer => .next (if b == 13 then .trailerEnd else .trailer)
  | .trailerEnd => if b == 10 then .next .tail else .refuse
  | .lastEnd => if b == 10 then .finish else .refuse

/-- The data of a chunked body as far as it could be read. -/
inductive Decoded
  /-- All of it, and the bytes behind the body. -/
  | whole (data rest : Bytes)
  /-- The data so far; the body goes on. -/
  | more (data : Bytes)
  /-- The data in front of a byte that is out of place. -/
  | broken (data : Bytes)
  deriving DecidableEq, Repr

/-- Reads on in a part; `data` holds what has been read, last byte first. -/
def decodeFrom (part : Part) (data : Bytes) : Bytes → Decoded
  | [] => .more data.reverse
  | b :: rest =>
    match step part b with
    | .next part => decodeFrom part data rest
    | .keep part => decodeFrom part (b :: data) rest
    | .finish => .whole data.reverse rest
    | .refuse => .broken data.reverse

/-- Reads a chunked body from its start. -/
def decode (b : Bytes) : Decoded := decodeFrom .start [] b

/-! ## Writing -/

/-- The end of a line. -/
def lineEnd : Bytes := [13, 10]

/-- A size in base sixteen. -/
def sizeText (n : Nat) : Bytes :=
  Bytes.ofString (String.ofList ((Nat.toDigits 16 n).map Char.toUpper))

/-- One chunk. No data makes no chunk, since a chunk of size zero would end the body. -/
def chunk (data : Bytes) : Bytes :=
  if data.isEmpty then [] else sizeText data.length ++ lineEnd ++ data ++ lineEnd

/-- The end of a chunked body. -/
def terminator : Bytes := [48, 13, 10, 13, 10]

/-- A whole body in one chunk. -/
def encode (data : Bytes) : Bytes := chunk data ++ terminator

end ForwardProxy.Http.Chunked
