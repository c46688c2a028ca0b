import ForwardProxy.Http.Message

/-!
# Message heads

The start line and the header fields in front of a body, as they stand on the wire. A head that
comes in pieces is scanned anew with every piece: a scan finds the whole head and what stands behind
it, or it needs more bytes, or it meets a byte that no further bytes can mend.

Lines end in a line feed, with or without a carriage return before it. Blank lines in front of the
start line are passed over. A field is a token, a colon and a value on one line.
-/

namespace ForwardProxy.Http

/-! ## Scanning -/

/-- Why a head is refused. -/
inductive HeadFault
  /-- A byte is out of place. -/
  | malformed
  /-- There are more fields than anyone should send. -/
  | tooManyFields
  /-- The target is longer than a target can be. -/
  | targetTooLong
  deriving DecidableEq, Repr

/-- What a scan has found. -/
inductive Scan (α : Type)
  /-- A whole thing, and the bytes behind it. -/
  | done (value : α) (rest : Bytes)
  /-- Nothing yet, but more bytes may complete it. -/
  | more
  /-- Nothing, whatever follows. -/
  | bad (fault : HeadFault)
  deriving Repr

/-- A scanner reads one thing off the front of the bytes. -/
def Scanner (α : Type) : Type := Bytes → Scan α

namespace Scanner

/-- One thing, then another that may depend on it. -/
def andThen (s : Scanner α) (f : α → Scanner β) : Scanner β := fun b =>
  match s b with
  | .done a rest => f a rest
  | .more => .more
  | .bad fault => .bad fault

instance : Monad Scanner where
  pure a := fun b => .done a b
  bind := andThen

/-- The head is refused here. -/
def refuse (fault : HeadFault) : Scanner α := fun _ => .bad fault

/-- One byte of a kind. -/
def byte (ok : UInt8 → Bool) : Scanner UInt8
  | [] => .more
  | b :: rest => if ok b then .done b rest else .bad .malformed

/-- The next byte, which stays in place. -/
def peek : Scanner UInt8
  | [] => .more
  | b :: rest => .done b (b :: rest)

/-- The longest run of bytes of a kind. It ends at a byte of another kind. -/
def run (ok : UInt8 → Bool) : Scanner Bytes := fun b =>
  match b.dropWhile ok with
  | [] => .more
  | rest => .done (b.takeWhile ok) rest

/-- The longest run of bytes of a kind, which must not be empty. -/
def nonempty (ok : UInt8 → Bool) : Scanner Bytes := do
  let found ← run ok
  if found.isEmpty then refuse .malformed else pure found

/-- Exactly these bytes. -/
def literal : Bytes → Scanner Unit
  | [] => pure ()
  | b :: bs => do
    let _ ← byte (· == b)
    literal bs

/-- The end of a line. -/
def lineEnd : Scanner Unit := do
  let b ← byte fun b => b == 10 || b == 13
  if b == 13 then literal [10]

end Scanner

/-- Blank lines in front of a message. -/
def skipBlankLines : Scanner Unit
  | [] => .more
  | 10 :: rest => skipBlankLines rest
  | [13] => .more
  | 13 :: 10 :: rest => skipBlankLines rest
  | 13 :: _ :: _ => .bad .malformed
  | b :: rest => .done () (b :: rest)

/-! ## Fields -/

/-- The most fields that a head may have. -/
def maxFields : Nat := 100

/-- The bytes of a token. -/
def isTokenByte (b : UInt8) : Bool := b < 0x80 && Text.isTokenChar (Char.ofNat b.toNat)

/-- Spaces and tabs. -/
def isSpaceByte (b : UInt8) : Bool := b == 32 || b == 9

/-- The bytes without the spaces and tabs around them. -/
def trimSpaces (b : Bytes) : Bytes :=
  ((b.dropWhile isSpaceByte).reverse.dropWhile isSpaceByte).reverse

/-- One field: its name in small letters and its value without the blanks around it. -/
def scanField : Scanner (String × Bytes) := do
  let name ← Scanner.nonempty isTokenByte
  let _ ← Scanner.byte (· == 58)
  let value ← Scanner.run Headers.isValueByte
  Scanner.lineEnd
  pure (Text.lower (Bytes.latin1 name), trimSpaces value)

/-- The next byte starts the end of a line. -/
def atLineEnd : Scanner Bool := do
  let b ← Scanner.peek
  pure (b == 10 || b == 13)

/-- At most `limit` fields and the blank line behind them. -/
def scanFields : (limit : Nat) → Scanner (List (String × Bytes))
  | 0 => do
    if ← atLineEnd then Scanner.lineEnd else Scanner.refuse .tooManyFields
    pure []
  | limit + 1 => do
    if ← atLineEnd then
      Scanner.lineEnd
      pure []
    else
      let field ← scanField
      let fields ← scanFields limit
      pure (field :: fields)

/-- The protocol version. -/
def scanVersion : Scanner Version := do
  Scanner.literal (Bytes.ofString "HTTP/1.")
  let b ← Scanner.byte fun b => b == 48 || b == 49
  pure (if b == 48 then .http10 else .http11)

/-! ## Heads of requests -/

/-- The head of a request. -/
structure RequestHead where
  method : String
  uri : Uri
  version : Version
  headers : Headers
  deriving DecidableEq, Repr

/-- The bytes of a target: all but blanks and controls. -/
def isTargetByte (b : UInt8) : Bool := 0x20 < b && b != 0x7F

/-- The target that the bytes of a start line name. -/
def readTarget (b : Bytes) : Except HeadFault Uri :=
  if Uri.maxLength < b.length then .error .targetTooLong
  else
    match (Bytes.utf8? b).bind Uri.parse? with
    | some uri => .ok uri
    | none => .error .malformed

/-- The head of a request. -/
def scanRequestHead : Scanner RequestHead := do
  skipBlankLines
  let method ← Scanner.nonempty isTokenByte
  let _ ← Scanner.byte (· == 32)
  let target ← Scanner.nonempty isTargetByte
  let _ ← Scanner.byte (· == 32)
  let version ← scanVersion
  Scanner.lineEnd
  let fields ← scanFields maxFields
  match readTarget target with
  | .ok uri => pure ⟨Bytes.latin1 method, uri, version, ⟨fields⟩⟩
  | .error fault => Scanner.refuse fault

/-! ## Heads of responses -/

/-- The head of a response, with its reason phrase as written. -/
structure ResponseHead where
  status : Status
  reason : String
  version : Version
  headers : Headers
  deriving DecidableEq, Repr

/-- A decimal digit. -/
def scanDigit : Scanner Nat := do
  let b ← Scanner.byte fun b => 48 ≤ b && b ≤ 57
  pure (b.toNat - 48)

/-- A reason phrase as text. One with bytes outside ASCII counts as none. -/
def reasonText (b : Bytes) : String := if b.all (· < 0x80) then Bytes.latin1 b else ""

/-- A reason phrase behind a space, or nothing, up to the end of the line. -/
def scanReason : Scanner String := do
  let b ← Scanner.peek
  if b == 32 then
    let _ ← Scanner.byte (· == 32)
    let reason ← Scanner.run Headers.isValueByte
    Scanner.lineEnd
    pure (reasonText reason)
  else
    Scanner.lineEnd
    pure ""

/-- The head of a response. -/
def scanResponseHead : Scanner ResponseHead := do
  skipBlankLines
  let version ← scanVersion
  let _ ← Scanner.byte (· == 32)
  let a ← scanDigit
  let b ← scanDigit
  let c ← scanDigit
  let reason ← scanReason
  let fields ← scanFields maxFields
  let status := 100 * a + 10 * b + c
  if status < 100 then Scanner.refuse .malformed else pure ⟨status, reason, version, ⟨fields⟩⟩

end ForwardProxy.Http
