import ForwardProxy.Text.Base64

/-!
# Text armour for binary data

A block is a line that begins a section with a label, the data in base 64, and a line that ends the
section of that label. A file may hold several blocks and text between them. Data of labels that
nobody knows is passed over; the first fault ends the reading.
-/

namespace ForwardProxy.Pem

/-- A label and data. -/
structure Block where
  label : String
  data : Bytes
  deriving DecidableEq, Repr

/-- Certificates. -/
def certificateLabel : String := "CERTIFICATE"

/-- Private keys of RSA. -/
def rsaKeyLabel : String := "RSA PRIVATE KEY"

/-- Private keys of any algorithm. -/
def privateKeyLabel : String := "PRIVATE KEY"

/-- Private keys over elliptic curves. -/
def curveKeyLabel : String := "EC PRIVATE KEY"

/-! ## Writing -/

/-- How many characters a line of data has. -/
def lineWidth : Nat := 64

/-- At most `limit` lines of at most `lineWidth` characters. -/
def wrapUpTo : (limit : Nat) → List Char → List Char
  | _, [] => []
  | 0, _ :: _ => []
  | limit + 1, cs => cs.take lineWidth ++ ['\n'] ++ wrapUpTo limit (cs.drop lineWidth)

/-- The characters in lines of at most `lineWidth`. There are no more lines than characters. -/
def wrapLines (cs : List Char) : List Char := wrapUpTo cs.length cs

/-- A line that begins a section. -/
def beginLine (label : String) : List Char := ("-----BEGIN " ++ label ++ "-----\n").toList

/-- A line that ends a section. -/
def endLine (label : String) : List Char := ("-----END " ++ label ++ "-----\n").toList

/-- The block as text. -/
def encode (label : String) (data : Bytes) : String :=
  String.ofList (beginLine label ++
    wrapLines (Text.Base64.encode Text.Base64.standard true data) ++ endLine label)

/-! ## Reading base 64 -/

/-- Blanks inside data. -/
def isBlankByte (b : UInt8) : Bool := b == 32 || b == 9 || b == 10 || b == 11 || b == 12 || b == 13

/-- The values of characters, and how many equals signs follow them. -/
def readValues : Bytes → Option (List Nat × Nat)
  | [] => some ([], 0)
  | b :: rest => do
    let (values, pads) ← readValues rest
    if b == 61 then (if values.isEmpty then some ([], pads + 1) else none)
    else do
      let v ← Text.Base64.value? Text.Base64.standard (Char.ofNat b.toNat)
      some (v :: values, pads)

/-- Padding is right: there is none, or it fills up the last group of four. -/
def isRightPadding (values pads : Nat) : Bool := pads == 0 || (pads ≤ 2 && (values + pads) % 4 == 0)

/-- The data in base 64 without its blanks. -/
def readData (b : Bytes) : Option Bytes := do
  let (values, pads) ← readValues (b.filter (!isBlankByte ·))
  if isRightPadding values.length pads then Text.Base64.octets values else none

/-! ## Reading sections -/

/-- Cuts bytes into lines, each with the line feed or carriage return at its end. `held` is the line
so far, last byte first. -/
def linesFrom (held : Bytes) : Bytes → List Bytes
  | [] => if held.isEmpty then [] else [held.reverse]
  | b :: rest =>
    if b == 10 || b == 13 then (b :: held).reverse :: linesFrom [] rest
    else linesFrom (b :: held) rest

/-- How a line starts that begins a section. -/
def beginMark : Bytes := Bytes.ofString "-----BEGIN "

/-- How a line starts that ends the section of a label. -/
def endMark (label : Bytes) : Bytes := Bytes.ofString "-----END " ++ label ++ Bytes.ofString "-----"

/-- A byte of the closing mark of a begin line, or one that may follow it. -/
def isTrailerByte (b : UInt8) : Bool := b == 45 || b == 10 || b == 13 || b == 32

/-- The label of a begin line: there must be five hyphens behind it. -/
def labelOf (line : Bytes) : Option Bytes :=
  let trailer := line.reverse.takeWhile isTrailerByte
  if trailer.count 45 = 5 then
    let behind := (trailer.reverse.dropWhile (· != 45)).length
    some ((line.take (line.length - behind)).drop beginMark.length)
  else none

/-- The labels whose data is read. -/
def knownLabels : List String :=
  [certificateLabel, "PUBLIC KEY", rsaKeyLabel, privateKeyLabel, curveKeyLabel, "X509 CRL",
    "CERTIFICATE REQUEST", "ECHCONFIG"]

/-- The blocks of a file up to the first fault, and whether there is a fault. -/
structure Found where
  blocks : List Block
  sound : Bool
  deriving DecidableEq, Repr

/-- One more block in front. -/
def Found.after (b : Block) (f : Found) : Found := { f with blocks := b :: f.blocks }

/-- Reads lines inside the section of a label, or outside any. -/
def readLines (section? : Option Bytes) (data : Bytes) : List Bytes → Found
  | [] => ⟨[], section?.isNone⟩
  | line :: rest =>
    if beginMark.isPrefixOf line then
      match labelOf line with
      | some label => readLines (some label) data rest
      | none => ⟨[], false⟩
    else
      match section? with
      | none => readLines none data rest
      | some label =>
        if (endMark label).isPrefixOf line then
          match knownLabels.find? fun l => Bytes.ofString l == label with
          | none => readLines none [] rest
          | some known =>
            match readData data with
            | some d => (readLines none [] rest).after ⟨known, d⟩
            | none => ⟨[], false⟩
        else readLines section? (data ++ line) rest

/-- The blocks of a file. -/
def read (file : Bytes) : Found := readLines none [] (linesFrom [] file)

end ForwardProxy.Pem
