import ForwardProxy.Toml.Quoted

/-!
# Documents of TOML

A document is read line by line: a line is blank, gives a header, or gives a key and its value. The
result is the table of everything that it says.
-/

namespace ForwardProxy.Toml

/-! ## Between values -/

/-- A comment up to the end of its line, if there is one. -/
def skipComment : List Char → List Char
  | '#' :: rest => rest.dropWhile isPlain
  | cs => cs

/-- Spaces and tabs are left out. -/
def skipGap (cs : List Char) : List Char := cs.dropWhile isGap

/-- White space, comments and ends of lines are left out; at most `limit` lines. -/
def skipLines : (limit : Nat) → List Char → List Char
  | 0, cs => cs
  | limit + 1, cs =>
    let cs := skipComment (skipGap cs)
    match lineEnd? cs with
    | some rest => skipLines limit rest
    | none => cs

/-- White space, comments and ends of lines are left out. -/
def skipAll (cs : List Char) : List Char := skipLines cs.length cs

/-- The rest of a line: nothing but a comment. -/
def lineRest (cs : List Char) : Option (List Char) :=
  match skipComment (skipGap cs) with
  | [] => some []
  | cs => lineEnd? cs

/-! ## Keys -/

/-- The characters of keys without quotes. -/
def isKeyChar (c : Char) : Bool := Text.isLetter c || Text.isDigit c || c = '_' || c = '-'

/-- One part of a key. -/
def keyPart (cs : List Char) : Option (String × List Char) :=
  match cs with
  | '"' :: _ | '\'' :: _ => lineText cs
  | _ =>
    let part := cs.takeWhile isKeyChar
    if part.isEmpty then none else some (String.ofList part, cs.dropWhile isKeyChar)

/-- Nesting and keys may be so deep, less one. -/
def maxDepth : Nat := 80

/-- A key: parts with points between them, fewer than `limit`. -/
def keyUpTo : (limit : Nat) → Reader (List String)
  | 0, _ => none
  | limit + 1, cs => do
    let (part, rest) ← keyPart (skipGap cs)
    match skipGap rest with
    | '.' :: rest => do
      let (more, rest) ← keyUpTo limit rest
      some (part :: more, rest)
    | rest => some ([part], rest)

/-- A key, with white space around it. -/
def key : Reader (List String) := keyUpTo (maxDepth - 1)

/-! ## Values -/

/-- Items of an array up to the closing bracket. -/
def itemsUpTo (value : Reader Value) : (limit : Nat) → Reader (List Value)
  | 0, _ => none
  | limit + 1, cs =>
    match skipAll cs with
    | ']' :: rest => some ([], rest)
    | cs => do
      let (v, rest) ← value cs
      match skipAll rest with
      | ',' :: rest => do
        let (more, rest) ← itemsUpTo value limit rest
        some (v :: more, rest)
      | ']' :: rest => some ([v], rest)
      | _ => none

/-- Fields of a table in braces up to the closing brace; there is at least one more. -/
def fieldsUpTo (value : Reader Value) : (limit : Nat) → Fields → Reader Fields
  | 0, _, _ => none
  | limit + 1, fs, cs => do
    let (path, rest) ← key cs
    let (_, rest) ← expect '=' rest
    let (v, rest) ← value (skipGap rest)
    let fs ← fs.put v true path
    match skipGap rest with
    | ',' :: rest => fieldsUpTo value limit fs rest
    | '\x7d' :: rest => some (fs, rest)
    | _ => none

/-- A value, in which values are nested fewer than `depth` deep. -/
def valueUpTo : (depth : Nat) → Reader Value
  | 0, _ => none
  | depth + 1, cs =>
    match cs with
    | '[' :: rest =>
      if depth = 0 then none
      else (itemsUpTo (valueUpTo depth) (rest.length + 1) rest).map fun (l, rest) => (.array l, rest)
    | '\x7b' :: rest =>
      if depth = 0 then none
      else
        match skipGap rest with
        | '\x7d' :: rest => some (.table .closed [], rest)
        | cs =>
          (fieldsUpTo (valueUpTo depth) (rest.length + 1) [] cs).map fun (fs, rest) =>
            (.table .closed fs, rest)
    | '"' :: _ | '\'' :: _ => (quoted cs).map fun (s, rest) => (.text s, rest)
    | _ => scalar cs

/-- A value. -/
def value : Reader Value := valueUpTo maxDepth

/-! ## Lines -/

/-- What a line gives. -/
inductive Line
  | blank
  | tableHeader (path : List String)
  | rowHeader (path : List String)
  | field (path : List String) (v : Value)
  deriving Repr

/-- The header of a table or, with two brackets, of one in an array. -/
def header : Reader Line
  | '[' :: rest => do
    let (path, rest) ← key rest
    match rest with
    | ']' :: ']' :: rest => some (.rowHeader path, rest)
    | _ => none
  | rest => do
    let (path, rest) ← key rest
    let (_, rest) ← expect ']' rest
    some (.tableHeader path, rest)

/-- The content of a line. -/
def lineContent (cs : List Char) : Option (Line × List Char) :=
  match skipGap cs with
  | '[' :: rest => header rest
  | '#' :: rest => some (.blank, '#' :: rest)
  | '\n' :: rest => some (.blank, '\n' :: rest)
  | '\r' :: rest => some (.blank, '\r' :: rest)
  | [] => some (.blank, [])
  | cs => do
    let (path, rest) ← key cs
    let (_, rest) ← expect '=' rest
    let (v, rest) ← value (skipGap rest)
    some (.field path v, rest)

/-- A line with its end. -/
def line (cs : List Char) : Option (Line × List Char) := do
  let (l, rest) ← lineContent cs
  some (l, ← lineRest rest)

/-! ## Documents -/

/-- What has been read: all fields, and the path of the header in force. -/
structure Document where
  fields : Fields := []
  current : List String := []
  deriving Repr

namespace Document

/-- A header is added. The table it names must not be there already, or be one that grows. -/
def addHeader (d : Document) (start : String → Fields → Option Fields) (path : List String) :
    Option Document := do
  let key ← path.getLast?
  some ⟨← d.fields.within (start key) path.dropLast, path⟩

/-- A line is added. -/
def add (d : Document) : Line → Option Document
  | .blank => some d
  | .tableHeader path => d.addHeader Fields.startTable path
  | .rowHeader path => d.addHeader Fields.startRow path
  | .field path v => do
    some { d with fields := ← d.fields.within (Fields.put v true path) d.current }

/-- Reads lines to the end. Every line takes a character, so `limit` need only exceed their number. -/
def readUpTo : (limit : Nat) → Document → List Char → Option Document
  | 0, _, _ => none
  | _, d, [] => some d
  | limit + 1, d, cs => do
    let (l, rest) ← line cs
    readUpTo limit (← d.add l) rest

end Document

/-- The table that a document describes. A mark of byte order in front of it is left out. -/
def read (text : String) : Option Fields :=
  let cs := match text.toList with
    | '\uFEFF' :: rest => rest
    | cs => cs
  (Document.readUpTo (cs.length + 1) {} cs).map Document.fields

end ForwardProxy.Toml
