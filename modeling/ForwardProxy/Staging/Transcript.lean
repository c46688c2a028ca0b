import ForwardProxy.Http.Framing

/-!
# Transcripts of messages

What an observer writes down of a message on the wire: its first line, its fields as they stand
there, and its body. Lines without a colon and Date fields are left out.
-/

namespace ForwardProxy.Staging

/-- A message as observed. -/
structure Message where
  line : String
  fields : List (String × Bytes)
  body : Http.Body
  deriving DecidableEq, Repr

namespace Message

/-- The bytes in front of the blank line that ends a head, and those behind it. -/
def splitHead (b : Bytes) : Option (Bytes × Bytes) := go [] b
where
  /-- `seen` holds the bytes before, last first. -/
  go (seen : Bytes) : Bytes → Option (Bytes × Bytes)
    | 13 :: 10 :: 13 :: 10 :: rest => some (seen.reverse, rest)
    | x :: rest => go (x :: seen) rest
    | [] => none

/-- Cuts text at the line feeds and drops the carriage returns before them. -/
def lines (b : Bytes) : List Bytes :=
  (b.splitOnP (· = 10)).map fun l => if l.getLast? = some 13 then l.dropLast else l

/-- One field, if the line is one to write down. -/
def field? (line : Bytes) : Option (String × Bytes) :=
  match line.dropWhile (· ≠ 58) with
  | [] => none
  | _ :: value =>
    let name := Bytes.latin1 (line.takeWhile (· ≠ 58))
    if Text.lower name = "date" then none else some (name, Http.trimSpaces value)

/-- The values of a name in any case. -/
def values (fields : List (String × Bytes)) (name : String) : List Bytes :=
  fields.filterMap fun f => if Text.lower f.1 = name then some f.2 else none

/-- The message to which another is a response, or that none is. -/
inductive Kind
  | request
  /-- A response to a request with that method. -/
  | response (method : String)
  deriving DecidableEq, Repr

/-- The status in a status line. -/
def statusOf (line : String) : Nat :=
  match line.splitOn " " with
  | _ :: code :: _ => Text.digitsValue (code.toList.takeWhile Text.isDigit)
  | _ => 0

/-- How far the body of a message extends. -/
def extent (kind : Kind) (line : String) (fields : List (String × Bytes)) : Http.Extent :=
  let bodiless := match kind with
    | .request => false
    | .response method =>
      let status := statusOf line
      method == "HEAD" || (method == "CONNECT" && status == 200) || Http.Status.isBodiless status
  if bodiless then .nothing
  else if (values fields "transfer-encoding").any (Http.Headers.hasMember · "chunked") then .chunked
  else
    match (values fields "content-length").head?.bind Http.Extent.readLength with
    | some n => Http.Extent.ofLength n
    | none => if kind = .request then .nothing else .untilClose

/-- The first message in the bytes and what stands behind it; `ended` says that no more will come.
There is none as long as it is not whole. -/
def read (kind : Kind) (ended : Bool) (b : Bytes) : Option (Message × Bytes) := do
  let (head, rest) ← splitHead b
  let ls := lines head
  let line := Bytes.latin1 (ls.headD [])
  let fields := ls.tail.filterMap field?
  let (body, rest) ← (extent kind line fields).cut ended rest
  some (⟨line, fields, body⟩, rest)

end Message
end ForwardProxy.Staging
