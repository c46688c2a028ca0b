import ForwardProxy.Http.Chunked
import ForwardProxy.Http.Head

/-!
# Where a body ends

The head of a message says how far its body extends: not at all, a number of bytes, chunks up to the
last one, or up to the end of the connection. Requests and responses have rules of their own. A
length that is no number, or two lengths that differ, make a message unusable.
-/

namespace ForwardProxy.Http

/-- How far a body extends. -/
inductive Extent
  | nothing
  | length (n : Nat)
  | chunked
  | untilClose
  deriving DecidableEq, Repr

namespace Extent

/-- The largest length is below this. -/
def lengthBound : Nat := 0xFFFFFFFFFFFFFFFF

/-- A length: digits only. -/
def readLength (b : Bytes) : Option Nat :=
  let cs := (Bytes.latin1 b).toList
  if cs.isEmpty || !cs.all Text.isDigit then none
  else if Text.digitsValue cs < lengthBound then some (Text.digitsValue cs) else none

/-- A body of known length. -/
def ofLength (n : Nat) : Extent := if n = 0 then nothing else length n

/-! ## Requests -/

/-- What the fields of a request have said so far about its body. -/
structure Request where
  /-- A transfer encoding is named. -/
  encoded : Bool := false
  /-- The last encoding of the last field is chunked. -/
  chunked : Bool := false
  length? : Option Nat := none
  /-- The fields that are kept, last first. -/
  kept : List (String × Bytes) := []
  deriving DecidableEq, Repr

/-- One more field. A length behind a transfer encoding is dropped, and so is a repeated length.
Version 1.0 knows no transfer encoding. -/
def Request.step (version : Version) (s : Request) (f : String × Bytes) : Option Request :=
  if f.1 = "transfer-encoding" then
    if version = .http10 then none
    else some { s with
      encoded := true, chunked := Headers.endsWithMember f.2 "chunked", kept := f :: s.kept }
  else if f.1 = "content-length" then
    if s.encoded then some s
    else
      match readLength f.2, s.length? with
      | none, _ => none
      | some n, none => some { s with length? := some n, kept := f :: s.kept }
      | some n, some m => if n = m then some s else none
  else some { s with kept := f :: s.kept }

/-- How far the body of a request extends, and the fields that count. -/
def ofRequest (head : RequestHead) : Option (Extent × Headers) := do
  let s ← head.headers.fields.foldlM (Request.step head.version) ({} : Request)
  let headers : Headers := ⟨s.kept.reverse⟩
  if s.encoded then
    if s.chunked then some (chunked, headers) else none
  else some (ofLength (s.length?.getD 0), headers)

/-! ## Responses -/

/-- All lengths of a head, which must agree; one field may name several. -/
def commonLength (h : Headers) : Option Nat := do
  let lengths ← (h.values "content-length").mapM fun v => do
    let text ← Headers.text? v
    (text.toList.splitOnP (· = ',')).mapM fun m =>
      readLength (Bytes.ofString (String.ofList (Text.trim m)))
  match lengths.flatten with
  | [] => none
  | n :: more => if more.all (· = n) then some n else none

/-- How far the body of a response to a request with method `method` extends. -/
def ofResponse (method : String) (head : ResponseHead) : Option Extent :=
  if Status.isBodiless head.status || head.status = 101 then some nothing
  else if method = "HEAD" || (method = connectMethod && Status.isSuccess head.status) then
    some nothing
  else if head.headers.contains "transfer-encoding" then
    if head.version = .http10 then none
    else
      match (head.headers.values "transfer-encoding").getLast? with
      | some v => if Headers.endsWithMember v "chunked" then some chunked else some untilClose
      | none => some untilClose
  else if head.headers.contains "content-length" then (commonLength head.headers).map ofLength
  else some untilClose

/-! ## Cutting a body off -/

/-- Cuts a body off the bytes behind a head; `ended` says that no more bytes will come. Nothing is
cut as long as more bytes are awaited. -/
def cut (e : Extent) (ended : Bool) (b : Bytes) : Option (Body × Bytes) :=
  match e with
  | nothing => some (.empty, b)
  | length n =>
    if n ≤ b.length then some (⟨b.take n, .sized, true⟩, b.drop n)
    else if ended then some (⟨b, .sized, false⟩, []) else none
  | chunked =>
    match Chunked.decode b with
    | .whole data rest => some (⟨data, .chunked, true⟩, rest)
    | .broken data => some (⟨data, .chunked, false⟩, [])
    | .more data => if ended then some (⟨data, .chunked, false⟩, []) else none
  | untilClose => if ended then some (⟨b, .untilClose, true⟩, []) else none

end Extent
end ForwardProxy.Http
