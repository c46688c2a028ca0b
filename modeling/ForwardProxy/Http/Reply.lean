import ForwardProxy.Http.Framing

/-!
# Reading the response to a request

Interim responses are passed over. What is read off the bytes so far is a whole response, or
nothing yet, or the knowledge that there will be none.
-/

namespace ForwardProxy.Http

/-- What can be read of a response. -/
inductive Reading
  | whole (response : Response)
  | more
  | bad
  deriving Repr

namespace Reading

/-- The reason phrase, unless it is the registered one of the status. -/
def unusualReason (status : Status) (reason : String) : Option String :=
  if Status.reason? status = some reason then none else some reason

/-- The response with a head and a body. -/
def response (head : ResponseHead) (body : Body) : Response where
  status := head.status
  reason := unusualReason head.status head.reason
  version := head.version
  headers := head.headers
  body

/-- The status announces a further response. -/
def isInterim (status : Status) : Bool := Status.isInformational status && status != 101

/-- Reads the response to a request with method `method`, behind at most `limit` interim ones.
`ended` says that no more bytes will come. -/
def readUpTo (method : String) (ended : Bool) : (limit : Nat) → Bytes → Reading
  | 0, _ => .bad
  | limit + 1, b =>
    match scanResponseHead b with
    | .more => if ended then .bad else .more
    | .bad _ => .bad
    | .done head rest =>
      if isInterim head.status then readUpTo method ended limit rest
      else
        match Extent.ofResponse method head with
        | none => .bad
        | some extent =>
          match extent.cut ended rest with
          | some (body, _) => .whole (response head body)
          | none => .more

/-- Reads the response to a request with method `method`. Every interim response takes bytes, so
there are fewer of them than bytes. -/
def read (method : String) (ended : Bool) (b : Bytes) : Reading :=
  readUpTo method ended (b.length + 1) b

/-- Further bytes will not change what has been read. -/
def isSettled : Reading → Bool
  | more => false
  | _ => true

end Reading
end ForwardProxy.Http
