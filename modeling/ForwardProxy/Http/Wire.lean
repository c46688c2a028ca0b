import ForwardProxy.Http.Framing

/-!
# Messages as bytes

How a request is sent to an origin and how a response is sent to a client. The head gets the fields
that its body needs and loses those that contradict it. Toward origins names are in small letters;
toward clients every word of a name starts with a capital.
-/

namespace ForwardProxy.Http.Wire

/-- The end of a line. -/
def lineEnd : Bytes := [13, 10]

/-- One field on a line of its own. -/
def fieldLine (name : String) (value : Bytes) : Bytes :=
  Bytes.ofString name ++ [58, 32] ++ value ++ lineEnd

/-- A number in decimal digits. -/
def decimal (n : Nat) : Bytes := Bytes.ofString (toString n)

/-! ## Requests -/

/-- What a body promises about its length. -/
inductive Promise
  /-- There is no body. -/
  | nothing
  | known (n : Nat)
  | unknown
  deriving DecidableEq, Repr

/-- The promise of a body. -/
def promise (b : Body) : Promise :=
  match b.framing with
  | .absent => .nothing
  | .sized => .known b.data.length
  | .chunked | .untilClose => .unknown

/-- How the bytes of a body are written. -/
inductive Coding
  | sized (n : Nat)
  | chunked
  | untilClose
  deriving DecidableEq, Repr

/-- The data of a body in a coding. A body that is incomplete is written as far as it goes. -/
def Coding.write (c : Coding) (b : Body) : Bytes :=
  match c with
  | sized n => b.data.take n
  | chunked => if b.complete then Chunked.encode b.data else Chunked.chunk b.data
  | untilClose => b.data

/-- The methods whose requests have no body unless they say so. -/
def isUsuallyBodiless (method : String) : Bool :=
  method == "GET" || method == "HEAD" || method == connectMethod

/-- The last encoding of the fields is chunked. -/
def endsChunked (h : Headers) : Bool :=
  match (h.values "transfer-encoding").getLast? with
  | some v => Headers.endsWithMember v "chunked"
  | none => false

/-- The last transfer encoding gets chunked as its last member. -/
def addChunked (h : Headers) : Headers :=
  match (h.values "transfer-encoding").getLast? with
  | none => h
  | some last =>
    let others := (h.values "transfer-encoding").dropLast
    (others ++ [last ++ Bytes.ofString ", chunked"]).foldl
      (fun h v => h.append "transfer-encoding" v) (h.erase "transfer-encoding")

/-- The fields of a request with those that its body needs, and the coding of the body. -/
def requestCoding (r : Request) : Headers × Coding :=
  let h := r.headers
  match promise r.body with
  | .nothing => (h.erase "transfer-encoding", .sized 0)
  | promise =>
    let existing := Extent.commonLength h
    match r.version, promise with
    | .http10, .known n =>
      let h := h.erase "transfer-encoding"
      match existing with
      | some m => (h, .sized m)
      | none => (h.put "content-length" (decimal n), .sized n)
    | .http10, _ => (h.erase "transfer-encoding", .sized (existing.getD 0))
    | .http11, promise =>
      if h.contains "transfer-encoding" then
        let h := if existing.isSome then h.erase "content-length" else h
        (if endsChunked h then h else addChunked h, .chunked)
      else
        match existing, promise with
        | some m, _ => (h, .sized m)
        | none, .known n => (h.put "content-length" (decimal n), .sized n)
        | none, _ =>
          if isUsuallyBodiless r.method then (h, .sized 0)
          else (h.append "transfer-encoding" (Bytes.ofString "chunked"), .chunked)

/-- The fields, those of one name side by side. -/
def fieldLines (h : Headers) : Bytes :=
  h.grouped.flatMap fun f => f.2.flatMap (fieldLine f.1)

/-- A request line: method, target and version. -/
def requestLine (method target : String) (version : Version) : Bytes :=
  Bytes.ofString (method ++ " " ++ target ++ " " ++ version.render) ++ lineEnd

/-- A request with the given text as its target. -/
def request (r : Request) (target : String) : Bytes :=
  let (h, coding) := requestCoding r
  requestLine r.method target r.version ++ fieldLines h ++ lineEnd ++ coding.write r.body

/-- The bytes of a body fit the length that its head states. -/
def requestIsWhole (r : Request) : Bool :=
  r.body.complete &&
    match (requestCoding r).2 with
    | .sized n => promise r.body == .nothing || n ≤ r.body.data.length
    | _ => true

/-! ## Responses -/

/-- Every word of a name starts with a capital. -/
def titleCase (name : String) : String :=
  String.ofList (name.toList.foldl
    (fun s c => (s.1 ++ [if s.2 then c.toUpper else c], decide (c = '-'))) (([] : List Char), true)).1

/-- The exchange that a response ends. -/
structure Exchange where
  method : String
  /-- The version that the client speaks. -/
  peer : Version
  /-- The client would go on with this connection. -/
  keepAlive : Bool
  deriving DecidableEq, Repr

/-- The exchange opens a tunnel. -/
def Exchange.opensTunnel (x : Exchange) (status : Status) : Bool :=
  x.method == connectMethod && Status.isSuccess status

/-- The response may have a length. -/
def Exchange.mayHaveLength (x : Exchange) (status : Status) : Bool :=
  !(x.opensTunnel status || Status.isInformational status || Status.isBodiless status)

/-- The response may have a body. -/
def Exchange.mayHaveBody (x : Exchange) (status : Status) : Bool :=
  x.method != "HEAD" && x.mayHaveLength status

/-- The response fits the version of the client, and says when the connection will not be kept. -/
def fitVersion (x : Exchange) (r : Response) : Exchange × Response :=
  match x.peer with
  | .http11 =>
    if x.keepAlive then (x, r)
    else (x, { r with headers := r.headers.put "connection" (Bytes.ofString "close") })
  | .http10 =>
    let announced := match r.headers.first? "connection" with
      | some v => Headers.hasMember v "keep-alive"
      | none => false
    if announced then (x, { r with version := .http10 })
    else
      match r.version with
      | .http10 => ({ x with keepAlive := false }, r)
      | .http11 =>
        if x.keepAlive then
          (x, { r with
            version := .http10,
            headers := r.headers.put "connection" (Bytes.ofString "keep-alive") })
        else (x, { r with version := .http10 })

/-- What has been written of the fields of a response. -/
structure Fields where
  lines : Bytes := []
  coding? : Option Coding := none
  /-- The connection ends with this response. -/
  last : Bool
  deriving DecidableEq, Repr

/-- Values on one line between commas. -/
def joined (values : List Bytes) : Bytes := List.intercalate [44, 32] values

/-- The fields of one name. `none` says that the response cannot be sent: its lengths contradict
each other or its encoding. -/
def writeField (x : Exchange) (r : Response) (s : Fields) (f : String × List Bytes) :
    Option Fields :=
  let (name, values) := f
  let write (values : List Bytes) (s : Fields) : Fields :=
    { s with lines := s.lines ++ fieldLine (titleCase name) (joined values) }
  if name = "content-length" then
    if s.coding?.isSome || x.opensTunnel r.status then none
    else
      match promise r.body with
      | .nothing =>
        if x.method = "HEAD" then
          some { write values s with coding? := some (.sized 0) }
        else some s
      | .known n => some { write (values.take 1) s with coding? := some (.sized n) }
      | .unknown =>
        match Extent.commonLength r.headers with
        | some n => some { write (values.take 1) s with coding? := some (.sized n) }
        | none => none
  else if name = "transfer-encoding" then
    if s.coding?.isSome || x.opensTunnel r.status then none
    else if r.version = .http10 || !x.mayHaveBody r.status then some s
    else
      let last := values.getLast?.getD []
      let values :=
        if Headers.endsWithMember last "chunked" then values
        else values ++ [Bytes.ofString "chunked"]
      some { write values s with coding? := some .chunked }
  else if name = "connection" then
    some { write values s with last := s.last || values.any (Headers.hasMember · "close") }
  else
    some { s with lines := s.lines ++ values.flatMap (fieldLine (titleCase name)) }

/-- The field that tells the length of a body whose head tells none, and the coding. -/
def addLength (x : Exchange) (r : Response) (s : Fields) : Fields × Coding :=
  match s.coding? with
  | some c => (s, c)
  | none =>
    if x.opensTunnel r.status then (s, .sized 0)
    else
      let length (n : Nat) :=
        if x.mayHaveLength r.status then
          ({ s with lines := s.lines ++ fieldLine "Content-Length" (decimal n) }, Coding.sized n)
        else (s, .sized 0)
      match promise r.body with
      | .nothing => length 0
      | .known n => length n
      | .unknown =>
        if r.version = .http10 || !x.mayHaveBody r.status then (s, .untilClose)
        else
          ({ s with lines := s.lines ++ fieldLine "Transfer-Encoding" (Bytes.ofString "chunked") },
            .chunked)

/-- A status line. -/
def statusLine (r : Response) : Bytes :=
  let reason := r.reason.getD ((Status.reason? r.status).getD "<none>")
  Bytes.ofString (r.version.render ++ " " ++ toString r.status ++ " ") ++
    Bytes.ofLatin1 reason ++ lineEnd

/-- A response as bytes, and whether the connection ends behind it. A response that cannot be sent
is no bytes at all, and the connection ends. -/
def response (x : Exchange) (r : Response) : Bytes × Bool :=
  let (x, r) := fitVersion x r
  let start : Fields := { last := !x.keepAlive || r.status = 101 }
  match r.headers.grouped.foldlM (writeField x r) start with
  | none => ([], true)
  | some s =>
    let (s, coding) := addLength x r s
    let coding := if x.mayHaveBody r.status then coding else .sized 0
    let body := coding.write r.body
    let last := s.last || (coding == .untilClose) || !r.body.complete
    (statusLine r ++ s.lines ++ lineEnd ++ body, last)

end ForwardProxy.Http.Wire
