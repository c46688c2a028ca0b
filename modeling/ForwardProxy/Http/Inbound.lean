import ForwardProxy.Http.Wire

/-!
# The connection of a client

The proxy's side of a connection that carries requests: bytes come in, requests are cut off them one
at a time, and each is answered before the next is looked at. A request that cannot be read is
answered by the connection itself, which then ends; one that stops in the middle of its head ends
the connection silently.
-/

namespace ForwardProxy.Http

/-- What the connection is doing. -/
inductive Phase
  /-- It waits for a request. -/
  | reading
  /-- A request waits for its response. If its body was cut short, the response is the last. -/
  | answering (exchange : Wire.Exchange) (cut : Bool)
  /-- A tunnel has been opened; further bytes are not requests. -/
  | handedOver
  /-- It has ended. -/
  | closed
  deriving DecidableEq, Repr

/-- The bytes that have come in and are not used up, whether the client has sent its last, and what
the connection is doing. -/
structure Inbound where
  buffer : Bytes := []
  ended : Bool := false
  phase : Phase := .reading
  deriving DecidableEq, Repr

namespace Inbound

/-- What is to be done next. -/
inductive Next
  /-- A request is to be answered. -/
  | request (r : Request)
  /-- These bytes are to be sent. -/
  | send (b : Bytes)
  /-- Nothing before more bytes come. -/
  | wait
  deriving Repr

/-- The largest head, in bytes. -/
def maxHeadSize : Nat := 417792

/-- The bytes with which a client offers the next major version of the protocol. -/
def versionTwoOffer : Bytes := Bytes.ofString "PRI * HTTP/2.0\r\n\r\nSM\r\n\r\n"

/-- The status for a head that is refused. -/
def faultStatus : HeadFault → Status
  | .malformed => 400
  | .tooManyFields => 431
  | .targetTooLong => 414

/-- The response to a head that is refused. -/
def refusal (fault : HeadFault) : Bytes :=
  (Wire.response ⟨"", .http11, false⟩ { status := faultStatus fault }).1

/-- The head is refused: the client is told, unless it offered another version, and the connection
ends. -/
def refuse (c : Inbound) (fault : HeadFault) : Next × Inbound :=
  let closed := { c with phase := .closed }
  if versionTwoOffer.isPrefixOf c.buffer then (.wait, closed) else (.send (refusal fault), closed)

/-- The client would go on with the connection behind this request. -/
def keepsAlive (version : Version) (h : Headers) : Bool :=
  (h.values "connection").foldl
    (fun keep v => if keep then !Headers.hasMember v "close" else Headers.hasMember v "keep-alive")
    (version == .http11)

/-- The next thing to do. -/
def next (c : Inbound) : Next × Inbound :=
  match c.phase with
  | .reading =>
    match scanRequestHead c.buffer with
    | .bad fault => c.refuse fault
    | .more =>
      if c.ended then (.wait, { c with phase := .closed })
      else if maxHeadSize ≤ c.buffer.length then c.refuse .tooManyFields
      else (.wait, c)
    | .done head rest =>
      match Extent.ofRequest head with
      | none => c.refuse .malformed
      | some (extent, headers) =>
        match extent.cut c.ended rest with
        | none => (.wait, c)
        | some (body, rest) =>
          let exchange := ⟨head.method, head.version, keepsAlive head.version headers⟩
          (.request ⟨head.method, head.uri, head.version, headers, body⟩,
            { c with buffer := rest, phase := .answering exchange (!body.complete) })
  | _ => (.wait, c)

/-- The request that waits is answered. The bytes are to be sent. -/
def answer (c : Inbound) (r : Response) : Bytes × Inbound :=
  match c.phase with
  | .answering exchange cut =>
    let (bytes, last) := Wire.response exchange r
    let phase :=
      if exchange.opensTunnel r.status then .handedOver
      else if last || cut then .closed
      else .reading
    (bytes, { c with phase })
  | _ => ([], c)

end Inbound
end ForwardProxy.Http
