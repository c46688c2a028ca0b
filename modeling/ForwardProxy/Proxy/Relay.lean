import ForwardProxy.Http.Message

/-!
# What changes on the way through

A request passes unchanged but for the field Proxy-Connection, which older clients send instead of
Connection. A response passes unchanged but for the fields that describe a body, which an answer
"not modified" must not carry.
-/

namespace ForwardProxy.Proxy

/-- Every Proxy-Connection field is taken out; the first becomes the Connection field unless there
is one already. -/
def migrate (h : Http.Headers) : Http.Headers :=
  match h.first? "proxy-connection" with
  | none => h
  | some value =>
    let rest := h.erase "proxy-connection"
    if rest.contains "connection" then rest else rest.append "connection" value

/-- The names of the fields that describe a body. -/
def bodyFields : List String := ["content-type", "content-length", "transfer-encoding"]

/-- A response as the client gets it: with status 304, without the fields that describe a body. -/
def relay (r : Http.Response) : Http.Response :=
  if r.status = 304 then { r with headers := bodyFields.foldl Http.Headers.erase r.headers } else r

end ForwardProxy.Proxy
