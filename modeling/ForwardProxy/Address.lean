import ForwardProxy.Text.Decimal
import ForwardProxy.Text.Split

/-!
# Hosts and ports

A destination is a host and a port. Two notations are read. A tunnel target `host:port` may leave
out the port and may put the host into one pair of brackets (`readTarget`). A listen address always
names its port, and any number of brackets around its host is dropped (`readListen`). The last
colon separates host and port in both.
-/

namespace ForwardProxy

/-- A host by name or address, and a port below 65536. -/
structure HostPort where
  host : String
  port : Nat
  deriving DecidableEq, Repr, Inhabited

namespace HostPort

/-- Host, colon, port. -/
def render (a : HostPort) : String := a.host ++ ":" ++ toString a.port

end HostPort

/-- Why a text is no tunnel target. -/
inductive TargetFault
  /-- The request names no authority at all. -/
  | missingAuthority
  /-- Nothing stands before the port. -/
  | missingHost
  /-- The text after the last colon is no port. -/
  | invalidPort (text : String)
  deriving DecidableEq, Repr

/-- The fault in words. -/
def TargetFault.message : TargetFault → String
  | missingAuthority => "Missing authority in CONNECT request"
  | missingHost => "Missing host"
  | invalidPort text => "Invalid port: " ++ text

namespace Address

/-- The port of a tunnel target that names none. -/
def defaultTunnelPort : Nat := 443

/-- The text inside one pair of brackets that encloses it all. -/
def unbracket : List Char → Option (List Char)
  | '[' :: cs => if cs.getLast? = some ']' then some cs.dropLast else none
  | _ => none

/-- Reads a tunnel target. A text in brackets is a host alone; else the last colon separates host
and port; without a colon the text is a host alone. A host alone gets `defaultTunnelPort`. -/
def readTarget (text : List Char) : Except TargetFault HostPort :=
  match unbracket text with
  | some host => .ok ⟨String.ofList host, defaultTunnelPort⟩
  | none =>
    match Text.splitLast ':' text with
    | some (host, portText) =>
      match Text.readPort portText with
      | none => .error (.invalidPort (String.ofList portText))
      | some port =>
        match unbracket host with
        | some inner => .ok ⟨String.ofList inner, port⟩
        | none => if host = [] then .error .missingHost else .ok ⟨String.ofList host, port⟩
    | none =>
      if text = [] then .error .missingHost else .ok ⟨String.ofList text, defaultTunnelPort⟩

/-- Opening brackets in front and closing brackets at the end are dropped. -/
def stripBrackets (cs : List Char) : List Char :=
  ((cs.dropWhile (· = '[')).reverse.dropWhile (· = ']')).reverse

/-- Reads a listen address: a non-empty host, a colon and a port. -/
def readListen (text : List Char) : Option HostPort := do
  let (hostText, portText) ← Text.splitLast ':' text
  let port ← Text.readPort portText
  let host := stripBrackets hostText
  if host = [] then none else some ⟨String.ofList host, port⟩

end Address
end ForwardProxy
