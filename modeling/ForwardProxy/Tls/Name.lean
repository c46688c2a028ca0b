import ForwardProxy.Address.Ip

/-!
# Names of TLS servers

A client of TLS expects a certificate for the name under which it reached the server. The name is
an address or a host name in labels; a certificate names addresses and host names, and a host name
matches in any case.
-/

namespace ForwardProxy.Tls

/-- The characters of a label. -/
def isLabelChar (c : Char) : Bool := Text.isLetter c || Text.isDigit c || c = '-' || c = '_'

/-- A label: at most 63 characters, no hyphen at either end. -/
def isLabel (cs : List Char) : Bool :=
  !cs.isEmpty && cs.length ≤ 63 && cs.all isLabelChar && cs.head? != some '-' &&
    cs.getLast? != some '-'

/-- The labels of a host name; one point may stand at the end. -/
def labels (cs : List Char) : List (List Char) :=
  let parts := cs.splitOnP (· = '.')
  if parts.getLast? = some [] then parts.dropLast else parts

/-- A host name: at most 253 characters in labels, of which the last is not all digits. -/
def isHostName (name : String) : Bool :=
  let cs := name.toList
  let ls := labels cs
  cs.length ≤ 253 && !ls.isEmpty && ls.all isLabel &&
    !((ls.getLast?.getD []).all Text.isDigit)

/-- A name under which a TLS server can be reached. -/
def isServerName (name : String) : Bool :=
  (Address.Ip.read name.toList).isSome || isHostName name

/-- A name in a certificate. -/
inductive AltName
  | dns (name : String)
  | ip (octets : Bytes)
  deriving DecidableEq, Repr

/-- The name as it stands in a certificate: an address if it reads as one, else a host name. -/
def AltName.ofString (name : String) : AltName :=
  match Address.Ip.read name.toList with
  | some address => .ip address.octets
  | none => .dns name

/-- The certified name covers the expected one. -/
def AltName.covers (certified : AltName) (expected : String) : Bool :=
  match certified, AltName.ofString expected with
  | .ip a, .ip b => a == b
  | .dns a, .dns b => labels (Text.lower a).toList == labels (Text.lower b).toList
  | _, _ => false

end ForwardProxy.Tls
