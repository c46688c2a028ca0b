import ForwardProxy.Text.Blank
import ForwardProxy.Uri

/-!
# Parent proxies

The proxies that this proxy itself sends requests through, one for each scheme. Each is named by a
text such as `host:3128` or `http://host:3128/`, from which only the authority is kept.
-/

namespace ForwardProxy.Proxy

/-- The text has the mark behind a scheme somewhere. -/
def hasDivider : List Char → Bool
  | ':' :: '/' :: '/' :: _ => true
  | _ :: cs => hasDivider cs
  | [] => false

/-- The parent proxy that a text names. A text without a scheme names one by its authority; other
schemes than http are of no use. -/
def readProxy (text : String) : Option Uri := do
  let named := String.ofList (Text.trim text.toList)
  if named.isEmpty then none
  else
    let uri ← Uri.parse? (if hasDivider named.toList then named else "http://" ++ named)
    if uri.scheme? = some "http" then
      let authority ← uri.authority?
      some (.absolute "http" authority .root)
    else none

/-- The parent proxies for plain and for encrypted requests. -/
structure Parents where
  http : Option Uri := none
  https : Option Uri := none
  deriving DecidableEq, Repr

namespace Parents

/-- The parent proxies that two texts name. -/
def ofTexts (http https : Option String) : Parents :=
  ⟨http.bind readProxy, https.bind readProxy⟩

/-- The text of a setting: the variable in capitals counts if it is set at all, else the one in
small letters. -/
def setting (env : String → Option String) (capitals small : String) : Option String :=
  match env capitals with
  | some text => some text
  | none => env small

/-- The parent proxies that the environment names, if it names a usable one. -/
def ofEnvironment (env : String → Option String) : Option Parents :=
  let found := ofTexts (setting env "HTTP_PROXY" "http_proxy")
    (setting env "HTTPS_PROXY" "https_proxy")
  if found.http.isNone && found.https.isNone then none else some found

/-- The parent proxy for a scheme. -/
def forScheme (u : Parents) (https : Bool) : Option Uri := if https then u.https else u.http

end Parents
end ForwardProxy.Proxy
