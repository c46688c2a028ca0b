import ForwardProxy.Uri

/-!
# Targets from texts

A target in the absolute form can be put together from the texts of its scheme, its authority and its path
and query. Each text is read anew, and the first that cannot be read is what is wrong with the target.
-/

namespace ForwardProxy.Uri

/-- A part of a target in the absolute form. -/
inductive Part
  | scheme
  | authority
  | target
  deriving DecidableEq, Repr

/-- The text may stand in front of `://`. -/
def isScheme (cs : List Char) : Bool := cs.length ≤ maxSchemeLength && cs.all isSchemeChar

/-- The target whose parts have these texts. -/
def ofTexts (scheme authority target : String) : Except Part Uri :=
  if !isScheme scheme.toList then .error .scheme
  else
    match Authority.ofString? authority, PathQuery.ofList? target.toList with
    | none, _ => .error .authority
    | some _, none => .error .target
    | some a, some t => .ok (.absolute scheme a t)

end ForwardProxy.Uri
