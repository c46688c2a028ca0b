import ForwardProxy.Certificate.Facts
import ForwardProxy.Certificate.Store

/-!
# A shelf of key pairs

Key pairs that have been loaded or made in a rehearsal, under names, beside the files that they come
from.
-/

namespace ForwardProxy.Staging

open Certificate (KeyPair Workshop)

/-- Files and a mint, the issuer that is there from the start, and the pairs that have been kept. -/
structure Shelf where
  shop : Workshop
  authority : KeyPair
  pairs : List (String × KeyPair) := []
  deriving Repr

namespace Shelf

/-- The pair under a name; "@ca" is the issuer that is there from the start. -/
def pair? (s : Shelf) (name : String) : Option KeyPair :=
  if name = "@ca" then some s.authority else (s.pairs.find? fun p => p.1 = name).map Prod.snd

/-- A pair is kept under a name. -/
def keep (s : Shelf) (name : String) (k : KeyPair) : Shelf :=
  { s with pairs := s.pairs.filter (fun p => p.1 ≠ name) ++ [(name, k)] }

/-- The names of pairs with the same certificate, in order. -/
def alike (s : Shelf) (k : KeyPair) : List String :=
  ((s.pairs.filter fun p => p.2.certificate = k.certificate).map Prod.fst).mergeSort
    fun a b => decide (a ≤ b)

/-- An operation on the files. -/
def change (s : Shelf) (a : Files.Tree.Action Unit) : Shelf :=
  { s with shop := { s.shop with tree := (a s.shop.tree).2 } }

end Shelf
end ForwardProxy.Staging
