import ForwardProxy.Http.Message
import ForwardProxy.Address.Ip

/-!
# The log of held requests

What the operator is told about a request that is held, kept under ids that are handed out once.
-/

namespace ForwardProxy.Moderation

/-- What is remembered of a held request. -/
structure Record where
  method : String
  uri : String
  host : String
  remote : Address.Socket
  deriving DecidableEq, Repr

/-- The record of a request that came from `remote`. -/
def Record.of (r : Http.Request) (remote : Address.Socket) : Record :=
  ⟨r.method, r.uri.render, r.namedHost, remote⟩

/-- Records under their ids, and the id that comes next. -/
structure Log where
  nextId : Nat := 1
  records : List (Nat × Record) := []
  deriving DecidableEq, Repr

namespace Log

/-- The record under an id. -/
def get? (l : Log) (id : Nat) : Option Record :=
  (l.records.find? fun p => p.1 = id).map Prod.snd

/-- The number of records. -/
def size (l : Log) : Nat := l.records.length

/-- The record is kept under the given id, instead of any other. -/
def put (l : Log) (id : Nat) (r : Record) : Log :=
  { l with records := (l.records.filter fun p => p.1 ≠ id) ++ [(id, r)] }

/-- The record is kept under the next id, which is the result. -/
def save (l : Log) (r : Record) : Nat × Log :=
  (l.nextId, { l.put l.nextId r with nextId := l.nextId + 1 })

/-- The record under an id is forgotten. -/
def finish (l : Log) (id : Nat) : Log :=
  { l with records := l.records.filter fun p => p.1 ≠ id }

end Log
end ForwardProxy.Moderation
