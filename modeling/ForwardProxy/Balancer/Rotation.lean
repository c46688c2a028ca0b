/-!
# Rotations

A rotation hands out the backends of a list one after the other, starting over at the end. A
producer keeps a small buffer filled, from which hand-outs are taken; producer and takers run side by
side, and a step of either is a function here. Whatever the order of the steps, hand-outs follow the
list.
-/

namespace ForwardProxy.Balancer

/-- How many backends a buffer holds. -/
def bufferSize : Nat := 2

/-- A list of backends, how many have been put into the buffer so far, and the buffer. -/
structure Rotation where
  backends : List String
  produced : Nat := 0
  buffer : List String := []
  deriving DecidableEq, Repr

namespace Rotation

/-- The backend that comes at place `k` of the endless rotation, counted from zero. -/
def backendAt? (backends : List String) (k : Nat) : Option String := backends[k % backends.length]?

/-- The producer puts the next backend into the buffer, if there is room. -/
def produce (r : Rotation) : Rotation :=
  if r.buffer.length < bufferSize then
    match backendAt? r.backends r.produced with
    | some b => { r with produced := r.produced + 1, buffer := r.buffer ++ [b] }
    | none => r
  else r

/-- The oldest backend is taken out of the buffer, if there is one. -/
def take (r : Rotation) : Option String × Rotation :=
  match r.buffer with
  | [] => (none, r)
  | b :: rest => (some b, { r with buffer := rest })

end Rotation
end ForwardProxy.Balancer
