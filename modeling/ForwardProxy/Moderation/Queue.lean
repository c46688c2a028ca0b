/-!
# The queue of held requests

Requests that wait for the operator are pending under their ids. Each has a waiter, numbered in the
order in which they came; a waiter is released by an approval or a flush, dropped by a removal or by
another request taking its id, or it goes away by itself. Pending ids are kept in ascending order.
-/

namespace ForwardProxy.Moderation

/-- What has become of a waiter. -/
inductive Waiter
  /-- Still waiting for the operator's decision. -/
  | waiting
  /-- Told to go on. -/
  | released
  /-- Told that nobody will tell it to go on. -/
  | dropped
  /-- Gone, whatever it was told. -/
  | left
  deriving DecidableEq, Repr, Inhabited

/-- Why an approval did not reach a waiter. -/
inductive Error
  /-- No request is pending under the id. -/
  | notFound (id : Nat)
  /-- The request under the id is no longer waiting. -/
  | released (id : Nat)
  deriving DecidableEq, Repr

/-- The failure in words. -/
def Error.message : Error → String
  | notFound id => "No pending request with id " ++ toString id
  | released id => "Request " ++ toString id ++ " is no longer waiting"

/-- Pending ids with the numbers of their waiters, and all waiters there ever were. -/
structure Queue where
  pending : List (Nat × Nat) := []
  waiters : List Waiter := []
  deriving DecidableEq, Repr, Inhabited

namespace Queue

/-! ## Waiters -/

/-- What has become of waiter `n`. -/
def waiter? (q : Queue) (n : Nat) : Option Waiter := q.waiters[n]?

/-- Waiter `n` is told `w`; only one that waits can be told anything. -/
def tell (q : Queue) (n : Nat) (w : Waiter) : Queue :=
  if q.waiter? n = some .waiting then { q with waiters := q.waiters.set n w } else q

/-- Waiter `n` goes away. -/
def leave (q : Queue) (n : Nat) : Queue :=
  if n < q.waiters.length then { q with waiters := q.waiters.set n .left } else q

/-! ## Ids -/

/-- The number of the waiter that is pending under an id. -/
def find? (q : Queue) (id : Nat) : Option Nat :=
  (q.pending.find? fun p => p.1 = id).map Prod.snd

/-- The pending ids, ascending. -/
def ids (q : Queue) : List Nat := q.pending.map Prod.fst

/-- How many requests are pending. -/
def count (q : Queue) : Nat := q.pending.length

/-- A request is pending under the id. -/
def contains (q : Queue) (id : Nat) : Bool := (q.find? id).isSome

/-- Nothing is pending under the id any more. -/
def forget (q : Queue) (id : Nat) : Queue :=
  { q with pending := q.pending.filter fun p => p.1 ≠ id }

/-- An entry at its place in the ascending list. -/
def insertEntry (entry : Nat × Nat) : List (Nat × Nat) → List (Nat × Nat)
  | [] => [entry]
  | p :: ps => if p.1 < entry.1 then p :: insertEntry entry ps else entry :: p :: ps

/-- A new waiter is pending under an id that nothing is pending under. The number is the waiter's. -/
def enqueue (q : Queue) (id : Nat) : Nat × Queue :=
  let n := q.waiters.length
  (n, { pending := insertEntry (id, n) q.pending, waiters := q.waiters ++ [.waiting] })

/-! ## Operations -/

/-- The request under the id is dropped. The flag says whether one was pending. -/
def remove (q : Queue) (id : Nat) : Bool × Queue :=
  match q.find? id with
  | some n => (true, (q.forget id).tell n .dropped)
  | none => (false, q)

/-- A new waiter is pending under the id. The number is the waiter's; a request that was pending
under the id is dropped. -/
def add (q : Queue) (id : Nat) : Nat × Queue := (q.remove id).2.enqueue id

/-- The request under the id is released, if it is pending and its waiter still waits. It is not
pending afterwards in any case. -/
def approve (q : Queue) (id : Nat) : Except Error Unit × Queue :=
  match q.find? id with
  | none => (.error (.notFound id), q)
  | some n =>
    let told := (q.forget id).tell n .released
    if q.waiter? n = some .waiting then (.ok (), told) else (.error (.released id), told)

/-- All pending requests are released. The number counts them. -/
def flush (q : Queue) : Nat × Queue :=
  (q.count, { q.pending.foldl (fun q p => q.tell p.2 .released) q with pending := [] })

end Queue
end ForwardProxy.Moderation
