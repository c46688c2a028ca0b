import ForwardProxy.Bytes

/-!
# Tunnels

A tunnel joins two byte streams by two copies, one for each direction, which run side by side. A copy
reads and writes in pieces of any size; when its source has ended and all bytes are written, it shuts
its destination down, so that the end of one direction travels through the tunnel while the other goes
on. A copy that fails ends the whole tunnel.
-/

namespace ForwardProxy.Proxy

/-! ## One direction -/

/-- How far a copy is. -/
inductive CopyState
  /-- The source may have more bytes. -/
  | copying
  /-- The source has ended. -/
  | draining
  /-- Everything is written and the destination is shut down. -/
  | finished
  | failed (why : String)
  /-- It has been stopped because the other direction failed. -/
  | aborted
  deriving DecidableEq, Repr

/-- A copy: all bytes that it has read and all that it has written. -/
structure Copy where
  taken : Bytes := []
  given : Bytes := []
  state : CopyState := .copying
  deriving DecidableEq, Repr

/-- What happens to a copy without a break. -/
inductive CopyEvent
  | read (chunk : Bytes)
  /-- The source has ended. -/
  | readEnd
  /-- The destination has taken so many bytes. -/
  | wrote (n : Nat)
  | flushed
  | shutDown
  /-- A read, a write, a flush or a shutdown has failed. -/
  | fault (why : String)
  deriving DecidableEq, Repr

namespace Copy

/-- The bytes that have been read and not written. -/
def held (c : Copy) : Bytes := c.taken.drop c.given.length

/-- The copy is at work. -/
def isActive (c : Copy) : Bool := c.state == .copying || c.state == .draining

/-- The copy behind an event, if the event is possible. -/
def step? (c : Copy) : CopyEvent → Option Copy
  | .read chunk =>
    if c.state = .copying && !chunk.isEmpty then some { c with taken := c.taken ++ chunk } else none
  | .readEnd => if c.state = .copying then some { c with state := .draining } else none
  | .wrote n =>
    if c.isActive && 0 < n && n ≤ c.held.length then
      some { c with given := c.given ++ c.held.take n }
    else none
  | .flushed => if c.isActive && c.held.isEmpty then some c else none
  | .shutDown =>
    if c.state = .draining && c.held.isEmpty then some { c with state := .finished } else none
  | .fault why => if c.isActive then some { c with state := .failed why } else none

end Copy

/-! ## Both directions -/

/-- The two directions of a tunnel. -/
inductive Direction
  /-- From the first stream to the second. -/
  | forth
  | back
  deriving DecidableEq, Repr

/-- The other direction. -/
def Direction.other : Direction → Direction
  | forth => back
  | back => forth

/-- What a tunnel has come to. -/
inductive Verdict
  | running
  /-- One direction has finished. -/
  | half (first : Direction)
  /-- It is over, with the numbers of bytes that went forth and back. -/
  | over (result : Except String (Nat × Nat))
  deriving Repr

/-- A tunnel. -/
structure Tunnel where
  forth : Copy := {}
  back : Copy := {}
  verdict : Verdict := .running
  deriving Repr

/-- What happens to a tunnel without a break. -/
inductive TunnelMove
  /-- Something happens to a copy. -/
  | copy (d : Direction) (e : CopyEvent)
  /-- It is noticed that a copy has ended. -/
  | join (d : Direction)
  /-- A copy is stopped because the tunnel has failed. -/
  | abort (d : Direction)
  deriving Repr

namespace Tunnel

/-- The copy of a direction. -/
def copy (t : Tunnel) : Direction → Copy
  | .forth => t.forth
  | .back => t.back

/-- The copy of a direction is replaced. -/
def setCopy (t : Tunnel) (d : Direction) (c : Copy) : Tunnel :=
  match d with
  | .forth => { t with forth := c }
  | .back => { t with back := c }

/-- How many bytes went forth and back. -/
def counts (t : Tunnel) : Nat × Nat := (t.forth.given.length, t.back.given.length)

/-- It is noticed that the copy of a direction has ended. -/
def join? (t : Tunnel) (d : Direction) : Option Tunnel :=
  match t.verdict, (t.copy d).state with
  | .running, .finished => some { t with verdict := .half d }
  | .half first, .finished =>
    if first = d then none else some { t with verdict := .over (.ok t.counts) }
  | .running, .failed why | .half _, .failed why => some { t with verdict := .over (.error why) }
  | _, _ => none

/-- The tunnel behind a move, if the move is possible. -/
def move? (t : Tunnel) : TunnelMove → Option Tunnel
  | .copy d e => ((t.copy d).step? e).map (t.setCopy d)
  | .join d => t.join? d
  | .abort d =>
    match t.verdict with
    | .over (.error _) =>
      if (t.copy d).isActive then some (t.setCopy d { t.copy d with state := .aborted }) else none
    | _ => none

/-- Both streams have been let go. -/
def isClosed (t : Tunnel) : Bool :=
  match t.verdict with
  | .over _ => !t.forth.isActive && !t.back.isActive
  | _ => false

end Tunnel
end ForwardProxy.Proxy
