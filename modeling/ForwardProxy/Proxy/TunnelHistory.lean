import ForwardProxy.Proxy.Tunnel
import ForwardProxy.StepSystem

/-!
# Histories of tunnels

What a tunnel does at its two streams, in the order in which it does it: what it reads and writes,
where a source ends, what it shuts down, and what fails. The streams decide how large the pieces are
and what fails, and the two directions are interleaved in any way.
-/

namespace ForwardProxy.Proxy

/-! ## Deeds -/

/-- What a copy does at its source or its destination. -/
inductive Deed
  | took (chunk : Bytes)
  /-- The source has ended. -/
  | ended
  | gave (chunk : Bytes)
  /-- The destination has been flushed. -/
  | flushed
  /-- The destination has been shut down. -/
  | shut
  | failed (why : String)
  deriving DecidableEq, Repr

namespace Deed

/-- The bytes that have been read. -/
def input : Deed → Bytes
  | took chunk => chunk
  | _ => []

/-- The bytes that have been written. -/
def output : Deed → Bytes
  | gave chunk => chunk
  | _ => []

end Deed

/-- What a copy does in an event. What it writes is the first part of what it holds. -/
def Copy.deed (c : Copy) : CopyEvent → Deed
  | .read chunk => .took chunk
  | .readEnd => .ended
  | .wrote n => .gave (c.held.take n)
  | .flushed => .flushed
  | .shutDown => .shut
  | .fault why => .failed why

/-! ## Histories -/

/-- The deeds of both copies in their order. -/
abbrev TunnelHistory := List (Direction × Deed)

namespace TunnelHistory

/-- The deeds of one copy. -/
def deeds (h : TunnelHistory) (d : Direction) : List Deed :=
  h.filterMap fun x => if x.1 = d then some x.2 else none

/-- All bytes that have been read from the source of a direction. -/
def taken (h : TunnelHistory) (d : Direction) : Bytes := (h.deeds d).flatMap Deed.input

/-- All bytes that have been written to the destination of a direction. -/
def given (h : TunnelHistory) (d : Direction) : Bytes := (h.deeds d).flatMap Deed.output

end TunnelHistory

namespace Tunnel

/-- What a move does at the streams. -/
def shows (t : Tunnel) : TunnelMove → TunnelHistory
  | .copy d e => [(d, (t.copy d).deed e)]
  | .join _ | .abort _ => []

/-- The tunnel as a step system. -/
def system : StepSystem Tunnel TunnelMove (Direction × Deed) := ⟨Tunnel.move?, Tunnel.shows⟩

/-- The tunnel once the ends of some directions have been noticed, one after the other, if all of them
can be. -/
def joinAll? (t : Tunnel) : List Direction → Option Tunnel
  | [] => some t
  | d :: ds => do (← t.join? d).joinAll? ds

end Tunnel
end ForwardProxy.Proxy
