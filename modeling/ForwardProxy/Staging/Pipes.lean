import ForwardProxy.Proxy.Tunnel

/-!
# Tunnels between scripted streams

Two streams that are described by values, and a tunnel between them that runs as long as it can.
-/

namespace ForwardProxy.Staging

open Proxy (Tunnel TunnelMove CopyEvent Direction)

/-- A stream: what can be read from it, and what has been written to it. -/
structure Pipe where
  pending : Bytes := []
  readFault : Option String := none
  writeFault : Option String := none
  ended : Bool := false
  got : Bytes := []
  isShut : Bool := false
  deriving DecidableEq, Repr

/-- The largest piece that is read at once. -/
def pieceSize : Nat := 8192

namespace Pipe

/-- What a read of the stream gives, if it gives anything at the moment. -/
def read (p : Pipe) : Option (CopyEvent × Pipe) :=
  if !p.pending.isEmpty then
    some (.read (p.pending.take pieceSize), { p with pending := p.pending.drop pieceSize })
  else
    match p.readFault with
    | some why => some (.fault why, p)
    | none => if p.ended then some (.readEnd, p) else none

/-- What a write to the stream gives. -/
def write (p : Pipe) (b : Bytes) : CopyEvent × Pipe :=
  match p.writeFault with
  | some why => (.fault why, p)
  | none => (.wrote b.length, { p with got := p.got ++ b })

/-- What a shutdown of the stream gives. -/
def shut (p : Pipe) : CopyEvent × Pipe :=
  match p.writeFault with
  | some why => (.fault why, p)
  | none => (.shutDown, { p with isShut := true })

end Pipe

/-- A tunnel between two streams. -/
structure Pipes where
  a : Pipe := {}
  b : Pipe := {}
  tunnel : Tunnel := {}

namespace Pipes

/-- The source and the destination of a direction. -/
def ends (p : Pipes) : Direction → Pipe × Pipe
  | .forth => (p.a, p.b)
  | .back => (p.b, p.a)

/-- Source and destination of a direction are replaced. -/
def setEnds (p : Pipes) (d : Direction) (source target : Pipe) : Pipes :=
  match d with
  | .forth => { p with a := source, b := target }
  | .back => { p with a := target, b := source }

/-- What the copy of a direction does next: it writes what it holds, and else it reads. -/
def next (p : Pipes) (d : Direction) : Option (CopyEvent × Pipe × Pipe) :=
  let copy := p.tunnel.copy d
  let (source, target) := p.ends d
  if !copy.isActive then none
  else if !copy.held.isEmpty then
    let (e, target) := target.write copy.held
    some (e, source, target)
  else if copy.state = .draining then
    let (e, target) := target.shut
    some (e, source, target)
  else (source.read).map fun (e, source) => (e, source, target)

/-- One move of a direction: its end is noticed, its copy is stopped, or its copy goes on. -/
def moveOn (p : Pipes) (d : Direction) : Option Pipes :=
  match p.tunnel.move? (.join d), p.tunnel.move? (.abort d) with
  | some tunnel, _ => some { p with tunnel }
  | none, some tunnel => some { p with tunnel }
  | none, none => do
    let (e, source, target) ← p.next d
    let tunnel ← p.tunnel.move? (.copy d e)
    some { p.setEnds d source target with tunnel }

/-- Moves until nothing can move, at most `limit` times. -/
def calmUpTo : (limit : Nat) → Pipes → Pipes
  | 0, p => p
  | limit + 1, p =>
    match (p.moveOn .forth).orElse fun _ => p.moveOn .back with
    | some p => calmUpTo limit p
    | none => p

/-- Moves until nothing can move. -/
def calm (p : Pipes) : Pipes :=
  p.calmUpTo (2 * (p.a.pending.length + p.b.pending.length) + 20)

end Pipes
end ForwardProxy.Staging
