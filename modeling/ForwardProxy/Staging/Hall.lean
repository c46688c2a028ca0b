import ForwardProxy.Moderation.Gate
import ForwardProxy.Staging.World

/-!
# A hall in front of the gate

Named requests that wait at the gate in a rehearsal, and the answers of those that have left it.
-/

namespace ForwardProxy.Staging

open Moderation (Gate Recorder)

/-- A gate, the names of its requests by number, and the world behind it. -/
structure Hall where
  gate : Gate
  names : List (String × Nat) := []
  world : World := {}

namespace Hall

/-- A request comes in under a name. -/
def submit (h : Hall) (name : String) (s : Proxy.Session) : Hall :=
  { h with gate := h.gate.submit s, names := (name, h.gate.tasks.length) :: h.names }

/-- The client of the request that has come in last under a name goes away. -/
def cancel (h : Hall) (name : String) : Hall :=
  match (h.names.find? fun p => p.1 = name).bind fun p => h.gate.cancel p.2 with
  | some gate => { h with gate }
  | none => h

/-- What request `n` gets, if it has left the gate only now. -/
def answerOf (h : Hall) (before : Gate) (inner : Proxy.Handler Play Nat) (n : Nat) :
    Option (String × Play (Proxy.Reply Nat)) := do
  let t ← h.gate.tasks[n]?
  let (name, _) ← h.names.find? fun p => p.2 = n
  match t.progress, (before.tasks[n]?).map Moderation.Task.progress with
  | .done _, some (.done _) => none
  | .done outcome, _ => some (name, ← outcome.answer inner t.session)
  | _, _ => none

/-- All requests move as far as they can. The answers are those of the requests that leave the gate
on that occasion or have left it since `before`. -/
def calm (h : Hall) (before : Gate) (keep : Recorder) (inner : Proxy.Handler Play Nat) :
    List (String × Http.Response) × Hall :=
  let h := { h with gate := h.gate.calm keep }
  (List.range h.gate.tasks.length).foldl (fun (done, h) n =>
    match h.answerOf before inner n with
    | none => (done, h)
    | some (name, play) =>
      let (reply, world) := play.run h.world
      (done ++ [(name, reply.response)], { h with world })) ([], h)

end Hall
end ForwardProxy.Staging
