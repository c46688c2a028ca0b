import ForwardProxy.Proxy.Transport

/-!
# What a round trip dials

A round trip dials once: the next stop on the way of its request.

* `Network.logged` is a network with an account of what is dialed, and `Dials` says that a computation over it is the
  one over the network itself, with so many addresses more in the account. It is kept by `bind` (`Dials.bind`), so it
  is shown step by step, as the round trip is made: what is done over an open connection dials nothing, and only
  `Transport.reach` asks for a connection. `Dials` compares the two computations for every account that there may have
  been before, because otherwise `bind` would not go through.
* Nothing is dialed for an origin that is to be secured and whose host is no name of a TLS server
  (`Transport.dialed_eq_nil_iff`), since a handshake with it cannot even be started.
* A target without a scheme that can be spoken, or without a host, is refused before anything is done
  (`Transport.roundTrip_of_unnamed`).

A target is named if its scheme and its host are (`Origin.IsNamed`), and unnamed if one of them is missing
(`Origin.IsUnnamed`). An authority may also stand there with nothing in the place of its host, as in `http://:80/`;
such a target is neither, and nothing is said of it here.
-/

namespace ForwardProxy.Proxy

/-! ## Accounts -/

/-- The same network, where the host and port of every connection are written down when it is asked for. -/
def Network.logged {m : Type → Type} [Monad m] (net : Network m) : Network (StateT (List HostPort) m) where
  Conn := net.Conn
  connect limit address := do
    modify (· ++ [address])
    net.connect limit address
  secure conn name := net.secure conn name
  send conn bytes := net.send conn bytes
  gather conn enough := net.gather conn enough

variable {m : Type → Type} [Monad m] [LawfulMonad m] {α β : Type}

/-- What is done with an account is what is done without one, and the account is longer by some addresses. -/
def Dials (addresses : List HostPort) (x : StateT (List HostPort) m α) (y : m α) : Prop :=
  ∀ log, x.run log = (fun a => (a, log ++ addresses)) <$> y

namespace Dials

variable {l l' : List HostPort} {x : StateT (List HostPort) m α} {y : m α} {f : α → StateT (List HostPort) m β}
  {g : α → m β}

theorem pure (a : α) : Dials (m := m) [] (pure a) (pure a) := fun log => by simp

theorem lift (y : m α) : Dials [] (monadLift y) y := fun log => by simp

theorem bind (hx : Dials l x y) (hf : ∀ a, Dials l' (f a) (g a)) : Dials (l ++ l') (x >>= f) (y >>= g) := fun log => by
  rw [StateT.run_bind, hx log, bind_map_left, map_bind]
  refine bind_congr fun a => ?_
  rw [hf a, List.append_assoc]

theorem connect (net : Network m) (limit : Option Nat) (address : HostPort) :
    Dials [address] (net.logged.connect limit address) (net.connect limit address) := fun log => by
  simp [Network.logged]

end Dials

/-! ## Round trips -/

namespace Transport

theorem dials_openTunnel (net : Network m) (o : Origin) (c : net.Conn) :
    Dials [] (openTunnel net.logged o c) (openTunnel net o c) := by
  unfold openTunnel
  refine Dials.bind (l := []) (.lift _) fun _ => Dials.bind (l := []) (.lift _) fun ⟨reply, ending⟩ => ?_
  dsimp only
  split
  · refine Dials.bind (l := []) (.lift _) fun secured => ?_
    cases secured <;> exact .pure _
  · split <;> exact .pure _

theorem dials_exchange (net : Network m) (way : Way) (c : net.Conn) (r : Http.Request) :
    Dials [] (exchange net.logged way c r) (exchange net way c r) := by
  unfold exchange
  split
  · exact .pure _
  refine Dials.bind (l := []) (.lift _) fun _ => Dials.bind (l := []) (.lift _) fun ⟨reply, ending⟩ => ?_
  dsimp only
  split
  · exact .pure _
  · exact .pure _
  · split <;> exact .pure _

/-- The hosts and ports that are dialed on the way to an origin: one, unless the origin is to be secured and its
name is none. -/
def dialed (t : Transport) (o : Origin) : List HostPort :=
  if o.https && !Tls.isServerName (Origin.bareHost o.host) then [] else [(t.way o).address]

/-- Nothing is dialed just for an origin that is to be secured under a host that is no name for that. -/
theorem dialed_eq_nil_iff {t : Transport} {o : Origin} :
    t.dialed o = [] ↔ o.https = true ∧ Tls.isServerName (Origin.bareHost o.host) = false := by
  unfold dialed
  split <;> simp_all

theorem dials_reach (net : Network m) (t : Transport) (o : Origin) :
    Dials (t.dialed o) (reach net.logged t o) (reach net t o) := by
  unfold reach dialed
  split
  · exact .pure _
  rw [← List.append_nil [(t.way o).address]]
  refine (Dials.connect net _ _).bind fun reached => ?_
  cases reached with
  | error why => exact .pure _
  | ok c =>
    dsimp only
    split
    · exact dials_openTunnel net o c
    · split
      · refine Dials.bind (l := []) (.lift _) fun secured => ?_
        cases secured <;> exact .pure _
      · exact .pure _

theorem dials_roundTrip (net : Network m) {t : Transport} {r : Http.Request} {o : Origin}
    (named : Origin.ofUri r.uri = .ok o) : Dials (t.dialed o) (t.roundTrip net.logged r) (t.roundTrip net r) := by
  unfold roundTrip
  rw [named]
  dsimp only
  rw [← List.append_nil (t.dialed o)]
  refine (dials_reach net t o).bind fun reached => ?_
  cases reached with
  | error e => exact .pure _
  | ok c => exact dials_exchange net _ c _

end Transport

/-! ## Requests that go nowhere -/

namespace Origin

variable {u : Uri} {o : Origin}

/-- The target names an origin: it has a scheme that can be spoken, and a host. -/
structure IsNamed (u : Uri) : Prop where
  scheme : u.scheme? = some "http" ∨ u.scheme? = some "https"
  host : ∃ host, u.host? = some host ∧ bareHost host ≠ ""

/-- The target has no scheme that can be spoken, or no host. -/
inductive IsUnnamed (u : Uri) : Prop
  | scheme : u.scheme? ≠ some "http" → u.scheme? ≠ some "https" → IsUnnamed u
  | host : u.host? = none → IsUnnamed u

theorem exists_ofUri (named : IsNamed u) :
    ∃ o, ofUri u = .ok o ∧ u.scheme? = some (if o.https then "https" else "http") := by
  obtain ⟨host, found, -⟩ := named.host
  rcases named.scheme with scheme | scheme
  · exact ⟨⟨false, host, u.port?.getD 80⟩, by simp [ofUri, scheme, found, defaultPort], scheme⟩
  · exact ⟨⟨true, host, u.port?.getD 443⟩, by simp [ofUri, scheme, found, defaultPort], scheme⟩

theorem exists_ofUri_eq_error (unnamed : IsUnnamed u) : ∃ why, ofUri u = .error (.invalidRequest why) := by
  unfold ofUri
  split
  · exact ⟨_, rfl⟩
  · rename_i scheme spoken
    cases unnamed with
    | scheme plain secure =>
      have other : (scheme = "https" || scheme = "http") = false := by simp_all
      exact ⟨"Unsupported scheme: " ++ scheme, by simp [other]⟩
    | host missing =>
      split
      · exact ⟨"Missing host in request URI", by simp [missing]⟩
      · exact ⟨_, rfl⟩

end Origin

/-- A request whose target has no scheme that can be spoken, or no host, is refused, and nothing is done for it. -/
theorem Transport.roundTrip_of_unnamed {r : Http.Request} (unnamed : Origin.IsUnnamed r.uri) :
    ∃ why, ∀ {m : Type → Type} [Monad m] (net : Network m) (t : Transport),
      t.roundTrip net r = pure (.error (.invalidRequest why)) := by
  obtain ⟨why, refused⟩ := Origin.exists_ofUri_eq_error unnamed
  refine ⟨why, fun net t => ?_⟩
  rw [roundTrip, refused]

end ForwardProxy.Proxy
