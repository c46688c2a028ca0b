import ForwardProxy.Interception.Decrypted
import ForwardProxy.Proofs.Address.TunnelTargets
import ForwardProxy.Proofs.Uri.Authorities

/-!
# Where a tunnel and its decrypted requests lead

The authority of a CONNECT request is read twice. The tunnel is dialed, and the certificate for the client is
made, for what stands in front of its port; a decrypted request goes to the host of the authority. The ports
are always the same. The hosts are the same, apart from a pair of brackets, just when the text in front of the
port is a host and nothing else: a user with an at-sign stays in the one reading and is dropped in the other,
and so are colons and further text when brackets stand where they should not.

* `NamesHost`: the text is that of a host. It is decidable, and speaks of the text alone.
* `host_of_bracketed`, `host_of_opening`, `host_of_name`: the host of the authority, by what its text begins with. An
  authority has one pair of brackets at most, so the three cases are all.
* `namesHost_of_sameHost`, `sameHost_of_namesHost`: the two directions of the equivalence.
* `bareHost_eq_iff`: when what is dialed is the same as well, without brackets.
* `tunnels_lead_to_hosts`: dialing, certificates and decrypted requests, for any tunnel that is accepted.

The equivalence is about hosts apart from a pair of brackets, since the one reading keeps it and the other does not.
For what is dialed this is too coarse in one case: a name with a closing bracket at its end loses it for the decrypted
requests only. So the last condition has a second part.
-/

namespace ForwardProxy

namespace Address

/-- The text is that of a host: there is no user in front of it, and it stands in a pair of brackets, or there
is no colon in it and no bracket is opened in front of it. -/
def NamesHost (t : List Char) : Prop := '@' ∉ t ∧ ((unbracket t).isSome ∨ ':' ∉ t ∧ t.head? ≠ some '[')

instance (t : List Char) : Decidable (NamesHost t) := inferInstanceAs (Decidable (_ ∧ _))

end Address

/-- The text of an authority in front of its port, as a tunnel target is read. -/
abbrev Authority.hostText (a : Authority) : List Char := Address.hostText a.text.toList

namespace Interception

open Address (hostText bare bare_of_bracketed bare_of_none mem_bare_iff unbracket NamesHost readTarget)
open Proxy (Origin)

/-- The same host, apart from a pair of brackets around the first. -/
def SameHost (typed plain : String) : Prop := typed = plain ∨ typed = "[" ++ plain ++ "]"

theorem sameHost_iff {typed plain : String} : SameHost typed plain ↔
    typed.toList = plain.toList ∨ typed.toList = '[' :: plain.toList ++ [']'] := by
  rw [SameHost, ← String.toList_inj, ← String.toList_inj, String.toList_append, String.toList_append]
  rfl

variable {a : Authority} {target : HostPort} {inner : List Char}

/-! ## The two readings -/

section

variable (accepted : readTarget a.text.toList = .ok target)
include accepted

/-- Behind the text of the host stands nothing, or a colon and a port. -/
theorem exists_tail : ∃ tail, a.text.toList = a.hostText ++ tail ∧ '@' ∉ tail ∧ tail.takeWhile (· ≠ ':') = [] :=
  Address.exists_tail accepted

theorem toList_target : target.host.toList = bare a.hostText := by
  rw [(Address.readTarget_cases accepted).1, String.toList_ofList]

theorem head?_text : a.text.toList.head? = a.hostText.head? := by
  obtain ⟨tail, text, -, -⟩ := exists_tail accepted
  conv_lhs => rw [text]
  exact List.head?_append_of_ne_nil _ (Address.readTarget_cases accepted).2.1

theorem at_notMem_text (alone : '@' ∉ a.hostText) : '@' ∉ a.text.toList := by
  obtain ⟨tail, text, behind, -⟩ := exists_tail accepted
  rw [text, List.mem_append, not_or]
  exact ⟨alone, behind⟩

/-- There are no further brackets between brackets. -/
theorem notMem_of_bracketed (bracketed : unbracket a.hostText = some inner) : '[' ∉ inner ∧ ']' ∉ inner := by
  obtain ⟨tail, text, -, -⟩ := exists_tail accepted
  obtain ⟨openings, closings⟩ := a.count_brackets_le
  rw [text, Address.unbracket_eq_some_iff.mp bracketed] at openings closings
  rw [← List.count_eq_zero, ← List.count_eq_zero]
  simp at openings closings
  omega

theorem host_of_bracketed (alone : '@' ∉ a.hostText) (bracketed : unbracket a.hostText = some inner) :
    a.host.toList = '[' :: inner ++ [']'] := by
  obtain ⟨tail, text, -, -⟩ := exists_tail accepted
  have whole := Address.unbracket_eq_some_iff.mp bracketed
  have first : a.text.toList.head? = some '[' := by rw [head?_text accepted, whole]; rfl
  have inside : ']' ∉ '[' :: inner := by simp [(notMem_of_bracketed accepted bracketed).2]
  rw [Authority.toList_host_of_opening (at_notMem_text accepted alone) first, text, whole, List.append_assoc,
    Text.takeWhile_ne_append inside, List.singleton_append, List.takeWhile_cons_of_neg (by simp), List.append_nil]

/-- Where a bracket is opened in front, it is closed at the end of the host, and there is no other. -/
theorem host_of_opening (alone : '@' ∉ a.hostText) (first : a.hostText.head? = some '[') :
    ∃ inner, '[' ∉ inner ∧ a.host.toList = '[' :: inner ++ [']'] := by
  rw [← head?_text accepted] at first
  obtain ⟨rest, text⟩ := List.head?_eq_some_iff.mp first
  refine ⟨rest.takeWhile (· ≠ ']'), ?_, ?_⟩
  · have openings := a.count_brackets_le.1
    rw [text, List.count_cons_self] at openings
    have unopened : '[' ∉ rest := List.count_eq_zero.mp (by omega)
    exact fun opening => unopened ((List.takeWhile_prefix _).subset opening)
  · rw [Authority.toList_host_of_opening (at_notMem_text accepted alone) first, text,
      List.takeWhile_cons_of_pos (by simp)]

/-- Where no bracket is opened in front, the host ends in front of the first colon. -/
theorem host_of_name (alone : '@' ∉ a.hostText) (first : a.hostText.head? ≠ some '[') :
    ':' ∉ a.host.toList ∧ (':' ∉ a.hostText → a.host.toList = a.hostText) := by
  obtain ⟨tail, text, -, port⟩ := exists_tail accepted
  rw [Authority.toList_host_of_name (at_notMem_text accepted alone) (head?_text accepted ▸ first)]
  constructor
  · intro colon
    simpa using List.mem_takeWhile_imp colon
  · intro plain
    conv_lhs => rw [text]
    rw [Text.takeWhile_ne_append plain, port, List.append_nil]

/-! ## When they agree -/

theorem namesHost_of_sameHost (same : SameHost a.host target.host) : NamesHost a.hostText := by
  rw [sameHost_iff, toList_target accepted] at same
  have both {c : Char} (opening : c ≠ '[') (closing : c ≠ ']') : c ∈ a.host.toList ↔ c ∈ a.hostText := by
    rw [← mem_bare_iff (t := a.hostText) opening closing]
    rcases same with same | same <;> simp [same, opening, closing]
  have alone : '@' ∉ a.hostText := by
    rw [← both (by decide) (by decide)]
    exact a.at_notMem_host
  refine ⟨alone, ?_⟩
  cases bracketed : unbracket a.hostText with
  | some inner => exact .inl rfl
  | none =>
    right
    have plain := bare_of_none bracketed
    have first : a.hostText.head? ≠ some '[' := by
      intro first
      obtain ⟨inner, only, host⟩ := host_of_opening accepted alone first
      rw [plain, host] at same
      rcases same with same | same
      · rw [Address.unbracket_eq_some_iff.mpr same.symm] at bracketed
        cases bracketed
      · have equal : inner = a.hostText := by simpa using same
        exact only (equal ▸ List.mem_of_mem_head? first)
    refine ⟨?_, first⟩
    rw [← both (by decide) (by decide)]
    exact (host_of_name accepted alone first).1

theorem sameHost_of_namesHost (names : NamesHost a.hostText) : SameHost a.host target.host := by
  rw [sameHost_iff, toList_target accepted]
  obtain ⟨alone, bracketed | ⟨colon, first⟩⟩ := names
  · obtain ⟨inner, bracketed⟩ := Option.isSome_iff_exists.mp bracketed
    right
    rw [host_of_bracketed accepted alone bracketed, bare_of_bracketed bracketed]
  · cases bracketed : unbracket a.hostText with
    | some inner =>
      rw [Address.unbracket_eq_some_iff.mp bracketed] at first
      exact absurd rfl first
    | none =>
      left
      rw [(host_of_name accepted alone first).2 colon, bare_of_none bracketed]

/-- What is dialed is the same just when the hosts are, unless a host without a pair of brackets ends in one. -/
theorem bareHost_eq_iff : Origin.bareHost a.host = target.host ↔ SameHost a.host target.host ∧
    ((unbracket a.hostText).isSome ∨ a.hostText.getLast? ≠ some ']') := by
  rw [Origin.bareHost, ← String.toList_inj, String.toList_ofList, toList_target accepted]
  constructor
  · intro same
    have alone : '@' ∉ a.hostText := by
      rw [← mem_bare_iff (by decide) (by decide), ← same]
      exact fun sign => a.at_notMem_host (Address.mem_of_mem_stripBrackets sign)
    cases bracketed : unbracket a.hostText with
    | some inner => exact ⟨sameHost_of_namesHost accepted ⟨alone, .inl (by simp [bracketed])⟩, .inl rfl⟩
    | none =>
      have plain := bare_of_none bracketed
      rw [plain] at same
      obtain ⟨first, last⟩ := Address.ends_stripBrackets a.host.toList
      rw [same] at first last
      refine ⟨sameHost_of_namesHost accepted ⟨alone, .inr ⟨?_, first⟩⟩, .inr last⟩
      rw [← same]
      exact fun colon => (host_of_name accepted alone first).1 (Address.mem_of_mem_stripBrackets colon)
  · rintro ⟨same, ends⟩
    obtain ⟨alone, names⟩ := namesHost_of_sameHost accepted same
    cases bracketed : unbracket a.hostText with
    | some inner =>
      obtain ⟨opening, closing⟩ := notMem_of_bracketed accepted bracketed
      rw [host_of_bracketed accepted alone bracketed, Address.stripBrackets_of_bracketed opening closing,
        bare_of_bracketed bracketed]
    | none =>
      simp only [bracketed, Option.isSome_none, Bool.false_eq_true, false_or] at ends names
      rw [(host_of_name accepted alone names.2).2 names.1, Address.stripBrackets_eq_self names.2 ends,
        bare_of_none bracketed]

end

/-! ## Tunnels -/

/-- The answer to a request for a tunnel to `target`, once it has been dialed. -/
def dialed {m : Type → Type} (ctx : Proxy.Context m) (target : HostPort) :
    Except String ctx.Conn → Except Proxy.Error (Proxy.Reply ctx.Conn)
  | .error why => .error (.unreachable target.render why)
  | .ok conn => .ok ⟨.connectionEstablished ctx.agent, .relay conn⟩

/-- The answer to a request for a tunnel to `a` that is taken over, once there are certificates for it. -/
def certified {m : Type → Type} (ctx : Proxy.Context m) (a : Authority) (connect : Http.Request) :
    Except Error (List Bytes) → Except Error (Proxy.Reply ctx.Conn)
  | .error e => .error e
  | .ok chain => .ok ⟨.connectionEstablished ctx.agent, .decrypt chain a (headOf connect)⟩

/-- Where the traffic goes of a tunnel to `a` that has been asked for in the session `s`. -/
structure LeadsTo (s : Proxy.Session) (a : Authority) (target : HostPort) : Prop where
  /-- A tunnel that is not taken over is dialed to the target. -/
  dials : ∀ {m : Type → Type} [Monad m] (ctx : Proxy.Context m),
    s.openTunnel ctx = ctx.dial target >>= fun conn => pure (dialed ctx target conn)
  /-- One that is taken over shows certificates for the host of the target, and is decrypted as one to `a`. -/
  certifies : ∀ {m : Type → Type} [Monad m] (ctx : Proxy.Context m)
    (chainFor : String → m (Except Error (List Bytes))), intercept ctx chainFor s =
      chainFor target.host >>= fun chain => pure (certified ctx a s.request chain)
  /-- All decrypted requests have the port of the target. They have its host just when the text of `a` in front
  of the port names a host and nothing else, and then they are sent to the target unless a closing bracket stands
  alone at the end of that text. -/
  origin : ∀ r, ∃ o, Origin.ofUri (decrypted a r).uri = .ok o ∧ o.https = true ∧ o.port = target.port ∧
    (SameHost o.host target.host ↔ NamesHost a.hostText) ∧
    (o.address = target ↔
      NamesHost a.hostText ∧ ((unbracket a.hostText).isSome ∨ a.hostText.getLast? ≠ some ']'))

/-- Where a tunnel leads that is accepted, and where the requests go that are decrypted in it. -/
theorem tunnels_lead_to_hosts (s : Proxy.Session) (target : HostPort)
    (accepted : Proxy.connectTarget s.request.uri = .ok target) :
    ∃ a, s.request.uri.authority? = some a ∧ LeadsTo s a target := by
  have read := accepted
  rw [Proxy.connectTarget] at read
  split at read
  · cases read
  rename_i a named
  have port : a.port?.getD (Origin.defaultPort true) = target.port := Address.port_of_readTarget read
  refine ⟨a, named, ?_, ?_, ?_⟩
  · intro m _ ctx
    rw [Proxy.Session.openTunnel, accepted]
    refine congrArg (ctx.dial target >>= ·) (funext fun conn => ?_)
    cases conn <;> rfl
  · intro m _ ctx chainFor
    rw [intercept, accepted, named]
    refine congrArg (chainFor target.host >>= ·) (funext fun chain => ?_)
    cases chain <;> rfl
  · intro r
    have hosts : SameHost a.host target.host ↔ NamesHost a.hostText :=
      ⟨namesHost_of_sameHost read, sameHost_of_namesHost read⟩
    have address : (Origin.mk true a.host target.port).address = target ↔ Origin.bareHost a.host = target.host :=
      ⟨congrArg HostPort.host, fun same => congrArg (HostPort.mk · target.port) same⟩
    refine ⟨⟨true, a.host, target.port⟩, ?_, rfl, rfl, hosts, ?_⟩
    · rw [← port]
      rfl
    · rw [address, bareHost_eq_iff read, hosts]

/-- A tunnel to a user's host leads to the user and the host, and its decrypted requests go to the host. -/
theorem user_leads_astray : ∃ (a : Authority) (target : HostPort), a.text = "user@site.test:443" ∧
    Proxy.connectTarget (.authority a) = .ok target ∧ target = ⟨"user@site.test", 443⟩ ∧
    ∀ r, ∃ o, Origin.ofUri (decrypted a r).uri = .ok o ∧ o.host = "site.test" ∧
      ¬ SameHost o.host target.host ∧ o.address ≠ target := by
  let a : Authority := ⟨"user@site.test:443", by decide⟩
  let s : Proxy.Session :=
    { request := { method := "CONNECT", uri := .authority a }, remote := ⟨.v4 [127, 0, 0, 1], 1⟩ }
  have accepted : Proxy.connectTarget s.request.uri = .ok ⟨"user@site.test", 443⟩ := by decide
  have user : ¬ NamesHost a.hostText := by decide
  obtain ⟨a', named, leads⟩ := tunnels_lead_to_hosts s _ accepted
  obtain rfl : a = a' := Option.some.inj named
  refine ⟨a, _, rfl, accepted, rfl, fun r => ?_⟩
  obtain ⟨o, origin, -, -, hosts, address⟩ := leads.origin r
  obtain rfl := Except.ok.inj origin
  have host : a.host = "site.test" := by decide
  exact ⟨_, origin, host, fun same => user (hosts.mp same), fun same => user (address.mp same).1⟩

example : NamesHost (hostText "[::1]:8443".toList) ∧ ¬ NamesHost (hostText "user@[::1]:8443".toList) := by decide

end Interception
end ForwardProxy
