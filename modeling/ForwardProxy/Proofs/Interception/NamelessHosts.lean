import ForwardProxy.Proofs.Address.Notations
import ForwardProxy.Proofs.Interception.Destination

/-!
# Hosts without a name

A listen address is looked at behind its brackets, so that its host is never empty. A tunnel target is looked at in
front of them: where nothing at all stands for a host it is refused, but brackets around nothing are a host, and
its name is empty. These targets, with or without a port, are the only ones; they are authorities like any other, so
that a request for a tunnel to one of them dials the empty name, or asks for certificates for it.

* `host_eq_empty_iff`: a target that is read has an empty name just when it is hollow.
* `readTarget_of_hollow`, `readTarget_of_unnamed`: what is read of brackets around nothing, and of nothing.
* `host_ne_empty`, `readListen_of_brackets`: a listen address is refused in either case, with any number of brackets.
* `isRefused`, `exists_isServed`: what a request for a tunnel leads to; a fault of the target is answered before
  anything is dialed or certified.
* `nameless_hosts_are_hollow`: all of it, for any text and any session.

With nothing in front of a colon, the port behind it is still read first, so that a text that is no port is named as
the fault and not the missing host (`unnamed`).
-/

namespace ForwardProxy

namespace Address

open Text (IsNumeral)

variable {text portText : List Char} {port : Nat} {target : HostPort}

/-- Brackets around nothing, alone or in front of a port. -/
def IsHollow (text : List Char) : Prop :=
  text = ['[', ']'] ∨ ∃ portText port, IsNumeral 65536 portText port ∧ text = ['[', ']'] ++ ':' :: portText

/-- Only from a pair of brackets nothing is left. -/
theorem bare_eq_nil_iff {t : List Char} (filled : t ≠ []) : bare t = [] ↔ t = ['[', ']'] := by
  cases bracketed : unbracket t with
  | none =>
    rw [bare_of_none bracketed]
    refine ⟨fun empty => absurd empty filled, ?_⟩
    rintro rfl
    cases bracketed
  | some inner =>
    rw [bare_of_bracketed bracketed, unbracket_eq_some_iff.mp bracketed]
    simp

theorem readTarget_of_hollow (h : IsHollow text) : ∃ port, readTarget text = .ok ⟨"", port⟩ := by
  rcases h with rfl | ⟨portText, port, numeral, rfl⟩
  · exact ⟨defaultTunnelPort, rfl⟩
  · refine ⟨port, ?_⟩
    rw [readTarget_of_numeral numeral]
    rfl

/-- A tunnel target has an empty name just when it is brackets around nothing. -/
theorem host_eq_empty_iff (h : readTarget text = .ok target) : target.host = "" ↔ IsHollow text := by
  constructor
  · intro empty
    obtain ⟨host, filled, cut⟩ := readTarget_cases h
    have brackets : hostText text = ['[', ']'] := by
      rw [← bare_eq_nil_iff filled, ← String.toList_ofList (l := bare (hostText text)), ← host, empty]
      rfl
    rw [brackets] at cut
    rcases cut with ⟨whole, -, -⟩ | ⟨back, cut, read⟩
    · exact .inl whole
    · exact .inr ⟨back, target.port, Text.readPort_eq_some_iff.mp read, (Text.splitLast_eq_some_iff.mp cut).1⟩
  · intro hollow
    obtain ⟨port, read⟩ := readTarget_of_hollow hollow
    rw [read] at h
    cases h
    rfl

/-- A listen address has a name. -/
theorem host_ne_empty (h : readListen text = some target) : target.host ≠ "" := by
  obtain ⟨⟨hostText, portText⟩, -, h⟩ := Option.bind_eq_some_iff.mp h
  obtain ⟨port, -, h⟩ := Option.bind_eq_some_iff.mp h
  obtain ⟨filled, named⟩ := Option.ite_none_left_eq_some.mp h
  cases named
  rwa [ne_eq, ← String.toList_eq_nil_iff, String.toList_ofList]

/-- Without a name in front of it, a colon makes no tunnel target, whatever stands behind it. -/
theorem readTarget_of_unnamed (colon : ':' ∉ portText) : readTarget (':' :: portText) =
    .error ((Text.readPort portText).elim (.invalidPort (String.ofList portText)) fun _ => .missingHost) := by
  have cut : Text.splitLast ':' (':' :: portText) = some ([], portText) := @splitLast_of_port [] _ colon
  have bare : unbracket (':' :: portText) = none := rfl
  simp only [readTarget, bare, cut]
  cases Text.readPort portText <;> rfl

/-- Opening brackets and closing ones behind them. -/
def brackets (m n : Nat) : List Char := List.replicate m '[' ++ List.replicate n ']'

/-- They are all dropped. -/
theorem stripBrackets_brackets (m n : Nat) : stripBrackets (brackets m n) = [] := by
  have openings : ∀ c ∈ List.replicate m '[', decide (c = '[') = true := by simp
  have closings : (List.replicate n ']').dropWhile (· = '[') = List.replicate n ']' :=
    dropWhile_eq_self (by cases n <;> simp [List.replicate_succ])
  rw [brackets, stripBrackets_eq, List.dropWhile_append_of_pos openings, closings, List.rdropWhile_eq_nil_iff]
  simp

theorem readListen_of_brackets (m n : Nat) (colon : ':' ∉ portText) :
    readListen (brackets m n ++ ':' :: portText) = none := by
  by_cases numeral : ∃ port, IsNumeral 65536 portText port
  · obtain ⟨port, numeral⟩ := numeral
    rw [readListen_of_numeral numeral, if_pos (stripBrackets_brackets m n)]
  · exact readListen_of_unreadable colon numeral

/-- What is made of a text as far as the name of a host goes. -/
structure Naming (text : List Char) : Prop where
  listen : ∀ target, readListen text = some target → target.host ≠ ""
  /-- With nothing but brackets for a host, there is no listen address. -/
  brackets : ∀ m n, text = brackets m n ∨ (∃ portText, ':' ∉ portText ∧ text = brackets m n ++ ':' :: portText) →
    readListen text = none
  /-- With nothing for a host, there is no tunnel target. -/
  missing : text = [] → readTarget text = .error .missingHost
  unnamed : ∀ portText, ':' ∉ portText → text = ':' :: portText → readTarget text =
    .error ((Text.readPort portText).elim (.invalidPort (String.ofList portText)) fun _ => .missingHost)
  /-- Only with brackets around nothing there is one without a name. -/
  hollow : ∀ target, readTarget text = .ok target → (target.host = "" ↔ IsHollow text)
  nameless : IsHollow text → ∃ port, readTarget text = .ok ⟨"", port⟩

end Address

namespace Interception

open Address (IsHollow readTarget)

/-- What is done for a tunnel to `target` that has been asked for in the session `s`: it is dialed, or there are to be
certificates for its host. -/
structure IsServed (s : Proxy.Session) (a : Authority) (target : HostPort) : Prop where
  hollow : target.host = "" ↔ IsHollow a.text.toList
  dials : ∀ {m : Type → Type} [Monad m] (ctx : Proxy.Context m),
    s.openTunnel ctx = ctx.dial target >>= fun conn => pure (dialed ctx target conn)
  certifies : ∀ {m : Type → Type} [Monad m] (ctx : Proxy.Context m)
    (chainFor : String → m (Except Error (List Bytes))), intercept ctx chainFor s =
      chainFor target.host >>= fun chain => pure (certified ctx a s.request chain)

/-- Nothing is dialed in the session `s`, and no certificates are asked for. -/
structure IsRefused (s : Proxy.Session) (fault : TargetFault) : Prop where
  tunnel : ∀ {m : Type → Type} [Monad m] (ctx : Proxy.Context m),
    s.openTunnel ctx = pure (.error (.ofTargetFault fault))
  interception : ∀ {m : Type → Type} [Monad m] (ctx : Proxy.Context m)
    (chainFor : String → m (Except Error (List Bytes))),
    intercept ctx chainFor s = pure (.error (.invalidTarget (Proxy.Error.ofTargetFault fault).message))

variable {s : Proxy.Session} {target : HostPort} {fault : TargetFault}

theorem isRefused (refused : Proxy.connectTarget s.request.uri = .error fault) : IsRefused s fault := by
  refine ⟨fun ctx => ?_, fun ctx chainFor => ?_⟩
  · rw [Proxy.Session.openTunnel, refused]
  · rw [intercept, refused]

theorem exists_isServed (accepted : Proxy.connectTarget s.request.uri = .ok target) :
    ∃ a, s.request.uri.authority? = some a ∧ IsServed s a target := by
  have read := accepted
  rw [Proxy.connectTarget] at read
  split at read
  · cases read
  rename_i a named
  refine ⟨a, named, Address.host_eq_empty_iff read, fun ctx => ?_, fun ctx chainFor => ?_⟩
  · rw [Proxy.Session.openTunnel, accepted]
    refine congrArg (ctx.dial target >>= ·) (funext fun conn => ?_)
    cases conn <;> rfl
  · rw [intercept, accepted, named]
    refine congrArg (chainFor target.host >>= ·) (funext fun chain => ?_)
    cases chain <;> rfl

/-- A listen address never lacks a name, and a tunnel target lacks one just when it is brackets around nothing. So an
empty name is dialed, or certified, for these alone. -/
theorem nameless_hosts_are_hollow (text : List Char) (s : Proxy.Session) : Address.Naming text ∧
    (∀ fault, Proxy.connectTarget s.request.uri = .error fault → IsRefused s fault) ∧
    ∀ target, Proxy.connectTarget s.request.uri = .ok target →
      ∃ a, s.request.uri.authority? = some a ∧ IsServed s a target := by
  refine ⟨⟨fun _ => Address.host_ne_empty, ?_, ?_, ?_, fun _ => Address.host_eq_empty_iff,
    Address.readTarget_of_hollow⟩, fun _ => isRefused, fun _ => exists_isServed⟩
  · rintro m n (rfl | ⟨portText, colon, rfl⟩)
    · exact Address.readListen_of_uncut (by simp [Address.brackets])
    · exact Address.readListen_of_brackets m n colon
  · rintro rfl
    rfl
  · rintro portText colon rfl
    exact Address.readTarget_of_unnamed colon

/-- A tunnel to brackets around nothing is dialed without a name, and certificates for it are asked for. -/
theorem hollow_tunnel_is_served : ∃ (a : Authority) (s : Proxy.Session), a.text = "[]:443" ∧
    Proxy.connectTarget s.request.uri = .ok ⟨"", 443⟩ ∧ IsServed s a ⟨"", 443⟩ ∧ IsHollow a.text.toList ∧
    Address.readListen a.text.toList = none := by
  let a : Authority := ⟨"[]:443", by decide⟩
  let s : Proxy.Session :=
    { request := { method := "CONNECT", uri := .authority a }, remote := ⟨.v4 [127, 0, 0, 1], 1⟩ }
  have accepted : Proxy.connectTarget s.request.uri = .ok ⟨"", 443⟩ := by decide
  obtain ⟨naming, -, sessions⟩ := nameless_hosts_are_hollow a.text.toList s
  obtain ⟨a', named, served⟩ := sessions _ accepted
  obtain rfl : a = a' := Option.some.inj named
  have listen := naming.brackets 1 1 (.inr ⟨"443".toList, by decide, by decide⟩)
  exact ⟨a, s, rfl, accepted, served, served.hollow.mp rfl, listen⟩

end Interception
end ForwardProxy
