import ForwardProxy.Proofs.Address.TunnelTargets
import ForwardProxy.Proofs.Text.Numerals

/-!
# Two notations for a host and a port

A tunnel target and a listen address are cut at their last colon. A port has neither a colon nor a closing bracket
in it, so with such a text at the end the cut is in front of it, whatever the host holds, and the whole is not taken
for a host in brackets. Then the two readings differ in the brackets alone that they take off the host: one pair or
all at its ends. Around a host without brackets at its ends both are the same, so that it is read back from either
notation.

* `readTarget_of_numeral`, `readListen_of_numeral`: what each notation makes of any host with a port behind it.
* `readTarget_of_unreadable`, `readListen_of_unreadable`: what it says of a text behind the last colon that is no
  port.
* `IsBareHost.readsBack`: a bare host is read back from every text that is made of it: as it is printed, with any
  numeral for the port, in brackets, and alone.
* `addresses_are_read_back`: the three together, and that a listen address has a colon.

## Side conditions

`IsBareHost` is what printing can promise. A host with a bracket at an end is printed with it and loses it again when
it is read, and of an empty host nothing is left to be read. Brackets inside and colons are no obstacle: `::[a]:1` is
such a host.

A host alone, without a port, is read by a tunnel only, and without brackets only if it has no colon; `name` and
`alone` are therefore separate.
-/

namespace ForwardProxy

namespace Text

variable {portText : List Char} {port : Nat}

theorem readPort_eq_some_iff : readPort portText = some port ↔ IsNumeral 65536 portText port :=
  readBelow_eq_some_iff_isNumeral

theorem readPort_eq_none_iff : readPort portText = none ↔ ¬ ∃ port, IsNumeral 65536 portText port := by
  simp only [← readPort_eq_some_iff, Option.eq_none_iff_forall_ne_some, not_exists, ne_eq]

/-- The marks of an address stand in no number. -/
theorem IsNumeral.notMem (h : IsNumeral 65536 portText port) : ':' ∉ portText ∧ ']' ∉ portText := by
  have read := readPort_eq_some_iff.mpr h
  constructor
  all_goals
    intro mark
    rcases char_of_readPort read mark with plus | digit
    · cases plus
    · exact absurd digit (by decide)

theorem isNumeral_toString (small : port < 65536) : IsNumeral 65536 (toString port).toList port :=
  readPort_eq_some_iff.mp (readBelow_toString small)

end Text

namespace Address

open Text (IsNumeral readPort)

variable {host portText inner : List Char} {port : Nat}

/-! ## Texts with a colon -/

/-- A text that ends in a port is no host in brackets. -/
theorem unbracket_of_port (closing : ']' ∉ portText) : unbracket (host ++ ':' :: portText) = none := by
  rw [Option.eq_none_iff_forall_ne_some]
  intro inner bracketed
  have last : (host ++ ':' :: portText).getLast? = some ']' := by
    rw [unbracket_eq_some_iff.mp bracketed]
    exact List.getLast?_concat
  rw [List.getLast?_append_of_ne_nil _ (by simp)] at last
  rcases List.mem_cons.mp (List.mem_of_getLast? last) with colon | mem
  · cases colon
  · exact closing mem

theorem splitLast_of_port (colon : ':' ∉ portText) :
    Text.splitLast ':' (host ++ ':' :: portText) = some (host, portText) :=
  Text.splitLast_eq_some_iff.mpr ⟨rfl, colon⟩

/-- A tunnel target with a port: the host stands in one pair of brackets or in none. -/
theorem readTarget_of_numeral (h : IsNumeral 65536 portText port) :
    readTarget (host ++ ':' :: portText) =
      if host = [] then .error .missingHost else .ok ⟨String.ofList (bare host), port⟩ := by
  obtain ⟨colon, closing⟩ := h.notMem
  simp only [readTarget, unbracket_of_port closing, splitLast_of_port colon, Text.readPort_eq_some_iff.mpr h]
  cases bracketed : unbracket host with
  | none => rw [bare_of_none bracketed]
  | some inner =>
    have nonempty : host ≠ [] := by simp [unbracket_eq_some_iff.mp bracketed]
    simp only [if_neg nonempty, bare_of_bracketed bracketed]

theorem readTarget_of_unreadable (colon : ':' ∉ portText) (closing : ']' ∉ portText)
    (unreadable : ¬ ∃ port, IsNumeral 65536 portText port) :
    readTarget (host ++ ':' :: portText) = .error (.invalidPort (String.ofList portText)) := by
  simp only [readTarget, unbracket_of_port closing, splitLast_of_port colon, Text.readPort_eq_none_iff.mpr unreadable]

/-- A listen address: all brackets at the ends of the host are dropped. -/
theorem readListen_of_numeral (h : IsNumeral 65536 portText port) :
    readListen (host ++ ':' :: portText) =
      if stripBrackets host = [] then none else some ⟨String.ofList (stripBrackets host), port⟩ := by
  simp [readListen, splitLast_of_port h.notMem.1, Text.readPort_eq_some_iff.mpr h]

theorem readListen_of_unreadable (colon : ':' ∉ portText) (unreadable : ¬ ∃ port, IsNumeral 65536 portText port) :
    readListen (host ++ ':' :: portText) = none := by
  simp [readListen, splitLast_of_port colon, Text.readPort_eq_none_iff.mpr unreadable]

theorem readListen_of_uncut {text : List Char} (uncut : ':' ∉ text) : readListen text = none := by
  simp [readListen, Text.splitLast_eq_none_iff.mpr uncut]

/-! ## Hosts -/

/-- The text of a host without brackets at its ends. There may be brackets inside, and colons. -/
structure IsBareHost (host : List Char) : Prop where
  filled : host ≠ []
  first : host.head? ≠ some '['
  last : host.getLast? ≠ some ']'

instance (host : List Char) : Decidable (IsBareHost host) :=
  decidable_of_iff (host ≠ [] ∧ host.head? ≠ some '[' ∧ host.getLast? ≠ some ']')
    ⟨fun h => ⟨h.1, h.2.1, h.2.2⟩, fun h => ⟨h.filled, h.first, h.last⟩⟩

/-- Both notations read a text as the same host and port. -/
def BothRead (text : List Char) (target : HostPort) : Prop :=
  readTarget text = .ok target ∧ readListen text = some target

instance (text : List Char) (target : HostPort) : Decidable (BothRead text target) :=
  inferInstanceAs (Decidable (_ ∧ _))

theorem unbracket_of_bare (h : IsBareHost host) : unbracket host = none := by
  rw [Option.eq_none_iff_forall_ne_some]
  intro inner bracketed
  exact h.first (by rw [unbracket_eq_some_iff.mp bracketed]; rfl)

/-- A host that is read back from every text that is made of it. -/
structure ReadsBack (host : List Char) : Prop where
  printed : ∀ port, port < 65536 →
    BothRead (HostPort.render ⟨String.ofList host, port⟩).toList ⟨String.ofList host, port⟩
  /-- The port may be typed in any way. -/
  plain : ∀ portText port, IsNumeral 65536 portText port →
    BothRead (host ++ ':' :: portText) ⟨String.ofList host, port⟩
  bracketed : ∀ portText port, IsNumeral 65536 portText port →
    BothRead ('[' :: host ++ [']'] ++ ':' :: portText) ⟨String.ofList host, port⟩
  /-- Without a port, a tunnel goes to the default one. -/
  alone : readTarget ('[' :: host ++ [']']) = .ok ⟨String.ofList host, 443⟩
  name : ':' ∉ host → readTarget host = .ok ⟨String.ofList host, 443⟩

theorem IsBareHost.readsBack (h : IsBareHost host) : ReadsBack host := by
  have plain : ∀ portText port, IsNumeral 65536 portText port →
      BothRead (host ++ ':' :: portText) ⟨String.ofList host, port⟩ := by
    intro portText port numeral
    have kept := stripBrackets_eq_self h.first h.last
    rw [BothRead, readTarget_of_numeral numeral, readListen_of_numeral numeral, kept, if_neg h.filled, if_neg h.filled,
      bare_of_none (unbracket_of_bare h)]
    exact ⟨rfl, rfl⟩
  have pair : unbracket ('[' :: host ++ [']']) = some host := unbracket_eq_some_iff.mpr rfl
  refine ⟨fun port small => ?_, plain, fun portText port numeral => ?_, ?_, fun uncut => ?_⟩
  · have text : (HostPort.render ⟨String.ofList host, port⟩).toList = host ++ ':' :: (toString port).toList := by
      simp [HostPort.render]
    rw [text]
    exact plain _ _ (Text.isNumeral_toString small)
  · have taken := stripBrackets_in_brackets h.first h.last
    rw [BothRead, readTarget_of_numeral numeral, readListen_of_numeral numeral, taken, if_neg h.filled,
      if_neg (by simp), bare_of_bracketed pair]
    exact ⟨rfl, rfl⟩
  · rw [readTarget, pair]
    rfl
  · simp only [readTarget, unbracket_of_bare h, Text.splitLast_eq_none_iff.mpr uncut, if_neg h.filled]
    rfl

/-- What is made of a host and a port is read back in both notations; with a text that is no port behind the last
colon neither reads anything, and without a colon there is no listen address. -/
theorem addresses_are_read_back :
    (∀ host, IsBareHost host → ReadsBack host) ∧
    (∀ host portText, ':' ∉ portText → ']' ∉ portText → (¬ ∃ port, IsNumeral 65536 portText port) →
      readTarget (host ++ ':' :: portText) = .error (.invalidPort (String.ofList portText)) ∧
        readListen (host ++ ':' :: portText) = none) ∧
    ∀ text, ':' ∉ text → readListen text = none :=
  ⟨fun _ => IsBareHost.readsBack,
    fun _ _ colon closing unreadable =>
      ⟨readTarget_of_unreadable colon closing unreadable, readListen_of_unreadable colon unreadable⟩,
    fun _ => readListen_of_uncut⟩

/-- An address literal with brackets inside, in both notations, with the greatest port and with one too great. -/
theorem addresses_are_read_back_literal :
    BothRead "::[a]:1:65535".toList ⟨"::[a]:1", 65535⟩ ∧ BothRead "[::[a]:1]:+065535".toList ⟨"::[a]:1", 65535⟩ ∧
      readTarget "[::[a]:1]".toList = .ok ⟨"::[a]:1", 443⟩ ∧
      readTarget "::[a]:1:65536".toList = .error (.invalidPort "65536") ∧ readListen "::[a]:1:65536".toList = none ∧
      readListen "8080".toList = none := by
  obtain ⟨readsBack, refused, uncut⟩ := addresses_are_read_back
  have host : ReadsBack "::[a]:1".toList := readsBack _ (by decide)
  have port : IsNumeral 65536 "+065535".toList 65535 := Text.readPort_eq_some_iff.mp (by decide)
  have large : ¬ ∃ port, IsNumeral 65536 "65536".toList port := Text.readPort_eq_none_iff.mp (by decide)
  obtain ⟨tunnel, listen⟩ := refused "::[a]:1".toList "65536".toList (by decide) (by decide) large
  exact ⟨host.printed 65535 (by decide), host.bracketed _ _ port, host.alone, tunnel, listen, uncut _ (by decide)⟩

end Address
end ForwardProxy
