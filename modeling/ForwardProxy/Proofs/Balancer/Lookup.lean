import ForwardProxy.Http.Message
import ForwardProxy.Proofs.Balancer.Turns
import ForwardProxy.Proofs.Text.Bytes

/-!
# Routes of requests

A request names its host in its first Host field, if that is text, and in its target otherwise. A route answers
to its own name, and to its name with a colon and any number of digits behind it, unless the whole is the name of
a route too. The lookup does not try a second name when the route that it has found is without backends: the
shorter name is tried only if there is no route at all.

* `Http.Request.names_namedHost`: the host that is looked up is the one that the request names. Text is what is made
  of visible characters of ASCII, spaces and tabs; a field with any other byte is passed over, and then no further
  Host field is asked.
* `routeKey_eq_iff`: a route is looked up just when it answers to the host.
* `exists_port_iff`: the port is behind the last colon, since digits are no colons.

`IsRoute` holds of a name also when its list of backends is empty; `Serves`, in the other modules, does not. The
difference matters here alone: an empty list under the whole name hides the route under the shorter one.
-/

namespace ForwardProxy

/-! ## Named hosts -/

namespace Http.Request

/-- The byte stands for a visible character of ASCII, a space or a tab. -/
def IsTextByte (b : UInt8) : Prop := b = 9 ∨ 0x20 ≤ b ∧ b ≤ 0x7E

/-- The host is the one that the request names. -/
structure Names (r : Request) (host : String) : Prop where
  /-- The first Host field counts, if it is text. -/
  field : ∀ v, r.headers.first? "host" = some v → (∀ b ∈ v, IsTextByte b) → Bytes.ofString host = v
  /-- Otherwise the host of the target counts, if the target has one. -/
  target : (∀ v, r.headers.first? "host" = some v → ∃ b ∈ v, ¬ IsTextByte b) → host = r.uri.host?.getD ""

theorem isText_iff {v : Bytes} :
    (v.all fun b => b == 9 || (0x20 ≤ b && b ≤ 0x7E)) = true ↔ ∀ b ∈ v, IsTextByte b := by
  simp [IsTextByte]

theorem text?_of_text {v : Bytes} (h : ∀ b ∈ v, IsTextByte b) : Headers.text? v = some (Bytes.latin1 v) :=
  if_pos (isText_iff.mpr h)

theorem text?_of_other {v : Bytes} (h : ∃ b ∈ v, ¬ IsTextByte b) : Headers.text? v = none := by
  refine if_neg fun text => ?_
  obtain ⟨b, hb, other⟩ := h
  exact other (isText_iff.mp text b hb)

theorem names_namedHost (r : Request) : r.Names r.namedHost := by
  constructor
  · intro v first text
    have ascii : ∀ b ∈ v, b.toNat < 128 := by
      intro b hb
      rcases text b hb with rfl | ⟨-, high⟩
      · decide
      · have : b.toNat ≤ 126 := high
        omega
    rw [namedHost, first, Option.bind_some, text?_of_text text, Bytes.ofString_latin1 ascii]
  · intro other
    have textless : (r.headers.first? "host").bind Headers.text? = none := by
      rw [Option.bind_eq_none_iff]
      exact fun v first => text?_of_other (other v first)
    rw [namedHost, textless]

end Http.Request

namespace Balancer

variable {strategy : Strategy} {routes : Routes} {host r : String} {bs : List String}

/-- There is a route of this name, with or without backends. -/
def IsRoute (routes : Routes) (host : String) : Prop := ∃ route ∈ routes, route.1 = host

/-- The route of this name answers to the host. -/
def AnswersTo (routes : Routes) (r host : String) : Prop :=
  host = r ∨ ¬ IsRoute routes host ∧
    ∃ port : List Char, (∀ c ∈ port, Text.isDigit c = true) ∧ host.toList = r.toList ++ ':' :: port

theorem backends?_isSome_iff : ((ofRoutes strategy routes).backends? host).isSome = true ↔ IsRoute routes host := by
  simp [Balancer.backends?, ofRoutes, IsRoute, List.find?_isSome]

theorem Serves.isRoute (h : Serves routes r bs) : IsRoute routes r :=
  backends?_isSome_iff.mp (by rw [h.1]; rfl)

/-- The colon in front of a port of digits is the last one. -/
theorem exists_port_iff {text name : List Char} :
    (∃ port : List Char, (∀ c ∈ port, Text.isDigit c = true) ∧ text = name ++ ':' :: port) ↔
      ∃ port, Text.splitLast ':' text = some (name, port) ∧ port.all Text.isDigit = true := by
  refine exists_congr fun port => ?_
  rw [Text.splitLast_eq_some_iff, List.all_eq_true, and_comm, and_assoc, and_congr_right_iff]
  rintro -
  exact ⟨fun digits => ⟨fun colon => absurd (digits ':' colon) (by decide), digits⟩, And.right⟩

/-- A route is looked up just when it answers to the host. -/
theorem routeKey_eq_iff (served : IsRoute routes r) :
    (ofRoutes strategy routes).routeKey host = r ↔ AnswersTo routes r host := by
  rw [Balancer.routeKey]
  split
  · rename_i whole
    have known : IsRoute routes host := backends?_isSome_iff.mp whole
    exact ⟨.inl, fun answers => answers.elim id fun shorter => absurd known shorter.1⟩
  rename_i whole
  have unknown : ¬ IsRoute routes host := fun known => whole (backends?_isSome_iff.mpr known)
  have other : host ≠ r := fun same => unknown (same ▸ served)
  simp only [AnswersTo, other, unknown, not_false_eq_true, true_and, false_or, exists_port_iff]
  split
  · rename_i name port cut
    split
    · rename_i digits
      constructor
      · rintro rfl
        exact ⟨port, by rw [cut, String.toList_ofList], digits⟩
      · rintro ⟨port', cut', -⟩
        obtain ⟨rfl, -⟩ := Prod.mk.inj (Option.some.inj (cut.symm.trans cut'))
        exact String.ofList_toList
    · rename_i mixed
      refine ⟨fun same => absurd same other, ?_⟩
      rintro ⟨port', cut', digits⟩
      obtain ⟨-, rfl⟩ := Prod.mk.inj (Option.some.inj (cut.symm.trans cut'))
      exact absurd digits mixed
  · rename_i uncut
    refine ⟨fun same => absurd same other, ?_⟩
    rintro ⟨port, cut, -⟩
    cases uncut.symm.trans cut

end Balancer
end ForwardProxy
