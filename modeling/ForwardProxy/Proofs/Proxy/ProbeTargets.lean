import ForwardProxy.Proofs.Proxy.Sending
import ForwardProxy.Proofs.Text.Base64
import ForwardProxy.Proxy.LoopProbe

/-!
# Where the token of the loop probe ends up

The token is put behind the whole test URL. If the URL has no fragment, that is the end of its query, or the
beginning of one, since a question mark in the URL can then only stand in front of a query: the target that is
requested is the tested one with one more parameter, and whoever reads the request finds the token, in whichever
form the target is written. Behind a fragment the token is a part of the fragment, so it is lost: the tested
target is requested as it is. A URL that gets too long is not requested at all, and the request for a tunnel, by
which an encrypted URL is reached through a proxy, carries no query.

* `hash_mem_iff`, `mark_mem_iff`: which marks stand in a URL is told by its spelling.
* `exists_extended`, `exists_longer`: the URL with the token behind it is again the text of a spelling, with a longer
  query or with a longer fragment. So nothing has to be read a second time.
* `isReceived_target`: the whole target, and its path and query alone, are both found with the token in them.
* `probes_are_recognised`: the four cases of `Probed`.

A token is written in the alphabet for targets, and each of its characters may stand in a query
(`isQueryChar_of_value?`); otherwise the token itself could end the query. That the test URL is an absolute target is
what makes it a URL that can be requested. The cases with and without a fragment are told by the number sign, as a
reader of the configuration would, and not by the spelling.
-/

namespace ForwardProxy

namespace Uri.Spelling

open PathQuery (queryText queryText_some isPathChar)

variable {w : Spelling}

/-- The text in front of the query. -/
def front (w : Spelling) : List Char := w.scheme ++ (divider ++ (w.authority.text.toList ++ w.path))

theorem text_eq_front (w : Spelling) : w.text = w.front ++ (queryText w.query ++ w.fragment) := by
  simp [text, tail, front]

/-- The marks of a query and of a fragment stand nowhere in front of the query. -/
theorem IsProper.mark_notMem_front (h : w.IsProper) {c : Char} (mark : c = '?' ∨ c = '#') : c ∉ w.front := by
  have scheme : isSchemeChar c = false := by rcases mark with rfl | rfl <;> decide
  have path : isPathChar c = false := PathQuery.isPathChar_of_ends mark
  have ends : endsAuthority c = true := endsAuthority_iff.mpr (.inr mark)
  simp only [front, List.mem_append, not_or]
  refine ⟨fun typed => ?_, ?_, fun named => ?_, fun held => ?_⟩
  · rw [h.scheme.chars c typed] at scheme
    cases scheme
  · rcases mark with rfl | rfl <;> decide
  · rw [w.authority.endsAuthority_of_mem named] at ends
    cases ends
  · rw [h.pieces.path c held] at path
    cases path

/-- A number sign stands in front of a fragment only. -/
theorem IsProper.hash_mem_iff (h : w.IsProper) : '#' ∈ w.text ↔ w.fragment ≠ [] := by
  have query : '#' ∉ queryText w.query := by
    cases shown : w.query with
    | none => simp
    | some q =>
      rw [queryText_some, List.mem_cons, not_or]
      exact ⟨by decide, fun held => absurd (h.pieces.query q shown '#' held) (by decide)⟩
  have fragment : '#' ∈ w.fragment ↔ w.fragment ≠ [] := by
    cases shown : w.fragment with
    | nil => simp
    | cons c cs => simp [h.pieces.fragment c (by rw [shown]; rfl)]
  simp only [text_eq_front, List.mem_append, h.mark_notMem_front (.inr rfl), query, false_or, fragment]

/-- Without a fragment, a question mark stands in front of a query only. -/
theorem IsProper.mark_mem_iff (h : w.IsProper) (plain : w.fragment = []) : '?' ∈ w.text ↔ w.query.isSome = true := by
  rw [text_eq_front, List.mem_append, plain, List.append_nil]
  cases w.query <;> simp [h.mark_notMem_front (.inl rfl)]

end Uri.Spelling

namespace Proxy.LoopProbe

open Text.Base64 (urlSafe value?)

/-! ## Tokens -/

/-- A text occurs in another just when the other has it somewhere. -/
theorem occursIn_iff {text cs : List Char} : occursIn text cs = true ↔ text <:+: cs := by
  induction cs with
  | nil => simp [occursIn]
  | cons c cs ih => rw [occursIn, Bool.or_eq_true, List.isPrefixOf_iff_prefix, ih, List.infix_cons_iff]

/-- The text consists of characters of the alphabet for targets. -/
def IsToken (token : String) : Prop := ∀ c ∈ token.toList, (value? urlSafe c).isSome = true

theorem isToken_token (random : Bytes) : IsToken (token random) := by
  intro c hc
  rw [token, String.toList_ofList, Text.Base64.encode_unpadded] at hc
  obtain ⟨v, hv, rfl⟩ := List.mem_map.mp hc
  rw [Text.Base64.value?_digit_urlSafe (Text.Base64.values_lt hv)]
  rfl

/-- A character of a token may stand in a query. -/
theorem isQueryChar_of_value? {c : Char} (h : (value? urlSafe c).isSome = true) :
    PathQuery.isQueryChar c = true := by
  have between (a b : Char) (h : a ≤ c ∧ c ≤ b) : a.toNat ≤ c.toNat ∧ c.toNat ≤ b.toNat := h
  have codes : 65 ≤ c.toNat ∧ c.toNat ≤ 90 ∨ 97 ≤ c.toNat ∧ c.toNat ≤ 122 ∨ 48 ≤ c.toNat ∧ c.toNat ≤ 57 ∨
      c.toNat = 45 ∨ c.toNat = 95 := by
    rw [value?] at h
    split at h
    · exact .inl (between 'A' 'Z' ‹_›)
    split at h
    · exact .inr (.inl (between 'a' 'z' ‹_›))
    split at h
    · exact .inr (.inr (.inl (between '0' '9' ‹_›)))
    split at h
    · exact .inr (.inr (.inr (.inl (congrArg Char.toNat ‹_›))))
    split at h
    · exact .inr (.inr (.inr (.inr (congrArg Char.toNat ‹_›))))
    · cases h
  simp only [PathQuery.isQueryChar, Bool.or_eq_true, Bool.and_eq_true, beq_iff_eq, decide_eq_true_eq]
  omega

/-! ## Targets -/

/-- A query with one more parameter, the token. -/
def extended (query : Option String) (token : String) : String :=
  query.elim "" (· ++ "&") ++ parameter ++ "=" ++ token

/-- The target that carries the token. -/
def target (scheme : String) (a : Authority) (t : PathQuery) (token : String) : Uri :=
  .absolute scheme a ⟨t.path, some (extended t.query token)⟩

/-- Whoever scans the request for a target finds the token, in whichever form the target is written. -/
def IsReceived (token : String) (u : Uri) : Prop :=
  ∀ way o, Origin.ofUri u = .ok o → (Transport.targetText way u).utf8ByteSize ≤ Uri.maxLength →
    ∃ head, Http.scanRequestHead (Http.Wire.request (Transport.withHost o { uri := u }) (Transport.targetText way u)) =
      .done head [] ∧ isHit token head.uri = true

/-- What becomes of the token behind a test URL, which is read as an absolute target. -/
structure Probed (testUrl token scheme : String) (a : Authority) (t : PathQuery) : Prop where
  /-- Without a fragment, the tested target is requested with the token in its query. -/
  carried : '#' ∉ testUrl.toList → (url testUrl token).utf8ByteSize ≤ Uri.maxLength →
    Uri.parse? (url testUrl token) = some (target scheme a t token) ∧ isHit token (target scheme a t token) = true ∧
      IsReceived token (target scheme a t token)
  /-- With a fragment, the tested target is requested as it is. -/
  lost : '#' ∈ testUrl.toList → (url testUrl token).utf8ByteSize ≤ Uri.maxLength →
    Uri.parse? (url testUrl token) = some (.absolute scheme a t)
  /-- A URL that is too long is no target. -/
  tooLong : Uri.maxLength < (url testUrl token).utf8ByteSize → Uri.parse? (url testUrl token) = none
  /-- A request for a tunnel to the tested target carries no token. -/
  tunnelled : ∀ o head rest, Origin.ofUri (target scheme a t token) = .ok o →
    Http.scanRequestHead (Transport.tunnelRequest o) = .done head rest → isHit token head.uri = false

variable {testUrl token scheme : String} {a : Authority} {t : PathQuery}

open Uri (Spelling)

/-- The spelling of a URL without a fragment with one more parameter. -/
theorem exists_extended {w : Spelling} (h : w.IsProper) (plain : w.fragment = []) (safe : IsToken token)
    (text : testUrl.toList = w.text) : ∃ w' : Spelling, w'.IsProper ∧ (url testUrl token).toList = w'.text ∧
      w'.uri = .absolute (Uri.schemeName w.scheme) w.authority
        ⟨PathQuery.pathName w.path, some (extended (w.query.map String.ofList) token)⟩ := by
  have assigned : ∀ c ∈ (parameter ++ "=" ++ token).toList, PathQuery.isQueryChar c = true := by
    simp only [String.toList_append, List.forall_mem_append]
    exact ⟨⟨forall_mem_of_all (by decide), forall_mem_of_all (by decide)⟩,
      fun c hc => isQueryChar_of_value? (safe c hc)⟩
  have chars : ∀ c ∈ (extended (w.query.map String.ofList) token).toList, PathQuery.isQueryChar c = true := by
    cases query : w.query with
    | none => simpa [extended] using assigned
    | some q =>
      have before := h.pieces.query q query
      simp only [extended, Option.map_some, Option.elim_some, String.toList_append, String.toList_ofList,
        List.forall_mem_append] at assigned ⊢
      exact ⟨⟨⟨⟨before, forall_mem_of_all (by decide)⟩, assigned.1.1⟩, assigned.1.2⟩, assigned.2⟩
  refine ⟨{ w with query := some (extended (w.query.map String.ofList) token).toList },
    ⟨h.scheme, ⟨h.pieces.path, by simpa using chars, h.pieces.fragment⟩, h.slash⟩, ?_, ?_⟩
  · have mark := h.mark_mem_iff plain
    rw [Spelling.text_eq_front] at mark text ⊢
    cases query : w.query with
    | none => simp_all [url, extended, Spelling.front]
    | some q => simp_all [url, extended, Spelling.front]
  · simp [Spelling.uri]

/-- More text behind a fragment is a part of it. -/
theorem exists_longer {w : Spelling} (h : w.IsProper) (nonempty : w.fragment ≠ []) (more : List Char) :
    ∃ w' : Spelling, w'.IsProper ∧ w.text ++ more = w'.text ∧ w'.uri = w.uri := by
  have head : (w.fragment ++ more).head? = w.fragment.head? := List.head?_append_of_ne_nil w.fragment nonempty
  refine ⟨{ w with fragment := w.fragment ++ more },
    ⟨h.scheme, ⟨h.pieces.path, h.pieces.query, by rw [head]; exact h.pieces.fragment⟩, h.slash⟩, ?_, rfl⟩
  simp [Spelling.text, Spelling.tail]

theorem isHit_target : isHit token (target scheme a t token) = true := by
  have suffix : token.toList <:+ (extended t.query token).toList := by
    rw [extended, String.toList_append]
    exact List.suffix_append _ _
  exact occursIn_iff.mpr suffix.isInfix

/-- A target that has been read with the token is received with it. -/
theorem isReceived_target {s : String} (read : Uri.parse? s = some (target scheme a t token)) :
    IsReceived token (target scheme a t token) := by
  have proper := Uri.isProper_of_parse? read rfl
  have hit : isHit token (target scheme a t token) = true := isHit_target
  -- the whole target and its path and query are both found as they are
  have sent (way : Way) (short : (Transport.targetText way (target scheme a t token)).utf8ByteSize ≤ Uri.maxLength) :
      (∀ c ∈ (Transport.targetText way (target scheme a t token)).toList, Text.IsVisibleChar c) ∧
        ∃ found, Uri.parse? (Transport.targetText way (target scheme a t token)) = some found ∧
          isHit token found = true := by
    cases way with
    | forwarded => exact ⟨Uri.visible_render read, _, Uri.parse?_render read short, hit⟩
    | direct => exact ⟨proper.visible, _, Uri.parse?_path proper short, hit⟩
    | tunnelled => exact ⟨proper.visible, _, Uri.parse?_path proper short, hit⟩
  intro way o origin short
  obtain ⟨visible, found, named, hit⟩ := sent way short
  obtain ⟨headers, scanned⟩ := Transport.scanRequestHead_request origin visible named
  exact ⟨_, scanned, hit⟩

/-- What is requested for a test URL, and whether the token can be found in it. -/
theorem probes_are_recognised (absolute : Uri.parse? testUrl = some (.absolute scheme a t)) (safe : IsToken token) :
    Probed testUrl token scheme a t := by
  obtain ⟨w, proper, text, read⟩ := Spelling.exists_text absolute
  obtain ⟨rfl, rfl, rfl⟩ := Uri.absolute.inj read
  have hash := proper.hash_mem_iff
  rw [← text] at hash
  refine ⟨fun plain short => ?_, fun marked short => ?_, fun long => ?_, fun o head rest origin scanned => ?_⟩
  · have plain : w.fragment = [] := by rwa [hash, not_not] at plain
    obtain ⟨w', proper', text', read'⟩ := exists_extended proper plain safe text
    have parsed := Spelling.parse?_text proper' text' short
    rw [read'] at parsed
    exact ⟨parsed, isHit_target, isReceived_target parsed⟩
  · obtain ⟨w', proper', text', read'⟩ := exists_longer proper (hash.mp marked)
      ((if testUrl.toList.contains '?' then "&" else "?") ++ parameter ++ "=" ++ token).toList
    rw [← text] at text'
    rw [Spelling.parse?_text proper' (by rw [← text']; simp [url]) short, read']
    rfl
  · rw [Uri.parse?.eq_def, if_pos long]
  · rw [isHit, Transport.scanRequestHead_tunnelRequest origin scanned]

/-- A fragment takes the token up. -/
theorem probes_are_recognised_fragment : ∃ a, a.text = "loop.invalid" ∧
    Uri.parse? "http://loop.invalid/?a=b#part" = some (.absolute "http" a ⟨"/", some "a=b"⟩) ∧
    Uri.parse? (url "http://loop.invalid/?a=b#part" (LoopProbe.token [1, 2, 3])) =
      some (.absolute "http" a ⟨"/", some "a=b"⟩) := by
  let a : Authority := ⟨"loop.invalid", by decide⟩
  have read : Uri.parse? "http://loop.invalid/?a=b#part" = some (.absolute "http" a ⟨"/", some "a=b"⟩) := by decide
  have probed := probes_are_recognised read (isToken_token [1, 2, 3])
  exact ⟨a, rfl, read, probed.lost (by decide) (by decide)⟩

end Proxy.LoopProbe
end ForwardProxy
