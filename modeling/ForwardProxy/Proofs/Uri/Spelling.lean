import ForwardProxy.Proofs.Lists
import ForwardProxy.Proofs.Uri.Authorities
import Mathlib.Data.List.TakeWhile

/-!
# How absolute targets are written

A text is read as a target in the absolute form just when it is written like one: a scheme and `://`, an
authority, a path that is empty or begins with a slash, perhaps a question mark and a query, and perhaps a
number sign and a fragment. All of these can be told from the text, since every one of them ends in front of a
character that it cannot hold. The target keeps the authority and the query as they are written. A scheme that
is http or https in any case becomes small, an empty path becomes the root, and the fragment is lost.

* `Spelling` holds the parts as they are typed, `Spelling.text` puts them together, and `Spelling.uri` is the target.
* `Spelling.parse?_text`: every proper spelling that is not too long is read as its target.
* `Spelling.exists_text`: every text that is read as an absolute target is the text of a proper spelling.

With these two, a property of the reader is one of the parts. A later module takes a target that was read, obtains
its spelling, and never opens the reader again.

## How the proof goes

Both directions go through the text from left to right and cut it where the reader cuts it. `takeWhile_run` and
`dropWhile_run` find the end of a part from the kind of the character behind it; `Pieces` does so for path, query and
fragment, `IsTyped` for the scheme. The reader looks for `http://` and `https://` first, in any case, and only then
for a scheme in general. That both ways cut off the same scheme is `eqIgnoringCase_take_iff`: a name of letters is
found in front of a text just when the scheme as typed is that name in some case, since the divider has no letters
(`eq_divider`).

## Side conditions

The slash of `IsProper` is a condition on the parts, not on the text: a path that begins otherwise would be taken
for more of the authority. An empty scheme is a spelling too (`://a.test`), which the reader accepts as long as
anything follows; an authority is never empty, so something does. The bound on the length is the reader's own. It
counts bytes, and is asked for in one direction only.
-/

namespace ForwardProxy

section Spans

variable {α : Type} {p : α → Bool} {xs ys : List α}

/-- A run ends where the next member is of another kind. -/
theorem takeWhile_run (run : ∀ x ∈ xs, p x = true) (next : ∀ y ∈ ys.head?, p y = false) :
    (xs ++ ys).takeWhile p = xs := by
  cases ys with
  | nil => rw [List.append_nil, List.takeWhile_eq_self_iff.mpr run]
  | cons y ys =>
    have other : ¬ p y = true := by simpa using next y rfl
    rw [List.takeWhile_append_of_pos run, List.takeWhile_cons_of_neg other, List.append_nil]

theorem dropWhile_run (run : ∀ x ∈ xs, p x = true) (next : ∀ y ∈ ys.head?, p y = false) :
    (xs ++ ys).dropWhile p = ys := by
  rw [List.dropWhile_append_of_pos run]
  cases ys with
  | nil => rfl
  | cons y ys => exact List.dropWhile_cons_of_neg (by simpa using next y rfl)

end Spans

namespace Text

/-- A letter is the small form of a letter alone, and every other character of itself alone. -/
theorem lowerChar_cases (c : Char) : lowerChar c = c ∨ isLetter c = true ∧ isLetter (lowerChar c) = true := by
  by_cases capital : 'A' ≤ c ∧ c ≤ 'Z'
  · right
    have letters : ∀ n : Fin 26, isLetter (Char.ofNat (65 + n.val)) = true ∧
        isLetter (lowerChar (Char.ofNat (65 + n.val))) = true := by decide
    have bounds : 65 ≤ c.toNat ∧ c.toNat ≤ 90 := capital
    have code : 65 + (c.toNat - 65) = c.toNat := by omega
    simpa only [code, Char.ofNat_toNat] using letters ⟨c.toNat - 65, by omega⟩
  · exact .inl (if_neg capital)

end Text

theorem Uri.endsAuthority_iff {c : Char} : Uri.endsAuthority c = true ↔ c = '/' ∨ c = '?' ∨ c = '#' := by
  simp [Uri.endsAuthority, or_assoc]

namespace PathQuery

/-- The path that is read; an empty one is the root. -/
def pathName (path : List Char) : String := if path.isEmpty then "/" else String.ofList path

/-- A query behind its question mark, if there is one. -/
def queryText (query : Option (List Char)) : List Char := query.elim [] ('?' :: ·)

@[simp] theorem queryText_none : queryText none = [] := rfl

@[simp] theorem queryText_some (q : List Char) : queryText (some q) = '?' :: q := rfl

/-- A path, a query and a fragment as they may stand one after the other. The fragment, which is empty or begins
with its number sign, may hold anything. -/
structure Pieces (path : List Char) (query : Option (List Char)) (fragment : List Char) : Prop where
  path : ∀ c ∈ path, isPathChar c = true
  query : ∀ q ∈ query, ∀ c ∈ q, isQueryChar c = true
  fragment : ∀ c ∈ fragment.head?, c = '#'

variable {path fragment : List Char} {query : Option (List Char)}

theorem isPathChar_of_ends {c : Char} (h : c = '?' ∨ c = '#') : isPathChar c = false := by
  rcases h with rfl | rfl <;> decide

/-- Pieces are read as they are written, but for the fragment. -/
theorem Pieces.read (h : Pieces path query fragment) :
    read (path ++ (queryText query ++ fragment)) = some ⟨pathName path, query.map String.ofList⟩ := by
  have behind : ∀ c ∈ (queryText query ++ fragment).head?, isPathChar c = false := by
    intro c hc
    apply isPathChar_of_ends
    cases query with
    | none => exact .inr (h.fragment c (by simpa using hc))
    | some q => exact .inl (by simpa using hc.symm)
  rw [PathQuery.read, takeWhile_run h.path behind, dropWhile_run h.path behind]
  have hash {fragment : List Char} (hf : ∀ c ∈ fragment.head?, c = '#') :
      fragment = [] ∨ ∃ rest, fragment = '#' :: rest := by
    cases fragment with
    | nil => exact .inl rfl
    | cons c rest => exact .inr ⟨rest, by rw [hf c rfl]⟩
  cases query with
  | none =>
    rcases hash h.fragment with rfl | ⟨rest, rfl⟩ <;> rfl
  | some q =>
    have last : ∀ c ∈ fragment.head?, isQueryChar c = false := by
      intro c hc
      rw [h.fragment c hc]
      decide
    simp only [queryText_some, List.cons_append, takeWhile_run (h.query q rfl) last,
      dropWhile_run (h.query q rfl) last]
    rcases hash h.fragment with rfl | ⟨rest, rfl⟩ <;> rfl

/-- Whatever is read has been written in pieces. -/
theorem exists_pieces {cs : List Char} {t : PathQuery} (h : PathQuery.read cs = some t) :
    ∃ path query fragment, Pieces path query fragment ∧ cs = path ++ (queryText query ++ fragment) ∧
      t = ⟨pathName path, query.map String.ofList⟩ := by
  have chars : ∀ c ∈ cs.takeWhile isPathChar, isPathChar c = true := fun c hc => List.mem_takeWhile_imp hc
  have cut := List.takeWhile_append_dropWhile (p := isPathChar) (l := cs)
  rw [PathQuery.read] at h
  split at h
  · rename_i rest
    rw [rest] at cut
    cases h
    exact ⟨_, none, [], ⟨chars, by simp, by simp⟩, by simpa using cut.symm, rfl⟩
  · rename_i rest
    rw [rest] at cut
    cases h
    exact ⟨_, none, _, ⟨chars, by simp, by simp⟩, cut.symm, rfl⟩
  · rename_i back rest
    rw [rest] at cut
    have query : ∀ c ∈ back.takeWhile isQueryChar, isQueryChar c = true := fun c hc => List.mem_takeWhile_imp hc
    have cut' := List.takeWhile_append_dropWhile (p := isQueryChar) (l := back)
    dsimp only at h
    split at h
    · rename_i rest'
      rw [rest'] at cut'
      cases h
      refine ⟨_, some (back.takeWhile isQueryChar), [], ⟨chars, by simpa using query, by simp⟩, ?_, rfl⟩
      rw [queryText_some, List.cons_append, cut', cut]
    · rename_i rest'
      rw [rest'] at cut'
      cases h
      refine ⟨_, some (back.takeWhile isQueryChar), back.dropWhile isQueryChar,
        ⟨chars, by simpa using query, by simp [rest']⟩, ?_, rfl⟩
      rw [queryText_some, List.cons_append, rest', cut', cut]
    · cases h
  · cases h

/-- Where an authority ends, a path can only begin with a slash. -/
theorem exists_pieces_of_ends {cs : List Char} {t : PathQuery} (ends : ∀ c ∈ cs.head?, Uri.endsAuthority c = true)
    (h : PathQuery.read cs = some t) : ∃ path query fragment, Pieces path query fragment ∧
      (∀ c ∈ path.head?, c = '/') ∧ cs = path ++ (queryText query ++ fragment) ∧
      t = ⟨pathName path, query.map String.ofList⟩ := by
  obtain ⟨path, query, fragment, pieces, whole, read⟩ := exists_pieces h
  refine ⟨path, query, fragment, pieces, fun c hc => ?_, whole, read⟩
  obtain ⟨path', rfl⟩ := List.head?_eq_some_iff.mp hc
  have char := pieces.path c List.mem_cons_self
  rcases Uri.endsAuthority_iff.mp (ends c (by rw [whole]; rfl)) with slash | mark
  · exact slash
  · rw [isPathChar_of_ends mark] at char
    cases char

/-- A path and query that begins where an authority ends is no asterisk. -/
theorem ofList?_of_ends {c : Char} {cs : List Char} (ends : Uri.endsAuthority c = true) :
    ofList? (c :: cs) = PathQuery.read (c :: cs) := by
  rcases Uri.endsAuthority_iff.mp ends with rfl | rfl | rfl <;> rfl

end PathQuery

namespace Authority

/-- An authority holds no character that would end it. -/
theorem endsAuthority_of_mem (a : Authority) {c : Char} (hc : c ∈ a.text.toList) : Uri.endsAuthority c = false := by
  rw [← Bool.not_eq_true]
  intro ends
  have held := a.plain_of_mem hc
  rcases Uri.endsAuthority_iff.mp ends with rfl | rfl | rfl <;> revert held <;> decide

theorem text_ne_nil (a : Authority) : a.text.toList ≠ [] := by
  have whole := a.whole
  rw [isWhole, Bool.and_eq_true, Bool.not_eq_true'] at whole
  exact List.isEmpty_eq_false_iff.mp whole.1

end Authority

namespace Uri

/-! ## Schemes -/

/-- The scheme that is read. -/
def schemeName (typed : List Char) : String :=
  if Text.eqIgnoringCase typed "http".toList then "http"
  else if Text.eqIgnoringCase typed "https".toList then "https"
  else String.ofList typed

/-- What stands between a scheme and an authority. -/
def divider : List Char := "://".toList

/-- The text may be that of a scheme. -/
structure IsTyped (typed : List Char) : Prop where
  chars : ∀ c ∈ typed, isSchemeChar c = true
  short : typed.length ≤ maxSchemeLength

variable {cs typed name rest : List Char}

/-- A scheme ends where the divider begins. -/
theorem takeWhile_scheme (chars : ∀ c ∈ typed, isSchemeChar c = true) (rest : List Char) :
    (typed ++ (divider ++ rest)).takeWhile isSchemeChar = typed :=
  takeWhile_run chars (by simp [divider, isSchemeChar, Text.isLetter, Text.isDigit])

theorem dropWhile_scheme (chars : ∀ c ∈ typed, isSchemeChar c = true) (rest : List Char) :
    (typed ++ (divider ++ rest)).dropWhile isSchemeChar = divider ++ rest :=
  dropWhile_run chars (by simp [divider, isSchemeChar, Text.isLetter, Text.isDigit])

theorem eqIgnoringCase_iff {cs ds : List Char} :
    Text.eqIgnoringCase cs ds = true ↔ cs.map Text.lowerChar = ds.map Text.lowerChar := beq_iff_eq

/-- What has letters for its small forms consists of letters. -/
theorem chars_of_letters (letters : ∀ c ∈ name, Text.isLetter (Text.lowerChar c) = true)
    (same : Text.eqIgnoringCase typed name = true) : ∀ c ∈ typed, isSchemeChar c = true := by
  intro c hc
  have small : Text.lowerChar c ∈ name.map Text.lowerChar := by
    rw [← eqIgnoringCase_iff.mp same]
    exact List.mem_map_of_mem hc
  obtain ⟨d, hd, eq⟩ := List.mem_map.mp small
  have letter := letters d hd
  rw [eq] at letter
  have : Text.isLetter c = true := by
    rcases Text.lowerChar_cases c with same | ⟨capital, -⟩
    · rwa [same] at letter
    · exact capital
  simp [isSchemeChar, this]

/-- The divider has no other forms. -/
theorem eq_divider (h : cs.map Text.lowerChar = divider) : cs = divider := by
  have mark {c d : Char} (h : Text.lowerChar c = d) (other : Text.isLetter d = false) : c = d := by
    rcases Text.lowerChar_cases c with same | ⟨-, letter⟩
    · rw [← h, same]
    · rw [h, other] at letter
      cases letter
  obtain ⟨c₁, cs₁, rfl, h₁, h⟩ := List.map_eq_cons_iff.mp h
  obtain ⟨c₂, cs₂, rfl, h₂, h⟩ := List.map_eq_cons_iff.mp h
  obtain ⟨c₃, cs₃, rfl, h₃, h⟩ := List.map_eq_cons_iff.mp h
  rw [mark h₁ (by decide), mark h₂ (by decide), mark h₃ (by decide), List.map_eq_nil_iff.mp h]
  rfl

/-- A text that begins with a name and the divider, in any case, begins with the name in some case and the
divider. -/
theorem exists_typed {n : Nat} (h : Text.eqIgnoringCase (cs.take n) (name ++ divider) = true) :
    ∃ typed, cs = typed ++ (divider ++ cs.drop n) ∧ Text.eqIgnoringCase typed name = true := by
  rw [eqIgnoringCase_iff, List.map_append] at h
  obtain ⟨typed, marks, front, name, small⟩ := List.map_eq_append_iff.mp h
  refine ⟨typed, ?_, eqIgnoringCase_iff.mpr name⟩
  rw [← eq_divider (small.trans (by decide)), ← List.append_assoc, ← front, List.take_append_drop]

/-- A scheme is compared with a name of letters by looking at the front of a text. -/
theorem eqIgnoringCase_take_iff (letters : ∀ c ∈ name, Text.isLetter (Text.lowerChar c) = true)
    (chars : ∀ c ∈ typed, isSchemeChar c = true) (rest : List Char) :
    Text.eqIgnoringCase ((typed ++ (divider ++ rest)).take (name.length + 3)) (name ++ divider) = true ↔
      Text.eqIgnoringCase typed name = true := by
  constructor
  · intro h
    obtain ⟨typed', front, same⟩ := exists_typed h
    have cut := congrArg (List.takeWhile isSchemeChar) front
    rw [takeWhile_scheme chars, takeWhile_scheme (chars_of_letters letters same)] at cut
    rwa [cut]
  · intro same
    rw [eqIgnoringCase_iff] at same ⊢
    have length : typed.length = name.length := by simpa using congrArg List.length same
    have front : (typed ++ (divider ++ rest)).take (name.length + 3) = typed ++ divider := by
      rw [← List.append_assoc, ← length]
      exact List.take_left' (by rw [List.length_append]; rfl)
    rw [front, List.map_append, List.map_append, same]

theorem http_letters : ∀ c ∈ "http".toList, Text.isLetter (Text.lowerChar c) = true :=
  forall_mem_of_all (by decide)

theorem https_letters : ∀ c ∈ "https".toList, Text.isLetter (Text.lowerChar c) = true :=
  forall_mem_of_all (by decide)

/-- Where a name of letters and the divider are found in front of a text, in any case, there is a scheme. -/
theorem exists_isTyped {n : Nat} (letters : ∀ c ∈ name, Text.isLetter (Text.lowerChar c) = true)
    (short : name.length ≤ maxSchemeLength) (h : Text.eqIgnoringCase (cs.take n) (name ++ divider) = true) :
    ∃ typed, IsTyped typed ∧ cs = typed ++ (divider ++ cs.drop n) ∧ Text.eqIgnoringCase typed name = true := by
  obtain ⟨typed, front, same⟩ := exists_typed h
  have length : typed.length = name.length := by simpa using congrArg List.length (eqIgnoringCase_iff.mp same)
  exact ⟨typed, ⟨chars_of_letters letters same, length ▸ short⟩, front, same⟩

/-- What is cut off a text as its scheme stands in front of a divider. -/
theorem exists_typed_of_cutScheme {scheme : String} (h : cutScheme cs = some (some scheme, rest)) :
    ∃ typed, IsTyped typed ∧ cs = typed ++ (divider ++ rest) ∧ schemeName typed = scheme := by
  rw [cutScheme] at h
  split at h
  · rename_i front
    cases h
    obtain ⟨typed, proper, cut, same⟩ := exists_isTyped http_letters (by decide) front
    exact ⟨typed, proper, cut, if_pos same⟩
  rename_i notHttp
  split at h
  · rename_i front
    cases h
    obtain ⟨typed, proper, cut, same⟩ := exists_isTyped https_letters (by decide) front
    refine ⟨typed, proper, cut, ?_⟩
    rw [schemeName, if_neg, if_pos same]
    rw [eqIgnoringCase_iff, eqIgnoringCase_iff.mp same]
    decide
  rename_i notHttps
  dsimp only at h
  split at h
  · rename_i rest' behind
    split at h
    · cases h
    split at h
    · cases h
    rename_i short
    cases h
    have chars : ∀ c ∈ cs.takeWhile isSchemeChar, isSchemeChar c = true := fun c hc => List.mem_takeWhile_imp hc
    have cut : cs = cs.takeWhile isSchemeChar ++ (divider ++ rest) := by
      have whole := (List.takeWhile_append_dropWhile (p := isSchemeChar) (l := cs)).symm
      rwa [behind] at whole
    refine ⟨_, ⟨chars, by omega⟩, cut, ?_⟩
    rw [cut] at notHttp notHttps
    rw [schemeName, if_neg (mt (eqIgnoringCase_take_iff http_letters chars rest).mpr notHttp),
      if_neg (mt (eqIgnoringCase_take_iff https_letters chars rest).mpr notHttps)]
  · cases h

/-- A scheme in front of a divider is cut off, even an empty one if anything stands behind the divider. -/
theorem cutScheme_typed (proper : IsTyped typed) (nonempty : rest ≠ []) :
    cutScheme (typed ++ (divider ++ rest)) = .some (.some (schemeName typed), rest) := by
  have http : Text.eqIgnoringCase ((typed ++ (divider ++ rest)).take 7) "http://".toList = true ↔
      Text.eqIgnoringCase typed "http".toList = true := eqIgnoringCase_take_iff http_letters proper.chars rest
  have https : Text.eqIgnoringCase ((typed ++ (divider ++ rest)).take 8) "https://".toList = true ↔
      Text.eqIgnoringCase typed "https".toList = true := eqIgnoringCase_take_iff https_letters proper.chars rest
  have behind {name : List Char} (same : Text.eqIgnoringCase typed name = true) :
      (typed ++ (divider ++ rest)).drop (name.length + 3) = rest := by
    have length : typed.length = name.length := by simpa using congrArg List.length (eqIgnoringCase_iff.mp same)
    rw [← List.append_assoc]
    exact List.drop_left' (by rw [List.length_append, length]; rfl)
  rw [cutScheme, schemeName]
  by_cases h₁ : Text.eqIgnoringCase typed "http".toList = true
  · rw [if_pos (http.mpr h₁), if_pos h₁]
    exact congrArg (fun back => Option.some (Option.some "http", back)) (behind h₁)
  rw [if_neg (mt http.mp h₁), if_neg h₁]
  by_cases h₂ : Text.eqIgnoringCase typed "https".toList = true
  · rw [if_pos (https.mpr h₂), if_pos h₂]
    exact congrArg (fun back => Option.some (Option.some "https", back)) (behind h₂)
  rw [if_neg (mt https.mp h₂), if_neg h₂]
  simp only [takeWhile_scheme proper.chars, dropWhile_scheme proper.chars]
  have notEmpty : (typed.isEmpty && rest.isEmpty) = false := by simp [nonempty]
  simp only [divider, String.reduceToList, List.cons_append, List.nil_append, notEmpty, Bool.false_eq_true,
    if_false, if_neg (Nat.not_lt.mpr proper.short)]

/-! ## Whole targets -/

/-- The parts of an absolute target as they are written, the fragment with its number sign. -/
structure Spelling where
  scheme : List Char
  authority : Authority
  path : List Char
  query : Option (List Char)
  fragment : List Char

namespace Spelling

open PathQuery (Pieces pathName queryText)

/-- What stands behind the authority. -/
def tail (w : Spelling) : List Char := w.path ++ (queryText w.query ++ w.fragment)

/-- The whole text. -/
def text (w : Spelling) : List Char := w.scheme ++ (divider ++ (w.authority.text.toList ++ w.tail))

/-- The target that is read. -/
def uri (w : Spelling) : Uri :=
  .absolute (schemeName w.scheme) w.authority ⟨pathName w.path, w.query.map String.ofList⟩

/-- The parts are of their kinds. A path begins with a slash, since nothing else tells it from the authority. -/
structure IsProper (w : Spelling) : Prop where
  scheme : IsTyped w.scheme
  pieces : Pieces w.path w.query w.fragment
  slash : ∀ c ∈ w.path.head?, c = '/'

variable {w : Spelling}

theorem endsAuthority_of_head (h : w.IsProper) : ∀ c ∈ w.tail.head?, endsAuthority c = true := by
  intro c hc
  rw [tail] at hc
  cases path : w.path with
  | cons d path =>
    rw [path] at hc
    obtain rfl : d = c := by simpa using hc
    rw [h.slash d (by rw [path]; rfl)]
    rfl
  | nil =>
    rw [path, List.nil_append] at hc
    cases query : w.query with
    | some q =>
      rw [query] at hc
      obtain rfl : '?' = c := by simpa using hc
      rfl
    | none =>
      rw [query] at hc
      rw [h.pieces.fragment c (by simpa using hc)]
      rfl

theorem head_text (h : w.IsProper) : ∃ c cs, w.text = c :: cs ∧ cs ≠ [] ∧ (isSchemeChar c = true ∨ c = ':') := by
  rw [text]
  cases typed : w.scheme with
  | nil => exact ⟨':', _, rfl, by simp, .inr rfl⟩
  | cons c cs => exact ⟨c, _, rfl, by simp [divider], .inl (h.scheme.chars c (by simp [typed]))⟩

/-- Every proper text is read, if it is not too long. -/
theorem parse?_text (h : w.IsProper) {s : String} (hs : s.toList = w.text)
    (short : s.utf8ByteSize ≤ maxLength) : parse? s = some w.uri := by
  have nonempty : w.authority.text.toList ++ w.tail ≠ [] := by simp [w.authority.text_ne_nil]
  have cut : cutScheme w.text = .some (.some (schemeName w.scheme), w.authority.text.toList ++ w.tail) :=
    cutScheme_typed h.scheme nonempty
  have inside : ∀ c ∈ w.authority.text.toList, (!endsAuthority c) = true := fun c hc => by
    rw [w.authority.endsAuthority_of_mem hc]
    rfl
  have behind : ∀ c ∈ w.tail.head?, (!endsAuthority c) = false := fun c hc => by
    rw [endsAuthority_of_head h c hc]
    rfl
  have read : PathQuery.read w.tail = _ := h.pieces.read
  obtain ⟨c, cs, first, more, start⟩ := head_text h
  rw [parse?.eq_def, if_neg (Nat.not_lt.mpr short), hs]
  dsimp only
  split
  · rename_i absent
    rw [absent] at first
    cases first
  · rename_i asterisk
    rw [asterisk] at first
    cases first
    exact absurd rfl more
  · rename_i slash
    rw [slash] at first
    cases first
    rcases start with slash | slash
    · exact absurd slash (by decide)
    · cases slash
  · rw [cut, Option.bind_eq_bind, Option.bind_some]
    dsimp only
    rw [takeWhile_run inside behind, dropWhile_run inside behind, String.ofList_toList, Authority.ofString?_text,
      Option.bind_eq_bind, Option.bind_some]
    cases tail : w.tail with
    | nil =>
      rw [tail] at read
      exact congrArg (fun t => Option.some (absolute _ _ t)) (Option.some.inj read)
    | cons d ds =>
      rw [tail] at read
      dsimp only
      rw [PathQuery.ofList?_of_ends (endsAuthority_of_head h d (by rw [tail]; rfl)), read]
      rfl

/-- Every text that is read as an absolute target is written like one. -/
theorem exists_text {s scheme : String} {a : Authority} {t : PathQuery}
    (h : parse? s = some (.absolute scheme a t)) :
    ∃ w : Spelling, w.IsProper ∧ s.toList = w.text ∧ w.uri = .absolute scheme a t := by
  rw [parse?.eq_def] at h
  dsimp only at h
  split at h
  · cases h
  split at h
  · cases h
  · cases h
  · obtain ⟨t', read, wrong⟩ := Option.map_eq_some_iff.mp h
    cases wrong
  · obtain ⟨⟨scheme?, rest⟩, cut, h⟩ := Option.bind_eq_some_iff.mp h
    cases scheme? with
    | none =>
      obtain ⟨a, _, wrong⟩ := Option.map_eq_some_iff.mp h
      cases wrong
    | some scheme' =>
      obtain ⟨typed, proper, front, name⟩ := exists_typed_of_cutScheme cut
      obtain ⟨a', found, h⟩ := Option.bind_eq_some_iff.mp h
      have text := Authority.text_of_ofString? found
      have ends : ∀ c ∈ (rest.dropWhile (!endsAuthority ·)).head?, endsAuthority c = true := by
        intro c hc
        have last := List.head?_dropWhile_not (!endsAuthority ·) rest
        rw [Option.mem_def.mp hc] at last
        simpa using last
      have cs : s.toList = typed ++ (divider ++ (a'.text.toList ++ rest.dropWhile (!endsAuthority ·))) := by
        rw [text, String.toList_ofList, List.takeWhile_append_dropWhile, front]
      obtain ⟨read, rfl, rfl⟩ : PathQuery.read (rest.dropWhile (!endsAuthority ·)) = some t ∧
          scheme' = scheme ∧ a' = a := by
        dsimp only at h
        split at h
        · rename_i absent
          cases h
          exact ⟨by rw [absent]; rfl, rfl, rfl⟩
        · rename_i tail
          obtain ⟨t', found', last⟩ := Option.bind_eq_some_iff.mp h
          cases last
          obtain ⟨c, tail', split⟩ := List.exists_cons_of_ne_nil tail
          rw [split, PathQuery.ofList?_of_ends (ends c (by rw [split]; rfl)), ← split] at found'
          exact ⟨found', rfl, rfl⟩
      obtain ⟨path, query, fragment, pieces, slash, whole, rfl⟩ := PathQuery.exists_pieces_of_ends ends read
      refine ⟨⟨typed, a', path, query, fragment⟩, ⟨proper, pieces, slash⟩, ?_, ?_⟩
      · rw [cs, whole]
        rfl
      · rw [uri, name]

end Spelling

end Uri
end ForwardProxy
