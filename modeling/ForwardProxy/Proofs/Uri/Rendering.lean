import ForwardProxy.Proofs.Text.Visible
import ForwardProxy.Proofs.Uri.Spelling
import ForwardProxy.Proofs.Uri.Targets

/-!
# Targets are written and read again

The text of a target that has been read may differ from the text it was read from: the scheme has small letters,
an empty path has become a slash and a fragment is gone. It is read as the same target all the same, unless the
new slash has made it too long. It holds visible characters only, so it can stand on a start line.

* `Spelling.exists_rendered`: what is written of a target is the text of another spelling of it, so that reading it
  again needs no proof of its own. The names of schemes and paths do not change a second time
  (`schemeName_schemeName`, `pathName_pathName`).
* `parse?_render`: so the target comes back. The bound `short` is needed: a text of the greatest length with an
  empty path has grown by one character.
* `visible_render`: all of its characters are visible, part by part.
* `parse?_path`: the path and query of a target, sent alone to an origin, is read as such.
* `query?_eq_none`: a text without slash, question mark and number sign has no query.
-/

namespace ForwardProxy

open Text (IsVisibleChar)

namespace PathQuery

theorem pathName_cons (c : Char) (path : List Char) : pathName (c :: path) = String.ofList (c :: path) := rfl

theorem pathName_pathName (path : List Char) : pathName (pathName path).toList = pathName path := by
  cases path with
  | nil => rfl
  | cons c path => rw [pathName_cons, String.toList_ofList, pathName_cons]

theorem chars_pathName {path : List Char} (h : ∀ c ∈ path, isPathChar c = true) :
    ∀ c ∈ (pathName path).toList, isPathChar c = true := by
  cases path with
  | nil => exact forall_mem_of_all (by decide)
  | cons c path => rwa [pathName_cons, String.toList_ofList]

theorem head_pathName {path : List Char} (h : ∀ c ∈ path.head?, c = '/') :
    ∀ c ∈ (pathName path).toList.head?, c = '/' := by
  cases path with
  | nil => exact fun c hc => (Option.some.inj hc).symm
  | cons c path => rwa [pathName_cons, String.toList_ofList]

theorem isVisibleChar_of_isPathChar {c : Char} (h : isPathChar c = true) : IsVisibleChar c := by
  simp only [isPathChar, Bool.or_eq_true, Bool.and_eq_true, beq_iff_eq, decide_eq_true_eq] at h
  rw [IsVisibleChar]
  omega

theorem isVisibleChar_of_isQueryChar {c : Char} (h : isQueryChar c = true) : IsVisibleChar c := by
  simp only [isQueryChar, Bool.or_eq_true, Bool.and_eq_true, beq_iff_eq, decide_eq_true_eq] at h
  rw [IsVisibleChar]
  omega

theorem IsProper.visible {t : PathQuery} (h : t.IsProper) : ∀ c ∈ t.render.toList, IsVisibleChar c := by
  cases h with
  | asterisk => exact forall_mem_of_all (by decide)
  | @path name _ query slash hcs hq =>
    have path : ∀ c ∈ name.toList, IsVisibleChar c := fun c hc => isVisibleChar_of_isPathChar (hcs c hc)
    cases query with
    | none => exact path
    | some q =>
      have query : ∀ c ∈ q.toList, IsVisibleChar c := fun c hc => isVisibleChar_of_isQueryChar (hq q rfl c hc)
      have pieces : (render ⟨name, some q⟩).toList = name.toList ++ '?' :: q.toList := by simp [render]
      rw [pieces, List.forall_mem_append, List.forall_mem_cons]
      exact ⟨path, by decide, query⟩

end PathQuery

namespace Authority

theorem isVisibleChar_of_isPlainChar {c : Char} (h : isPlainChar c = true) : IsVisibleChar c := by
  simp only [isPlainChar, Bool.or_eq_true] at h
  rcases h with (letter | digit) | mark
  · exact Text.isVisibleChar_of_isLetter letter
  · exact Text.isVisibleChar_of_isDigit digit
  · have marks : ∀ d ∈ "!$&'()*+,-.:;=@_~[]".toList, IsVisibleChar d :=
      forall_mem_of_all (by decide)
    exact marks c (List.contains_iff_mem.mp mark)

theorem isVisibleChar_of_mem (a : Authority) {c : Char} (hc : c ∈ a.text.toList) : IsVisibleChar c := by
  rcases a.plain_of_mem hc with plain | rfl
  · exact isVisibleChar_of_isPlainChar plain
  · decide

end Authority

namespace Uri

theorem schemeName_schemeName (typed : List Char) : schemeName (schemeName typed).toList = schemeName typed := by
  by_cases http : Text.eqIgnoringCase typed "http".toList = true
  · have small : schemeName typed = "http" := if_pos http
    rw [small]
    decide
  by_cases https : Text.eqIgnoringCase typed "https".toList = true
  · have small : schemeName typed = "https" := by rw [schemeName, if_neg http, if_pos https]
    rw [small]
    decide
  · have same : schemeName typed = String.ofList typed := by rw [schemeName, if_neg http, if_neg https]
    rw [same, String.toList_ofList, same]

theorem IsTyped.schemeName {typed : List Char} (h : IsTyped typed) : IsTyped (schemeName typed).toList := by
  rw [Uri.schemeName]
  split
  · exact ⟨forall_mem_of_all (by decide), by decide⟩
  split
  · exact ⟨forall_mem_of_all (by decide), by decide⟩
  · rwa [String.toList_ofList]

open PathQuery (Pieces pathName chars_pathName head_pathName pathName_pathName)

/-- What is read is written again in another way: with a small scheme, with a path and without a fragment. It is
read as the same target. -/
theorem Spelling.exists_rendered {w : Spelling} (h : w.IsProper) :
    ∃ w' : Spelling, w'.IsProper ∧ w.uri.render.toList = w'.text ∧ w'.uri = w.uri := by
  have pieces : Pieces (pathName w.path).toList w.query [] :=
    ⟨chars_pathName h.pieces.path, h.pieces.query, by simp⟩
  refine ⟨⟨(schemeName w.scheme).toList, w.authority, (pathName w.path).toList, w.query, []⟩,
    ⟨h.scheme.schemeName, pieces, head_pathName h.slash⟩, ?_, ?_⟩
  · cases query : w.query <;> simp [uri, Uri.render, PathQuery.render, text, tail, divider, query]
  · simp only [uri, schemeName_schemeName, pathName_pathName]

variable {s scheme : String} {a : Authority} {t : PathQuery} {u : Uri}

/-- A target that has been read is read again from its own text, unless the slash of an empty path makes that too
long. -/
theorem parse?_render (h : parse? s = some (.absolute scheme a t))
    (short : (absolute scheme a t).render.utf8ByteSize ≤ maxLength) :
    parse? (absolute scheme a t).render = some (.absolute scheme a t) := by
  obtain ⟨w, proper, -, read⟩ := Spelling.exists_text h
  obtain ⟨w', proper', rendered, same⟩ := w.exists_rendered proper
  rw [← read] at short ⊢
  rw [Spelling.parse?_text proper' rendered short, same]

theorem isVisibleChar_of_isSchemeChar {c : Char} (h : isSchemeChar c = true) : IsVisibleChar c := by
  simp only [isSchemeChar, Bool.or_eq_true, decide_eq_true_eq] at h
  rcases h with ((((letter | digit) | rfl) | rfl) | rfl) | rfl
  · exact Text.isVisibleChar_of_isLetter letter
  · exact Text.isVisibleChar_of_isDigit digit
  all_goals decide

theorem visible_render (h : parse? s = some (.absolute scheme a t)) :
    ∀ c ∈ (absolute scheme a t).render.toList, IsVisibleChar c := by
  obtain ⟨w, proper, -, read⟩ := Spelling.exists_text h
  have name : schemeName w.scheme = scheme := (absolute.inj read).1
  have typed : ∀ c ∈ scheme.toList, IsVisibleChar c := fun c hc =>
    isVisibleChar_of_isSchemeChar (proper.scheme.schemeName.chars c (name ▸ hc))
  have pieces : (absolute scheme a t).render.toList =
      scheme.toList ++ (divider ++ (a.text.toList ++ t.render.toList)) := by
    simp [render, divider]
  simp only [pieces, List.forall_mem_append]
  exact ⟨typed, forall_mem_of_all (by decide), fun c => a.isVisibleChar_of_mem, (isProper_of_parse? h rfl).visible⟩

/-- A path and query that stands alone is read as such. -/
theorem parse?_path (h : t.IsProper) (short : t.render.utf8ByteSize ≤ maxLength) :
    parse? t.render = some (.origin t) := by
  have read := h.ofList?_render
  rw [parse?.eq_def, if_neg (Nat.not_lt.mpr short)]
  cases h with
  | asterisk => rfl
  | @path name cs query slash hcs hq =>
    obtain ⟨back, front⟩ : ∃ back, (PathQuery.render ⟨name, query⟩).toList = '/' :: back := by
      cases query with
      | none => exact ⟨cs, slash⟩
      | some q => exact ⟨cs ++ '?' :: q.toList, by simp [PathQuery.render, slash]⟩
    rw [front] at read ⊢
    dsimp only
    rw [read]
    rfl

/-- Only what ends an authority makes room for a query. -/
theorem query?_eq_none (h : parse? s = some u) (plain : ∀ c ∈ s.toList, endsAuthority c = false) :
    u.query? = none := by
  rw [parse?.eq_def] at h
  dsimp only at h
  split at h
  · cases h
  split at h
  · cases h
  · cases h
    rfl
  · rename_i front
    cases plain '/' (by rw [front]; exact List.mem_cons_self)
  · obtain ⟨⟨scheme?, rest⟩, cut, h⟩ := Option.bind_eq_some_iff.mp h
    cases scheme? with
    | none =>
      obtain ⟨a, _, rfl⟩ := Option.map_eq_some_iff.mp h
      rfl
    | some scheme =>
      obtain ⟨typed, -, front, -⟩ := exists_typed_of_cutScheme cut
      cases plain '/' (by rw [front]; simp [divider])

end Uri
end ForwardProxy
