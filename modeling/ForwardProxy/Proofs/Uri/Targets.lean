import ForwardProxy.Uri.Parts
import Mathlib.Data.List.TakeWhile

/-!
# Targets and their texts

A path and query that has been read is read again from its own text: the path has a slash in front and only
characters of a path, the query only characters of a query, and the question mark between them is no character
of a path, so that the text falls apart at the same places (`IsProper.ofList?_render`). The text need not be the one
that was read first: an empty path has become the root, and a fragment is gone.

`IsProper` has a constructor for the asterisk and one for a path behind a slash; `isProper_of_ofList?` shows that
nothing else is read. The fields of a target are open, so the property is carried along by whoever has read one:
`Uri.IsRead` is that of a target off a connection, and `IsRead.isProper` what is used of it. Where a new target is
put together from an authority and such a text, it cannot fail (`ofTexts_of_read`).
-/

namespace ForwardProxy

namespace PathQuery

/-- What can be read as a path and query: the asterisk, or a path behind a slash with or without a query. -/
inductive IsProper : PathQuery → Prop
  | asterisk : IsProper .asterisk
  | path {name : String} (cs : List Char) {query : Option String} (slash : name.toList = '/' :: cs)
      (hcs : ∀ c ∈ name.toList, isPathChar c = true) (hq : ∀ q ∈ query, ∀ c ∈ q.toList, isQueryChar c = true) :
      IsProper ⟨name, query⟩

theorem isPathChar_slash : isPathChar '/' = true := by decide

theorem isProper_slash {query : Option String} (hq : ∀ q ∈ query, ∀ c ∈ q.toList, isQueryChar c = true) :
    IsProper ⟨"/", query⟩ := .path [] rfl (by simp [isPathChar_slash]) hq

theorem isProper_root : IsProper .root := isProper_slash (by simp)

/-- The parts of what is read: the first characters are the path, if there are any. -/
theorem read_eq_some {cs : List Char} {t : PathQuery} (h : read cs = some t) :
    t.path = (if (cs.takeWhile isPathChar).isEmpty then "/" else String.ofList (cs.takeWhile isPathChar)) ∧
      ∀ q ∈ t.query, ∀ c ∈ q.toList, isQueryChar c = true := by
  simp only [read] at h
  split at h
  · cases h
    simp
  · cases h
    simp
  · rename_i rest _
    have query : ∀ c ∈ (String.ofList (rest.takeWhile isQueryChar)).toList, isQueryChar c = true := by
      rw [String.toList_ofList]
      exact fun c hc => List.mem_takeWhile_imp hc
    split at h
    · cases h
      simpa using query
    · cases h
      simpa using query
    · cases h
  · cases h

theorem isProper_of_ofList? {cs : List Char} {t : PathQuery} (h : ofList? cs = some t) : t.IsProper := by
  have ofPath {cs : List Char} (front : cs.takeWhile isPathChar = [] ∨ ∃ rest, cs = '/' :: rest)
      (hr : read cs = some t) : t.IsProper := by
    obtain ⟨name, query⟩ := t
    obtain ⟨rfl, hq⟩ := read_eq_some hr
    rcases front with missing | ⟨rest, rfl⟩
    · rw [missing]
      exact isProper_slash hq
    · have path : ('/' :: rest).takeWhile isPathChar = '/' :: rest.takeWhile isPathChar :=
        List.takeWhile_cons_of_pos isPathChar_slash
      have chars : ∀ c ∈ '/' :: rest.takeWhile isPathChar, isPathChar c = true := by
        rw [← path]
        exact fun c hc => List.mem_takeWhile_imp hc
      rw [path]
      exact .path (rest.takeWhile isPathChar) (by simp) (by simpa using chars) hq
  rw [ofList?.eq_def] at h
  split at h
  · cases h
    exact .asterisk
  · exact ofPath (.inr ⟨_, rfl⟩) h
  · exact ofPath (.inl (List.takeWhile_cons_of_neg (by decide))) h
  · exact ofPath (.inl (List.takeWhile_cons_of_neg (by decide))) h
  · cases h

/-- The text of a path and query is read as that path and query. -/
theorem IsProper.ofList?_render {t : PathQuery} (h : t.IsProper) : ofList? t.render.toList = some t := by
  cases h with
  | asterisk => rfl
  | @path name _ query slash hcs hq =>
    have filled : name.toList.isEmpty = false := by rw [slash]; rfl
    cases query with
    | none =>
      have whole : name.toList.takeWhile isPathChar = name.toList := List.takeWhile_eq_self_iff.mpr hcs
      have nothing : name.toList.dropWhile isPathChar = [] := List.dropWhile_eq_nil_iff.mpr hcs
      have text : ofList? name.toList = read name.toList := by rw [slash]; rfl
      rw [render, text]
      simp only [read, whole, nothing, filled, Bool.false_eq_true, if_false, String.ofList_toList]
    | some q =>
      have hq := hq q rfl
      have whole : (name.toList ++ '?' :: q.toList).takeWhile isPathChar = name.toList := by
        rw [List.takeWhile_append_of_pos hcs, List.takeWhile_cons_of_neg (by decide), List.append_nil]
      have behind : (name.toList ++ '?' :: q.toList).dropWhile isPathChar = '?' :: q.toList := by
        rw [List.dropWhile_append_of_pos hcs, List.dropWhile_cons_of_neg (by decide)]
      have query : q.toList.takeWhile isQueryChar = q.toList := List.takeWhile_eq_self_iff.mpr hq
      have nothing : q.toList.dropWhile isQueryChar = [] := List.dropWhile_eq_nil_iff.mpr hq
      have text : ofList? (name.toList ++ '?' :: q.toList) = read (name.toList ++ '?' :: q.toList) := by
        rw [slash]; rfl
      have pieces : (render ⟨name, some q⟩).toList = name.toList ++ '?' :: q.toList := by
        simp [render]
      rw [pieces, text]
      simp only [read, whole, behind, query, nothing, filled, Bool.false_eq_true, if_false,
        String.ofList_toList]

end PathQuery

namespace Uri

/-- The target of a request: it has been read from the text of a start line. -/
def IsRead (u : Uri) : Prop := ∃ s, parse? s = some u

theorem isProper_of_parse? {s : String} {u : Uri} {t : PathQuery} (h : parse? s = some u)
    (ht : u.target? = some t) : t.IsProper := by
  rw [parse?.eq_def] at h
  dsimp only at h
  split at h
  · cases h
  split at h
  · cases h
  · cases h
    cases ht
    exact .asterisk
  · obtain ⟨t', read, rfl⟩ := Option.map_eq_some_iff.mp h
    cases ht
    exact PathQuery.isProper_of_ofList? read
  · obtain ⟨⟨scheme?, rest⟩, _, h⟩ := Option.bind_eq_some_iff.mp h
    cases scheme? with
    | none =>
      obtain ⟨a, _, rfl⟩ := Option.map_eq_some_iff.mp h
      cases ht
    | some scheme =>
      obtain ⟨a, _, h⟩ := Option.bind_eq_some_iff.mp h
      dsimp only at h
      split at h
      · cases h
        cases ht
        exact PathQuery.isProper_root
      · obtain ⟨t', read, h⟩ := Option.bind_eq_some_iff.mp h
        cases h
        cases ht
        exact PathQuery.isProper_of_ofList? read

theorem IsRead.isProper {u : Uri} (h : u.IsRead) : (u.target?.getD .root).IsProper := by
  obtain ⟨s, read⟩ := h
  cases ht : u.target? with
  | none => exact PathQuery.isProper_root
  | some t => exact isProper_of_parse? read ht

/-- The text of an authority and any text of a path and query are put together to a target. -/
theorem ofTexts_of_read {scheme text : String} (hs : isScheme scheme.toList = true) (a : Authority) {t : PathQuery}
    (read : PathQuery.ofList? text.toList = some t) : ofTexts scheme a.text text = .ok (.absolute scheme a t) := by
  have authority : Authority.ofString? a.text = some a := dif_pos a.whole
  simp only [ofTexts, hs, authority, read, Bool.not_true, Bool.false_eq_true, if_false]

end Uri

end ForwardProxy
