import ForwardProxy.Proofs.Uri.Rendering
import ForwardProxy.Proxy.Parents

/-!
# The names of parent proxies

A text names a parent proxy just when it is written, without the blanks around it, like a target with the scheme
http in any case, or like such a target from its authority on (`readProxy_eq_some_iff`). Only the authority is kept,
as it is written. What is printed for a proxy names the same proxy again, if it is short enough to be read at all
(`readProxy_render`); it can be one byte too long, because of the slash that ends it.

A text without `://` is completed with a scheme and then read as a target, so the proof goes by the spellings of
targets: `toList_completed_iff` says which texts are completed to the text of a spelling. The condition that a name
without a scheme has no divider in it is needed there, since a divider anywhere in the text, if only in a query, keeps
it from being completed.

`readProxy_render_letters` is the case of a name that is too long, for a host of as many letters as are needed. It is
proved for any number of them by induction, so that no long text has to be computed.
-/

namespace ForwardProxy

theorem Text.trim_of_ends {c d : Char} (front : isBlank c = false) (back : isBlank d = false) (cs : List Char) :
    trim (c :: (cs ++ [d])) = c :: (cs ++ [d]) := by
  simp [trim, trimFront, trimBack, front, back]

/-- What is read as a target is not too long. -/
theorem Uri.short_of_parse? {s : String} {u : Uri} (read : parse? s = some u) : s.utf8ByteSize ≤ maxLength := by
  by_contra long
  rw [parse?.eq_def, if_pos (Nat.lt_of_not_le long)] at read
  cases read

/-- What stands behind the scheme of a spelling and the divider. -/
def Uri.Spelling.rest (w : Uri.Spelling) : List Char := w.authority.text.toList ++ w.tail

theorem Uri.Spelling.text_eq_rest (w : Uri.Spelling) : w.text = w.scheme ++ (divider ++ w.rest) := rfl

theorem Uri.Spelling.rest_ne_nil (w : Uri.Spelling) : w.rest ≠ [] := by
  simp [rest, w.authority.text_ne_nil]

namespace Proxy

open Uri (Spelling divider maxLength)

theorem hasDivider_iff {cs : List Char} : hasDivider cs = true ↔ divider <:+: cs := by
  have mark : divider = [':', '/', '/'] := rfl
  fun_induction hasDivider cs with
  | case1 => simp [mark, List.infix_cons_iff]
  | case2 c cs other ih =>
    have behind : ¬ divider <+: c :: cs := by
      rintro ⟨rest, whole⟩
      obtain ⟨rfl, rfl⟩ := List.cons.inj whole
      exact other rest rfl rfl
    rw [List.infix_cons_iff, or_iff_right behind]
    exact ih
  | case3 => simp [mark]

/-- The text, without blanks around it, names the proxy of a target with the scheme http, whose scheme need not be
written. -/
structure IsSpelled (w : Spelling) (text : List Char) : Prop where
  proper : w.IsProper
  http : Uri.schemeName w.scheme = "http"
  short : (String.ofList w.text).utf8ByteSize ≤ maxLength
  text : text = w.text ∨ w.scheme = "http".toList ∧ ¬ divider <:+: text ∧ text = w.rest

/-- The proxy at an authority. -/
def proxyAt (a : Authority) : Uri := .absolute "http" a .root

theorem render_proxyAt (a : Authority) : (proxyAt a).render = "http://" ++ a.text ++ "/" := by
  simp [proxyAt, Uri.render, PathQuery.render, PathQuery.root]

variable {text : String} {u : Uri} {w : Spelling}

/-- The text that is read as a target. -/
def completed (named : String) : String := if hasDivider named.toList then named else "http://" ++ named

/-- A proxy is named by a target with the scheme http. -/
theorem readProxy_eq_some {named : String} (trimmed : named = String.ofList (Text.trim text.toList)) :
    readProxy text = some u ↔ named ≠ "" ∧ ∃ a t, Uri.parse? (completed named) = some (.absolute "http" a t) ∧
      u = proxyAt a := by
  unfold readProxy
  rw [← trimmed]
  by_cases empty : named = ""
  · simp [empty]
  simp only [String.isEmpty_iff, empty, if_false, ne_eq, not_false_iff, true_and]
  constructor
  · intro h
    obtain ⟨target, read, h⟩ := Option.bind_eq_some_iff.mp h
    cases target with
    | absolute scheme a t =>
      split at h
      · rename_i http
        obtain rfl := Option.some.inj http
        exact ⟨a, t, read, (Option.some.inj h).symm⟩
      · cases h
    | authority a => cases h
    | origin t => cases h
  · rintro ⟨a, t, read, rfl⟩
    exact Option.bind_eq_some_iff.mpr ⟨_, read, rfl⟩

theorem isTyped_http : Uri.IsTyped "http".toList := ⟨forall_mem_of_all (by decide), by decide⟩

theorem schemeName_http : Uri.schemeName "http".toList = "http" := by decide

/-- A text is completed to the spelling of a target. -/
theorem toList_completed_iff {named : String} (typed : Uri.IsTyped w.scheme) :
    (completed named).toList = w.text ↔
      named.toList = w.text ∨ w.scheme = "http".toList ∧ ¬ divider <:+: named.toList ∧ named.toList = w.rest := by
  have divided : divider <:+: w.text := ⟨w.scheme, w.rest, by rw [w.text_eq_rest, List.append_assoc]⟩
  by_cases front : divider <:+: named.toList
  · rw [completed, if_pos (hasDivider_iff.mpr front)]
    simp [front]
  · have other : named.toList ≠ w.text := fun same => front (same ▸ divided)
    have written : ("http://" ++ named).toList = "http".toList ++ (divider ++ named.toList) := by
      simp [divider]
    rw [completed, if_neg (mt hasDivider_iff.mp front), written]
    simp only [other, front, false_or, not_false_iff, true_and]
    rw [w.text_eq_rest]
    constructor
    · intro same
      have scheme := congrArg (List.takeWhile Uri.isSchemeChar) same
      rw [Uri.takeWhile_scheme isTyped_http.chars, Uri.takeWhile_scheme typed.chars] at scheme
      rw [← scheme] at same
      exact ⟨scheme.symm, List.append_cancel_left (List.append_cancel_left same)⟩
    · rintro ⟨scheme, rest⟩
      rw [scheme, rest]

/-- Every name of a proxy is spelled, and of the spelling only the authority counts. -/
theorem readProxy_eq_some_iff :
    readProxy text = some u ↔ ∃ w, IsSpelled w (Text.trim text.toList) ∧ u = proxyAt w.authority := by
  generalize trimmed : String.ofList (Text.trim text.toList) = named
  have chars : Text.trim text.toList = named.toList := by rw [← trimmed, String.toList_ofList]
  rw [readProxy_eq_some trimmed.symm, chars]
  constructor
  · rintro ⟨-, a, t, read, rfl⟩
    obtain ⟨w, proper, text, uri⟩ := Spelling.exists_text read
    obtain ⟨http, rfl, -⟩ := Uri.absolute.inj uri
    refine ⟨w, ⟨proper, http, ?_, (toList_completed_iff proper.scheme).mp text⟩, rfl⟩
    rw [← text, String.ofList_toList]
    exact Uri.short_of_parse? read
  · rintro ⟨w, spelled, rfl⟩
    have text := (toList_completed_iff spelled.proper.scheme).mpr spelled.text
    have short := spelled.short
    rw [← text, String.ofList_toList] at short
    have read := Spelling.parse?_text spelled.proper text short
    rw [Spelling.uri, spelled.http] at read
    refine ⟨?_, w.authority, _, read, rfl⟩
    rintro rfl
    rcases spelled.text with whole | ⟨-, -, rest⟩
    · simp [w.text_eq_rest, divider] at whole
    · exact w.rest_ne_nil rest.symm

/-- The spelling of what is printed for a proxy. -/
def printed (a : Authority) : Spelling := ⟨"http".toList, a, ['/'], none, []⟩

theorem toList_render_proxyAt (a : Authority) : (proxyAt a).render.toList = (printed a).text := by
  simp [render_proxyAt, printed, Spelling.text, Spelling.tail, divider]

theorem isProper_printed (a : Authority) : (printed a).IsProper where
  scheme := isTyped_http
  pieces := ⟨by simp [printed, PathQuery.isPathChar_slash], by simp [printed], by simp [printed]⟩
  slash := by simp [printed]

theorem trim_render_proxyAt (a : Authority) :
    Text.trim (proxyAt a).render.toList = (proxyAt a).render.toList := by
  have ends : (proxyAt a).render.toList = 'h' :: ("ttp://".toList ++ a.text.toList ++ ['/']) := by
    simp [render_proxyAt]
  rw [ends]
  exact Text.trim_of_ends (by decide) (by decide) _

/-- A proxy is named by what is printed for it, unless that is too long. -/
theorem readProxy_render (a : Authority) :
    readProxy (proxyAt a).render = if (proxyAt a).render.utf8ByteSize ≤ maxLength then some (proxyAt a) else none := by
  split
  · rename_i short
    refine readProxy_eq_some_iff.mpr ⟨printed a, ⟨isProper_printed a, schemeName_http, ?_, .inl ?_⟩, rfl⟩
    · rwa [← toList_render_proxyAt, String.ofList_toList]
    · rw [trim_render_proxyAt, toList_render_proxyAt]
  · rename_i long
    rw [Option.eq_none_iff_forall_ne_some]
    intro u named
    obtain ⟨w, spelled, -⟩ := readProxy_eq_some_iff.mp named
    rw [trim_render_proxyAt] at spelled
    rcases spelled.text with whole | ⟨-, undivided, -⟩
    · have short := spelled.short
      rw [← whole, String.ofList_toList] at short
      exact long short
    · refine undivided ⟨"http".toList, (printed a).rest, ?_⟩
      rw [toList_render_proxyAt, Spelling.text_eq_rest, List.append_assoc]
      rfl

/-! ## Names of any length -/

theorem isWhole_letters (n : Nat) : Authority.isWhole (List.replicate (n + 1) 'a') = true := by
  have scan (n : Nat) : (List.replicate n 'a').foldlM Authority.Scan.step ({} : Authority.Scan) = some {} := by
    induction n with
    | zero => rfl
    | succ n ih =>
      have step : Authority.Scan.step {} 'a' = some {} := by decide
      rw [List.replicate_succ, List.foldlM_cons, step]
      exact ih
  simp only [Authority.isWhole, Authority.accepts, scan]
  rfl

/-- A host of one and the same letter. -/
def letters (n : Nat) : Authority where
  text := String.ofList (List.replicate (n + 1) 'a')
  whole := by rw [String.toList_ofList, isWhole_letters]

theorem utf8ByteSize_letters (n : Nat) : (letters n).text.utf8ByteSize = n + 1 := by
  have size (n : Nat) : (String.ofList (List.replicate n 'a')).utf8ByteSize = n := by
    induction n with
    | zero => rfl
    | succ n ih =>
      have letter : 'a'.utf8Size = 1 := rfl
      rw [List.replicate_succ, String.ofList_cons, String.utf8ByteSize_append, ih, String.utf8ByteSize_singleton,
        letter, Nat.add_comm]
  exact size (n + 1)

theorem readProxy_letters {n : Nat} (short : n + 8 ≤ maxLength) :
    readProxy ("http://" ++ (letters n).text) = some (proxyAt (letters n)) := by
  have written : ("http://" ++ (letters n).text).toList =
      'h' :: ("ttp://".toList ++ List.replicate n 'a' ++ ['a']) := by
    simp [letters, List.replicate_succ']
  have trimmed : Text.trim ("http://" ++ (letters n).text).toList = ("http://" ++ (letters n).text).toList := by
    rw [written]
    exact Text.trim_of_ends (by decide) (by decide) _
  have text : ("http://" ++ (letters n).text).toList = Spelling.text ⟨"http".toList, letters n, [], none, []⟩ := by
    simp [Spelling.text, Spelling.tail, divider]
  have proper : Spelling.IsProper ⟨"http".toList, letters n, [], none, []⟩ :=
    ⟨isTyped_http, ⟨by simp, by simp, by simp⟩, by simp⟩
  refine readProxy_eq_some_iff.mpr ⟨_, ⟨proper, schemeName_http, ?_, .inl ?_⟩, rfl⟩
  · have front : "http://".utf8ByteSize = 7 := rfl
    rw [← text, String.ofList_toList, String.utf8ByteSize_append, utf8ByteSize_letters, front]
    omega
  · rw [trimmed, text]

theorem readProxy_render_letters {n : Nat} (long : maxLength < n + 9) :
    readProxy (proxyAt (letters n)).render = none := by
  have size : (proxyAt (letters n)).render.utf8ByteSize = n + 9 := by
    have front : "http://".utf8ByteSize = 7 := rfl
    have slash : "/".utf8ByteSize = 1 := rfl
    rw [render_proxyAt, String.utf8ByteSize_append, String.utf8ByteSize_append, utf8ByteSize_letters, front, slash]
    omega
  rw [readProxy_render, if_neg (by omega)]

end Proxy
end ForwardProxy
