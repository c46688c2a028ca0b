import ForwardProxy.Proofs.Files.Growth

/-!
# Operations in trees that grow

Directories are only added where nothing was, and files are only put where nothing or a file was. An
operation that succeeds in a tree succeeds as well after a part of what it does has been done, and after
all of it: `Repeats`.

* `addsDirectories_makeDirectories`: making a way changes nothing but that directories are where nothing was, whether
  it succeeds or not.
* `create_eq_ok_iff`, `append_eq_ok_iff`, `read_eq_ok_iff`: what each operation on a file does when it succeeds, and
  at which place. A file that is opened is emptied at once, before a byte has been written.
* `exists_of_create_append`: a file that has been opened and filled holds the bytes, and all else is as it was.
* `repeats_makeDirectories`, `repeats_create`, `repeats_append`: the operations once more.

## How the proof goes

`Repeats a b` is about four trees: `t` before `a`, `t'` behind it, `s` in which it is done once more, and a bound `u`
on everything. If `t` lies within `s`, and `s` and `t'` within `u`, then `b` succeeds in `s` with a result between
`t'` and `u`. The bound is what makes it compose: the operations of a series are all done below the tree at the end
of the first run, so nothing in `s` can stand in the way of the next one. For `append` the bytes of `a` and `b` may
differ, since lying within does not look at contents.

A way is made from its end: if the last directory has no place to be made in, the way to it is made first. The
induction of `repeats_makeWay` is on the names of the way, and a way on which something is already is left alone
(`makeWay_of_meets`).
-/

namespace ForwardProxy.Files.Tree

variable {t t' s u : Tree} {p q : Place} {e : Entry} {f : Fault} {path root name : String}
  {ns above : List String} {mode : Nat} {bytes : Bytes}

/-! ## Directories -/

/-- Nothing has been changed, but directories are where nothing was. -/
def AddsDirectories (t u : Tree) : Prop :=
  ∀ q, u.at? q = t.at? q ∨ t.at? q = none ∧ u.at? q = some .directory

namespace AddsDirectories

theorem refl (t : Tree) : t.AddsDirectories t := fun _ => .inl rfl

theorem trans (h : t.AddsDirectories s) (h' : s.AddsDirectories u) : t.AddsDirectories u := by
  intro q
  rcases h q with same | ⟨free, new⟩ <;> rcases h' q with same' | ⟨free', new'⟩
  · exact .inl (same'.trans same)
  · exact .inr ⟨same ▸ free', new'⟩
  · exact .inr ⟨free, same'.trans new⟩
  · exact .inr ⟨free, new'⟩

theorem eq_of_some (h : t.AddsDirectories u) (hp : t.at? p = some e) : u.at? p = some e := by
  rcases h p with same | ⟨free, -⟩
  · rw [same, hp]
  · rw [hp] at free
    cases free

theorem at?_file (h : t.AddsDirectories u) {content : Bytes} (hp : u.at? p = some (.file content mode)) :
    t.at? p = some (.file content mode) := by
  rcases h p with same | ⟨-, new⟩
  · rw [← same, hp]
  · rw [hp] at new
    cases new

theorem within (h : t.AddsDirectories u) : t.Within u where
  kept p k hk := by
    rw [kind?, Option.map_eq_some_iff] at hk
    obtain ⟨e, he, rfl⟩ := hk
    rw [kind?, h.eq_of_some he]
    rfl
  noLinks p target hp := by
    rcases h p with same | ⟨-, new⟩
    · rw [← same, hp]
    · rw [hp] at new
      cases new

theorem set (hp : t.at? p = none) : t.AddsDirectories (t.set p .directory) := by
  have below : p ≠ [] := by
    rintro rfl
    cases hp
  intro q
  rw [at?_set t below]
  split
  · rename_i same
    exact .inr ⟨same ▸ hp, rfl⟩
  · exact .inl rfl

end AddsDirectories

theorem makeDirectory_of_error (h : t.locate path = .error f) : makeDirectory path t = (.error f, t) := by
  rw [makeDirectory, h]

theorem makeDirectory_of_none (h : t.locate path = .ok p) (hp : t.at? p = none) :
    makeDirectory path t = (.ok (), t.set p .directory) := by
  simp only [makeDirectory, h, hp]

theorem makeDirectory_of_some (h : t.locate path = .ok p) (hp : t.at? p = some e) :
    makeDirectory path t = (.error .exists, t) := by
  simp only [makeDirectory, h, hp]

theorem addsDirectories_makeDirectory (path : String) (t : Tree) :
    t.AddsDirectories (makeDirectory path t).2 := by
  cases h : t.locate path with
  | error f =>
    rw [makeDirectory_of_error h]
    exact .refl t
  | ok p =>
    cases hp : t.at? p with
    | none =>
      rw [makeDirectory_of_none h hp]
      exact .set hp
    | some e =>
      rw [makeDirectory_of_some h hp]
      exact .refl t

theorem snd_orThere (path : String) (made : Except Fault Unit × Tree) :
    (orThere path made).2 = made.2 := by
  rcases made with ⟨_ | _, t⟩
  · rw [orThere]
    split <;> rfl
  · rfl

theorem makeWay_cons (root name : String) (above : List String) (t : Tree) :
    makeWay root (name :: above) t =
      match makeDirectory (pathOf root (name :: above)) t with
      | (.error .notFound, t) =>
        match makeWay root above t with
        | (.ok _, t) => orThere (pathOf root (name :: above)) (makeDirectory (pathOf root (name :: above)) t)
        | failed => failed
      | made => orThere (pathOf root (name :: above)) made :=
  rfl

/-- The way is made first if a directory has no place to be made in. -/
theorem makeWay_of_notFound (h : t.locate (pathOf root (name :: above)) = .error .notFound) :
    makeWay root (name :: above) t =
      match makeWay root above t with
      | (.ok _, t) => orThere (pathOf root (name :: above)) (makeDirectory (pathOf root (name :: above)) t)
      | failed => failed := by
  rw [makeWay_cons, makeDirectory_of_error h]

theorem makeWay_of_ne_notFound (h : t.locate (pathOf root (name :: above)) ≠ .error .notFound) :
    makeWay root (name :: above) t =
      orThere (pathOf root (name :: above)) (makeDirectory (pathOf root (name :: above)) t) := by
  have other : (makeDirectory (pathOf root (name :: above)) t).1 ≠ .error .notFound := by
    cases found : t.locate (pathOf root (name :: above)) with
    | error f =>
      rw [makeDirectory_of_error found]
      rw [found] at h
      exact fun same => h (congrArg Except.error (Except.error.inj same))
    | ok p =>
      cases hp : t.at? p with
      | none => simp [makeDirectory_of_none found hp]
      | some e => simp [makeDirectory_of_some found hp]
  rw [makeWay_cons]
  split
  · rename_i failed
    rw [failed] at other
    exact absurd rfl other
  · rfl

theorem addsDirectories_makeWay (root : String) (ns : List String) (t : Tree) :
    t.AddsDirectories (makeWay root ns t).2 := by
  induction ns with
  | nil => exact .refl t
  | cons name above ih =>
    by_cases h : t.locate (pathOf root (name :: above)) = .error .notFound
    · rw [makeWay_of_notFound h]
      rcases way : makeWay root above t with ⟨_ | _, t'⟩
      · rw [way] at ih
        exact ih
      · rw [way] at ih
        dsimp only
        rw [snd_orThere]
        exact ih.trans (addsDirectories_makeDirectory _ _)
    · rw [makeWay_of_ne_notFound h, snd_orThere]
      exact addsDirectories_makeDirectory _ _

theorem addsDirectories_makeDirectories (path : String) (t : Tree) :
    t.AddsDirectories (makeDirectories path t).2 :=
  addsDirectories_makeWay _ _ t

/-! ## Directories once more -/

/-- What `b` does after a part of what `a` does has been done, it does with the result of `a`, but for
the contents of files. -/
def Repeats (a b : Action Unit) : Prop :=
  ∀ {t t' s u : Tree}, a t = (.ok (), t') → t.Within s → s.Within u → t'.Within u →
    ∃ s', b s = (.ok (), s') ∧ t'.Within s' ∧ s'.Within u

theorem isDirectory_of_locate (h : t.locate path = .ok p) (hp : t.at? p = some .directory) :
    isDirectory path t = true := by
  have direct : t.resolve path = .ok p := by
    rw [resolve_eq_locate, h]
    intro q target hq
    rw [h] at hq
    rw [← Except.ok.inj hq, hp]
    exact fun same => Entry.noConfusion (Option.some.inj same)
  rw [isDirectory, direct]
  exact beq_iff_eq.mpr hp

theorem locate_ok_of_isDirectory (h : isDirectory path t = true) : ∃ p, t.locate path = .ok p := by
  cases found : t.locate path with
  | ok p => exact ⟨p, rfl⟩
  | error f =>
    rw [isDirectory, resolve_eq_locate (by simp [found]), found] at h
    cases h

theorem locate_ne_notFound (h : t.locate path = .ok p) : t.locate path ≠ .error .notFound := by
  rw [h]
  exact fun same => by cases same

theorem orThere_eq_ok_iff : orThere path (makeDirectory path t) = (.ok (), u) ↔
    ∃ p, t.locate path = .ok p ∧ ((t.at? p = none ∧ t.set p .directory = u) ∨
      (t.at? p ≠ none ∧ isDirectory path t = true ∧ t = u)) := by
  cases found : t.locate path with
  | error f =>
    have missing : isDirectory path t = false := by
      rw [← Bool.not_eq_true]
      intro there
      obtain ⟨p, hp⟩ := locate_ok_of_isDirectory there
      rw [hp] at found
      cases found
    simp [makeDirectory_of_error found, orThere, missing]
  | ok p =>
    cases hp : t.at? p with
    | none => simp [makeDirectory_of_none found hp, orThere, hp]
    | some e =>
      by_cases there : isDirectory path t = true <;>
        simp [makeDirectory_of_some found hp, orThere, there, hp]

theorem repeats_directory (path : String) :
    Repeats (fun t => orThere path (makeDirectory path t)) fun t => orThere path (makeDirectory path t) := by
  intro t t' s u made low high top
  dsimp only at made ⊢
  obtain ⟨p, found, ⟨free, rfl⟩ | ⟨taken, there, rfl⟩⟩ := orThere_eq_ok_iff.mp made
  all_goals
    have foundLater : s.locate path = .ok p := by rw [low.locate (locate_ne_notFound found), found]
  · -- the directory is new
    have below : p ≠ [] := by
      rintro rfl
      cases free
    have kind : u.kind? p = some .directory := by
      rw [kind?_eq_directory_iff]
      apply top.at?_directory
      rw [at?_set t below, if_pos rfl]
    cases hs : s.at? p with
    | none =>
      have grown := within_set_of_none hs (e := .directory) (by simp)
      refine ⟨_, orThere_eq_ok_iff.mpr ⟨p, foundLater, .inl ⟨hs, rfl⟩⟩, (low.trans grown).set below ?_,
        high.set below kind⟩
      rw [kind?, at?_set s below, if_pos rfl]
      rfl
    | some e =>
      have directory : s.at? p = some .directory := by
        have later := high.kept p e.kind (by rw [kind?, hs]; rfl)
        rw [kind] at later
        rw [← kind?_eq_directory_iff, kind?, hs, Option.map_some, later]
      exact ⟨s, orThere_eq_ok_iff.mpr ⟨p, foundLater,
        .inr ⟨by simp [hs], isDirectory_of_locate foundLater directory, rfl⟩⟩,
        low.set below (kind?_eq_directory_iff.mpr directory), high⟩
  · -- it has been there
    exact ⟨s, orThere_eq_ok_iff.mpr ⟨p, foundLater,
      .inr ⟨fun free => taken (low.at?_none free), low.isDirectory there, rfl⟩⟩, low, high⟩

/-! ## Ways once more -/

theorem locate_pathOf (path : String) {names : List String} (named : ∀ n ∈ names, IsName n)
    (nonempty : names ≠ []) (t : Tree) :
    t.locate (pathOf (rootOf path) names) = t.walk false maxLinks [] names.reverse := by
  rw [locate, pathOf_ne_empty named nonempty, names_pathOf named]
  rfl

/-- Nothing is made of a way on which something is already. -/
theorem makeWay_of_meets (path : String) (named : ∀ n ∈ ns, IsName n)
    (meets : t.Meets (t.walk false maxLinks [] ns.reverse)) : (makeWay (rootOf path) ns t).2 = t := by
  cases ns with
  | nil => rfl
  | cons name above =>
    have found := locate_pathOf path named (by simp) t
    rw [← found] at meets
    cases h : t.locate (pathOf (rootOf path) (name :: above)) with
    | error f =>
      rw [h] at meets
      rw [makeWay_of_ne_notFound, snd_orThere, makeDirectory_of_error h]
      rw [h]
      exact fun same => meets (Except.error.inj same)
    | ok p =>
      rw [h] at meets
      rw [makeWay_of_ne_notFound (locate_ne_notFound h), snd_orThere]
      cases hp : t.at? p with
      | none => exact absurd hp meets
      | some e => rw [makeDirectory_of_some h hp]

theorem meets_of_suffix (settled : t.walk false maxLinks [] ns.reverse ≠ .error .notFound)
    (suffix : above <:+ ns) (shorter : above ≠ ns) :
    t.Meets (t.walk false maxLinks [] above.reverse) := by
  induction ns with
  | nil => exact absurd (List.suffix_nil.mp suffix) shorter
  | cons name rest ih =>
    rw [List.reverse_cons] at settled
    have meets := meets_front t.standing_top settled
    rcases List.suffix_cons_iff.mp suffix with rfl | inside
    · exact absurd rfl shorter
    · by_cases same : above = rest
      · rw [same]
        exact meets
      · refine ih ?_ inside same
        intro lost
        rw [lost] at meets
        exact meets rfl

theorem repeats_makeWay (named : ∀ n ∈ ns, IsName n) :
    Repeats (makeWay (rootOf path) ns) (makeWay (rootOf path) ns) := by
  induction ns with
  | nil =>
    intro t t' s u made low high _
    obtain rfl : t = t' := congrArg Prod.snd made
    exact ⟨s, rfl, low, high⟩
  | cons name above ih =>
    have namedAbove : ∀ n ∈ above, IsName n := fun n hn => named n (List.mem_cons_of_mem name hn)
    intro t t' s u made low high top
    by_cases lost : t.locate (pathOf (rootOf path) (name :: above)) = .error .notFound
    · rw [makeWay_of_notFound lost] at made
      rcases way : makeWay (rootOf path) above t with ⟨_ | _, t₁⟩
      · rw [way] at made
        cases made
      rw [way] at made
      dsimp only at made
      have grown : t₁.Within t' := by
        have adds := (addsDirectories_makeDirectory (pathOf (rootOf path) (name :: above)) t₁).within
        rw [← snd_orThere (pathOf (rootOf path) (name :: above)), made] at adds
        exact adds
      obtain ⟨s₁, wayLater, low₁, high₁⟩ := ih namedAbove way low high (grown.trans top)
      by_cases lostLater : s.locate (pathOf (rootOf path) (name :: above)) = .error .notFound
      · rw [makeWay_of_notFound lostLater, wayLater]
        exact repeats_directory _ made low₁ high₁ top
      · -- the way is there already, and making it has changed nothing
        have meets : s.Meets (s.walk false maxLinks [] above.reverse) := by
          rw [locate_pathOf path named (by simp)] at lostLater
          exact meets_of_suffix lostLater (List.suffix_cons name above) (by simp)
        obtain rfl : s = s₁ := by
          have idle := makeWay_of_meets path namedAbove meets
          rw [wayLater] at idle
          exact idle.symm
        rw [makeWay_of_ne_notFound lostLater]
        exact repeats_directory _ made low₁ high₁ top
    · rw [makeWay_of_ne_notFound lost] at made
      have settled : s.locate (pathOf (rootOf path) (name :: above)) ≠ .error .notFound := by
        rwa [low.locate lost]
      rw [makeWay_of_ne_notFound settled]
      exact repeats_directory _ made low high top

theorem isName_of_mem_reverse_names {n : String} (h : n ∈ (names path).reverse) : IsName n :=
  isName_of_mem_names (List.mem_reverse.mp h)

theorem repeats_makeDirectories (path : String) : Repeats (makeDirectories path) (makeDirectories path) :=
  repeats_makeWay fun _ => isName_of_mem_reverse_names

/-- A part of a way lies within the whole way. -/
theorem within_of_suffix (named : ∀ n ∈ ns, IsName n) (suffix : above <:+ ns)
    (whole : makeWay (rootOf path) ns t = (.ok (), t')) : (makeWay (rootOf path) above t).2.Within t' := by
  induction ns generalizing t' with
  | nil =>
    rw [List.suffix_nil.mp suffix]
    obtain rfl : t = t' := congrArg Prod.snd whole
    exact .refl t
  | cons name rest ih =>
    rcases List.suffix_cons_iff.mp suffix with rfl | inside
    · rw [whole]
      exact .refl t'
    have namedRest : ∀ n ∈ rest, IsName n := fun n hn => named n (List.mem_cons_of_mem name hn)
    by_cases lost : t.locate (pathOf (rootOf path) (name :: rest)) = .error .notFound
    · rw [makeWay_of_notFound lost] at whole
      rcases way : makeWay (rootOf path) rest t with ⟨_ | _, t₁⟩
      · rw [way] at whole
        cases whole
      rw [way] at whole
      dsimp only at whole
      have adds := (addsDirectories_makeDirectory (pathOf (rootOf path) (name :: rest)) t₁).within
      rw [← snd_orThere (pathOf (rootOf path) (name :: rest)), whole] at adds
      exact (ih namedRest inside way).trans adds
    · have meets : t.Meets (t.walk false maxLinks [] above.reverse) := by
        rw [locate_pathOf path named (by simp)] at lost
        refine meets_of_suffix lost suffix ?_
        rintro rfl
        exact absurd inside.length_le (by simp)
      rw [makeWay_of_meets path (fun n hn => namedRest n (inside.mem hn)) meets]
      have adds := (addsDirectories_makeWay (rootOf path) (name :: rest) t).within
      rwa [whole] at adds

/-! ## Files -/

theorem create_eq_ok_iff : create path mode t = (.ok (), u) ↔ ∃ p, t.resolve path = .ok p ∧
    ((∃ content old, t.at? p = some (.file content old) ∧ u = t.set p (.file [] old)) ∨
      t.at? p = none ∧ endsInSlash path = false ∧ u = t.set p (.file [] mode)) := by
  constructor
  · intro made
    rw [create] at made
    split at made
    · cases made
    rename_i p found
    refine ⟨p, found, ?_⟩
    split at made
    · rename_i content old hp
      exact .inl ⟨content, old, hp, (congrArg Prod.snd made).symm⟩
    · cases made
    · rename_i hp
      split at made
      · cases made
      · rename_i slash
        exact .inr ⟨hp, Bool.not_eq_true _ ▸ slash, (congrArg Prod.snd made).symm⟩
  · rintro ⟨p, found, ⟨content, old, hp, rfl⟩ | ⟨hp, slash, rfl⟩⟩
    · simp only [create, found, hp]
    · simp only [create, found, hp, slash, Bool.false_eq_true, if_false]

theorem append_eq_ok_iff : append path bytes t = (.ok (), u) ↔ ∃ p content old,
    t.resolve path = .ok p ∧ t.at? p = some (.file content old) ∧
      u = t.set p (.file (content ++ bytes) old) := by
  constructor
  · intro made
    rw [append] at made
    split at made
    · cases made
    rename_i p found
    split at made
    · rename_i content old hp
      exact ⟨p, content, old, found, hp, (congrArg Prod.snd made).symm⟩
    · cases made
    · cases made
  · rintro ⟨p, content, old, found, hp, rfl⟩
    simp only [append, found, hp]

theorem read_eq_ok_iff : read path t = .ok bytes ↔ ∃ p mode,
    t.resolve path = .ok p ∧ t.at? p = some (.file bytes mode) := by
  rw [read]
  cases h : t.resolve path with
  | error f => simp
  | ok p =>
    rcases hp : t.at? p with _ | ⟨content, old⟩ | _ | _ <;> simp [hp]

theorem snd_create_of_error (h : (create path mode t).1 = .error f) : (create path mode t).2 = t := by
  rw [create] at h ⊢
  split at h
  · rfl
  · split at h
    · cases h
    · rfl
    · split at h
      · rename_i slash
        rw [if_pos slash]
      · cases h

theorem snd_append_of_error (h : (append path bytes t).1 = .error f) : (append path bytes t).2 = t := by
  rw [append] at h ⊢
  split at h
  · rfl
  · split at h
    · cases h
    · rfl
    · rfl

theorem resolve_ne_notFound (h : t.resolve path = .ok p) : t.resolve path ≠ .error .notFound := by
  rw [h]
  exact fun same => by cases same

theorem ne_nil_of_file {content : Bytes} (h : t.at? p = some (.file content mode)) : p ≠ [] := by
  rintro rfl
  cases h

/-- What can be read is under its path. -/
theorem look_of_read (h : read path t = .ok bytes) : look path t = .ok () := by
  obtain ⟨p, mode, found, there⟩ := read_eq_ok_iff.mp h
  cases located : t.locate path with
  | error f =>
    rw [resolve_eq_locate (by simp [located]), located] at found
    cases found
  | ok q =>
    have present : t.at? q ≠ none := by
      intro free
      rw [resolve_eq_locate, located] at found
      · obtain rfl := Except.ok.inj found
        rw [there] at free
        cases free
      · intro q' target hq'
        rw [located] at hq'
        obtain rfl := Except.ok.inj hq'
        rw [free]
        exact fun same => by cases same
    rw [look, located]
    dsimp only
    rw [if_pos (Option.isSome_iff_ne_none.mpr present)]

/-- Nothing is under a path if nothing is in the place to which it leads later. -/
theorem look_eq_notFound (grown : t.Within u) (located : u.locate path = .ok p) (free : t.at? p = none) :
    look path t = .error .notFound := by
  rw [look]
  cases found : t.locate path with
  | error f =>
    by_cases lost : f = .notFound
    · rw [lost]
    · have settled : t.locate path ≠ .error .notFound := by
        rw [found]
        exact fun e => lost (Except.error.inj e)
      have same := grown.locate settled
      rw [located, found] at same
      cases same
  | ok q =>
    have same := grown.locate (locate_ne_notFound found)
    rw [located, found] at same
    obtain rfl := Except.ok.inj same
    simp [free]

theorem within_create (h : create path mode t = (.ok (), u)) : t.Within u := by
  obtain ⟨p, -, ⟨content, old, hp, rfl⟩ | ⟨hp, -, rfl⟩⟩ := create_eq_ok_iff.mp h
  · refine within_set_of_kind (ne_nil_of_file hp) ?_
    rw [kind?, hp]
    rfl
  · exact within_set_of_none hp (by simp)

theorem within_append (h : append path bytes t = (.ok (), u)) : t.Within u := by
  obtain ⟨p, content, old, -, hp, rfl⟩ := append_eq_ok_iff.mp h
  refine within_set_of_kind (ne_nil_of_file hp) ?_
  rw [kind?, hp]
  rfl

/-- A file that has been opened is empty, and nothing else has changed. -/
theorem exists_of_create (h : create path mode t = (.ok (), u)) : ∃ p old, t.resolve path = .ok p ∧
    u.at? p = some (.file [] old) ∧ ∀ q, q ≠ p → u.at? q = t.at? q := by
  obtain ⟨p, found, how⟩ := create_eq_ok_iff.mp h
  have changed (below : p ≠ []) (old : Nat) : (t.set p (.file [] old)).at? p = some (.file [] old) ∧
      ∀ q, q ≠ p → (t.set p (.file [] old)).at? q = t.at? q := by
    refine ⟨by rw [at?_set t below, if_pos rfl], fun q hq => by rw [at?_set t below, if_neg hq]⟩
  rcases how with ⟨content, old, hp, rfl⟩ | ⟨hp, -, rfl⟩
  · exact ⟨p, old, found, changed (ne_nil_of_file hp) old⟩
  · have below : p ≠ [] := by
      rintro rfl
      cases hp
    exact ⟨p, mode, found, changed below mode⟩

/-- A file to which bytes have been added ends in them, and nothing else has changed. -/
theorem exists_of_append (h : append path bytes t = (.ok (), u)) : ∃ p content old,
    t.resolve path = .ok p ∧ t.at? p = some (.file content old) ∧
      u.at? p = some (.file (content ++ bytes) old) ∧ ∀ q, q ≠ p → u.at? q = t.at? q := by
  obtain ⟨p, content, old, found, hp, rfl⟩ := append_eq_ok_iff.mp h
  have below := ne_nil_of_file hp
  exact ⟨p, content, old, found, hp, by rw [at?_set t below, if_pos rfl],
    fun q hq => by rw [at?_set t below, if_neg hq]⟩

/-- A file that has been opened and filled holds what has been added. -/
theorem exists_of_create_append (created : create path mode t = (.ok (), s))
    (added : append path bytes s = (.ok (), u)) : ∃ p old, t.resolve path = .ok p ∧
      u.at? p = some (.file bytes old) ∧ ∀ q, q ≠ p → u.at? q = t.at? q := by
  obtain ⟨p, old, found, empty, others⟩ := exists_of_create created
  obtain ⟨p', content, old', found', there, filled, others'⟩ := exists_of_append added
  have same : p' = p := by
    rw [(within_create created).resolve (resolve_ne_notFound found), found] at found'
    exact (Except.ok.inj found').symm
  subst same
  obtain ⟨rfl, -⟩ : content = [] ∧ old' = old := by
    rw [empty] at there
    cases there
    exact ⟨rfl, rfl⟩
  refine ⟨p', old', found, filled, fun q hq => ?_⟩
  rw [others' q hq, others q hq]

/-- What is put at a place in a tree is put there in a larger one, in which it fits. -/
theorem repeats_set {content content' : Bytes} {old : Nat} (below : p ≠ []) (low : t.Within s)
    (high : s.Within u) (top : (t.set p (.file content mode)).Within u)
    (fits : s.Within (s.set p (.file content' old))) :
    (t.set p (.file content mode)).Within (s.set p (.file content' old)) ∧
      (s.set p (.file content' old)).Within u := by
  constructor
  · refine (low.trans fits).set below ?_
    rw [kind?, at?_set s below, if_pos rfl]
    rfl
  · refine high.set below ?_
    exact top.kept p _ (by rw [kind?, at?_set t below, if_pos rfl]; rfl)

theorem repeats_create (path : String) (mode : Nat) : Repeats (create path mode) (create path mode) := by
  intro t t' s u made low high top
  have grown := within_create made
  obtain ⟨p, found, how⟩ := create_eq_ok_iff.mp made
  have foundLater : s.resolve path = .ok p := by rw [low.resolve (resolve_ne_notFound found), found]
  obtain ⟨content', mode', rfl⟩ : ∃ content mode, t' = t.set p (.file content mode) := by
    rcases how with ⟨_, old, -, rfl⟩ | ⟨-, -, rfl⟩ <;> exact ⟨_, _, rfl⟩
  have below : p ≠ [] := by
    rcases how with ⟨_, _, hp, -⟩ | ⟨hp, -, -⟩
    · exact ne_nil_of_file hp
    · rintro rfl
      cases hp
  have kind : u.kind? p = some (.file [] 0) :=
    top.kept p _ (by rw [kind?, at?_set t below, if_pos rfl]; rfl)
  cases hs : s.at? p with
  | none =>
    have free : t.at? p = none := low.at?_none hs
    rcases how with ⟨_, _, hp, -⟩ | ⟨-, slash, -⟩
    · rw [hp] at free
      cases free
    · exact ⟨_, create_eq_ok_iff.mpr ⟨p, foundLater, .inr ⟨hs, slash, rfl⟩⟩,
        repeats_set below low high top (within_set_of_none hs (by simp))⟩
  | some e =>
    obtain ⟨content, old, hfile⟩ : ∃ content old, s.at? p = some (.file content old) := by
      have later := high.kept p e.kind (by rw [kind?, hs]; rfl)
      rw [kind] at later
      rw [← kind?_eq_file_iff, kind?, hs, Option.map_some, later]
    refine ⟨_, create_eq_ok_iff.mpr ⟨p, foundLater, .inl ⟨content, old, hfile, rfl⟩⟩,
      repeats_set below low high top (within_set_of_kind below ?_)⟩
    rw [kind?, hfile]
    rfl

theorem repeats_append (path : String) (bytes bytes' : Bytes) :
    Repeats (append path bytes) (append path bytes') := by
  intro t t' s u made low high top
  obtain ⟨p, content, old, found, hp, rfl⟩ := append_eq_ok_iff.mp made
  have below := ne_nil_of_file hp
  obtain ⟨content', old', hs⟩ := low.exists_at?_file hp
  have foundLater : s.resolve path = .ok p := by rw [low.resolve (resolve_ne_notFound found), found]
  refine ⟨_, append_eq_ok_iff.mpr ⟨p, content', old', foundLater, hs, rfl⟩,
    repeats_set below low high top (within_set_of_kind below ?_)⟩
  rw [kind?, hs]
  rfl

end ForwardProxy.Files.Tree
