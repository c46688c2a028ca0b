import ForwardProxy.Proofs.Files.Operations

/-!
# Trees without links

Where nothing is a link, a path leads to one place only, if it leads anywhere. So what an operation does
is told by the places of its paths: what stands elsewhere stays, and only directories are added to it.

* `Linkless.walk_eq`, `resolve_eq`, `locate_eq`: a path that leads somewhere leads to its `place`, which does not
  depend on the tree.
* `ChangesAt ps t u`: elsewhere than at the places `ps`, `u` is `t` with some directories added. It is transitive, so
  it is proved of one operation at a time, and a file elsewhere is read as before (`ChangesAt.read_eq`).
* `remove_cases`: a removal changes nothing or takes away one file; `read_remove` says that another file is still
  read afterwards.

## Side conditions

That nothing is a link cannot be left out: with a link among the directories two different names may lead to one
file, and what is saved under the one changes what is read under the other. It is asked of the tree at the start only,
since no operation makes a link: `Linkless.within` and `Linkless.erase` carry it on.

The converse of `walk_eq` fails. A path has a place even if a file stands in its way or a name is too long, so each
lemma begins with a walk that has succeeded.
-/

namespace ForwardProxy.Files.Tree

variable {t s u : Tree} {p q here : Place} {e : Entry} {path : String} {mode : Nat}
  {content bytes : Bytes} {ps : List Place}

/-! ## Places of paths -/

/-- Where a name leads, unless something is in the way. -/
def next (here : Place) (name : String) : Place := if name = ".." then here.dropLast else here ++ [name]

/-- The place of a path in a tree without links. -/
def place (path : String) : Place := (names path).foldl next []

theorem place_under {dir name : String} (named : IsName name) (down : name ≠ "..") :
    place (under dir name) = place dir ++ [name] := by
  rw [place, names_under, named.names_eq, List.foldl_append, List.foldl_cons, List.foldl_nil, next, if_neg down]
  rfl

/-- Nothing is a link. -/
def Linkless (t : Tree) : Prop := ∀ p target, t.at? p ≠ some (.link target)

namespace Linkless

theorem within (h : t.Linkless) (grown : t.Within u) : u.Linkless :=
  fun p target link => h p target (grown.noLinks p target link)

theorem erase (h : t.Linkless) (below : q ≠ []) : (t.erase q).Linkless := by
  intro p target link
  rw [at?_erase t below] at link
  split at link
  · cases link
  · exact h p target link

/-- A name leads up, or down to anything if it is the last one, or else to a directory. -/
theorem walk_cons_eq_ok_iff (h : t.Linkless) {last : Bool} {links : Nat} {name : String}
    {rest : List String} : t.walk last links here (name :: rest) = .ok p ↔
      (name = ".." ∧ t.walk last links here.dropLast rest = .ok p) ∨
      (name ≠ ".." ∧ name.utf8ByteSize ≤ maxName ∧ ((rest = [] ∧ here ++ [name] = p) ∨
        (t.at? (here ++ [name]) = some .directory ∧ t.walk last links (here ++ [name]) rest = .ok p))) := by
  rw [walk_cons]
  split
  · simp [*]
  split
  · rename_i long
    simp [*, Nat.not_le.mpr long]
  rename_i up short
  have fits := Nat.not_lt.mp short
  cases found : t.at? (here ++ [name]) with
  | none => cases rest <;> simp [up, fits]
  | some e =>
    cases e with
    | file => cases rest <;> simp [up, fits]
    | directory => cases rest <;> simp [up, fits, walk_nil]
    | link target => exact absurd found (h _ _)

theorem walk_eq (h : t.Linkless) {last : Bool} {links : Nat} {ns : List String}
    (found : t.walk last links here ns = .ok p) : p = ns.foldl next here := by
  induction ns generalizing here with
  | nil =>
    rw [walk_nil] at found
    exact (Except.ok.inj found).symm
  | cons name rest ih =>
    rw [List.foldl_cons, next]
    rcases h.walk_cons_eq_ok_iff.mp found with ⟨up, found⟩ | ⟨down, -, ⟨rfl, rfl⟩ | ⟨-, found⟩⟩
    · rw [if_pos up]
      exact ih found
    · rw [if_neg down]
      rfl
    · rw [if_neg down]
      exact ih found

theorem resolve_eq (h : t.Linkless) (found : t.resolve path = .ok p) : p = place path := by
  rw [Tree.resolve] at found
  split at found
  · cases found
  · exact h.walk_eq found

theorem locate_eq (h : t.Linkless) (found : t.locate path = .ok p) : p = place path := by
  rw [Tree.locate] at found
  split at found
  · cases found
  · exact h.walk_eq found

/-- Names lead where they have led before a file was taken away. -/
theorem walk_erase (h : t.Linkless) (there : t.at? q = some (.file content mode)) {last : Bool}
    {links : Nat} {ns : List String} (found : t.walk last links here ns = .ok p) :
    (t.erase q).walk last links here ns = .ok p := by
  have below := ne_nil_of_file there
  induction ns generalizing here with
  | nil => rwa [walk_nil] at found ⊢
  | cons name rest ih =>
    rw [(h.erase below).walk_cons_eq_ok_iff]
    rcases h.walk_cons_eq_ok_iff.mp found with ⟨up, found⟩ | ⟨down, short, ⟨rfl, rfl⟩ | ⟨dir, found⟩⟩
    · exact .inl ⟨up, ih found⟩
    · exact .inr ⟨down, short, .inl ⟨rfl, rfl⟩⟩
    · refine .inr ⟨down, short, .inr ⟨?_, ih found⟩⟩
      rw [at?_erase t below, if_neg, dir]
      rintro rfl
      rw [there] at dir
      cases dir

theorem read_eq_ok (h : t.Linkless) (found : read path t = .ok bytes) :
    ∃ mode, t.at? (place path) = some (.file bytes mode) := by
  obtain ⟨p, mode, led, there⟩ := read_eq_ok_iff.mp found
  exact ⟨mode, h.resolve_eq led ▸ there⟩

end Linkless

/-! ## Changes at some places -/

/-- Elsewhere than at some places nothing has been changed, but directories are where nothing was. -/
def ChangesAt (ps : List Place) (t u : Tree) : Prop :=
  ∀ q, q ∉ ps → u.at? q = t.at? q ∨ t.at? q = none ∧ u.at? q = some .directory

theorem AddsDirectories.changesAt (h : t.AddsDirectories u) (ps : List Place) : ChangesAt ps t u :=
  fun q _ => h q

namespace ChangesAt

theorem trans (h : ChangesAt ps t s) (h' : ChangesAt ps s u) : ChangesAt ps t u := by
  intro q hq
  rcases h q hq with same | ⟨free, new⟩ <;> rcases h' q hq with same' | ⟨free', new'⟩
  · exact .inl (same'.trans same)
  · exact .inr ⟨same ▸ free', new'⟩
  · exact .inr ⟨free, same'.trans new⟩
  · exact .inr ⟨free, new'⟩

/-- A file elsewhere has been there before. -/
theorem at?_file (h : ChangesAt ps t u) (hq : q ∉ ps) (there : u.at? q = some (.file content mode)) :
    t.at? q = some (.file content mode) := by
  rcases h q hq with same | ⟨-, new⟩
  · rw [← same, there]
  · rw [there] at new
    cases new

theorem at?_some (h : ChangesAt ps t u) (hq : q ∉ ps) (there : t.at? q = some e) : u.at? q = some e := by
  rcases h q hq with same | ⟨free, -⟩
  · rw [same, there]
  · rw [there] at free
    cases free

/-- A file elsewhere can still be read. -/
theorem read_eq (h : ChangesAt ps t u) (grown : t.Within u) (links : t.Linkless) (hp : place path ∉ ps)
    (found : read path t = .ok bytes) : Tree.read path u = .ok bytes := by
  obtain ⟨p, mode, led, there⟩ := read_eq_ok_iff.mp found
  refine read_eq_ok_iff.mpr ⟨p, mode, ?_, h.at?_some (links.resolve_eq led ▸ hp) there⟩
  rw [grown.resolve (resolve_ne_notFound led), led]

end ChangesAt

/-! ## Files that are taken away -/

/-- A removal changes nothing, or takes a file from the place of its path. -/
theorem remove_cases (path : String) (h : t.Linkless) : (remove path t).2 = t ∨
    ∃ content mode, t.at? (place path) = some (.file content mode) ∧
      (remove path t).2 = t.erase (place path) := by
  rw [remove]
  split
  · exact .inl rfl
  rename_i p led
  obtain rfl := h.locate_eq led
  cases there : t.at? (place path) with
  | none => exact .inl rfl
  | some e =>
    cases e with
    | file content mode => exact .inr ⟨content, mode, rfl, rfl⟩
    | directory => exact .inl rfl
    | link target => exact absurd there (h _ _)

theorem Linkless.remove (h : t.Linkless) (path : String) : (remove path t).2.Linkless := by
  rcases remove_cases path h with same | ⟨content, mode, there, gone⟩
  · rwa [same]
  · rw [gone]
    exact h.erase (ne_nil_of_file there)

/-- What is there behind a removal has been there before. -/
theorem at?_of_remove (h : t.Linkless) (there : (remove path t).2.at? q = some e) : t.at? q = some e := by
  rcases remove_cases path h with same | ⟨content, mode, file, gone⟩
  · rwa [same] at there
  · rw [gone, at?_erase t (ne_nil_of_file file)] at there
    split at there
    · cases there
    · exact there

/-- The removal of another file does not change what is read. -/
theorem read_remove (h : t.Linkless) {other : String} (apart : place other ≠ place path)
    (found : read path t = .ok bytes) : read path (remove other t).2 = .ok bytes := by
  rcases remove_cases other h with same | ⟨content, mode, file, gone⟩
  · rwa [same]
  obtain ⟨p, mode, led, there⟩ := read_eq_ok_iff.mp found
  obtain rfl := h.resolve_eq led
  rw [gone, read_eq_ok_iff]
  refine ⟨place path, mode, ?_, ?_⟩
  · rw [resolve] at led ⊢
    split at led
    · cases led
    · rename_i nonempty
      rw [if_neg nonempty]
      exact h.walk_erase file led
  · rw [at?_erase t (ne_nil_of_file file), if_neg (Ne.symm apart), there]

end ForwardProxy.Files.Tree
