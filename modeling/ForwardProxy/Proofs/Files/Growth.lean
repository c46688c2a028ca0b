import ForwardProxy.Proofs.Files.Names

/-!
# Trees that grow

One tree lies within another if everything in it is there too, with the same kind of entry at the same
place, and if nothing else is there but files and directories. What a path leads to stays the same then,
unless it leads nowhere for want of a directory. The operations that save files only make a tree grow,
and what they do in a tree they can do in any that lies between it and their result, with a result that
differs in content only.

* `Within`: a preorder of trees up to the contents and modes of files. `at?_set` and `at?_erase` say what a change of
  one place does to every place; `within_set_of_none` and `within_set_of_kind` are the changes by which a tree grows.
* `Within.resolve`, `Within.locate`: a path leads to the same place in a larger tree, or fails there for the same
  reason.
* `resolve_eq_locate`: following the last name makes no difference if it is no link.
* `meets_front`: if the last name of a way can be looked for, then all in front of it is there.

## How the proof goes

A walk goes down one name at a time, and starts over at a link, with the names of the link in front of those that are
left; the number of links that may still be followed falls each time. So a proof about walks has two inductions, over
the links and over the names, and `walk_related` does both at once: a relation that is kept by one stretch without
links, given that it is kept by whatever is done at a link (`walkWith` takes that as a parameter), is kept by the
whole walk. The results on `resolve` and `locate` are instances of it, each with its own relation.

## Side conditions

`settled`, that the walk has not failed with `notFound`, is where growing shows: a directory that was missing may be
there later. All other failures stay, since what stands in the way keeps its kind. `noLinks` in `Within` is needed
for the same lemmas, as a new link would lead a path elsewhere.
-/

namespace ForwardProxy.Files

/-! ## Kinds of entries -/

/-- The entry without what a file holds. -/
def Entry.kind : Entry → Entry
  | .file _ _ => .file [] 0
  | .directory => .directory
  | .link target => .link target

namespace Tree

variable {t t' u : Tree} {p q here : Place} {e : Entry} {path : String}

/-- The kind of the entry at a place. -/
def kind? (t : Tree) (p : Place) : Option Entry := (t.at? p).map Entry.kind

@[simp] theorem at?_top (t : Tree) : t.at? [] = some .directory := rfl

theorem find?_filter_ne (entries : List (Place × Entry)) (p q : Place) :
    ((entries.filter fun a => a.1 ≠ q).find? fun a => a.1 = p) =
      if p = q then none else entries.find? fun a => a.1 = p := by
  induction entries with
  | nil => simp
  | cons a entries ih =>
    by_cases gone : a.1 = q
    · rw [List.filter_cons_of_neg (by simp [gone]), ih]
      by_cases same : p = q
      · rw [if_pos same, if_pos same]
      · rw [if_neg same, if_neg same, List.find?_cons_of_neg (by simp [gone, Ne.symm same])]
    · rw [List.filter_cons_of_pos (by simp [gone])]
      by_cases found : a.1 = p
      · rw [List.find?_cons_of_pos (by simp [found]), List.find?_cons_of_pos (by simp [found]),
          if_neg (found ▸ gone)]
      · rw [List.find?_cons_of_neg (by simp [found]), List.find?_cons_of_neg (by simp [found]), ih]

theorem at?_set (t : Tree) (hq : q ≠ []) (e : Entry) (p : Place) :
    (t.set q e).at? p = if p = q then some e else t.at? p := by
  by_cases top : p = []
  · rw [top, at?_top, at?_top, if_neg (Ne.symm hq)]
  have below : p.isEmpty = false := by simpa using top
  simp only [at?, below, Bool.false_eq_true, if_false, set, List.find?_append, find?_filter_ne]
  by_cases same : p = q
  · simp [same]
  · simp [same, Ne.symm same]

theorem at?_erase (t : Tree) (hq : q ≠ []) (p : Place) :
    (t.erase q).at? p = if p = q then none else t.at? p := by
  by_cases top : p = []
  · rw [top, at?_top, at?_top, if_neg (Ne.symm hq)]
  have below : p.isEmpty = false := by simpa using top
  simp only [at?, below, Bool.false_eq_true, if_false, erase, find?_filter_ne]
  by_cases same : p = q
  · simp [same]
  · simp [same]

/-! ## One tree within another -/

/-- Everything in the one tree is in the other, where nothing else is but files and directories. -/
structure Within (t u : Tree) : Prop where
  kept : ∀ p k, t.kind? p = some k → u.kind? p = some k
  noLinks : ∀ p target, u.at? p = some (.link target) → t.at? p = some (.link target)

theorem kind?_eq_directory_iff : t.kind? p = some .directory ↔ t.at? p = some .directory := by
  rw [kind?]
  rcases t.at? p with _ | ⟨_, _⟩ | _ | _ <;> simp [Entry.kind]

theorem kind?_eq_link_iff {target : String} :
    t.kind? p = some (.link target) ↔ t.at? p = some (.link target) := by
  rw [kind?]
  rcases t.at? p with _ | ⟨_, _⟩ | _ | _ <;> simp [Entry.kind]

theorem kind?_eq_file_iff :
    t.kind? p = some (.file [] 0) ↔ ∃ content mode, t.at? p = some (.file content mode) := by
  rw [kind?]
  rcases t.at? p with _ | ⟨_, _⟩ | _ | _ <;> simp [Entry.kind]

theorem kind?_eq_none_iff : t.kind? p = none ↔ t.at? p = none := by
  rw [kind?, Option.map_eq_none_iff]

namespace Within

theorem refl (t : Tree) : t.Within t := ⟨fun _ _ h => h, fun _ _ h => h⟩

theorem trans (h : t.Within t') (h' : t'.Within u) : t.Within u :=
  ⟨fun p k hk => h'.kept p k (h.kept p k hk), fun p x hx => h.noLinks p x (h'.noLinks p x hx)⟩

theorem at?_directory (h : t.Within u) (hp : t.at? p = some .directory) : u.at? p = some .directory :=
  kind?_eq_directory_iff.mp (h.kept p _ (kind?_eq_directory_iff.mpr hp))

theorem at?_link (h : t.Within u) {target : String} (hp : t.at? p = some (.link target)) :
    u.at? p = some (.link target) :=
  kind?_eq_link_iff.mp (h.kept p _ (kind?_eq_link_iff.mpr hp))

theorem exists_at?_file (h : t.Within u) {content : Bytes} {mode : Nat} (hp : t.at? p = some (.file content mode)) :
    ∃ content mode, u.at? p = some (.file content mode) :=
  kind?_eq_file_iff.mp (h.kept p _ (kind?_eq_file_iff.mpr ⟨content, mode, hp⟩))

theorem at?_none (h : t.Within u) (hp : u.at? p = none) : t.at? p = none := by
  cases hk : t.kind? p with
  | none => exact kind?_eq_none_iff.mp hk
  | some k =>
    have there := h.kept p k hk
    rw [kind?_eq_none_iff.mpr hp] at there
    cases there

/-- What is put into the smaller tree is in the larger one if there is something of its kind. -/
theorem set (h : t.Within u) (hp : p ≠ []) (he : u.kind? p = some e.kind) : (t.set p e).Within u where
  kept q k hk := by
    rw [kind?, at?_set t hp] at hk
    split at hk
    · rename_i same
      rw [same, he, ← hk]
      rfl
    · exact h.kept q k hk
  noLinks q target hq := by
    rw [at?_set t hp]
    split
    · rename_i same
      subst same
      rw [kind?, hq] at he
      cases e with
      | link other => exact congrArg some (Option.some.inj he).symm
      | file => cases Option.some.inj he
      | directory => cases Option.some.inj he
    · exact h.noLinks q target hq

end Within

/-- A tree grows by what is put where nothing was, unless that is a link. -/
theorem within_set_of_none (hp : t.at? p = none) (he : ∀ target, e ≠ .link target) :
    t.Within (t.set p e) := by
  have below : p ≠ [] := by
    rintro rfl
    cases hp
  constructor
  · intro q k hk
    rw [kind?, at?_set t below, if_neg]
    · exact hk
    · rintro rfl
      rw [kind?, hp] at hk
      cases hk
  · intro q target hq
    rw [at?_set t below] at hq
    split at hq
    · exact absurd (Option.some.inj hq) (he target)
    · exact hq

/-- A tree grows by what takes the place of something of its kind. -/
theorem within_set_of_kind (hp : p ≠ []) (he : t.kind? p = some e.kind) : t.Within (t.set p e) := by
  constructor
  · intro q k hk
    rw [kind?, at?_set t hp]
    split
    · rename_i same
      rw [same, he] at hk
      exact hk
    · exact hk
  · intro q target hq
    rw [at?_set t hp] at hq
    split at hq
    · rename_i same
      rw [Option.some.inj hq] at he
      rw [same]
      exact kind?_eq_link_iff.mp he
    · exact hq

/-! ## Following names -/

theorem walk_nil (t : Tree) (last : Bool) (links : Nat) (here : Place) :
    t.walk last links here [] = .ok here := by
  cases links <;> simp only [walk, walkWith]

theorem walk_cons (t : Tree) (last : Bool) (links : Nat) (here : Place) (name : String)
    (rest : List String) : t.walk last links here (name :: rest) =
      if name = ".." then t.walk last links here.dropLast rest
      else if maxName < name.utf8ByteSize then .error .nameTooLong
      else
        match t.at? (here ++ [name]) with
        | some .directory => t.walk last links (here ++ [name]) rest
        | some (.file _ _) => if rest.isEmpty then .ok (here ++ [name]) else .error .notDirectory
        | none => if rest.isEmpty then .ok (here ++ [name]) else .error .notFound
        | some (.link target) =>
          if rest.isEmpty && !last then .ok (here ++ [name])
          else
            match links with
            | 0 => .error .tooManyLinks
            | links + 1 => t.walk last links (if isAbsolute target then [] else here) (names target ++ rest) := by
  cases links <;> rfl

theorem walkWith_cons (t : Tree) (last : Bool) (follow : Place → List String → Except Fault Place)
    (here : Place) (name : String) (rest : List String) : t.walkWith last follow here (name :: rest) =
      if name = ".." then t.walkWith last follow here.dropLast rest
      else if maxName < name.utf8ByteSize then .error .nameTooLong
      else
        match t.at? (here ++ [name]) with
        | some .directory => t.walkWith last follow (here ++ [name]) rest
        | some (.file _ _) => if rest.isEmpty then .ok (here ++ [name]) else .error .notDirectory
        | none => if rest.isEmpty then .ok (here ++ [name]) else .error .notFound
        | some (.link target) =>
          if rest.isEmpty && !last then .ok (here ++ [name])
          else follow (if isAbsolute target then [] else here) (names target ++ rest) :=
  rfl

/-- What relates two walks at each name, whenever it relates what they do at links, relates them as a
whole. -/
theorem walk_related {last last' : Bool}
    {R : Place → List String → Except Fault Place → Except Fault Place → Prop}
    (base : ∀ here ns, R here ns (.error .tooManyLinks) (.error .tooManyLinks))
    (step : ∀ follow follow', (∀ here ns, R here ns (follow here ns) (follow' here ns)) →
      ∀ here ns, R here ns (t.walkWith last follow here ns) (u.walkWith last' follow' here ns))
    (links : Nat) (here : Place) (ns : List String) :
    R here ns (t.walk last links here ns) (u.walk last' links here ns) := by
  induction links generalizing here ns with
  | zero => exact step _ _ base here ns
  | succ links ih => exact step _ _ ih here ns

/-- Where names lead in a tree, they lead in one that it lies within, unless they lead nowhere. -/
theorem Within.walkWith (h : t.Within u) {last : Bool}
    {follow follow' : Place → List String → Except Fault Place}
    (hf : ∀ here ns, follow here ns ≠ .error .notFound → follow' here ns = follow here ns)
    {ns : List String} (settled : t.walkWith last follow here ns ≠ .error .notFound) :
    u.walkWith last follow' here ns = t.walkWith last follow here ns := by
  induction ns generalizing here with
  | nil => simp only [Tree.walkWith]
  | cons name rest ih =>
    rw [walkWith_cons] at settled ⊢
    rw [walkWith_cons]
    split
    · rename_i up
      rw [if_pos up] at settled
      exact ih settled
    rename_i up
    rw [if_neg up] at settled
    split
    · rfl
    rename_i short
    rw [if_neg short] at settled
    cases found : t.at? (here ++ [name]) with
    | none =>
      simp only [found] at settled
      cases rest with
      | cons => exact absurd rfl settled
      | nil =>
        cases there : u.at? (here ++ [name]) with
        | none => rfl
        | some e =>
          cases e with
          | file => rfl
          | directory => simp only [Tree.walkWith, List.isEmpty_nil, if_true]
          | link target =>
            rw [h.noLinks _ _ there] at found
            cases found
    | some e =>
      simp only [found] at settled
      cases e with
      | directory =>
        simp only [h.at?_directory found]
        exact ih settled
      | file =>
        obtain ⟨content, mode, there⟩ := h.exists_at?_file found
        simp only [there]
      | link target =>
        simp only [h.at?_link found]
        split
        · rfl
        · rename_i on
          exact hf _ _ (by simpa only [if_neg on] using settled)

theorem Within.walk (h : t.Within u) {last : Bool} {links : Nat} {ns : List String} :
    t.walk last links here ns ≠ .error .notFound → u.walk last links here ns = t.walk last links here ns :=
  walk_related (R := fun _ _ r r' => r ≠ .error .notFound → r' = r) (fun _ _ _ => rfl)
    (fun _ _ hf _ _ settled => h.walkWith hf settled) links here ns

theorem Within.resolve (h : t.Within u) (settled : t.resolve path ≠ .error .notFound) :
    u.resolve path = t.resolve path := by
  rw [Tree.resolve] at settled ⊢
  rw [Tree.resolve]
  split
  · rfl
  · rename_i nonempty
    rw [if_neg nonempty] at settled
    exact h.walk settled

theorem Within.locate (h : t.Within u) (settled : t.locate path ≠ .error .notFound) :
    u.locate path = t.locate path := by
  rw [Tree.locate] at settled ⊢
  rw [Tree.locate]
  split
  · rfl
  · rename_i nonempty
    rw [if_neg nonempty] at settled
    exact h.walk settled

theorem Within.isDirectory (h : t.Within u) (there : isDirectory path t = true) :
    isDirectory path u = true := by
  rw [Tree.isDirectory] at there ⊢
  cases found : t.resolve path with
  | error f => rw [found] at there; cases there
  | ok p =>
    rw [found] at there
    have entry := h.at?_directory (beq_iff_eq.mp there)
    rw [h.resolve (by simp [found]), found]
    exact beq_iff_eq.mpr entry

/-- Names lead where their own entry is, unless that is a link. -/
theorem walkWith_last {follow follow' : Place → List String → Except Fault Place}
    (hf : ∀ here ns, (∀ q target, follow here ns = .ok q → t.at? q ≠ some (.link target)) →
      follow' here ns = follow here ns) (here : Place) (ns : List String)
    (h : ∀ q target, t.walkWith false follow here ns = .ok q → t.at? q ≠ some (.link target)) :
    t.walkWith true follow' here ns = t.walkWith false follow here ns := by
  induction ns generalizing here with
  | nil => simp only [walkWith]
  | cons name rest ih =>
    rw [walkWith_cons] at h ⊢
    rw [walkWith_cons]
    split
    · rename_i up
      rw [if_pos up] at h
      exact ih _ h
    rename_i up
    rw [if_neg up] at h
    split
    · rfl
    rename_i short
    rw [if_neg short] at h
    cases found : t.at? (here ++ [name]) with
    | none => rfl
    | some e =>
      simp only [found] at h
      cases e with
      | directory => exact ih _ h
      | file => rfl
      | link target =>
        cases rest with
        | nil => exact absurd found (h _ target rfl)
        | cons => exact hf _ _ h

theorem walk_last {links : Nat} {ns : List String} :
    (∀ q target, t.walk false links here ns = .ok q → t.at? q ≠ some (.link target)) →
      t.walk true links here ns = t.walk false links here ns :=
  walk_related (R := fun _ _ r r' => (∀ q target, r = .ok q → t.at? q ≠ some (.link target)) → r' = r)
    (fun _ _ _ => rfl) (fun _ _ hf here ns h => walkWith_last hf here ns h) links here ns

theorem resolve_eq_locate (h : ∀ q target, t.locate path = .ok q → t.at? q ≠ some (.link target)) :
    t.resolve path = t.locate path := by
  rw [locate] at h ⊢
  rw [resolve]
  split
  · rfl
  · rename_i nonempty
    rw [if_neg nonempty] at h
    exact walk_last h

/-- All of the way to a place are directories. -/
def Standing (t : Tree) (here : Place) : Prop := ∀ q, q <+: here → t.at? q = some .directory

theorem Standing.up (h : t.Standing here) : t.Standing here.dropLast :=
  fun q hq => h q (hq.trans (List.dropLast_prefix here))

theorem Standing.down (h : t.Standing here) {name : String}
    (there : t.at? (here ++ [name]) = some .directory) : t.Standing (here ++ [name]) := by
  intro q hq
  rcases List.prefix_concat_iff.mp hq with rfl | hq
  · exact there
  · exact h q hq

theorem standing_top (t : Tree) : t.Standing [] := by
  intro q hq
  rw [List.prefix_nil.mp hq]
  rfl

/-- A way leads to something, or fails for another reason than that nothing is there. -/
def Meets (t : Tree) : Except Fault Place → Prop
  | .ok q => t.at? q ≠ none
  | .error f => f ≠ .notFound

/-- Where something can be looked for in the place to which names lead, something is there. -/
theorem meets_walkWith {last : Bool} {name : String} {follow follow' : Place → List String → Except Fault Place}
    (hf : ∀ here ns, t.Standing here → follow here (ns ++ [name]) ≠ .error .notFound → t.Meets (follow' here ns))
    {ns : List String} (stand : t.Standing here)
    (settled : t.walkWith last follow here (ns ++ [name]) ≠ .error .notFound) :
    t.Meets (t.walkWith false follow' here ns) := by
  induction ns generalizing here with
  | nil =>
    rw [walkWith, Meets, stand here (List.prefix_refl here)]
    exact Option.some_ne_none _
  | cons n ns ih =>
    rw [List.cons_append, walkWith_cons] at settled
    rw [walkWith_cons]
    split
    · rename_i up
      rw [if_pos up] at settled
      exact ih stand.up settled
    rename_i up
    rw [if_neg up] at settled
    split
    · exact Fault.noConfusion
    rename_i short
    rw [if_neg short] at settled
    have more : (ns ++ [name]).isEmpty = false := by simp
    have there (e : Entry) (found : t.at? (here ++ [n]) = some e) : t.Meets (.ok (here ++ [n])) := by
      rw [Meets, found]
      exact Option.some_ne_none _
    cases found : t.at? (here ++ [n]) with
    | none => simp [found] at settled
    | some e =>
      simp only [found, more, Bool.false_and, Bool.false_eq_true, if_false] at settled
      cases e with
      | directory => exact ih (stand.down found) settled
      | file =>
        dsimp only
        split
        · exact there _ found
        · exact Fault.noConfusion
      | link target =>
        dsimp only
        split
        · exact there _ found
        · refine hf _ _ ?_ (by rwa [List.append_assoc])
          split
          · exact t.standing_top
          · exact stand

theorem meets_front {last : Bool} {links : Nat} {ns : List String} {name : String} (stand : t.Standing here)
    (settled : t.walk last links here (ns ++ [name]) ≠ .error .notFound) :
    t.Meets (t.walk false links here ns) := by
  induction links generalizing here ns with
  | zero =>
    have stops : t.Meets (.error .tooManyLinks) := Fault.noConfusion
    exact meets_walkWith (fun _ _ _ _ => stops) stand settled
  | succ links ih => exact meets_walkWith (fun _ _ hs hw => ih hs hw) stand settled

end Tree
end ForwardProxy.Files
