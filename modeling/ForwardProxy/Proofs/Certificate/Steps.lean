import ForwardProxy.Certificate.Store
import ForwardProxy.Proofs.Files.Operations
import ForwardProxy.Proofs.Results

/-!
# Operations that stop

Operations on files are carried out one after the other, and may stop at any point, because one fails or
because the process ends. What is left behind then lies between the tree in front of them and the tree
behind all of them (`Stops.within`), and from there all of them can be carried out once more (`runAll_again`).

`Stops` has one constructor for each way to stop: in front of an operation, on the way to a directory, within the
bytes that are added, or further on. A file that is opened has no constructor, since there is nothing between the file
as it was and the empty one.

Carrying out once more is proved for one operation from what the file operations say of themselves
(`Files.Tree.Repeats`), and for all of them by induction on the list. `Like` leaves the bytes free that are added:
the second time it is another certificate and another key. The bound `u` is the tree behind the first run, and the
induction keeps it, so that each operation finds the tree that it needs below it.
-/

namespace ForwardProxy.Certificate

open Files (Tree)
open Files.Tree (Within)

namespace FileStep

variable {s s' : FileStep} {steps steps' rest : List FileStep} {t t' u v : Tree} {path : String}
  {bytes : Bytes} {mode : Nat}

/-- The trees that operations may leave behind when they are not carried out to the end: those in front
of an operation, behind a part of the way to a directory, and behind a part of what is added. -/
inductive Stops : List FileStep → Tree → Tree → Prop
  | here (steps : List FileStep) (t : Tree) : Stops steps t t
  | way (path : String) {above : List String} (rest : List FileStep) (t : Tree)
      (part : above <:+ (Tree.names path).reverse) :
      Stops (.directory path :: rest) t (Tree.makeWay (Tree.rootOf path) above t).2
  | part {path : String} {bytes front : Bytes} (rest : List FileStep) {t t' : Tree} (part : front <+: bytes)
      (added : Tree.append path front t = (.ok (), t')) : Stops (.add path bytes :: rest) t t'
  | next {s : FileStep} {rest : List FileStep} {t t' u : Tree} (done : s.run t = (.ok (), t'))
      (later : Stops rest t' u) : Stops (s :: rest) t u

/-- The operations are the same, but for the bytes that are added. -/
inductive Like : FileStep → FileStep → Prop
  | directory (path : String) : Like (.directory path) (.directory path)
  | empty (path : String) (mode : Nat) : Like (.empty path mode) (.empty path mode)
  | add (path : String) (bytes bytes' : Bytes) : Like (.add path bytes) (.add path bytes')

theorem run_eq_ok_iff : s.run t = (.ok (), u) ↔ s.action t = (.ok (), u) := by
  simp only [run, Prod.ext_iff, mapError_eq_ok_iff]

theorem within_run (h : s.run t = (.ok (), u)) : t.Within u := by
  rw [run_eq_ok_iff] at h
  cases s with
  | directory p =>
    have adds := (Tree.addsDirectories_makeDirectories p t).within
    rw [action] at h
    rwa [h] at adds
  | empty p mode => exact Tree.within_create h
  | add p bytes => exact Tree.within_append h

theorem runAll_cons (s : FileStep) (rest : List FileStep) (t : Tree) :
    runAll (s :: rest) t = match s.run t with
      | (.ok _, t) => runAll rest t
      | (.error e, t) => (.error e, t) :=
  rfl

theorem snd_run (s : FileStep) (t : Tree) : (s.run t).2 = (s.action t).2 := rfl

/-- What each operation keeps, whether or not it succeeds, all of them keep. -/
theorem runAll_keeps {P : Tree → Prop} (keeps : ∀ s ∈ steps, ∀ t, P t → P (s.run t).2) (h : P t) :
    P (runAll steps t).2 := by
  induction steps generalizing t with
  | nil => exact h
  | cons s rest ih =>
    have first := keeps s List.mem_cons_self t h
    rw [runAll_cons]
    rcases made : s.run t with ⟨_ | _, t'⟩ <;> rw [made] at first
    · exact first
    · exact ih (fun s hs => keeps s (List.mem_cons_of_mem _ hs)) first

theorem runAll_append (steps rest : List FileStep) (t : Tree) :
    runAll (steps ++ rest) t = match runAll steps t with
      | (.ok _, t) => runAll rest t
      | (.error e, t) => (.error e, t) := by
  induction steps generalizing t with
  | nil => rfl
  | cons s steps ih =>
    rw [List.cons_append, runAll_cons, runAll_cons]
    rcases s.run t with ⟨_ | _, t'⟩
    · rfl
    · exact ih t'

theorem runAll_cons_eq_ok_iff : runAll (s :: rest) t = (.ok (), u) ↔
    ∃ t', s.run t = (.ok (), t') ∧ runAll rest t' = (.ok (), u) := by
  rw [runAll_cons]
  rcases s.run t with ⟨_ | _, t'⟩ <;> simp

theorem runAll_append_eq_ok_iff : runAll (steps ++ rest) t = (.ok (), u) ↔
    ∃ t', runAll steps t = (.ok (), t') ∧ runAll rest t' = (.ok (), u) := by
  rw [runAll_append]
  rcases runAll steps t with ⟨_ | _, t'⟩ <;> simp

theorem within_runAll (h : runAll steps t = (.ok (), u)) : t.Within u := by
  induction steps generalizing t with
  | nil =>
    obtain rfl : t = u := congrArg Prod.snd h
    exact .refl t
  | cons s rest ih =>
    obtain ⟨t', first, back⟩ := runAll_cons_eq_ok_iff.mp h
    exact (within_run first).trans (ih back)

/-- Behind a part of what an operation does, all of it can be done. -/
theorem run_again (like : Like s s') (done : s.run t = (.ok (), t')) (low : t.Within v) (high : v.Within u)
    (top : t'.Within u) : ∃ v', s'.run v = (.ok (), v') ∧ t'.Within v' ∧ v'.Within u := by
  rw [run_eq_ok_iff] at done
  simp only [run_eq_ok_iff]
  cases like with
  | directory path => exact Tree.repeats_makeDirectories path done low high top
  | empty path mode => exact Tree.repeats_create path mode done low high top
  | add path bytes bytes' => exact Tree.repeats_append path bytes bytes' done low high top

theorem runAll_again (like : List.Forall₂ Like steps steps') (done : runAll steps t = (.ok (), t'))
    (low : t.Within v) (high : v.Within u) (top : t'.Within u) :
    ∃ v', runAll steps' v = (.ok (), v') ∧ t'.Within v' ∧ v'.Within u := by
  induction like generalizing t v with
  | nil =>
    obtain rfl : t = t' := congrArg Prod.snd done
    exact ⟨v, rfl, low, high⟩
  | cons like _ ih =>
    obtain ⟨t₁, first, back⟩ := runAll_cons_eq_ok_iff.mp done
    obtain ⟨v₁, firstAgain, low₁, high₁⟩ := run_again like first low high ((within_runAll back).trans top)
    obtain ⟨v', backAgain, low', high'⟩ := ih back low₁ high₁
    exact ⟨v', runAll_cons_eq_ok_iff.mpr ⟨v₁, firstAgain, backAgain⟩, low', high'⟩

namespace Stops

/-- What is left behind lies between the tree before and the tree behind all operations. -/
theorem within (h : Stops steps t v) (done : runAll steps t = (.ok (), u)) : t.Within v ∧ v.Within u := by
  induction h with
  | here steps t => exact ⟨.refl t, within_runAll done⟩
  | way path rest t part =>
    obtain ⟨t', first, back⟩ := runAll_cons_eq_ok_iff.mp done
    rw [run_eq_ok_iff] at first
    exact ⟨(Tree.addsDirectories_makeWay _ _ t).within,
      (Tree.within_of_suffix (fun _ => Tree.isName_of_mem_reverse_names) part first).trans
        (within_runAll back)⟩
  | part rest part added =>
    obtain ⟨t', first, back⟩ := runAll_cons_eq_ok_iff.mp done
    rw [run_eq_ok_iff] at first
    obtain ⟨p, content, old, found, hp, rfl⟩ := Tree.append_eq_ok_iff.mp added
    refine ⟨Tree.within_append added, Within.trans ?_ (within_runAll back)⟩
    have below := Tree.ne_nil_of_file hp
    have grown := Tree.within_append first
    refine grown.set below (grown.kept p _ ?_)
    rw [Tree.kind?, hp]
    rfl
  | next first _ ih =>
    obtain ⟨t₁, again, back⟩ := runAll_cons_eq_ok_iff.mp done
    rw [first] at again
    obtain rfl := congrArg Prod.snd again
    exact ⟨(within_run first).trans (ih back).1, (ih back).2⟩

/-- Operations stop among the first, or behind all of these. -/
theorem split (h : Stops (steps ++ rest) t v) :
    Stops steps t v ∨ ∃ t', runAll steps t = (.ok (), t') ∧ Stops rest t' v := by
  induction steps generalizing t with
  | nil => exact .inr ⟨t, rfl, h⟩
  | cons s steps ih =>
    cases h with
    | here => exact .inl (.here _ _)
    | way path _ _ part => exact .inl (.way path steps t part)
    | part _ part added => exact .inl (.part steps part added)
    | next done later =>
      rcases ih later with among | ⟨t', all, behind⟩
      · exact .inl (.next done among)
      · exact .inr ⟨t', runAll_cons_eq_ok_iff.mpr ⟨_, done, all⟩, behind⟩

end Stops
end FileStep

end ForwardProxy.Certificate
