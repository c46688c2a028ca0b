import ForwardProxy.Files.Tree
import Mathlib.Data.List.Basic

/-!
# Names of paths

A path is cut into names at its slashes. Names put together to a path are the names of that path
(`names_pathOf`), and the names of a path in a directory are those of the directory and those of what stands in it
(`names_under`).

`IsName` is what a piece between slashes is once empty pieces and single points have been left out. The two points
are a name here: where they lead is known only when the way is walked, since what stands in front of them may be a
link. A path that is absolute keeps its slash in `rootOf`, which is not among the names; so `pathOf (rootOf path)` of
some names is put together as `path` was, and no lemma tells absolute paths from others.

Empty pieces are no names, which is why `names_slash` holds for any two texts, also if one of them is empty or ends
in a slash itself.
-/

namespace ForwardProxy.Files.Tree

/-- A name of something in a directory, or the two points. -/
structure IsName (n : String) : Prop where
  ne_empty : n ≠ ""
  ne_point : n ≠ "."
  slash_notMem : '/' ∉ n.toList

theorem sep_notMem_of_mem_splitOn {α : Type} [BEq α] [LawfulBEq α] {sep : α} {cs piece : List α}
    (h : piece ∈ cs.splitOn sep) : sep ∉ piece := by
  induction cs generalizing piece with
  | nil =>
    rw [List.splitOn_nil, List.mem_singleton] at h
    rw [h]
    exact List.not_mem_nil
  | cons c cs ih =>
    rw [List.splitOn_cons_eq_if_modifyHead] at h
    split at h
    · rcases List.mem_cons.mp h with rfl | h
      · exact List.not_mem_nil
      · exact ih h
    · rename_i other
      obtain ⟨first, rest, pieces⟩ := List.exists_cons_of_ne_nil (List.splitOn_ne_nil sep cs)
      rw [pieces, List.modifyHead_cons] at h
      rcases List.mem_cons.mp h with rfl | h
      · rw [List.mem_cons, not_or]
        refine ⟨fun same => other (beq_iff_eq.mpr same.symm), ih ?_⟩
        rw [pieces]
        exact List.mem_cons_self
      · refine ih ?_
        rw [pieces]
        exact List.mem_cons_of_mem first h

theorem isName_of_mem_names {path n : String} (h : n ∈ names path) : IsName n := by
  rw [names, List.mem_filter] at h
  obtain ⟨piece, hpiece, rfl⟩ := List.mem_map.mp h.1
  have kept := of_decide_eq_true h.2
  refine ⟨kept.1, kept.2, ?_⟩
  rw [String.toList_ofList]
  exact sep_notMem_of_mem_splitOn hpiece

@[simp] theorem names_empty : names "" = [] := by decide

theorem names_slash (front back : String) : names (front ++ "/" ++ back) = names front ++ names back := by
  have cut : (front ++ "/" ++ back).toList = front.toList ++ '/' :: back.toList := by
    rw [String.toList_append, String.toList_append, List.append_assoc]
    rfl
  rw [names, cut, List.splitOn_append_cons_self, List.map_append, List.filter_append]
  rfl

theorem IsName.names_eq {n : String} (h : IsName n) : names n = [n] := by
  rw [names, List.splitOn_eq_singleton h.slash_notMem, List.map_singleton, String.ofList_toList,
    List.filter_singleton]
  simp [h.ne_empty, h.ne_point]

/-- The names of a path in a directory. -/
theorem names_under (dir name : String) : names (under dir name) = names dir ++ names name := by
  rw [under]
  split
  · rename_i h
    rcases Bool.or_eq_true_iff.mp h with h | h
    · rw [String.isEmpty_iff.mp h, names_empty, List.nil_append, String.empty_append]
    · obtain ⟨front, hfront⟩ : ∃ front, dir.toList = front ++ ['/'] := by
        rw [endsInSlash, beq_iff_eq, List.getLast?_eq_some_iff] at h
        exact h
      obtain rfl : dir = String.ofList front ++ "/" := by
        rw [← String.toList_inj, hfront, String.toList_append, String.toList_ofList]
        rfl
      have bare := names_slash (String.ofList front) ""
      rw [String.append_empty, names_empty, List.append_nil] at bare
      rw [names_slash, bare]
  · exact names_slash dir name

theorem names_intercalate {ns : List String} (h : ∀ n ∈ ns, IsName n) :
    names (String.intercalate "/" ns) = ns := by
  cases ns with
  | nil => exact names_empty
  | cons n ns =>
    have pieces : (String.intercalate "/" (n :: ns)).toList.splitOn '/' = (n :: ns).map String.toList := by
      rw [String.toList_intercalate]
      refine List.splitOn_intercalate '/' ?_ (by simp)
      intro piece hpiece
      obtain ⟨m, hm, rfl⟩ := List.mem_map.mp hpiece
      exact (h m hm).slash_notMem
    rw [names, pieces, List.map_map, List.filter_eq_self.mpr]
    · have same : String.ofList ∘ String.toList = id := funext fun _ => String.ofList_toList
      rw [same, List.map_id]
    · intro m hm
      obtain ⟨x, hx, rfl⟩ := List.mem_map.mp hm
      have named := h x hx
      simpa [String.ofList_toList] using ⟨named.ne_empty, named.ne_point⟩

/-- Names that are put together are found again. -/
theorem names_pathOf {path : String} {ns : List String} (h : ∀ n ∈ ns, IsName n) :
    names (pathOf (rootOf path) ns) = ns.reverse := by
  have found : names (String.intercalate "/" ns.reverse) = ns.reverse :=
    names_intercalate fun n hn => h n (List.mem_reverse.mp hn)
  rw [pathOf, rootOf]
  split
  · have root := names_slash "" (String.intercalate "/" ns.reverse)
    rw [names_empty, List.nil_append, String.empty_append] at root
    rw [root, found]
  · rw [String.empty_append, found]

theorem pathOf_ne_empty {path : String} {ns : List String} (h : ∀ n ∈ ns, IsName n) (nonempty : ns ≠ []) :
    (pathOf (rootOf path) ns).isEmpty = false := by
  rw [Bool.eq_false_iff]
  intro empty
  have found : names (pathOf (rootOf path) ns) = ns.reverse := names_pathOf h
  rw [String.isEmpty_iff.mp empty, names_empty] at found
  exact nonempty (List.reverse_eq_nil_iff.mp found.symm)

end ForwardProxy.Files.Tree
