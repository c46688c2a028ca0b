import ForwardProxy.Console.Session
import ForwardProxy.Proofs.Moderation.Queue
import ForwardProxy.Proofs.Text.Numerals

/-!
# Replies of the console

What a command is answered with, and what it leaves of the queue. Replies are told apart by their first characters: no
command is answered as a line is that holds none. A list has one entry for each id that is pending, in ascending
order if the queue has them so; no command adds an id or puts the ids out of order.

* `begins_execute`, `begins_message`: no reply to a command, and none to a line that is no command, begins with the
  letter of the reply to an empty line. The proof goes through the commands and looks at one letter of each text.
* `lists_execute_list`: a list is `Lists` of the queue at that time; it says so if nothing is held.
* `ids_execute`: the ids behind a command are some of those in front of it, in the same order.

The records that a list shows beside the ids are a parameter of `Lists`: with the log switched off there are none, and
the ids are listed all the same. The order is a hypothesis here; that a queue keeps its ids in ascending order is an
invariant of the queue.
-/

namespace ForwardProxy.Console

open Moderation (State)

variable {hasRecords : Bool} {s : State}

/-! ## How replies begin -/

/-- The first character of a text. -/
def Begins (text : String) (x : Char) : Prop := text.toList.head? = some x

theorem begins_append {a b : String} {x : Char} (h : Begins a x) : Begins (a ++ b) x := by
  unfold Begins at *
  rw [String.toList_append, List.head?_append, h, Option.some_or]

theorem Begins.ne {a b : String} {x y : Char} (ha : Begins a x) (hb : Begins b y) (other : x ≠ y) : a ≠ b := by
  rintro rfl
  exact other (Option.some.inj (ha.symm.trans hb))

/-- An entry of a list begins with a digit of its id. -/
theorem begins_describe (record? : Nat → Option Moderation.Record) (id : Nat) :
    ∃ d, Begins (describe record? id) d ∧ d.isDigit = true := by
  obtain ⟨d, ds, digits⟩ := List.exists_cons_of_ne_nil (Text.toList_toString_ne_nil id)
  have first : Begins (toString id) d := by rw [Begins, digits, List.head?_cons]
  have digit : Text.isDigit d = true := Text.isDigit_of_mem_toString (digits ▸ List.mem_cons_self)
  refine ⟨d, ?_, Text.isDigit_eq d ▸ digit⟩
  unfold describe
  split
  · iterate 6 apply begins_append
    exact first
  · exact first

theorem execute_list (hasRecords : Bool) (s : State) :
    execute hasRecords s .list =
      (if s.queue.ids = [] then "no held requests" else
        String.intercalate "\n"
          (s.queue.ids.map (describe fun id => if hasRecords then s.log.get? id else none)), s) := by
  by_cases empty : s.queue.ids = [] <;> simp [execute, empty]

theorem begins_describeError (e : Moderation.Error) : ∃ x, Begins (describeError e) x ∧ x ≠ 'e' := by
  cases e with
  | notFound => exact ⟨'n', begins_append rfl, by decide⟩
  | released => exact ⟨'r', begins_append (begins_append rfl), by decide⟩

theorem begins_execute (hasRecords : Bool) (s : State) (c : Command) :
    ∃ x, Begins (execute hasRecords s c).1 x ∧ x ≠ 'e' := by
  cases c with
  | list =>
    rw [execute_list]
    dsimp only
    split
    · exact ⟨'n', rfl, by decide⟩
    · rename_i nonempty
      obtain ⟨id, ids, held⟩ := List.exists_cons_of_ne_nil nonempty
      obtain ⟨d, first, digit⟩ := begins_describe (fun id => if hasRecords then s.log.get? id else none) id
      refine ⟨d, ?_, fun same => absurd (same ▸ digit) (by decide)⟩
      unfold Begins at first ⊢
      rw [held, List.map_cons, String.toList_intercalate]
      cases ids <;> simp [List.intercalate_cons_cons, first]
  | approve id =>
    unfold execute
    dsimp only
    split
    · exact ⟨'a', begins_append rfl, by decide⟩
    · exact begins_describeError _
  | drop id =>
    unfold execute
    dsimp only
    split
    · exact ⟨'d', begins_append rfl, by decide⟩
    · exact begins_describeError _
  | flush => exact ⟨'r', begins_append (begins_append rfl), by decide⟩
  | moderate on => exact ⟨'m', begins_append rfl, by decide⟩
  | help => exact ⟨'c', show Begins helpText 'c' from rfl, by decide⟩
  | quit => exact ⟨'b', show Begins "bye" 'b' from rfl, by decide⟩

theorem begins_message {fault : CommandFault} (nonempty : fault ≠ .empty) :
    ∃ x, Begins fault.message x ∧ x ≠ 'e' := by
  cases fault with
  | empty => exact absurd rfl nonempty
  | takesNoArguments => exact ⟨'\'', begins_append (begins_append rfl), by decide⟩
  | missingId => exact ⟨'m', rfl, by decide⟩
  | invalidId => exact ⟨'i', begins_append (begins_append rfl), by decide⟩
  | tooManyArguments => exact ⟨'t', begins_append (begins_append rfl), by decide⟩
  | moderateUsage => exact ⟨'u', rfl, by decide⟩
  | unknown => exact ⟨'u', begins_append (begins_append rfl), by decide⟩

/-! ## Lists of what is held -/

/-- A reply lists the pending ids of a queue, one an entry, in ascending order; it says so if there are none. -/
def Lists (record? : Nat → Option Moderation.Record) (q : Moderation.Queue) (reply : String) : Prop :=
  if q.count = 0 then reply = "no held requests"
  else ∃ ids : List Nat, ids.Pairwise (· < ·) ∧ (∀ id, id ∈ ids ↔ q.contains id = true) ∧
    reply = String.intercalate "\n" (ids.map (describe record?))

theorem mem_ids_iff {q : Moderation.Queue} {id : Nat} : id ∈ q.ids ↔ q.contains id = true := by
  simp [Moderation.Queue.ids, Moderation.Queue.contains, Moderation.Queue.find?, List.find?_isSome]

theorem lists_execute_list (ascending : s.queue.ids.Pairwise (· < ·)) :
    Lists (fun id => if hasRecords then s.log.get? id else none) s.queue (execute hasRecords s .list).1 := by
  have count : s.queue.count = 0 ↔ s.queue.ids = [] := by
    simp [Moderation.Queue.count, Moderation.Queue.ids]
  unfold Lists
  rw [execute_list]
  by_cases empty : s.queue.ids = []
  · rw [if_pos (count.mpr empty), if_pos empty]
  · rw [if_neg (mt count.mp empty), if_neg empty]
    exact ⟨s.queue.ids, ascending, fun id => mem_ids_iff, rfl⟩

/-- Of the ids that are pending no command does more than take some out. -/
theorem ids_execute (hasRecords : Bool) (s : State) (c : Command) :
    (execute hasRecords s c).2.queue.ids.Sublist s.queue.ids := by
  have same : s.queue.pending.Sublist s.queue.pending := .refl _
  have forgotten (id : Nat) (told : Nat) (w : Moderation.Waiter) :
      ((s.queue.forget id).tell told w).pending.Sublist s.queue.pending := by
    rw [Moderation.Queue.tell_pending]
    exact List.filter_sublist
  have flushed : (s.flush).2.queue.pending.Sublist s.queue.pending := List.nil_sublist _
  refine List.Sublist.map Prod.fst ?_
  cases c with
  | list => simp [execute_list]
  | approve id =>
    have approved : (s.approve id).2.queue.pending.Sublist s.queue.pending := by
      unfold State.approve Moderation.Queue.approve
      split
      · exact same
      · split <;> exact forgotten id _ _
    unfold execute
    dsimp only
    split <;> exact approved
  | drop id =>
    unfold execute State.remove Moderation.Queue.remove
    dsimp only
    split
    · exact forgotten id _ _
    · exact same
  | flush => exact flushed
  | moderate on =>
    cases on
    · exact flushed
    · exact same
  | help | quit => exact same

end ForwardProxy.Console
