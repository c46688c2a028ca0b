import Mathlib.Data.List.Rotate
import ForwardProxy.Balancer.SharedBalancer

/-!
# Turns

What it means to be served in turn: the hand-outs of a host run through its list of backends, over and
over. A counter for each host gives just that, and so in any stretch that is as long as the list, every
place of the list comes once.

* `turns bs n`: the first `n` turns through a list, and `turns_succ` for one more.
* `window_turns`: any stretch as long as the list is the list, rotated to where the stretch begins. This is what
  fairness comes to: as the list may hold a backend twice, it is about places and not about backends.
* `served_eq_turns`: in a run of the counters, a host has been served as many turns as its counter says, by
  induction on the run.

The counters are the specification of the round robin: a system with one number for each host, and no buffers, locks
or producers. A backend list is not empty where it is served from, since an empty list is no route (`Serves`).
-/

namespace ForwardProxy.Balancer

/-! ## Through a list, over and over -/

/-- The first `n` turns through a list of backends. -/
def turns (bs : List String) (n : Nat) : List String :=
  (List.range n).filterMap (Rotation.backendAt? bs)

variable {bs : List String}

theorem exists_backendAt? (h : bs ≠ []) (k : Nat) : ∃ b, Rotation.backendAt? bs k = some b := by
  have hk : k % bs.length < bs.length := Nat.mod_lt _ (List.length_pos_iff.mpr h)
  exact ⟨bs[k % bs.length], List.getElem?_eq_getElem hk⟩

theorem turns_succ (bs : List String) (n : Nat) :
    turns bs (n + 1) = turns bs n ++ (Rotation.backendAt? bs n).toList := by
  rw [turns, List.range_succ, List.filterMap_append]
  cases hb : Rotation.backendAt? bs n <;> simp [turns, hb]

theorem length_turns (h : bs ≠ []) (n : Nat) : (turns bs n).length = n := by
  induction n with
  | zero => rfl
  | succ n ih =>
    obtain ⟨b, hb⟩ := exists_backendAt? h n
    simp [turns_succ, hb, ih]

theorem getElem?_turns (h : bs ≠ []) {n k : Nat} (hk : k < n) :
    (turns bs n)[k]? = Rotation.backendAt? bs k := by
  induction n with
  | zero => omega
  | succ n ih =>
    obtain ⟨b, hb⟩ := exists_backendAt? h n
    rw [turns_succ, hb, Option.toList_some]
    rcases Nat.lt_succ_iff_lt_or_eq.mp hk with hk | rfl
    · rw [List.getElem?_append_left (by rwa [length_turns h]), ih hk]
    · rw [List.getElem?_append_right (by rw [length_turns h]), length_turns h, Nat.sub_self]
      exact hb.symm

/-- Behind the turns that have been made, the next one comes. -/
theorem backendAt?_of_turns (h : bs ≠ []) {front rest : List String} {b : String} {n : Nat}
    (made : front ++ b :: rest = turns bs n) : Rotation.backendAt? bs front.length = some b := by
  have hlen := congrArg List.length made
  rw [List.length_append, List.length_cons, length_turns h] at hlen
  rw [← getElem?_turns h (by omega : front.length < n), ← made, List.getElem?_append_right (Nat.le_refl _),
    Nat.sub_self]
  rfl

/-- In a stretch as long as the list, every place of the list has its turn once. -/
theorem window_turns (h : bs ≠ []) {n i : Nat} (hi : i + bs.length ≤ n) :
    ((turns bs n).drop i).take bs.length = bs.rotate i := by
  refine List.ext_getElem? fun j => ?_
  by_cases hj : j < bs.length
  · rw [List.getElem?_take_of_lt hj, List.getElem?_drop, getElem?_turns h (by omega),
      List.getElem?_rotate hj, Rotation.backendAt?, Nat.add_comm]
  · rw [List.getElem?_eq_none, List.getElem?_eq_none]
    · rw [List.length_rotate]
      omega
    · rw [List.length_take]
      omega

/-! ## Hand-outs -/

theorem served_append (h h' : List Handout) (host : String) :
    served (h ++ h') host = served h host ++ served h' host :=
  List.filterMap_append

theorem served_single (x : Handout) (host : String) :
    served [x] host = if x.host = host then [x.backend] else [] := by
  by_cases hx : x.host = host <;> simp [served, hx]

/-! ## Counters -/

/-- The host has a route, to these backends. -/
def Serves (routes : Routes) (host : String) (bs : List String) : Prop :=
  (Balancer.ofRoutes .roundRobin routes).backends? host = some bs ∧ bs ≠ []

variable {routes : Routes} {h : List Handout} {count : String → Nat} {host : String}

theorem Serves.unique {bs' : List String} (hs : Serves routes host bs)
    (hs' : Serves routes host bs') : bs = bs' :=
  Option.some.inj (hs.1.symm.trans hs'.1)

/-- A host with a route is served, and its counter goes on. -/
theorem counters_move (hs : Serves routes host bs) (n : Nat) :
    (counters routes).move? count (n, host) =
      some fun host' => if host' = host then count host + 1 else count host' := by
  obtain ⟨hb, hne⟩ := hs
  cases bs with
  | nil => exact absurd rfl hne
  | cons b bs => simp [counters, hb]

theorem counters_shows (hs : Serves routes host bs) {n : Nat} {b : String}
    (hb : Rotation.backendAt? bs (count host) = some b) :
    (counters routes).shows count (n, host) = [⟨n, host, b⟩] := by
  simp [counters, hs.1, hb]

/-- Only hosts with a route are served. -/
theorem exists_serves_of_move {m : Nat × String} {after : String → Nat}
    (hm : (counters routes).move? count m = some after) : ∃ bs, Serves routes m.2 bs := by
  simp only [counters] at hm
  split at hm
  · cases hm
  · cases hm
  · rename_i bs hne hb
    exact ⟨bs, hb, hne⟩

/-- A host is served in turn, as often as its counter says. -/
theorem served_eq_turns (r : (counters routes).Run (fun _ => 0) h count)
    (hs : Serves routes host bs) : served h host = turns bs (count host) := by
  induction r with
  | start => rfl
  | @move h count after m r hm ih =>
    obtain ⟨n, host'⟩ := m
    obtain ⟨bs', hs'⟩ := exists_serves_of_move hm
    obtain ⟨b, hb⟩ := exists_backendAt? hs'.2 (count host')
    rw [counters_shows hs' hb, served_append, served_single, ih]
    obtain rfl := Option.some.inj ((counters_move hs' n).symm.trans hm)
    by_cases he : host' = host
    · subst he
      obtain rfl := hs.unique hs'
      simp [turns_succ, hb]
    · simp [he, Ne.symm he]

end ForwardProxy.Balancer
