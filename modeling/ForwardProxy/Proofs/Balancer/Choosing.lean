import ForwardProxy.Proofs.Balancer.Lookup
import ForwardProxy.Proofs.Balancer.RoundRobin
import Mathlib.Data.List.TakeWhile

/-!
# What a choice comes to

Under round robin, a choice that is over has been handed the backend whose turn it was, or there was no route for
its host. Under any other strategy nothing is ever rotated, so the balancer stays as it was made, and a choice
comes at once to the backend that the strategy picks from the list, or to the reason why there is none. A route
that is there always leads to a member of its list, unless the strategy is the one that picks nothing.

* `Found`: the results that a choice for a host may have, one constructor for each.
* `found_choose`: a choice that is made as a whole, without rotations; `Sound.found_choose` is the same for round
  robin, in a state that a run has led to.
* `done_cases`, `balancer_cases`: how a move may bring a choice to its result, and what it may change of the
  balancer. The two invariants below split no moves of their own.
* `Steady`, `steady_of_run`: the invariant for the strategies without rotations.
* `Lenient`, `lenient_of_run`: under round robin a choice fails for want of a route only. It is kept by moves from
  sound states, so the induction carries `Sound` with it.
* `found_of_gets`: all strategies together.

`Gets` joins the two ways in which a result may come about, among other choices or alone, so that later modules state
each fact once. The turn in it is the number of hand-outs of the host in front of the choice (`servedBefore`). It is
read off the history: a choice is handed one backend at most (`Sound.once`, `Sound.answered`), so the hand-out to it
has one place.
-/

namespace ForwardProxy.Balancer

/-- What the strategy may pick from a list of backends that has had so many turns. -/
def Picks (strategy : Strategy) (bs : List String) (turn : Nat) (b : String) : Prop :=
  match strategy with
  | .first => bs.head? = some b
  | .random => b ∈ bs
  | .roundRobin => Rotation.backendAt? bs turn = some b
  | .fair => False

/-- The results that a choice for a host may have. -/
inductive Found (strategy : Strategy) (routes : Routes) (host : String) (turn : Nat) : Except Error String → Prop
  | backend {bs : List String} {b : String} (served : Serves routes host bs) (picked : Picks strategy bs turn b) :
      Found strategy routes host turn (.ok b)
  | unsupported {bs : List String} (fair : strategy = .fair) (served : Serves routes host bs) :
      Found strategy routes host turn (.error (.unsupportedStrategy .fair))
  | noRoute (unserved : ∀ bs, ¬ Serves routes host bs) :
      Found strategy routes host turn (.error (.routeNotFound host))

variable {strategy : Strategy} {routes : Routes} {host : String} {bs : List String} {b : String} {k : Nat}

theorem Picks.mem (h : Picks strategy bs k b) : b ∈ bs := by
  cases strategy with
  | first => exact List.mem_of_head? h
  | random => exact h
  | roundRobin => exact List.mem_of_getElem? h
  | fair => cases h

/-- A host without a route has none, or one without backends. -/
theorem unserved_iff (strategy : Strategy) : (∀ bs, ¬ Serves routes host bs) ↔
    (ofRoutes strategy routes).backends? host = none ∨ (ofRoutes strategy routes).backends? host = some [] := by
  have table : (ofRoutes strategy routes).backends? host = (ofRoutes .roundRobin routes).backends? host := rfl
  simp only [table, Serves, not_and, not_not]
  cases (ofRoutes .roundRobin routes).backends? host <;> simp

/-- A random pick finds a place of the list. -/
theorem exists_draw {first : String} {more : List String} (draw : Nat) :
    ((first :: more)[draw % (more.length + 1)]?.getD first) ∈ first :: more := by
  have inside : draw % (more.length + 1) < (first :: more).length := Nat.mod_lt _ (Nat.succ_pos _)
  rw [List.getElem?_eq_getElem inside, Option.getD_some]
  exact List.getElem_mem inside

theorem found_choose (other : strategy ≠ .roundRobin) (turn draw : Nat) (host : String) :
    Found strategy routes host turn ((ofRoutes strategy routes).choose draw host).1 := by
  have unserved : (∀ bs, ¬ Serves routes host bs) ↔ _ := unserved_iff strategy
  rw [Balancer.choose]
  split
  · rename_i missing
    exact .noRoute (unserved.mpr (.inl missing))
  · rename_i empty
    exact .noRoute (unserved.mpr (.inr empty))
  · rename_i first more found
    have served : Serves routes host (first :: more) := ⟨found, by simp⟩
    cases strategy with
    | first => exact .backend served rfl
    | random => exact .backend served (exists_draw draw)
    | roundRobin => exact absurd rfl other
    | fair => exact .unsupported rfl served

namespace SharedBalancer

variable {h : List Handout} {s s' : SharedBalancer} {n : Nat} {c : Choice}

/-- How a move may bring a choice to its result: the choice looks for its route, or it is served by a rotation. -/
theorem done_cases {m : Move} {result : Except Error String} (hm : s.move? m = some s')
    (hc : s'.choices[n]? = some c) (done : c.progress = .done result) :
    s.choices[n]? = some c ∨ (∃ draw, s.balancer.enter draw c.host = .done result) ∨
      ∃ r, s.balancer.rotation? c.host = some r ∧
        ((∃ b, result = .ok b) ∨ result = .error (.rotationStopped c.host)) := by
  cases m with
  | ask host =>
    obtain ⟨-, rfl⟩ : s.isOpen = true ∧ _ = s' := by simpa [move?] using hm
    rcases concat_cases hc with hc | ⟨-, rfl⟩
    · exact .inl hc
    · cases done
  | enter m draw =>
    obtain ⟨c', hc', -, rfl⟩ := enter_eq_some.mp hm
    rcases set_cases hc' hc with ⟨-, rfl⟩ | ⟨-, hc⟩
    · exact .inr (.inl ⟨draw, done⟩)
    · exact .inl hc
  | acquire m =>
    obtain ⟨c', hc', -, -, rfl⟩ := acquire_eq_some.mp hm
    rcases set_cases hc' hc with ⟨-, rfl⟩ | ⟨-, hc⟩
    · cases done
    · exact .inl hc
  | receive m =>
    obtain ⟨c', hc', -, r, hr, ⟨b, rest, -, rfl⟩ | ⟨-, -, rfl⟩⟩ := receive_eq_some.mp hm
    · rcases set_cases hc' hc with ⟨-, rfl⟩ | ⟨-, hc⟩
      · cases done
        exact .inr (.inr ⟨r, hr, .inl ⟨b, rfl⟩⟩)
      · exact .inl hc
    · rcases set_cases hc' hc with ⟨-, rfl⟩ | ⟨-, hc⟩
      · cases done
        exact .inr (.inr ⟨r, hr, .inr rfl⟩)
      · exact .inl hc
  | abandon m =>
    obtain ⟨c', hc', -, rfl⟩ := abandon_eq_some.mp hm
    rcases set_cases hc' hc with ⟨-, rfl⟩ | ⟨-, hc⟩
    · cases done
    · exact .inl hc
  | produce host =>
    obtain ⟨r, -, -, -, -, rfl⟩ := produce_eq_some.mp hm
    exact .inl hc
  | close =>
    obtain ⟨-, rfl⟩ : (∀ c ∈ s.choices, c.progress.isOver = true) ∧ _ = s' := by simpa [move?] using hm
    exact .inl hc
  | stop host =>
    obtain ⟨-, rfl⟩ : s.isOpen = false ∧ _ = s' := by simpa [move?] using hm
    exact .inl hc

/-- Only a rotation is ever changed of the balancer. -/
theorem balancer_cases {m : Move} (hm : s.move? m = some s') :
    s'.balancer = s.balancer ∨ ∃ host r, s.balancer.rotation? host = some r := by
  cases m with
  | ask host =>
    obtain ⟨-, rfl⟩ : s.isOpen = true ∧ _ = s' := by simpa [move?] using hm
    exact .inl rfl
  | enter m draw =>
    obtain ⟨c, -, -, rfl⟩ := enter_eq_some.mp hm
    exact .inl rfl
  | acquire m =>
    obtain ⟨c, -, -, -, rfl⟩ := acquire_eq_some.mp hm
    exact .inl rfl
  | receive m =>
    obtain ⟨c, -, -, r, hr, -⟩ := receive_eq_some.mp hm
    exact .inr ⟨_, r, hr⟩
  | abandon m =>
    obtain ⟨c, -, -, rfl⟩ := abandon_eq_some.mp hm
    exact .inl rfl
  | produce host =>
    obtain ⟨r, hr, -⟩ := produce_eq_some.mp hm
    exact .inr ⟨_, r, hr⟩
  | close =>
    obtain ⟨-, rfl⟩ : (∀ c ∈ s.choices, c.progress.isOver = true) ∧ _ = s' := by simpa [move?] using hm
    exact .inl rfl
  | stop host =>
    obtain ⟨-, rfl⟩ : s.isOpen = false ∧ _ = s' := by simpa [move?] using hm
    exact .inl rfl

/-! ## Strategies without rotations -/

/-- Nothing is rotated, and a choice that is over has come to its result at once. -/
structure Steady (strategy : Strategy) (routes : Routes) (s : SharedBalancer) : Prop where
  balancer : s.balancer = Balancer.ofRoutes strategy routes
  results : ∀ {n : Nat} {c : Choice} {result : Except Error String}, s.choices[n]? = some c →
    c.progress = .done result → ∃ draw, result = ((Balancer.ofRoutes strategy routes).choose draw c.host).1

namespace Steady

theorem rotation?_eq_none (other : strategy ≠ .roundRobin) (S : Steady strategy routes s) (host : String) :
    s.balancer.rotation? host = none := by
  simp [S.balancer, Balancer.ofRoutes, Balancer.rotation?, other]

/-- A choice that has looked for its route has come to its result. -/
theorem enter_eq (other : strategy ≠ .roundRobin) (S : Steady strategy routes s) (draw : Nat) (host : String) :
    s.balancer.enter draw host = .done ((Balancer.ofRoutes strategy routes).choose draw host).1 := by
  rw [S.balancer, Balancer.enter]
  split
  · rename_i missing
    rw [Balancer.choose, missing]
  · rename_i empty
    rw [Balancer.choose, empty]
  · split
    · rename_i robin _
      exact absurd robin other
    · rfl

theorem after_move (other : strategy ≠ .roundRobin) (S : Steady strategy routes s) {m : Move}
    (hm : s.move? m = some s') : Steady strategy routes s' := by
  constructor
  · rcases balancer_cases hm with same | ⟨host, r, hr⟩
    · rw [same, S.balancer]
    · cases (S.rotation?_eq_none other host).symm.trans hr
  · intro n c result hc done
    rcases done_cases hm hc done with hc | ⟨draw, entered⟩ | ⟨r, hr, -⟩
    · exact S.results hc done
    · rw [S.enter_eq other] at entered
      cases entered
      exact ⟨draw, rfl⟩
    · cases (S.rotation?_eq_none other c.host).symm.trans hr

end Steady

theorem steady_of_run (other : strategy ≠ .roundRobin) (r : system.Run (ofRoutes strategy routes) h s) :
    Steady strategy routes s := by
  induction r with
  | start => exact ⟨rfl, by simp [ofRoutes]⟩
  | move m _ hm ih => exact ih.after_move other hm

/-! ## Round robin -/

/-- Only hosts with a route are handed a backend. -/
theorem exists_serves_of_mem {count : String → Nat} (r : (counters routes).Run (fun _ => 0) h count) :
    ∀ x ∈ h, ∃ bs, Serves routes x.host bs := by
  induction r with
  | start => simp
  | @move h count after m r hm ih =>
    obtain ⟨n, host⟩ := m
    obtain ⟨bs, served⟩ := exists_serves_of_move hm
    obtain ⟨b, hb⟩ := exists_backendAt? served.2 (count host)
    rw [counters_shows served hb, List.forall_mem_append, List.forall_mem_singleton]
    exact ⟨ih, bs, served⟩

/-- How often a host had been served when choice `n` was, or so far if choice `n` has not been served. -/
def servedBefore (h : List Handout) (n : Nat) (host : String) : Nat :=
  (served (h.takeWhile fun x => x.choice ≠ n) host).length

namespace Sound

theorem backends?_eq (S : Sound routes h s) (host : String) :
    s.balancer.backends? host = (Balancer.ofRoutes .roundRobin routes).backends? host := by
  rw [Balancer.backends?, S.table]
  rfl

/-- A choice that finds no way to a rotation has no route. -/
theorem unserved_of_enter (S : Sound routes h s) {draw : Nat} {host : String}
    (he : s.balancer.enter draw host = .done (.error (.routeNotFound host))) : ∀ bs, ¬ Serves routes host bs := by
  intro bs served
  obtain ⟨r, hr, -⟩ := S.routed served
  have waits : s.balancer.enter draw host = .waiting := by
    obtain ⟨found, nonempty⟩ := served
    cases bs with
    | nil => exact absurd rfl nonempty
    | cons first more => simp [Balancer.enter, S.backends?_eq, found, S.strategy, hr]
  cases he.symm.trans waits

/-- A choice that has got a backend has had its turn. -/
theorem backendAt?_servedBefore (S : Sound routes h s) {b : String} (hc : s.choices[n]? = some ⟨host, .done (.ok b)⟩)
    (served' : Serves routes host bs) : Rotation.backendAt? bs (servedBefore h n host) = some b := by
  have mem : ⟨n, host, b⟩ ∈ h := S.answered.mpr hc
  -- the first hand-out to the choice is its only one
  obtain ⟨x, after, behind⟩ : ∃ x after, h.dropWhile (fun x => x.choice ≠ n) = x :: after := by
    refine List.exists_cons_of_ne_nil fun empty => ?_
    simpa using List.dropWhile_eq_nil_iff.mp empty _ mem
  have mine : x.choice = n := by
    have head := List.head?_dropWhile_not (fun x : Handout => decide (x.choice ≠ n)) h
    rw [behind] at head
    simpa using head
  have cut := List.takeWhile_append_dropWhile (p := fun x : Handout => decide (x.choice ≠ n)) (l := h)
  rw [behind] at cut
  obtain ⟨m, host', b'⟩ := x
  obtain rfl : m = n := mine
  have mem' : ⟨m, host', b'⟩ ∈ h := by
    rw [← cut]
    simp
  obtain ⟨rfl, rfl⟩ : host' = host ∧ b' = b := by simpa [hc, eq_comm] using S.answered.mp mem'
  have all := served_eq_turns S.counted served'
  have parts : served h host' = served (h.takeWhile fun x => x.choice ≠ m) host' ++ b' :: served after host' := by
    conv_lhs => rw [← cut]
    rw [served_append, ← List.singleton_append, served_append, served_single, if_pos rfl]
    rfl
  exact backendAt?_of_turns served'.2 (parts.symm.trans all)

/-- What a choice without company comes to. -/
theorem found_choose (S : Sound routes h s) (draw : Nat) (host : String) :
    Found .roundRobin routes host (served h host).length (s.balancer.choose draw host).1 := by
  rcases S.enter_cases draw host with ⟨-, ⟨bs, served'⟩, chosen⟩ | ⟨missing, chosen⟩
  · obtain ⟨r, hr, rfl⟩ := S.routed served'
    obtain ⟨same, nonempty, turned⟩ := S.turned_produce hr
    obtain ⟨b, rest, buffer⟩ := List.exists_cons_of_ne_nil nonempty
    rw [buffer, same] at turned
    have picked := backendAt?_of_turns served'.2 turned
    rw [chosen]
    simp only [Balancer.rotate, hr, Rotation.take, buffer]
    exact .backend served' picked
  · rw [chosen]
    exact .noRoute (S.unserved_of_enter missing)

end Sound

/-- Choices fail for want of a route only. -/
def Lenient (routes : Routes) (s : SharedBalancer) : Prop :=
  ∀ {n : Nat} {c : Choice} {e : Error}, s.choices[n]? = some c → c.progress = .done (.error e) →
    e = .routeNotFound c.host ∧ ∀ bs, ¬ Serves routes c.host bs

theorem Lenient.after_move (L : Lenient routes s) (S : Sound routes h s) {m : Move} (hm : s.move? m = some s') :
    Lenient routes s' := by
  intro n c e hc failed
  rcases done_cases hm hc failed with hc | ⟨draw, entered⟩ | ⟨r, -, ⟨b, wrong⟩ | stopped⟩
  · exact L hc failed
  · rcases S.enter_cases draw c.host with ⟨waits, -⟩ | ⟨missing, -⟩
    · cases waits.symm.trans entered
    · cases missing.symm.trans entered
      exact ⟨rfl, S.unserved_of_enter missing⟩
  · cases wrong
  · exact absurd (failed.trans (congrArg _ stopped)) ((S.after_move hm).going hc)

theorem lenient_of_run (r : system.Run (ofRoutes .roundRobin routes) h s) : Lenient routes s := by
  induction r with
  | start =>
    intro n c e hc
    simp [ofRoutes] at hc
  | move m r hm ih => exact ih.after_move (sound_of_run r) hm

/-! ## All strategies -/

/-- A result of a choice for a host, and how often the host had been served before: the choice is one among the
others, or it is made as a whole where the history ends. -/
inductive Gets (h : List Handout) (s : SharedBalancer) (host : String) : Nat → Except Error String → Prop
  | among {n : Nat} {result : Except Error String} (hc : s.choices[n]? = some ⟨host, .done result⟩) :
      Gets h s host (servedBefore h n host) result
  | alone (draw : Nat) : Gets h s host (served h host).length (s.balancer.choose draw host).1

/-- Every result is one that the strategy allows. -/
theorem found_of_gets (r : system.Run (ofRoutes strategy routes) h s) {result : Except Error String}
    (gets : Gets h s host k result) : Found strategy routes host k result := by
  by_cases robin : strategy = .roundRobin
  · subst robin
    have S : Sound routes h s := sound_of_run r
    cases gets with
    | @among n result hc =>
      cases result with
      | ok b =>
        obtain ⟨bs, served'⟩ := exists_serves_of_mem S.counted _ (S.answered.mpr hc)
        exact .backend served' (S.backendAt?_servedBefore hc served')
      | error e =>
        obtain ⟨reason, unserved⟩ := lenient_of_run r hc rfl
        rw [reason]
        exact .noRoute unserved
    | alone draw => exact S.found_choose draw host
  · have S := steady_of_run robin r
    cases gets with
    | among hc =>
      obtain ⟨draw, chosen⟩ := S.results hc rfl
      rw [chosen]
      exact found_choose robin _ draw host
    | alone draw =>
      rw [S.balancer]
      exact found_choose robin _ draw host

/-- The table of routes stays as it was made. -/
theorem routes_of_run (r : system.Run (ofRoutes strategy routes) h s) : s.balancer.routes = routes := by
  by_cases robin : strategy = .roundRobin
  · subst robin
    exact (sound_of_run r).table
  · rw [(steady_of_run robin r).balancer]
    rfl

end SharedBalancer
end ForwardProxy.Balancer
