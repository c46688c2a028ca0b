import ForwardProxy.Proofs.Balancer.Turns
import ForwardProxy.Proofs.Lists

/-!
# Round robin

Producers run ahead of the choices, but by no more than their buffers hold: what has been handed out for
a host and what is still in its buffer are together the turns that its producer has made. `Sound` says so,
and that a producer stops only behind the balancer, when nobody is left whom it could keep waiting. So
choices, buffers and locks do nothing but count.

* `enter_eq_some`, `acquire_eq_some`, `abandon_eq_some`, `produce_eq_some`, `receive_eq_some`: all that each move can
  do, with its guards. No later proof opens a move.
* `Sound`: the invariant. `ahead` is the heart of it; `counted` says that the history is one of the counters, so that
  this system is simulated by them.
* `Sound.after_turn`, `after_ask`, `after_produce`, `after_receive`: one lemma for each kind of change, and from these
  `Sound.after_move`. A choice that goes on without getting anything, by whatever move, is one case.
* `sound_of_run`: the induction over runs.
* `backends_take_turns`: what requests may rely on.
* `exists_choose`: a choice that nobody interferes with gets what the function `Balancer.choose` gives, by replaying
  its moves.

## How the invariant carries the proof

A hand-out takes the oldest backend out of a buffer. By `ahead`, that is the one whose turn it is
(`backendAt?_of_buffer`), so the counter of its host goes on as the counters do, and no other counter changes. A
producer adds the next turn to both sides of `ahead`.

That nobody hears of a stopped rotation (`going`) needs `closed` and `stopped`: a producer stops only when the balancer
is gone, and the balancer is gone only when all choices are over, so a choice with the lock finds its producer going.
The choices that were given up are over as well; what they would have got stays in the buffer, for the next one.
-/

namespace ForwardProxy.Balancer

/-! ## Rotations of a balancer -/

theorem rotation?_setRotation (b : Balancer) (host host' : String) (r : Rotation) :
    (b.setRotation host r).rotation? host' =
      if host' = host then (b.rotation? host).map fun _ => r else b.rotation? host' := by
  simp only [Balancer.rotation?, Balancer.setRotation]
  induction b.rotations with
  | nil => simp
  | cons p ps ih =>
    rw [List.map_cons, List.find?_cons, List.find?_cons, List.find?_cons]
    by_cases hp : p.1 = host <;> by_cases hh : host' = host
    · simp [hp, hh]
    · simpa [hp, hh, Ne.symm hh] using ih
    · simpa [hp, hh] using ih
    · by_cases hp' : p.1 = host'
      · simp [hp', hh]
      · simpa [hp, hp', hh] using ih

/-- Of two changes of one rotation the second counts. -/
theorem setRotation_setRotation (b : Balancer) (host : String) (r r' : Rotation) :
    (b.setRotation host r).setRotation host r' = b.setRotation host r' := by
  simp only [Balancer.setRotation, List.map_map]
  congr 1
  refine List.map_congr_left fun p _ => ?_
  by_cases hp : p.1 = host <;> simp [hp]

/-- Every route has a rotation, at its start. -/
theorem rotation?_ofRoutes {routes : Routes} {host : String} {bs : List String}
    (hs : Serves routes host bs) :
    (ofRoutes .roundRobin routes).rotation? host = some { backends := bs } := by
  obtain ⟨hb, hne⟩ := hs
  simp only [Balancer.backends?, Balancer.rotation?, ofRoutes, if_true] at hb ⊢
  induction routes with
  | nil => simp at hb
  | cons r rs ih =>
    rw [List.find?_cons] at hb
    by_cases hr : r.1 = host
    · obtain rfl : r.2 = bs := by simpa [hr] using hb
      simp [hne, hr]
    · have hb := ih (by simpa [hr] using hb)
      by_cases hempty : r.2 = []
      · simpa [List.filter_cons, hempty] using hb
      · simpa [List.filter_cons, hempty, hr] using hb

/-- A rotation begins with a list that is not empty, and with an empty buffer. -/
theorem eq_of_rotation?_ofRoutes {strategy : Strategy} {routes : Routes} {host : String}
    {r : Rotation} (hr : (ofRoutes strategy routes).rotation? host = some r) :
    r.backends ≠ [] ∧ r.produced = 0 ∧ r.buffer = [] := by
  obtain ⟨p, hp, rfl⟩ := Option.map_eq_some_iff.mp hr
  have hmem := List.mem_of_find?_eq_some hp
  simp only [ofRoutes] at hmem
  split at hmem
  · obtain ⟨route, hroute, rfl⟩ := List.mem_map.mp hmem
    have hne : route.2 ≠ [] := by simpa using (List.mem_filter.mp hroute).2
    exact ⟨hne, rfl, rfl⟩
  · cases hmem

/-! ## Moves -/

namespace SharedBalancer

variable {routes : Routes} {h : List Handout} {s s' : SharedBalancer} {n : Nat} {c : Choice}

theorem enter_eq_some {draw : Nat} : s.enter n draw = some s' ↔ ∃ c, s.choices[n]? = some c ∧
    c.progress = .asked ∧ s.setChoice n c (s.balancer.enter draw c.host) = s' := by
  simp only [enter, Option.bind_eq_bind, Option.bind_eq_some_iff]
  refine exists_congr fun c => and_congr_right fun _ => ?_
  split <;> simp_all

theorem acquire_eq_some : s.acquire n = some s' ↔ ∃ c, s.choices[n]? = some c ∧
    c.progress = .waiting ∧ s.isLocked c.host = false ∧ s.setChoice n c .holding = s' := by
  simp only [acquire, Option.bind_eq_bind, Option.bind_eq_some_iff]
  refine exists_congr fun c => and_congr_right fun _ => ?_
  split <;> simp_all

theorem abandon_eq_some : s.abandon n = some s' ↔ ∃ c, s.choices[n]? = some c ∧
    c.progress.isOver = false ∧ s.setChoice n c .abandoned = s' := by
  simp only [abandon, Option.bind_eq_bind, Option.bind_eq_some_iff]
  refine exists_congr fun c => and_congr_right fun _ => ?_
  split <;> simp_all

theorem produce_eq_some {host : String} : s.produce host = some s' ↔
    ∃ r, s.balancer.rotation? host = some r ∧ s.isOpen = true ∧ host ∉ s.stopped ∧
      r.buffer.length < bufferSize ∧
      { s with balancer := s.balancer.setRotation host r.produce } = s' := by
  simp only [produce, Option.bind_eq_bind, Option.bind_eq_some_iff]
  refine exists_congr fun r => and_congr_right fun _ => ?_
  simp only [Option.ite_none_right_eq_some, Bool.and_eq_true, Bool.not_eq_true', List.contains_eq_mem,
    decide_eq_false_iff_not, decide_eq_true_eq, Option.some.injEq, and_assoc]

/-- A choice that has the lock gets the oldest backend, or hears that the producer has stopped. -/
theorem receive_eq_some : s.receive n = some s' ↔ ∃ c, s.choices[n]? = some c ∧
    c.progress = .holding ∧ ∃ r, s.balancer.rotation? c.host = some r ∧
      ((∃ b rest, r.buffer = b :: rest ∧
          { s.setChoice n c (.done (.ok b)) with
            balancer := s.balancer.setRotation c.host { r with buffer := rest } } = s') ∨
        (r.buffer = [] ∧ c.host ∈ s.stopped ∧
          s.setChoice n c (.done (.error (.rotationStopped c.host))) = s')) := by
  simp only [receive, Option.bind_eq_bind, Option.bind_eq_some_iff]
  refine exists_congr fun c => and_congr_right fun _ => ?_
  rw [← exists_and_left]
  refine exists_congr fun r => ?_
  rw [and_left_comm]
  refine and_congr_right fun _ => ?_
  cases hp : c.progress <;> cases hb : r.buffer <;> simp [Rotation.take, hb]

/-! ## What every move keeps -/

/-- Producers and choices do nothing but count. -/
structure Sound (routes : Routes) (h : List Handout) (s : SharedBalancer) : Prop where
  strategy : s.balancer.strategy = .roundRobin
  table : s.balancer.routes = routes
  counted : (counters routes).Run (fun _ => 0) h fun host => (served h host).length
  ahead : ∀ {host r}, s.balancer.rotation? host = some r →
    r.backends ≠ [] ∧ served h host ++ r.buffer = turns r.backends r.produced
  routed : ∀ {host bs}, Serves routes host bs →
    ∃ r, s.balancer.rotation? host = some r ∧ r.backends = bs
  entered : ∀ {n : Nat} {c : Choice}, s.choices[n]? = some c →
    c.progress = .waiting ∨ c.progress = .holding → ∃ bs, Serves routes c.host bs
  closed : s.isOpen = false → ∀ {n : Nat} {c : Choice}, s.choices[n]? = some c →
    c.progress.isOver = true
  stopped : ∀ {host}, host ∈ s.stopped → s.isOpen = false
  once : h.Nodup
  answered : ∀ {n host b}, ⟨n, host, b⟩ ∈ h ↔ s.choices[n]? = some ⟨host, .done (.ok b)⟩
  going : ∀ {n : Nat} {c : Choice} {host}, s.choices[n]? = some c →
    c.progress ≠ .done (.error (.rotationStopped host))

namespace Sound

theorem at_start (routes : Routes) : Sound routes [] (ofRoutes .roundRobin routes) where
  strategy := rfl
  table := rfl
  counted := .start
  ahead {host r} hr := by
    obtain ⟨hne, hproduced, hbuffer⟩ := eq_of_rotation?_ofRoutes hr
    rw [hproduced, hbuffer]
    exact ⟨hne, rfl⟩
  routed hs := ⟨_, rotation?_ofRoutes hs, rfl⟩
  entered h := by simp [ofRoutes] at h
  closed h := nomatch h
  stopped h := nomatch h
  once := .nil
  answered := by simp [ofRoutes]
  going h := by simp [ofRoutes] at h

/-- What a choice that has looked for its route comes to: to the rotation, or to nothing. -/
theorem enter_cases (S : Sound routes h s) (draw : Nat) (host : String) :
    (s.balancer.enter draw host = .waiting ∧ (∃ bs, Serves routes host bs) ∧
        s.balancer.choose draw host = s.balancer.rotate host) ∨
      (s.balancer.enter draw host = .done (.error (.routeNotFound host)) ∧
        s.balancer.choose draw host = (.error (.routeNotFound host), s.balancer)) := by
  have table : s.balancer.backends? host =
      (Balancer.ofRoutes .roundRobin routes).backends? host := by
    rw [Balancer.backends?, S.table]
    rfl
  cases hb : s.balancer.backends? host with
  | none => exact .inr (by simp [Balancer.enter, Balancer.choose, hb])
  | some bs =>
    cases bs with
    | nil => exact .inr (by simp [Balancer.enter, Balancer.choose, hb])
    | cons first more =>
      have hs : Serves routes host (first :: more) := ⟨table ▸ hb, by simp⟩
      obtain ⟨r, hr, -⟩ := S.routed hs
      refine .inl ⟨?_, ⟨_, hs⟩, ?_⟩
      · simp [Balancer.enter, hb, S.strategy, hr]
      · simp [Balancer.choose, hb, S.strategy]

/-- The balancer is there as long as a choice is. -/
theorem isOpen_of_not_isOver (S : Sound routes h s) (hc : s.choices[n]? = some c)
    (hover : c.progress.isOver = false) : s.isOpen = true := by
  rw [← Bool.not_eq_false]
  intro hclosed
  exact Bool.false_ne_true (hover.symm.trans (S.closed hclosed hc))

/-- A choice goes on without getting a backend. -/
theorem after_turn (S : Sound routes h s) (hc : s.choices[n]? = some c) (hover : c.progress.isOver = false)
    {p : ChoiceProgress} (hp : ∀ b, p ≠ .done (.ok b))
    (hgoing : ∀ host, p ≠ .done (.error (.rotationStopped host)))
    (hentered : p = .waiting ∨ p = .holding → ∃ bs, Serves routes c.host bs) :
    Sound routes h (s.setChoice n c p) := by
  have hn : n < s.choices.length := (List.getElem?_eq_some_iff.mp hc).1
  refine ⟨S.strategy, S.table, S.counted, S.ahead, S.routed, ?_, ?_, S.stopped, S.once, ?_, ?_⟩
  · intro m x hx he
    rcases set_cases hc hx with ⟨-, rfl⟩ | ⟨-, hx⟩
    · exact hentered he
    · exact S.entered hx he
  · intro hclosed
    exact absurd ((S.isOpen_of_not_isOver hc hover).symm.trans hclosed) (by simp)
  · intro m host b
    rw [S.answered, setChoice]
    by_cases hm : m = n
    · subst hm
      rw [List.getElem?_set_self hn, hc]
      constructor
      · intro he
        obtain rfl := Option.some.inj he
        cases hover
      · exact fun he => absurd (congrArg Choice.progress (Option.some.inj he)) (hp b)
    · rw [List.getElem?_set_ne (Ne.symm hm)]
  · intro m x host hx
    rcases set_cases hc hx with ⟨-, rfl⟩ | ⟨-, hx⟩
    · exact hgoing host
    · exact S.going hx

/-- Somebody asks for a host. -/
theorem after_ask (S : Sound routes h s) (hopen : s.isOpen = true) (host : String) :
    Sound routes h { s with choices := s.choices ++ [⟨host, .asked⟩] } := by
  refine ⟨S.strategy, S.table, S.counted, S.ahead, S.routed, ?_, ?_, S.stopped, S.once, ?_, ?_⟩
  · intro m x hx he
    rcases concat_cases hx with hx | ⟨-, rfl⟩
    · exact S.entered hx he
    · simp at he
  · intro hclosed
    exact absurd (hopen.symm.trans hclosed) (by simp)
  · intro m host' b
    rw [S.answered]
    constructor
    · intro hx
      rw [List.getElem?_append_left (List.getElem?_eq_some_iff.mp hx).1, hx]
    · intro hx
      rcases concat_cases hx with hx | ⟨-, he⟩
      · exact hx
      · cases he
  · intro m x host' hx
    rcases concat_cases hx with hx | ⟨-, rfl⟩
    · exact S.going hx
    · simp

/-- A rotation changes, without a hand-out for anybody else. -/
theorem rotations_setRotation (S : Sound routes h s) {host : String} {r q : Rotation} {h' : List Handout}
    (hr : s.balancer.rotation? host = some r) (same : q.backends = r.backends)
    (turned : served h' host ++ q.buffer = turns q.backends q.produced)
    (others : ∀ {host'}, host' ≠ host → served h' host' = served h host') :
    (∀ {host' x}, (s.balancer.setRotation host q).rotation? host' = some x →
      x.backends ≠ [] ∧ served h' host' ++ x.buffer = turns x.backends x.produced) ∧
    (∀ {host' bs}, Serves routes host' bs →
      ∃ x, (s.balancer.setRotation host q).rotation? host' = some x ∧ x.backends = bs) := by
  constructor
  · intro host' x hx
    rw [rotation?_setRotation] at hx
    split at hx
    · rename_i he
      obtain rfl : q = x := by simpa [hr] using hx
      exact ⟨same ▸ (S.ahead hr).1, he ▸ turned⟩
    · rename_i he
      rw [others he]
      exact S.ahead hx
  · intro host' bs hs
    obtain ⟨x, hx, hb⟩ := S.routed hs
    rw [rotation?_setRotation]
    split
    · rename_i he
      subst he
      obtain rfl := Option.some.inj (hr.symm.trans hx)
      exact ⟨q, by simp [hr], same.trans hb⟩
    · exact ⟨x, hx, hb⟩

/-- A producer goes on in its list, and leaves something in its buffer. -/
theorem turned_produce (S : Sound routes h s) {host : String} {r : Rotation}
    (hr : s.balancer.rotation? host = some r) : r.produce.backends = r.backends ∧ r.produce.buffer ≠ [] ∧
      served h host ++ r.produce.buffer = turns r.produce.backends r.produce.produced := by
  obtain ⟨hne, hturns⟩ := S.ahead hr
  by_cases hroom : r.buffer.length < bufferSize
  · obtain ⟨b, hb⟩ := exists_backendAt? hne r.produced
    have next : r.produce = { r with produced := r.produced + 1, buffer := r.buffer ++ [b] } := by
      simp [Rotation.produce, hroom, hb]
    rw [next]
    refine ⟨rfl, by simp, ?_⟩
    simp only
    rw [← List.append_assoc, hturns, turns_succ, hb, Option.toList_some]
  · have full : r.produce = r := by simp [Rotation.produce, hroom]
    have nonempty : r.buffer ≠ [] := by
      rintro empty
      simp [empty, bufferSize] at hroom
    rw [full]
    exact ⟨rfl, nonempty, hturns⟩

/-- A producer puts the next backend into its buffer. -/
theorem after_produce (S : Sound routes h s) {host : String} (hm : s.produce host = some s') :
    Sound routes h s' := by
  obtain ⟨r, hr, -, -, hroom, rfl⟩ := produce_eq_some.mp hm
  obtain ⟨same, -, turned⟩ := S.turned_produce hr
  obtain ⟨ahead, routed⟩ := S.rotations_setRotation hr same turned fun _ => rfl
  exact ⟨S.strategy, S.table, S.counted, ahead, routed, S.entered, S.closed, S.stopped, S.once,
    S.answered, S.going⟩

/-- The oldest backend in a buffer is the one whose turn it is. -/
theorem backendAt?_of_buffer (S : Sound routes h s) {host b : String} {r : Rotation}
    {rest : List String} (hr : s.balancer.rotation? host = some r) (hb : r.buffer = b :: rest) :
    Rotation.backendAt? r.backends (served h host).length = some b := by
  obtain ⟨hne, hturns⟩ := S.ahead hr
  rw [hb] at hturns
  exact backendAt?_of_turns hne hturns

/-- A choice that has the lock gets a backend: the counter of its host goes on, and no other. -/
theorem after_receive (S : Sound routes h s) (hm : s.receive n = some s') :
    Sound routes (h ++ s.shows (.receive n)) s' := by
  obtain ⟨c, hc, hp, r, hr, ⟨b, rest, hb, rfl⟩ | ⟨-, hstopped, -⟩⟩ := receive_eq_some.mp hm
  · have shows : s.shows (.receive n) = [⟨n, c.host, b⟩] := by
      simp [SharedBalancer.shows, hc, hr, Rotation.take, hb]
    rw [shows]
    obtain ⟨bs, hs⟩ := S.entered hc (.inr hp)
    obtain ⟨r', hr', hbs⟩ := S.routed hs
    obtain rfl := Option.some.inj (hr.symm.trans hr')
    have turn := S.backendAt?_of_buffer hr hb
    have mine : served (h ++ [⟨n, c.host, b⟩]) c.host = served h c.host ++ [b] := by
      rw [served_append, served_single, if_pos rfl]
    have others : ∀ {host}, host ≠ c.host →
        served (h ++ [⟨n, c.host, b⟩]) host = served h host := by
      intro host hne
      rw [served_append, served_single, if_neg (Ne.symm hne), List.append_nil]
    have turned : served (h ++ [⟨n, c.host, b⟩]) c.host ++ rest = turns r.backends r.produced := by
      rw [mine, ← (S.ahead hr).2, hb, List.append_assoc, List.singleton_append]
    obtain ⟨ahead, routed⟩ := S.rotations_setRotation (q := { r with buffer := rest }) hr rfl turned others
    have hn : n < s.choices.length := (List.getElem?_eq_some_iff.mp hc).1
    have new : ∀ {host b'}, (⟨n, host, b'⟩ : Handout) ∉ h := by
      intro host b' hmem
      obtain rfl := Option.some.inj (hc.symm.trans (S.answered.mp hmem))
      cases hp
    refine ⟨S.strategy, S.table, ?_, ahead, routed, ?_, ?_, S.stopped, ?_, ?_, ?_⟩
    · -- the counters make the same move
      have goes := S.counted.move (n, c.host) (counters_move hs n)
      rw [counters_shows hs (hbs ▸ turn)] at goes
      convert goes using 1
      funext host
      by_cases he : host = c.host
      · rw [he, mine, if_pos rfl, List.length_append, List.length_singleton]
      · rw [others he, if_neg he]
    · intro m x hx he
      rcases set_cases hc hx with ⟨-, rfl⟩ | ⟨-, hx⟩
      · simp at he
      · exact S.entered hx he
    · intro hopen m x hx
      rcases set_cases hc hx with ⟨-, rfl⟩ | ⟨-, hx⟩
      · rfl
      · exact S.closed hopen hx
    · refine List.nodup_append.mpr ⟨S.once, List.nodup_singleton _, ?_⟩
      rintro x hx y hy rfl
      exact new (List.mem_singleton.mp hy ▸ hx)
    · intro m host b'
      rw [List.mem_append, List.mem_singleton, setChoice]
      by_cases hm : m = n
      · subst hm
        simp [new, List.getElem?_set_self hn, eq_comm]
      · simp [hm, List.getElem?_set_ne (Ne.symm hm), S.answered]
    · intro m x host hx
      rcases set_cases hc hx with ⟨-, rfl⟩ | ⟨-, hx⟩
      · simp
      · exact S.going hx
  · -- a choice is still there, so the balancer is, and its producers have not stopped
    have hopen : s.isOpen = true := S.isOpen_of_not_isOver hc (by rw [hp]; rfl)
    exact absurd (hopen.symm.trans (S.stopped hstopped)) (by simp)

/-- Every move counts or changes no counter. -/
theorem after_move (S : Sound routes h s) {m : Move} (hm : s.move? m = some s') :
    Sound routes (h ++ s.shows m) s' := by
  cases m with
  | ask host =>
    rw [shows, List.append_nil]
    obtain ⟨hopen, rfl⟩ : s.isOpen = true ∧ _ = s' := by simpa [move?] using hm
    exact S.after_ask hopen host
  | enter n draw =>
    rw [shows, List.append_nil]
    obtain ⟨c, hc, hp, rfl⟩ := enter_eq_some.mp hm
    have hover : c.progress.isOver = false := by rw [hp]; rfl
    rcases S.enter_cases draw c.host with ⟨he, hs, -⟩ | ⟨he, -⟩
    · rw [he]
      exact S.after_turn hc hover (by simp) (by simp) fun _ => hs
    · rw [he]
      exact S.after_turn hc hover (by simp) (by simp) (by simp)
  | acquire n =>
    rw [shows, List.append_nil]
    obtain ⟨c, hc, hp, -, rfl⟩ := acquire_eq_some.mp hm
    exact S.after_turn hc (by rw [hp]; rfl) (by simp) (by simp) fun _ => S.entered hc (.inl hp)
  | receive n => exact S.after_receive hm
  | abandon n =>
    rw [shows, List.append_nil]
    obtain ⟨c, hc, hover, rfl⟩ := abandon_eq_some.mp hm
    exact S.after_turn hc hover (by simp) (by simp) (by simp)
  | produce host =>
    rw [shows, List.append_nil]
    exact S.after_produce hm
  | close =>
    rw [shows, List.append_nil]
    obtain ⟨hover, rfl⟩ : (∀ c ∈ s.choices, c.progress.isOver = true) ∧ _ = s' := by
      simpa [move?] using hm
    exact ⟨S.strategy, S.table, S.counted, S.ahead, S.routed, S.entered,
      fun _ _ c hc => hover c (List.mem_of_getElem? hc), fun _ => rfl, S.once, S.answered, S.going⟩
  | stop host =>
    rw [shows, List.append_nil]
    obtain ⟨hclosed, rfl⟩ : s.isOpen = false ∧ _ = s' := by simpa [move?] using hm
    exact ⟨S.strategy, S.table, S.counted, S.ahead, S.routed, S.entered, S.closed,
      fun _ => hclosed, S.once, S.answered, S.going⟩

end Sound

/-- In every run, producers and choices do nothing but count. -/
theorem sound_of_run (r : system.Run (ofRoutes .roundRobin routes) h s) : Sound routes h s := by
  induction r with
  | start => exact .at_start routes
  | move m _ hm ih => exact ih.after_move hm

/-! ## Getting a backend -/

namespace Sound

/-- A choice that has the lock gets a backend as soon as one is in the buffer. -/
theorem exists_receive {host : String} {r : Rotation}
    (hc : s.choices[n]? = some ⟨host, .holding⟩) (hr : s.balancer.rotation? host = some r)
    {b : String} {rest : List String} (hb : r.buffer = b :: rest) :
    ∃ after, s.receive n = some after ∧
      after.balancer = s.balancer.setRotation host { r with buffer := rest } ∧
      after.choices[n]? = some ⟨host, .done (.ok b)⟩ := by
  have hn : n < s.choices.length := (List.getElem?_eq_some_iff.mp hc).1
  have received := receive_eq_some.mpr ⟨_, hc, rfl, r, hr, .inl ⟨b, rest, hb, rfl⟩⟩
  exact ⟨_, received, rfl, List.getElem?_set_self hn⟩

/-- The producer of a rotation whose buffer is not full can go on while a choice is there. -/
theorem exists_produce (S : Sound routes h s) {host : String} {r : Rotation}
    (hc : s.choices[n]? = some c) (hover : c.progress.isOver = false)
    (hr : s.balancer.rotation? host = some r) (hroom : r.buffer.length < bufferSize) :
    ∃ after, s.produce host = some after ∧ after.choices = s.choices ∧
      after.balancer = s.balancer.setRotation host r.produce ∧ r.produce.buffer ≠ [] := by
  have hopen : s.isOpen = true := S.isOpen_of_not_isOver hc hover
  have hgoing : host ∉ s.stopped := fun hstopped => by simp [S.stopped hstopped] at hopen
  obtain ⟨b, hb⟩ := exists_backendAt? (S.ahead hr).1 r.produced
  have produced := produce_eq_some.mpr ⟨r, hr, hopen, hgoing, hroom, rfl⟩
  exact ⟨_, produced, rfl, rfl, by simp [Rotation.produce, hroom, hb]⟩

/-- Whoever has the lock gets a backend, after a move of the producer at most. What it gets is what a
choice without company would get. -/
theorem exists_handout (S : Sound routes h s) {host : String}
    (hc : s.choices[n]? = some ⟨host, .holding⟩) :
    ∃ r b ms h' last, s.balancer.rotation? host = some r ∧ r.produce.take.1 = some b ∧
      system.replay s ms = some (h', last) ∧
      last.balancer = s.balancer.setRotation host r.produce.take.2 ∧
      last.choices[n]? = some ⟨host, .done (.ok b)⟩ := by
  obtain ⟨bs, hs⟩ := S.entered hc (.inr rfl)
  obtain ⟨r, hr, -⟩ := S.routed hs
  by_cases hroom : r.buffer.length < bufferSize
  · obtain ⟨next, produced, choices, balancer, hne⟩ := S.exists_produce hc rfl hr hroom
    obtain ⟨b, rest, hb⟩ := List.exists_cons_of_ne_nil hne
    have hr' : next.balancer.rotation? host = some r.produce := by
      rw [balancer, rotation?_setRotation, if_pos rfl, hr]
      rfl
    obtain ⟨last, received, balancer', done⟩ := exists_receive (choices ▸ hc) hr' hb
    refine ⟨r, b, [.produce host, .receive n], _, last, hr, by simp [Rotation.take, hb],
      StepSystem.replay_cons produced (StepSystem.replay_cons received rfl), ?_, done⟩
    rw [balancer', balancer, setRotation_setRotation]
    simp [Rotation.take, hb]
  · have full : r.produce = r := by simp [Rotation.produce, hroom]
    have hne : r.buffer ≠ [] := by
      rintro hnil
      simp [hnil, bufferSize] at hroom
    obtain ⟨b, rest, hb⟩ := List.exists_cons_of_ne_nil hne
    obtain ⟨last, received, balancer, done⟩ := exists_receive hc hr hb
    refine ⟨r, b, [.receive n], _, last, hr, by simp [full, Rotation.take, hb],
      StepSystem.replay_cons received rfl, ?_, done⟩
    rw [balancer]
    simp [full, Rotation.take, hb]

end Sound

/-- What requests may rely on while backends take turns. -/
structure TakesTurns (routes : Routes) (h : List Handout) (s : SharedBalancer) : Prop where
  /-- Hand-outs are those of one counter for each host, which goes on when its host is served. -/
  counted : (counters routes).Run (fun _ => 0) h fun host => (served h host).length
  /-- Hand-outs of a host follow its list, starting over at the end. -/
  inTurn : ∀ {host bs k b}, Serves routes host bs → (served h host)[k]? = some b →
    bs[k % bs.length]? = some b
  /-- In any stretch as long as the list, every place of the list comes once. -/
  fair : ∀ {host bs i}, Serves routes host bs → i + bs.length ≤ (served h host).length →
    ((served h host).drop i).take bs.length = bs.rotate i
  /-- Hand-outs are what choices get, each of them one at most. -/
  answered : h.Nodup ∧ ∀ {n host b},
    ⟨n, host, b⟩ ∈ h ↔ s.choices[n]? = some ⟨host, .done (.ok b)⟩
  /-- Nobody hears that a rotation has stopped. -/
  going : ∀ {n : Nat} {c : Choice} {host}, s.choices[n]? = some c →
    c.progress ≠ .done (.error (.rotationStopped host))
  /-- Whoever waits for a backend, with the lock, can get one. -/
  supplied : ∀ {n : Nat} {host}, s.choices[n]? = some ⟨host, .holding⟩ →
    ∃ b ms h' last, system.replay s ms = some (h', last) ∧
      last.choices[n]? = some ⟨host, .done (.ok b)⟩

/-- Backends take turns, however producers and choices are interleaved and whatever is given up. -/
theorem backends_take_turns (r : system.Run (ofRoutes .roundRobin routes) h s) :
    TakesTurns routes h s := by
  have S : Sound routes h s := sound_of_run r
  have turned : ∀ {host bs}, Serves routes host bs →
      served h host = turns bs (served h host).length :=
    fun hs => served_eq_turns S.counted hs
  constructor
  case counted => exact S.counted
  case inTurn =>
    intro host bs k b hs hk
    have hlt : k < (served h host).length := (List.getElem?_eq_some_iff.mp hk).1
    rwa [turned hs, getElem?_turns hs.2 hlt] at hk
  case fair =>
    intro host bs i hs hi
    rw [turned hs]
    exact window_turns hs.2 hi
  case answered => exact ⟨S.once, S.answered⟩
  case going => exact S.going
  case supplied =>
    intro n host hc
    obtain ⟨-, b, ms, h', last, -, -, moves, -, done⟩ := S.exists_handout hc
    exact ⟨b, ms, h', last, moves, done⟩

/-- The second caller for one host gives up while it waits for a backend; a caller for another host comes
between. -/
def interrupted : List Handout := [⟨0, "a.test", "A"⟩, ⟨2, "b.test", "C"⟩, ⟨3, "a.test", "B"⟩]

theorem backends_take_turns_interrupted : ∃ s,
    system.Run (ofRoutes .roundRobin [("a.test", ["A", "B"]), ("b.test", ["C"])]) interrupted s ∧
      TakesTurns [("a.test", ["A", "B"]), ("b.test", ["C"])] interrupted s := by
  have moves : system.replay (ofRoutes .roundRobin [("a.test", ["A", "B"]), ("b.test", ["C"])])
      [.ask "a.test", .ask "a.test", .ask "b.test", .ask "a.test", .enter 0 0, .enter 1 0,
        .enter 2 0, .acquire 0, .produce "a.test", .receive 0, .acquire 1, .abandon 1,
        .produce "b.test", .acquire 2, .receive 2, .produce "a.test", .produce "a.test", .enter 3 0,
        .acquire 3, .receive 3] = some (interrupted, _) := rfl
  have run := StepSystem.Run.of_replay moves
  exact ⟨_, run, backends_take_turns run⟩

/-! ## Choices without company -/

/-- A choice without company gets what a choice as a whole gives, and leaves the balancer as that
does. -/
theorem exists_choose (S : Sound routes h s) (hopen : s.isOpen = true) {host : String}
    (hfree : s.isLocked host = false) (draw : Nat) :
    ∃ ms h' last, system.replay s ms = some (h', last) ∧
      last.balancer = (s.balancer.choose draw host).2 ∧
      last.choices[s.choices.length]? = some ⟨host, .done (s.balancer.choose draw host).1⟩ := by
  -- it asks and looks for its route
  have asks : s.move? (.ask host) = some { s with choices := s.choices ++ [⟨host, .asked⟩] } := by
    simp [move?, hopen]
  have asked := S.after_ask hopen host
  have here : (s.choices ++ [⟨host, .asked⟩])[s.choices.length]? = some ⟨host, .asked⟩ := by simp
  obtain ⟨entered, enters, balancer, choices⟩ : ∃ entered : SharedBalancer,
      enter { s with choices := s.choices ++ [⟨host, .asked⟩] } s.choices.length draw = some entered ∧
        entered.balancer = s.balancer ∧
        entered.choices = s.choices ++ [⟨host, s.balancer.enter draw host⟩] :=
    ⟨_, enter_eq_some.mpr ⟨_, here, rfl, rfl⟩, rfl, by simp [setChoice]⟩
  have S' := asked.after_move (m := .enter s.choices.length draw) enters
  rcases S.enter_cases draw host with ⟨he, -, hchoose⟩ | ⟨he, hchoose⟩
  · -- it waits for the lock, which is free, and then for a backend
    have waits : entered.choices[s.choices.length]? = some ⟨host, .waiting⟩ := by
      simp [choices, he]
    have free : entered.isLocked host = false := by
      simpa [isLocked, choices, he, ChoiceProgress.isHolding] using hfree
    obtain ⟨held, acquires, balancer', holds⟩ : ∃ held : SharedBalancer,
        entered.acquire s.choices.length = some held ∧ held.balancer = entered.balancer ∧
          held.choices[s.choices.length]? = some ⟨host, .holding⟩ :=
      ⟨_, acquire_eq_some.mpr ⟨_, waits, rfl, free, rfl⟩, rfl,
        List.getElem?_set_self (List.getElem?_eq_some_iff.mp waits).1⟩
    have S'' := S'.after_move (m := .acquire s.choices.length) acquires
    obtain ⟨r, b, ms, h', last, hr, hb, moves, hlast, done⟩ := S''.exists_handout holds
    rw [balancer', balancer] at hr hlast
    have taken : r.produce.take = (some b, r.produce.take.2) := Prod.ext hb rfl
    have chosen : s.balancer.choose draw host =
        (.ok b, s.balancer.setRotation host r.produce.take.2) := by
      simp only [hchoose, Balancer.rotate, hr]
      rw [taken]
    rw [chosen]
    exact ⟨.ask host :: .enter s.choices.length draw :: .acquire s.choices.length :: ms, _, last,
      StepSystem.replay_cons asks (StepSystem.replay_cons enters
        (StepSystem.replay_cons acquires moves)), hlast, done⟩
  · rw [hchoose]
    refine ⟨[.ask host, .enter s.choices.length draw], _, entered,
      StepSystem.replay_cons asks (StepSystem.replay_cons enters rfl), balancer, ?_⟩
    simp [choices, he]

end SharedBalancer
end ForwardProxy.Balancer
