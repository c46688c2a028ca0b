import ForwardProxy.Proofs.Interception.SharedCache

/-!
# Every host is loaded once

What callers may rely on while others look hosts up, loads fail and callers give up. A key pair
stays in the cache from the moment when it gets there. As long as a load has not been counted,
nothing in the cache changes at all, since the load has the lock; so a load that fails leaves no
trace, and the next caller has the host loaded again.

* `Sound.find?_of_run`: what is in the cache stays there, by induction on the run.
* `Sound.early_of_run`: a load that is not counted has left the cache as it was when the load began.
* `exists_acquire`, `exists_look_found`, `exists_look_missing`, `exists_work`, `exists_join`: each move can be made
  where its guards allow it, and what is there afterwards.
* `leaves_are_loaded_once`: what holds between any moment of a run and any later one.
* `exists_get`: a caller that nobody disturbs gets what the function `LeafCache.get` gives.

The results of loads come from outside, one for each step of a load, so a failure may come at any time; what a load
has got, it keeps. Hosts are compared in small letters, as the look-up does it: the loads are of hosts in small
letters, while a caller may have asked in any case.

`failed` says what the next caller finds, as two moves that it can make at once. It does not say that there is a next
caller, nor that its load succeeds.
-/

namespace ForwardProxy.Interception

open Certificate (KeyPair)

/-- The load is under way and has not been counted. -/
def LoadProgress.isEarly : LoadProgress → Bool
  | loading | loaded _ => true
  | _ => false

theorem LoadProgress.isFinished_of_isEarly {p : LoadProgress} (h : p.isEarly = true) :
    p.isFinished = false := by
  cases p with
  | loading | loaded _ => rfl
  | counted _ | inserted _ | finished _ => cases h

/-- A load that is not counted yet has left the cache alone. -/
theorem Load.early_of_advance {x : Load} {result : Except Error KeyPair} {c c' : LeafCache}
    {p : LoadProgress} (ha : x.advance result c = some (c', p)) (he : p.isEarly = true) :
    x.progress.isEarly = true ∧ c' = c := by
  have moves := moves_of_advance ha
  obtain ⟨host, progress⟩ := x
  cases moves with
  | load => exact ⟨rfl, rfl⟩
  | count | put | finish | fail => cases he

namespace SharedCache

variable {c c' : SharedCache} {m : Move} {ms : List Move} {l : Nat}

/-- A move that is not a load's leaves the cache and the loads alone, but a load may begin. -/
theorem move_spec (hm : c.move? m = some c') :
    (∃ result l, c.work l result = some c') ∨
      (c'.cache = c.cache ∧ ∃ ys, c'.tasks = c.tasks ++ ys) := by
  cases m with
  | ask host =>
    obtain rfl := Option.some.inj hm
    exact .inr ⟨rfl, [], (List.append_nil _).symm⟩
  | acquire n =>
    obtain ⟨x, -, -, -, rfl⟩ := acquire_eq_some.mp hm
    exact .inr ⟨rfl, [], (List.append_nil _).symm⟩
  | look n =>
    obtain ⟨x, -, -, ⟨k, -, rfl⟩ | ⟨-, rfl⟩⟩ := look_eq_some.mp hm
    · exact .inr ⟨rfl, [], (List.append_nil _).symm⟩
    · exact .inr ⟨rfl, _, rfl⟩
  | abandon n =>
    obtain ⟨x, -, ⟨-, rfl⟩ | ⟨-, rfl⟩⟩ := abandon_eq_some.mp hm
    · exact .inr ⟨rfl, [], (List.append_nil _).symm⟩
    · exact .inr ⟨rfl, [], (List.append_nil _).symm⟩
  | work l result => exact .inl ⟨result, l, hm⟩
  | join n =>
    obtain ⟨x, -, l, -, y, -, result, -, rfl⟩ := join_eq_some.mp hm
    exact .inr ⟨rfl, [], (List.append_nil _).symm⟩

/-- One move and then others. -/
theorem run?_cons {next : SharedCache} (hm : c.move? m = some next)
    (h : next.run? ms = some c') : c.run? (m :: ms) = some c' :=
  Option.bind_eq_some_iff.mpr ⟨next, hm, h⟩

theorem Sound.after_run (S : Sound c) (h : c.run? ms = some c') : Sound c' := by
  induction ms generalizing c with
  | nil =>
    obtain rfl := Option.some.inj h
    exact S
  | cons m ms ih =>
    obtain ⟨next, hm, h⟩ := Option.bind_eq_some_iff.mp h
    exact ih (S.after_move hm) h

/-- A key pair that is in the cache stays there. -/
theorem Sound.find?_of_run (S : Sound c) (h : c.run? ms = some c') {host : String} {k : KeyPair}
    (hk : c.cache.find? host = some k) : c'.cache.find? host = some k := by
  induction ms generalizing c with
  | nil =>
    obtain rfl := Option.some.inj h
    exact hk
  | cons m ms ih =>
    obtain ⟨next, hm, h⟩ := Option.bind_eq_some_iff.mp h
    refine ih (S.after_move hm) h ?_
    rcases move_spec hm with ⟨result, l, hw⟩ | ⟨same, -⟩
    · obtain ⟨x, hx, cache, p, ha, rfl⟩ := work_eq_some.mp hw
      exact S.books.find?_of_advance hx ha hk
    · rwa [same]

/-- A load goes on to have the host that it had. -/
theorem host_of_move (hm : c.move? m = some c') {y : Load} (hy : c.tasks[l]? = some y) :
    ∃ z, c'.tasks[l]? = some z ∧ z.host = y.host := by
  have hl : l < c.tasks.length := (List.getElem?_eq_some_iff.mp hy).1
  rcases move_spec hm with ⟨result, l', hw⟩ | ⟨-, ys, tasks⟩
  · obtain ⟨x, hx, cache, p, -, rfl⟩ := work_eq_some.mp hw
    by_cases hne : l = l'
    · subst hne
      obtain rfl := Option.some.inj (hx.symm.trans hy)
      exact ⟨_, List.getElem?_set_self hl, rfl⟩
    · exact ⟨y, (List.getElem?_set_ne (Ne.symm hne)).trans hy, rfl⟩
  · exact ⟨y, by rw [tasks, List.getElem?_append_left hl, hy], rfl⟩

/-- While a load is not counted, it has not been counted before, and the cache does not change. -/
theorem Sound.early_of_move (S : Sound c) (hm : c.move? m = some c') {y z : Load}
    (hy : c.tasks[l]? = some y) (hz : c'.tasks[l]? = some z) (he : z.progress.isEarly = true) :
    y.progress.isEarly = true ∧ c'.cache = c.cache := by
  have hl : l < c.tasks.length := (List.getElem?_eq_some_iff.mp hy).1
  rcases move_spec hm with ⟨result, l', hw⟩ | ⟨same, ys, tasks⟩
  · obtain ⟨x, hx, cache, p, ha, rfl⟩ := work_eq_some.mp hw
    rcases set_cases hx hz with ⟨rfl, rfl⟩ | ⟨hne, hz⟩
    · obtain rfl := Option.some.inj (hx.symm.trans hy)
      exact Load.early_of_advance ha he
    · obtain rfl := Option.some.inj (hz.symm.trans hy)
      -- no other load could have moved, since the lock is this one's
      exact absurd (S.books.single hz hx (LoadProgress.isFinished_of_isEarly he)
        (Load.isFinished_of_advance ha)) hne
  · rw [tasks, List.getElem?_append_left hl, hy] at hz
    obtain rfl := Option.some.inj hz
    exact ⟨he, same⟩

/-- As long as a load is not counted, the cache is what it was when the load began. -/
theorem Sound.early_of_run (S : Sound c) (h : c.run? ms = some c') {y z : Load}
    (hy : c.tasks[l]? = some y) (hz : c'.tasks[l]? = some z) (he : z.progress.isEarly = true) :
    y.progress.isEarly = true ∧ c'.cache = c.cache := by
  induction ms generalizing c y with
  | nil =>
    obtain rfl := Option.some.inj h
    obtain rfl := Option.some.inj (hy.symm.trans hz)
    exact ⟨he, rfl⟩
  | cons m ms ih =>
    obtain ⟨next, hm, h⟩ := Option.bind_eq_some_iff.mp h
    obtain ⟨x, hx, -⟩ := host_of_move hm hy
    obtain ⟨early, later⟩ := ih (S.after_move hm) h hx
    obtain ⟨before, first⟩ := S.early_of_move hm hy hx early
    exact ⟨before, later.trans first⟩

/-- A load that has failed gives back the lock, and the cache is as it was. -/
theorem Sound.work_failed (S : Sound c) {host : String} {e : Error}
    (hl : c.tasks[l]? = some ⟨host, .loaded (.error e)⟩) (result : Except Error KeyPair) :
    ∃ c', c.work l result = some c' ∧ c'.cache = c.cache ∧ c'.cache.find? host = none ∧
      c'.holder = none ∧ c'.tasks[l]? = some ⟨host, .finished (.error e)⟩ := by
  have hlt : l < c.tasks.length := (List.getElem?_eq_some_iff.mp hl).1
  refine ⟨_, work_eq_some.mpr ⟨_, hl, _, _, rfl, rfl⟩, rfl, S.books.missing hl rfl, rfl, ?_⟩
  exact List.getElem?_set_self hlt

/-- A caller can get the lock when it is free. -/
theorem exists_acquire {n : Nat} {host : String} (hfree : c.holder = none)
    (hn : c.lookups[n]? = some ⟨host, .waiting⟩) :
    ∃ held, c.acquire n = some held ∧ held.cache = c.cache ∧ held.tasks = c.tasks ∧
      held.lookups[n]? = some ⟨host, .holding⟩ := by
  have hlt : n < c.lookups.length := (List.getElem?_eq_some_iff.mp hn).1
  exact ⟨_, acquire_eq_some.mpr ⟨_, hn, rfl, hfree, rfl⟩, rfl, rfl, List.getElem?_set_self hlt⟩

/-- A caller that has the lock and finds its host is done. -/
theorem exists_look_found {n : Nat} {host : String} {k : KeyPair}
    (hn : c.lookups[n]? = some ⟨host, .holding⟩) (hf : c.cache.find? (Text.lower host) = some k) :
    ∃ after, c.look n = some after ∧ after.cache = c.cache ∧ after.holder = none ∧
      after.lookups[n]? = some ⟨host, .done (.ok k)⟩ := by
  have hlt : n < c.lookups.length := (List.getElem?_eq_some_iff.mp hn).1
  exact ⟨_, look_eq_some.mpr ⟨_, hn, rfl, .inl ⟨k, hf, rfl⟩⟩, rfl, rfl, List.getElem?_set_self hlt⟩

/-- A caller that has the lock and does not find its host begins a load. -/
theorem exists_look_missing {n : Nat} {host : String}
    (hn : c.lookups[n]? = some ⟨host, .holding⟩) (hf : c.cache.find? (Text.lower host) = none) :
    ∃ after, c.look n = some after ∧ after.cache = c.cache ∧
      after.tasks = c.tasks ++ [⟨Text.lower host, .loading⟩] ∧
      after.lookups[n]? = some ⟨host, .joining c.tasks.length⟩ := by
  have hlt : n < c.lookups.length := (List.getElem?_eq_some_iff.mp hn).1
  exact ⟨_, look_eq_some.mpr ⟨_, hn, rfl, .inr ⟨hf, rfl⟩⟩, rfl, rfl, List.getElem?_set_self hlt⟩

/-- A caller that gets the free lock and does not find its host begins a load. -/
theorem exists_load {n : Nat} {host : String} (hfree : c.holder = none)
    (hn : c.lookups[n]? = some ⟨host, .waiting⟩) (hf : c.cache.find? (Text.lower host) = none) :
    ∃ after, c.run? [.acquire n, .look n] = some after ∧
      after.tasks = c.tasks ++ [⟨Text.lower host, .loading⟩] ∧
      after.lookups[n]? = some ⟨host, .joining c.tasks.length⟩ := by
  obtain ⟨held, acquired, cache, tasks, here⟩ := exists_acquire hfree hn
  obtain ⟨after, looked, -, begun, joining⟩ := exists_look_missing here (by rwa [cache])
  refine ⟨after, ?_, by rw [begun, tasks], by rw [joining, tasks]⟩
  exact run?_cons acquired (run?_cons looked rfl)

/-- What callers may rely on, from one moment to any later one. -/
structure LoadsOnce (c c' : SharedCache) : Prop where
  /-- One load at most is under way. -/
  single : ∀ {l l' : Nat} {x x' : Load}, c.tasks[l]? = some x → c.tasks[l']? = some x' →
    x.progress.isFinished = false → x'.progress.isFinished = false → l = l'
  /-- Of the loads of a host, whatever its case, one at most succeeds. -/
  once : ∀ {host : String} {l l' : Nat} {x x' : Load}, c.tasks[l]? = some x →
    c.tasks[l']? = some x' → x.host = Text.lower host → x'.host = Text.lower host →
    x.progress.pair?.isSome → x'.progress.pair?.isSome → l = l'
  /-- What is in the cache stays there. -/
  kept : ∀ {host : String} {k : KeyPair}, c.cache.find? host = some k →
    c'.cache.find? host = some k
  /-- Whoever gets a key pair gets the one in the cache, which a load has put there. -/
  answered : ∀ {n : Nat} {host : String} {k : KeyPair},
    c.lookups[n]? = some ⟨host, .done (.ok k)⟩ → c.cache.find? (Text.lower host) = some k ∧
      ∃ (l : Nat) (x : Load), c.tasks[l]? = some x ∧ x.host = Text.lower host ∧
        x.progress.stored? = some k
  /-- A load that fails leaves the cache as it was when it began, and the next caller tries again. -/
  failed : ∀ {l : Nat} {host : String} {e : Error}, c.tasks[l]? = some ⟨host, .loading⟩ →
    c'.tasks[l]? = some ⟨host, .loaded (.error e)⟩ → ∀ result, ∃ freed, c'.work l result = some freed ∧
      freed.cache = c.cache ∧ freed.holder = none ∧
      freed.tasks[l]? = some ⟨host, .finished (.error e)⟩ ∧
      ∀ {n : Nat} {host' : String}, freed.lookups[n]? = some ⟨host', .waiting⟩ →
        Text.lower host' = host → ∃ again, freed.run? [.acquire n, .look n] = some again ∧
          again.tasks = freed.tasks ++ [⟨host, .loading⟩] ∧
          again.lookups[n]? = some ⟨host', .joining freed.tasks.length⟩
  /-- When the lock is free, the counter says how many hosts are in the cache. -/
  balanced : c.holder = none → c.cache.loads = c.cache.size

/-- However look-ups, loads and failures are interleaved, every host is loaded once. -/
theorem leaves_are_loaded_once {ms ms' : List Move} {c c' : SharedCache}
    (h : SharedCache.run? {} ms = some c) (h' : c.run? ms' = some c') : LoadsOnce c c' := by
  have S : Sound c := Sound.at_start.after_run h
  have S' : Sound c' := S.after_run h'
  constructor
  case single => exact S.books.single
  case once =>
    intro host l l' x x' hx hx' hh hh' hk hk'
    obtain ⟨k, hk⟩ := Option.isSome_iff_exists.mp hk
    obtain ⟨k', hk'⟩ := Option.isSome_iff_exists.mp hk'
    exact S.books.eq_of_host_eq hx hx' hk hk' (hh.trans hh'.symm)
  case kept => exact S.find?_of_run h'
  case answered =>
    intro n host k hn
    have found := S.answered hn rfl
    exact ⟨found, S.books.stored found⟩
  case failed =>
    intro l host e hl hl' result
    obtain ⟨-, unchanged⟩ := S.early_of_run h' hl hl' rfl
    obtain ⟨freed, hw, cache, missing, free, finished⟩ := S'.work_failed hl' result
    refine ⟨freed, hw, cache.trans unchanged, free, finished, ?_⟩
    rintro n host' hn rfl
    exact exists_load free hn missing
  case balanced =>
    intro hfree
    refine S.books.loads_eq_size fun hx => ?_
    have := S.loading hx
    simpa [hfree] using this

/-- The caller that has a host loaded has given up, and the load goes on. -/
def abandonedLoad : SharedCache where
  holder := some (.load 0)
  lookups := [⟨"a.test", .abandoned⟩, ⟨"A.TEST", .waiting⟩]
  tasks := [⟨"a.test", .loading⟩]

/-- Another caller has got what has been loaded. -/
def servedCaller (k : KeyPair) : SharedCache where
  cache := ⟨[("a.test", k)], 1⟩
  lookups := [⟨"a.test", .abandoned⟩, ⟨"A.TEST", .done (.ok k)⟩]
  tasks := [⟨"a.test", .finished (.ok k)⟩]

theorem leaves_are_loaded_once_abandoned :
    SharedCache.run? {} [.ask "a.test", .ask "A.TEST", .acquire 0, .look 0, .abandon 0] =
        some abandonedLoad ∧
      abandonedLoad.run? (List.replicate 4 (.work 0 (.ok ⟨[1], [], [2]⟩)) ++
        [.acquire 1, .look 1]) = some (servedCaller ⟨[1], [], [2]⟩) ∧
      LoadsOnce abandonedLoad (servedCaller ⟨[1], [], [2]⟩) := by
  have before : SharedCache.run? {} [.ask "a.test", .ask "A.TEST", .acquire 0, .look 0, .abandon 0] =
      some abandonedLoad := rfl
  have after : abandonedLoad.run? (List.replicate 4 (.work 0 (.ok ⟨[1], [], [2]⟩)) ++
      [.acquire 1, .look 1]) = some (servedCaller ⟨[1], [], [2]⟩) := rfl
  exact ⟨before, after, leaves_are_loaded_once before after⟩

/-! ## Callers that are alone -/

/-- A load can move on. -/
theorem exists_work {x : Load} {result : Except Error KeyPair} {cache : LeafCache}
    {p : LoadProgress} (hx : c.tasks[l]? = some x) (ha : x.advance result c.cache = some (cache, p)) :
    ∃ after, c.work l result = some after ∧ after.cache = cache ∧ after.lookups = c.lookups ∧
      after.tasks[l]? = some { x with progress := p } ∧
      after.holder = if p.isFinished then none else c.holder := by
  have hl : l < c.tasks.length := (List.getElem?_eq_some_iff.mp hx).1
  exact ⟨_, work_eq_some.mpr ⟨x, hx, cache, p, ha, rfl⟩, rfl, rfl, List.getElem?_set_self hl, rfl⟩

/-- A caller can get the result of a load that is over. -/
theorem exists_join {n : Nat} {host host' : String} {result : Except Error KeyPair}
    (hn : c.lookups[n]? = some ⟨host, .joining l⟩) (hl : c.tasks[l]? = some ⟨host', .finished result⟩) :
    ∃ after, c.join n = some after ∧ after.cache = c.cache ∧ after.holder = c.holder ∧
      after.lookups[n]? = some ⟨host, .done result⟩ := by
  have hlt : n < c.lookups.length := (List.getElem?_eq_some_iff.mp hn).1
  exact ⟨_, join_eq_some.mpr ⟨_, hn, l, rfl, _, hl, result, rfl, rfl⟩, rfl, rfl,
    List.getElem?_set_self hlt⟩

/-- The cache when a load has come to a result. -/
def settle (c : LeafCache) (host : String) :
    Except Error KeyPair → LeafCache
  | .ok k => c.count.put host k
  | .error _ => c

/-- What a look-up as a whole gives when the host is not there. -/
theorem get_of_missing {ca : KeyPair} {dir host : String} {w : Certificate.Workshop} {c : LeafCache}
    (hf : c.find? (Text.lower host) = none) :
    c.get ca dir host w = ((LeafCache.load ca dir (Text.lower host) w).1,
      settle c (Text.lower host) (LeafCache.load ca dir (Text.lower host) w).1,
      (LeafCache.load ca dir (Text.lower host) w).2) := by
  simp only [LeafCache.get, hf]
  split
  · rename_i hl
    simp [hl, settle]
  · rename_i hl
    simp [hl, settle]

/-- A load that begins comes to any result, and the caller that waits for it gets that. -/
theorem exists_settle {n : Nat} {host host' : String} (result : Except Error KeyPair)
    (hn : c.lookups[n]? = some ⟨host, .joining l⟩) (hl : c.tasks[l]? = some ⟨host', .loading⟩) :
    ∃ ms c', c.run? ms = some c' ∧ c'.holder = none ∧ c'.cache = settle c.cache host' result ∧
      c'.lookups[n]? = some ⟨host, .done result⟩ := by
  obtain ⟨c1, work1, cache1, lookups1, task1, -⟩ := exists_work hl (rfl : Load.advance result _ _ = _)
  cases result with
  | error e =>
    obtain ⟨c2, work2, cache2, lookups2, task2, free2⟩ :=
      exists_work task1 (rfl : Load.advance (.error e) _ _ = _)
    obtain ⟨c3, join3, cache3, free3, done3⟩ := exists_join (by rw [lookups2, lookups1, hn]) task2
    refine ⟨[.work l (.error e), .work l (.error e), .join n], c3, ?_, ?_, ?_, done3⟩
    · exact run?_cons work1 (run?_cons work2 (run?_cons join3 rfl))
    · rw [free3, free2]
      rfl
    · rw [cache3, cache2, cache1]
      rfl
  | ok k =>
    obtain ⟨c2, work2, cache2, lookups2, task2, -⟩ :=
      exists_work task1 (rfl : Load.advance (.ok k) _ _ = _)
    obtain ⟨c3, work3, cache3, lookups3, task3, -⟩ :=
      exists_work task2 (rfl : Load.advance (.ok k) _ _ = _)
    obtain ⟨c4, work4, cache4, lookups4, task4, free4⟩ :=
      exists_work task3 (rfl : Load.advance (.ok k) _ _ = _)
    obtain ⟨c5, join5, cache5, free5, done5⟩ :=
      exists_join (by rw [lookups4, lookups3, lookups2, lookups1, hn]) task4
    refine ⟨List.replicate 4 (.work l (.ok k)) ++ [.join n], c5, ?_, ?_, ?_, done5⟩
    · exact run?_cons work1 (run?_cons work2 (run?_cons work3 (run?_cons work4 (run?_cons join5 rfl))))
    · rw [free5, free4]
      rfl
    · rw [cache5, cache4, cache3, cache2, cache1]
      rfl

/-- A caller that nobody disturbs gets what a look-up as a whole gives, and leaves the cache as
that does. -/
theorem exists_get (ca : KeyPair) (dir host : String) (w : Certificate.Workshop) {c : SharedCache}
    (hfree : c.holder = none) :
    ∃ ms c', c.run? ms = some c' ∧ c'.holder = none ∧
      c'.cache = (c.cache.get ca dir host w).2.1 ∧
      c'.lookups[c.lookups.length]? = some ⟨host, .done (c.cache.get ca dir host w).1⟩ := by
  obtain ⟨asked, ask, free, cache, waits⟩ : ∃ asked, c.move? (.ask host) = some asked ∧
      asked.holder = none ∧ asked.cache = c.cache ∧
      asked.lookups[c.lookups.length]? = some ⟨host, .waiting⟩ := ⟨_, rfl, hfree, rfl, by simp⟩
  obtain ⟨held, acquire, cache', -, holds⟩ := exists_acquire free waits
  have entries : held.cache = c.cache := cache'.trans cache
  cases hf : c.cache.find? (Text.lower host) with
  | some k =>
    obtain ⟨found, look, same, freed, done⟩ := exists_look_found holds (by rw [entries, hf])
    refine ⟨[.ask host, .acquire c.lookups.length, .look c.lookups.length], found, ?_, freed, ?_, ?_⟩
    · exact run?_cons ask (run?_cons acquire (run?_cons look rfl))
    · simp [LeafCache.get, hf, same, entries]
    · simp [LeafCache.get, hf, done]
  | none =>
    obtain ⟨begun, look, same, begins, joins⟩ := exists_look_missing holds (by rw [entries, hf])
    have here : begun.tasks[held.tasks.length]? = some ⟨Text.lower host, .loading⟩ := by
      simp [begins]
    obtain ⟨ms, last, run, freed, settled, done⟩ :=
      exists_settle (LeafCache.load ca dir (Text.lower host) w).1 joins here
    refine ⟨.ask host :: .acquire c.lookups.length :: .look c.lookups.length :: ms, last, ?_, freed,
      ?_, ?_⟩
    · exact run?_cons ask (run?_cons acquire (run?_cons look run))
    · rw [settled, same, entries, get_of_missing hf]
    · rw [done, get_of_missing hf]

end SharedCache
end ForwardProxy.Interception
