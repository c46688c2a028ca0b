import ForwardProxy.Proofs.Interception.LeafCache

/-!
# Look-ups side by side

However many callers look hosts up, in whatever order they and their loads move on, and whoever
gives up: `Sound` says that the lock belongs to the caller that looks or to the load that is under
way, that the books of the cache are in order, and that whoever has got a key pair has got the one
in the cache. Every move keeps this.

* `work_eq_some`, `acquire_eq_some`, `look_eq_some`, `abandon_eq_some`, `join_eq_some`: all that each move can do, with
  its guards.
* `Sound.after_turn`: a caller goes on and may take or give back the lock. Most moves of callers are this one, with
  other places for the caller and the lock; its hypotheses are what each of them has to see to.
* `Sound.after_begin`, `after_miss`: a caller that finds nothing gives the lock to the load that it begins. It is taken
  as two steps, of which the first leaves the lock free.
* `Sound.after_work`: a load moves on, and gives the lock back when it is over.
* `Sound.after_move`: every move.

A caller may give up at any time, also the one that has begun a load. The load keeps the lock all the same: `loading`
ties the lock to the load, and no part of the invariant asks whether anybody still waits for it.
-/

namespace ForwardProxy.Interception.SharedCache

open Certificate (KeyPair)

/-- The lock belongs to whom it should, and callers are told what is in the cache. -/
structure Sound (c : SharedCache) : Prop where
  books : Books c.cache c.tasks
  known : ∀ {n}, c.holder = some (.lookup n) → n < c.lookups.length
  looking : ∀ {n : Nat} {x : Lookup}, c.lookups[n]? = some x →
    (x.progress = .holding ↔ c.holder = some (.lookup n))
  loading : ∀ {l : Nat} {x : Load}, c.tasks[l]? = some x →
    (x.progress.isFinished = false ↔ c.holder = some (.load l))
  joined : ∀ {n : Nat} {x : Lookup} {l}, c.lookups[n]? = some x → x.progress = .joining l →
    ∃ y, c.tasks[l]? = some y ∧ y.host = Text.lower x.host
  answered : ∀ {n : Nat} {x : Lookup} {k}, c.lookups[n]? = some x → x.progress = .done (.ok k) →
    c.cache.find? (Text.lower x.host) = some k

/-! ## Moves -/

/-- What a load that moves on does to all. -/
theorem work_eq_some {c c' : SharedCache} {l : Nat} {result : Except Error KeyPair} :
    c.work l result = some c' ↔ ∃ x, c.tasks[l]? = some x ∧
      ∃ cache p, x.advance result c.cache = some (cache, p) ∧
        { c with
          cache
          tasks := c.tasks.set l { x with progress := p }
          holder := if p.isFinished then none else c.holder } = c' := by
  simp [work, Option.bind_eq_some_iff]

/-- Who gets the lock. -/
theorem acquire_eq_some {c c' : SharedCache} {n : Nat} :
    c.acquire n = some c' ↔ ∃ x, c.lookups[n]? = some x ∧ x.progress = .waiting ∧
      c.holder = none ∧ { c.setLookup n x .holding with holder := some (.lookup n) } = c' := by
  simp only [acquire, Option.bind_eq_bind, Option.bind_eq_some_iff]
  refine exists_congr fun x => and_congr_right fun _ => ?_
  split <;> simp_all

/-- What a caller that looks finds: the host, or that a load has to begin. -/
theorem look_eq_some {c c' : SharedCache} {n : Nat} :
    c.look n = some c' ↔ ∃ x, c.lookups[n]? = some x ∧ x.progress = .holding ∧
      ((∃ k, c.cache.find? (Text.lower x.host) = some k ∧
          { c.setLookup n x (.done (.ok k)) with holder := none } = c') ∨
        (c.cache.find? (Text.lower x.host) = none ∧
          { c.setLookup n x (.joining c.tasks.length) with
            holder := some (.load c.tasks.length)
            tasks := c.tasks ++ [⟨Text.lower x.host, .loading⟩] } = c')) := by
  simp only [look, Option.bind_eq_bind, Option.bind_eq_some_iff]
  refine exists_congr fun x => and_congr_right fun _ => ?_
  split <;> simp_all

/-- Who gives up. -/
theorem abandon_eq_some {c c' : SharedCache} {n : Nat} :
    c.abandon n = some c' ↔ ∃ x, c.lookups[n]? = some x ∧
      (((x.progress = .waiting ∨ ∃ l, x.progress = .joining l) ∧ c.setLookup n x .abandoned = c') ∨
        (x.progress = .holding ∧ { c.setLookup n x .abandoned with holder := none } = c')) := by
  simp only [abandon, Option.bind_eq_bind, Option.bind_eq_some_iff]
  refine exists_congr fun x => and_congr_right fun _ => ?_
  split <;> simp_all

/-- Who gets the result of a load. -/
theorem join_eq_some {c c' : SharedCache} {n : Nat} :
    c.join n = some c' ↔ ∃ x, c.lookups[n]? = some x ∧ ∃ l, x.progress = .joining l ∧
      ∃ y, c.tasks[l]? = some y ∧ ∃ result, y.progress = .finished result ∧
        c.setLookup n x (.done result) = c' := by
  simp only [join, Option.bind_eq_bind, Option.bind_eq_some_iff]
  refine exists_congr fun x => and_congr_right fun _ => ?_
  cases hp : x.progress with
  | joining l =>
    simp only [LookupProgress.joining.injEq, Option.bind_eq_some_iff, exists_eq_left']
    refine exists_congr fun y => and_congr_right fun _ => ?_
    split <;> simp_all
  | _ => simp

namespace Sound

variable {c c' : SharedCache} {n l : Nat} {x : Lookup}

theorem at_start : Sound {} where
  books := .at_start
  known := by simp
  looking := by simp
  loading := by simp
  joined := by simp
  answered := by simp

/-- A caller that is not looking does not have the lock. -/
theorem not_holder (S : Sound c) (hx : c.lookups[n]? = some x) (hp : x.progress ≠ .holding) :
    c.holder ≠ some (.lookup n) :=
  fun held => hp ((S.looking hx).mpr held)

/-- A caller asks for a host. -/
theorem after_ask (S : Sound c) (host : String) :
    Sound { c with lookups := c.lookups ++ [⟨host, .waiting⟩] } := by
  constructor
  case books => exact S.books
  case known =>
    intro m hm
    rw [List.length_append]
    exact Nat.lt_add_right _ (S.known hm)
  case looking =>
    intro m z hz
    rcases concat_cases hz with hz | ⟨rfl, rfl⟩
    · exact S.looking hz
    · exact ⟨fun h => (nomatch h), fun h => absurd (S.known h) (Nat.lt_irrefl _)⟩
  case loading => exact S.loading
  case joined =>
    intro m z l hz hp
    rcases concat_cases hz with hz | ⟨-, rfl⟩
    · exact S.joined hz hp
    · cases hp
  case answered =>
    intro m z k hz hp
    rcases concat_cases hz with hz | ⟨-, rfl⟩
    · exact S.answered hz hp
    · cases hp

/-- A caller goes on to another place and may take or give back the lock. -/
theorem after_turn (S : Sound c) (hx : c.lookups[n]? = some x) (p : LookupProgress)
    (holder : Option Holder)
    (hmine : p = .holding ↔ holder = some (.lookup n))
    (hothers : ∀ m, m ≠ n → (holder = some (.lookup m) ↔ c.holder = some (.lookup m)))
    (hloads : ∀ l, holder = some (.load l) ↔ c.holder = some (.load l))
    (hjoin : ∀ l, p = .joining l → ∃ y, c.tasks[l]? = some y ∧ y.host = Text.lower x.host)
    (hdone : ∀ k, p = .done (.ok k) → c.cache.find? (Text.lower x.host) = some k) :
    Sound { c.setLookup n x p with holder } := by
  have hn : n < c.lookups.length := (List.getElem?_eq_some_iff.mp hx).1
  constructor
  case books => exact S.books
  case known =>
    intro m hm
    rw [setLookup, List.length_set]
    by_cases hmn : m = n
    · exact hmn ▸ hn
    · exact S.known ((hothers m hmn).mp hm)
  case looking =>
    intro m z hz
    rcases set_cases hx hz with ⟨rfl, rfl⟩ | ⟨hm, hz⟩
    · exact hmine
    · exact (S.looking hz).trans (hothers m hm).symm
  case loading => exact fun hy => (S.loading hy).trans (hloads _).symm
  case joined =>
    intro m z l hz hp
    rcases set_cases hx hz with ⟨-, rfl⟩ | ⟨-, hz⟩
    · exact hjoin l hp
    · exact S.joined hz hp
  case answered =>
    intro m z k hz hp
    rcases set_cases hx hz with ⟨-, rfl⟩ | ⟨-, hz⟩
    · exact hdone k hp
    · exact S.answered hz hp

/-- A load of a host that is not there begins. -/
theorem after_begin (S : Sound c) (hfree : c.holder = none) {host : String}
    (hf : c.cache.find? host = none) :
    Sound { c with holder := some (.load c.tasks.length), tasks := c.tasks ++ [⟨host, .loading⟩] } := by
  have ended : ∀ {l : Nat} {y : Load}, c.tasks[l]? = some y → y.progress.isFinished = true := by
    intro l y hy
    have := S.loading hy
    simpa [hfree] using this
  constructor
  case books => exact S.books.after_begin hf ended
  case known => exact fun h => nomatch h
  case looking =>
    intro m z hz
    have := S.looking hz
    simpa [hfree] using this
  case loading =>
    intro m z hz
    rcases concat_cases hz with hz | ⟨rfl, rfl⟩
    · have hm : m < c.tasks.length := (List.getElem?_eq_some_iff.mp hz).1
      simp [ended hz, Nat.ne_of_gt hm]
    · simp [LoadProgress.isFinished]
  case joined =>
    intro m z l hz hp
    obtain ⟨y, hy, hh⟩ := S.joined hz hp
    have hl : l < c.tasks.length := (List.getElem?_eq_some_iff.mp hy).1
    exact ⟨y, (List.getElem?_append_left hl).trans hy, hh⟩
  case answered => exact S.answered

/-- A caller that has the lock and finds nothing joins a load that begins. -/
theorem after_miss (S : Sound c) (hx : c.lookups[n]? = some x) (hp : x.progress = .holding)
    (hf : c.cache.find? (Text.lower x.host) = none) :
    Sound { c.setLookup n x (.joining c.tasks.length) with
      holder := some (.load c.tasks.length)
      tasks := c.tasks ++ [⟨Text.lower x.host, .loading⟩] } := by
  have hn : n < c.lookups.length := (List.getElem?_eq_some_iff.mp hx).1
  have held : c.holder = some (.lookup n) := (S.looking hx).mp hp
  -- the caller gives back the lock, a load begins, and the caller joins it
  have given : Sound { c.setLookup n x .abandoned with holder := none } :=
    S.after_turn hx _ _ (by simp) (fun m hmn => by simp [held, Ne.symm hmn]) (by simp [held]) (by simp)
      (by simp)
  have begun := given.after_begin rfl hf
  have here : (c.lookups.set n { x with progress := .abandoned })[n]? =
      some { x with progress := .abandoned } := List.getElem?_set_self hn
  have joins := begun.after_turn here (.joining c.tasks.length) (some (.load c.tasks.length)) (by simp)
    (fun _ _ => .rfl) (fun _ => .rfl) ?_ (by simp)
  · simpa [setLookup, List.set_set] using joins
  · intro l hl
    obtain rfl : c.tasks.length = l := by simpa using hl
    exact ⟨⟨Text.lower x.host, .loading⟩, by simp [setLookup], rfl⟩

/-- A load moves on. -/
theorem after_work (S : Sound c) {result : Except Error KeyPair} (hm : c.work l result = some c') :
    Sound c' := by
  obtain ⟨x, hx, cache, p, ha, rfl⟩ := work_eq_some.mp hm
  have hl : l < c.tasks.length := (List.getElem?_eq_some_iff.mp hx).1
  have held : c.holder = some (.load l) := (S.loading hx).mp (Load.isFinished_of_advance ha)
  constructor
  case books => exact S.books.after_advance hx ha
  case known =>
    intro n hn
    simp only [held] at hn
    split at hn <;> cases hn
  case looking =>
    intro n z hz
    have := S.looking hz
    simp only [held] at this ⊢
    split <;> simpa using this
  case loading =>
    intro m z hz
    rcases set_cases hx hz with ⟨rfl, rfl⟩ | ⟨hne, hz⟩
    · simp only [held]
      cases p.isFinished <;> simp
    · have := S.loading hz
      simp only [held] at this ⊢
      split <;> simpa [Ne.symm hne] using this
  case joined =>
    intro n z m hz hp
    obtain ⟨y, hy, hh⟩ := S.joined hz hp
    by_cases hne : m = l
    · subst hne
      obtain rfl := Option.some.inj (hx.symm.trans hy)
      exact ⟨_, List.getElem?_set_self hl, hh⟩
    · exact ⟨y, (List.getElem?_set_ne (Ne.symm hne)).trans hy, hh⟩
  case answered =>
    intro n z k hz hp
    exact S.books.find?_of_advance hx ha (S.answered hz hp)

/-- Every move keeps a cache sound. -/
theorem after_move (S : Sound c) {m : Move} (hm : c.move? m = some c') : Sound c' := by
  cases m with
  | ask host =>
    obtain rfl := Option.some.inj hm
    exact S.after_ask host
  | acquire n =>
    obtain ⟨x, hx, -, hfree, rfl⟩ := acquire_eq_some.mp hm
    exact S.after_turn hx _ _ (by simp) (fun m hmn => by simp [hfree, Ne.symm hmn]) (by simp [hfree])
      (by simp) (by simp)
  | look n =>
    obtain ⟨x, hx, hp, found | missing⟩ := look_eq_some.mp hm
    · obtain ⟨k, hk, rfl⟩ := found
      have held : c.holder = some (.lookup n) := (S.looking hx).mp hp
      exact S.after_turn hx _ _ (by simp) (fun m hmn => by simp [held, Ne.symm hmn]) (by simp [held])
        (by simp) (by simp [hk])
    · obtain ⟨hf, rfl⟩ := missing
      exact S.after_miss hx hp hf
  | abandon n =>
    obtain ⟨x, hx, ⟨hp, rfl⟩ | ⟨hp, rfl⟩⟩ := abandon_eq_some.mp hm
    · have free : c.holder ≠ some (.lookup n) := by
        refine S.not_holder hx ?_
        rcases hp with hp | ⟨l, hp⟩ <;> simp [hp]
      exact S.after_turn hx _ _ (by simpa using free) (fun _ _ => .rfl) (fun _ => .rfl) (by simp) (by simp)
    · have held : c.holder = some (.lookup n) := (S.looking hx).mp hp
      exact S.after_turn hx _ _ (by simp) (fun m hmn => by simp [held, Ne.symm hmn]) (by simp [held])
        (by simp) (by simp)
  | work l result => exact S.after_work hm
  | join n =>
    obtain ⟨x, hx, l, hp, y, hy, result, hr, rfl⟩ := join_eq_some.mp hm
    have free : c.holder ≠ some (.lookup n) := S.not_holder hx (by simp [hp])
    refine S.after_turn hx _ _ (by simpa using free) (fun _ _ => .rfl) (fun _ => .rfl) (by simp) ?_
    intro k hk
    obtain rfl : result = .ok k := by simpa using hk
    obtain ⟨y', hy', hh⟩ := S.joined hx hp
    obtain rfl := Option.some.inj (hy.symm.trans hy')
    rw [← hh]
    exact S.books.kept hy (by rw [hr]; rfl)

end Sound
end ForwardProxy.Interception.SharedCache
