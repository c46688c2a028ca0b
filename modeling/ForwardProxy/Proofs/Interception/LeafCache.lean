import ForwardProxy.Interception.SharedCache
import ForwardProxy.Proofs.Lists

/-!
# The books of the cache

What the cache holds and what the loads have done belong together: every key pair in the cache has
been put there by one load, which is the only one of its host that has succeeded, and as long as a
load has put nothing there, nothing is there for its host. `Books` says so, and that the cache
counts the loads that have succeeded. No move of a load upsets the books, as long as no two loads
are under way.

* `Load.Moves`: all that a load can do next, one constructor for each step, taken from the definition once
  (`Load.moves_of_advance`).
* `pair?`, `stored?`, `isCounted`, `isOpen`: views of the progress of a load. The books are about these, so a step that
  changes none of them needs no argument.
* `Books.after_begin`, `after_set`, `after_insert`: a load begins; it goes on and leaves the entries as they are; it
  puts its key pair in. `Books.after_advance` puts the three together.
* `Books.loads_eq_size`: when all loads are over, the counter of the cache is the number of its hosts.

`single` is not kept by the loads alone, as another one might begin: `after_begin` asks that all others are over, and
it is the lock around the cache that sees to this. `missing` is what makes a second load of a host impossible while
the first is open, and `unique` what makes it impossible afterwards.
-/

namespace ForwardProxy.Interception

open Certificate (KeyPair)

/-! ## Entries -/

namespace LeafCache

theorem find?_put (c : LeafCache) (host host' : String) (k : KeyPair) :
    (c.put host k).find? host' = if host' = host then some k else c.find? host' := by
  simp only [put, find?, List.find?_append]
  split
  · rename_i h
    subst h
    have gone : (c.entries.filter fun e => e.1 ≠ host').find? (fun e => e.1 = host') = none := by
      simp
    rw [gone, Option.none_or]
    simp
  · rename_i h
    have same : (c.entries.filter fun e => e.1 ≠ host).find? (fun e => e.1 = host') =
        c.entries.find? fun e => e.1 = host' := by
      rw [List.find?_filter]
      congr
      funext e
      by_cases he : e.1 = host'
      · simp [he, h]
      · simp [he]
    rw [same]
    simp [Ne.symm h]

/-- A host that is not there makes the cache larger by one. -/
theorem size_put {c : LeafCache} {host : String} (h : c.find? host = none) (k : KeyPair) :
    (c.put host k).size = c.size + 1 := by
  have all : (c.entries.filter fun e => e.1 ≠ host) = c.entries := by
    rw [List.filter_eq_self]
    intro e he
    simp only [find?, Option.map_eq_none_iff, List.find?_eq_none] at h
    simpa using h e he
  simp only [size, put, all, List.length_append, List.length_singleton]

end LeafCache

/-! ## Progress of loads -/

namespace LoadProgress

/-- The key pair that has been loaded. -/
def pair? : LoadProgress → Option KeyPair
  | loaded (.ok k) | counted k | inserted k | finished (.ok k) => some k
  | _ => none

/-- The key pair that has been put into the cache. -/
def stored? : LoadProgress → Option KeyPair
  | inserted k | finished (.ok k) => some k
  | _ => none

/-- The load has been counted. -/
def isCounted : LoadProgress → Bool
  | counted _ | inserted _ | finished (.ok _) => true
  | _ => false

/-- The load is under way and has put nothing into the cache. -/
def isOpen : LoadProgress → Bool
  | loading | loaded _ | counted _ => true
  | _ => false

/-- A key pair that has been loaded is in the cache, or the load is still open. -/
theorem stored?_or_isOpen {p : LoadProgress} {k : KeyPair} (h : p.pair? = some k) :
    p.stored? = some k ∨ p.isOpen = true := by
  unfold pair? at h
  split at h
  · exact .inr rfl
  · exact .inr rfl
  · exact .inl h
  · exact .inl h
  · cases h

/-- A load that is open is not over. -/
theorem isFinished_of_isOpen {p : LoadProgress} (h : p.isOpen = true) : p.isFinished = false := by
  cases p with
  | loading | loaded _ | counted _ => rfl
  | inserted _ | finished _ => cases h

end LoadProgress

/-! ## The books -/

/-- The cache and the loads that there have been belong together. -/
structure Books (c : LeafCache) (ls : List Load) : Prop where
  /-- No two loads are under way. -/
  single : ∀ {l l' : Nat} {x x' : Load}, ls[l]? = some x → ls[l']? = some x' →
    x.progress.isFinished = false → x'.progress.isFinished = false → l = l'
  stored : ∀ {host k}, c.find? host = some k →
    ∃ (l : Nat) (x : Load), ls[l]? = some x ∧ x.host = host ∧ x.progress.stored? = some k
  kept : ∀ {l : Nat} {x : Load} {k}, ls[l]? = some x → x.progress.stored? = some k →
    c.find? x.host = some k
  missing : ∀ {l : Nat} {x : Load}, ls[l]? = some x → x.progress.isOpen = true →
    c.find? x.host = none
  unique : ∀ {l l' : Nat} {x x' : Load} {k k'}, ls[l]? = some x → ls[l']? = some x' →
    x.progress.stored? = some k → x'.progress.stored? = some k' → x.host = x'.host → l = l'
  counted : c.loads = ls.countP fun x : Load => x.progress.isCounted
  filled : c.size = ls.countP fun x : Load => x.progress.stored?.isSome

/-- The moves of a load of a host, which leave a cache behind. -/
inductive Load.Moves (result : Except Error KeyPair) (c : LeafCache) (host : String) :
    LoadProgress → LeafCache → LoadProgress → Prop
  | load : Moves result c host .loading c (.loaded result)
  | count {k : KeyPair} : Moves result c host (.loaded (.ok k)) c.count (.counted k)
  | put {k : KeyPair} : Moves result c host (.counted k) (c.put host k) (.inserted k)
  | finish {k : KeyPair} : Moves result c host (.inserted k) c (.finished (.ok k))
  | fail {e : Error} : Moves result c host (.loaded (.error e)) c (.finished (.error e))

theorem Load.moves_of_advance {x : Load} {result : Except Error KeyPair} {c c' : LeafCache}
    {p : LoadProgress} (ha : x.advance result c = some (c', p)) :
    Moves result c x.host x.progress c' p := by
  obtain ⟨host, progress⟩ := x
  cases progress with
  | loading =>
    obtain ⟨rfl, rfl⟩ : c = c' ∧ _ = p := by simpa [advance] using ha
    exact .load
  | loaded result' =>
    cases result' with
    | ok k =>
      obtain ⟨rfl, rfl⟩ : _ = c' ∧ _ = p := by simpa [advance] using ha
      exact .count
    | error e =>
      obtain ⟨rfl, rfl⟩ : c = c' ∧ _ = p := by simpa [advance] using ha
      exact .fail
  | counted k =>
    obtain ⟨rfl, rfl⟩ : _ = c' ∧ _ = p := by simpa [advance] using ha
    exact .put
  | inserted k =>
    obtain ⟨rfl, rfl⟩ : c = c' ∧ _ = p := by simpa [advance] using ha
    exact .finish
  | finished result' => cases ha

/-- A load that is over makes no move. -/
theorem Load.isFinished_of_advance {x : Load} {result : Except Error KeyPair} {c c' : LeafCache}
    {p : LoadProgress} (ha : x.advance result c = some (c', p)) :
    x.progress.isFinished = false := by
  have moves := moves_of_advance ha
  obtain ⟨host, progress⟩ := x
  cases moves <;> rfl

/-- Counting where one load has moved on. -/
theorem countP_set_add {ls : List Load} {l : Nat} {x : Load} (hx : ls[l]? = some x) (y : Load)
    (f : Load → Bool) : (ls.set l y).countP f + (f x).toNat = ls.countP f + (f y).toNat := by
  obtain ⟨hl, rfl⟩ := List.getElem?_eq_some_iff.mp hx
  rw [List.countP_set hl]
  cases hf : f ls[l] with
  | true =>
    have before : 0 < ls.countP f := List.countP_pos_iff.mpr ⟨_, List.getElem_mem hl, hf⟩
    cases f y <;> simp only [if_true, Bool.false_eq_true, if_false, Bool.toNat_true,
      Bool.toNat_false] <;> omega
  | false =>
    cases f y <;> simp

namespace Books

variable {c c' : LeafCache} {ls : List Load} {l : Nat} {x : Load} {p : LoadProgress}

theorem at_start : Books {} [] where
  single := by simp
  stored := by simp [LeafCache.find?]
  kept := by simp
  missing := by simp
  unique := by simp
  counted := rfl
  filled := rfl

/-- A key pair has been loaded by one load of a host only. -/
theorem eq_of_host_eq (b : Books c ls) {l' : Nat} {x' : Load} {k k' : KeyPair} (hx : ls[l]? = some x)
    (hx' : ls[l']? = some x') (hk : x.progress.pair? = some k) (hk' : x'.progress.pair? = some k')
    (hh : x.host = x'.host) : l = l' := by
  rcases LoadProgress.stored?_or_isOpen hk with hs | ho <;>
    rcases LoadProgress.stored?_or_isOpen hk' with hs' | ho'
  · exact b.unique hx hx' hs hs' hh
  · have found := b.kept hx hs
    rw [hh, b.missing hx' ho'] at found
    cases found
  · have found := b.kept hx' hs'
    rw [← hh, b.missing hx ho] at found
    cases found
  · exact b.single hx hx' (LoadProgress.isFinished_of_isOpen ho)
      (LoadProgress.isFinished_of_isOpen ho')

/-- A load of a host that is not there begins, when all others are over. -/
theorem after_begin (b : Books c ls) {host : String} (hf : c.find? host = none)
    (hover : ∀ {l : Nat} {x : Load}, ls[l]? = some x → x.progress.isFinished = true) :
    Books c (ls ++ [⟨host, .loading⟩]) := by
  have old : ∀ {m : Nat} {z : Load} {k : KeyPair}, (ls ++ [⟨host, .loading⟩])[m]? = some z →
      z.progress.stored? = some k → ls[m]? = some z := by
    intro m z k hz hk
    rcases concat_cases hz with hz | ⟨-, rfl⟩
    · exact hz
    · cases hk
  constructor
  case single =>
    intro m m' z z' hz hz' hn hn'
    rcases concat_cases hz with hz | ⟨rfl, -⟩
    · exact absurd (hover hz) (by simp [hn])
    · rcases concat_cases hz' with hz' | ⟨rfl, -⟩
      · exact absurd (hover hz') (by simp [hn'])
      · rfl
  case stored =>
    intro host' k hk
    obtain ⟨m, z, hz, hh, hs⟩ := b.stored hk
    have hm : m < ls.length := (List.getElem?_eq_some_iff.mp hz).1
    exact ⟨m, z, by rwa [List.getElem?_append_left hm], hh, hs⟩
  case kept => exact fun hz hk => b.kept (old hz hk) hk
  case missing =>
    intro m z hz ho
    rcases concat_cases hz with hz | ⟨-, rfl⟩
    · exact b.missing hz ho
    · exact hf
  case unique => exact fun hz hz' hk hk' hh => b.unique (old hz hk) (old hz' hk') hk hk' hh
  case counted => simp [b.counted, LoadProgress.isCounted]
  case filled => simp [b.filled, LoadProgress.stored?]

/-- A load moves on and leaves the entries as they are. -/
theorem after_set (b : Books c ls) (hx : ls[l]? = some x) (he : c'.entries = c.entries)
    (hfinished : p.isFinished = false → x.progress.isFinished = false)
    (hstored : p.stored? = x.progress.stored?)
    (hopen : p.isOpen = true → x.progress.isOpen = true)
    (hcounted : c'.loads + x.progress.isCounted.toNat = c.loads + p.isCounted.toNat) :
    Books c' (ls.set l { x with progress := p }) := by
  have found : ∀ host, c'.find? host = c.find? host := fun host => by
    rw [LeafCache.find?, LeafCache.find?, he]
  -- every load was there before, with the same host, and differs in nothing that the books are about
  have before : ∀ {m : Nat} {z : Load}, (ls.set l { x with progress := p })[m]? = some z →
      ∃ y, ls[m]? = some y ∧ y.host = z.host ∧
        (z.progress.isFinished = false → y.progress.isFinished = false) ∧
        z.progress.stored? = y.progress.stored? ∧
        (z.progress.isOpen = true → y.progress.isOpen = true) := by
    intro m z hz
    rcases set_cases hx hz with ⟨rfl, rfl⟩ | ⟨-, hz⟩
    · exact ⟨x, hx, rfl, hfinished, hstored, hopen⟩
    · exact ⟨z, hz, rfl, id, rfl, id⟩
  have hl : l < ls.length := (List.getElem?_eq_some_iff.mp hx).1
  constructor
  case single =>
    intro m m' z z' hz hz' hn hn'
    obtain ⟨y, hy, -, hf, -⟩ := before hz
    obtain ⟨y', hy', -, hf', -⟩ := before hz'
    exact b.single hy hy' (hf hn) (hf' hn')
  case stored =>
    intro host k hk
    rw [found] at hk
    obtain ⟨m, z, hz, hh, hs⟩ := b.stored hk
    by_cases hm : m = l
    · subst hm
      obtain rfl := Option.some.inj (hx.symm.trans hz)
      exact ⟨m, _, List.getElem?_set_self hl, hh, hstored.trans hs⟩
    · exact ⟨m, z, (List.getElem?_set_ne (Ne.symm hm)).trans hz, hh, hs⟩
  case kept =>
    intro m z k hz hk
    obtain ⟨y, hy, hh, -, hs, -⟩ := before hz
    rw [found, ← hh]
    exact b.kept hy (hs.symm.trans hk)
  case missing =>
    intro m z hz ho
    obtain ⟨y, hy, hh, -, -, ho'⟩ := before hz
    rw [found, ← hh]
    exact b.missing hy (ho' ho)
  case unique =>
    intro m m' z z' k k' hz hz' hk hk' hh
    obtain ⟨y, hy, hhost, -, hs, -⟩ := before hz
    obtain ⟨y', hy', hhost', -, hs', -⟩ := before hz'
    exact b.unique hy hy' (hs.symm.trans hk) (hs'.symm.trans hk')
      (hhost.trans (hh.trans hhost'.symm))
  case counted =>
    have moved := countP_set_add hx { x with progress := p } fun z => z.progress.isCounted
    have := b.counted
    simp only at moved
    omega
  case filled =>
    have moved := countP_set_add hx { x with progress := p }
      fun z => z.progress.stored?.isSome
    have size : c'.size = c.size := by rw [LeafCache.size, LeafCache.size, he]
    have := b.filled
    simp only [hstored] at moved
    omega

/-- A load puts its key pair into the cache. -/
theorem after_insert (b : Books c ls) {host : String} {k : KeyPair}
    (hx : ls[l]? = some ⟨host, .counted k⟩) :
    Books (c.put host k) (ls.set l ⟨host, .inserted k⟩) := by
  have hl : l < ls.length := (List.getElem?_eq_some_iff.mp hx).1
  have absent : c.find? host = none := b.missing hx rfl
  have mine : (ls.set l ⟨host, .inserted k⟩)[l]? = some ⟨host, .inserted k⟩ :=
    List.getElem?_set_self hl
  -- whatever has been put into the cache before is of another host
  have others : ∀ {m : Nat} {z : Load} {k' : KeyPair}, ls[m]? = some z →
      z.progress.stored? = some k' → z.host ≠ host := by
    intro m z k' hz hs hh
    have found := b.kept hz hs
    rw [hh, absent] at found
    cases found
  constructor
  case single =>
    intro m m' z z' hz hz' hn hn'
    have back : ∀ {m : Nat} {z : Load}, (ls.set l ⟨host, .inserted k⟩)[m]? = some z →
        z.progress.isFinished = false → m = l := by
      intro m z hz hn
      rcases set_cases hx hz with ⟨hm, -⟩ | ⟨-, hz⟩
      · exact hm
      · exact b.single hz hx hn rfl
    exact (back hz hn).trans (back hz' hn').symm
  case stored =>
    intro host' k' hk
    rw [LeafCache.find?_put] at hk
    split at hk
    · rename_i hh
      obtain rfl := Option.some.inj hk
      exact ⟨l, _, mine, hh.symm, rfl⟩
    · obtain ⟨m, z, hz, hh, hs⟩ := b.stored hk
      have hm : m ≠ l := by
        rintro rfl
        obtain rfl := Option.some.inj (hx.symm.trans hz)
        cases hs
      exact ⟨m, z, (List.getElem?_set_ne (Ne.symm hm)).trans hz, hh, hs⟩
  case kept =>
    intro m z k' hz hk
    rw [LeafCache.find?_put]
    rcases set_cases hx hz with ⟨-, rfl⟩ | ⟨-, hz⟩
    · rw [if_pos rfl]
      exact hk
    · rw [if_neg (others hz hk)]
      exact b.kept hz hk
  case missing =>
    intro m z hz ho
    rcases set_cases hx hz with ⟨-, rfl⟩ | ⟨hm, hz⟩
    · cases ho
    · exact absurd (b.single hz hx (LoadProgress.isFinished_of_isOpen ho) rfl) hm
  case unique =>
    intro m m' z z' k' k'' hz hz' hk hk' hh
    rcases set_cases hx hz with ⟨hm, rfl⟩ | ⟨-, old⟩ <;>
      rcases set_cases hx hz' with ⟨hm', rfl⟩ | ⟨-, old'⟩
    · exact hm.trans hm'.symm
    · exact absurd hh.symm (others old' hk')
    · exact absurd hh (others old hk)
    · exact b.unique old old' hk hk' hh
  case counted =>
    have moved : (ls.set l ⟨host, .inserted k⟩).countP (fun z => z.progress.isCounted) + 1 =
        ls.countP (fun z => z.progress.isCounted) + 1 := countP_set_add hx _ _
    have := b.counted
    simp only [LeafCache.put]
    omega
  case filled =>
    have moved : (ls.set l ⟨host, .inserted k⟩).countP (fun z => z.progress.stored?.isSome) + 0 =
        ls.countP (fun z => z.progress.stored?.isSome) + 1 := countP_set_add hx _ _
    have := b.filled
    rw [LeafCache.size_put absent]
    omega

/-- Whatever a load does next, the books stay in order. -/
theorem after_advance (b : Books c ls) {result : Except Error KeyPair} (hx : ls[l]? = some x)
    (ha : x.advance result c = some (c', p)) : Books c' (ls.set l { x with progress := p }) := by
  have moves := Load.moves_of_advance ha
  obtain ⟨host, progress⟩ := x
  cases moves with
  | put => exact b.after_insert hx
  | load | count | fail => exact b.after_set hx rfl (fun _ => rfl) rfl (fun _ => rfl) rfl
  | finish => exact b.after_set hx rfl (fun _ => rfl) rfl (fun h => h) rfl

/-- A key pair that is in the cache stays there when a load moves on. -/
theorem find?_of_advance (b : Books c ls) {result : Except Error KeyPair} (hx : ls[l]? = some x)
    (ha : x.advance result c = some (c', p)) {host : String} {k : KeyPair}
    (hk : c.find? host = some k) : c'.find? host = some k := by
  have moves := Load.moves_of_advance ha
  obtain ⟨host', progress⟩ := x
  cases moves with
  | put =>
    have absent : c.find? host' = none := b.missing hx rfl
    have ne : host ≠ host' := by
      rintro rfl
      rw [absent] at hk
      cases hk
    rwa [LeafCache.find?_put, if_neg ne]
  | load | count | finish | fail => exact hk

/-- When all loads are over, the cache has counted as many loads as it has hosts. -/
theorem loads_eq_size (b : Books c ls)
    (hover : ∀ {l : Nat} {x : Load}, ls[l]? = some x → x.progress.isFinished = true) :
    c.loads = c.size := by
  rw [b.counted, b.filled]
  apply List.countP_congr
  intro x hx
  obtain ⟨l, hl⟩ := List.mem_iff_getElem?.mp hx
  have ended := hover hl
  cases hp : x.progress with
  | finished result => cases result <;> simp [LoadProgress.isCounted, LoadProgress.stored?]
  | _ => simp [hp, LoadProgress.isFinished] at ended

end Books
end ForwardProxy.Interception
