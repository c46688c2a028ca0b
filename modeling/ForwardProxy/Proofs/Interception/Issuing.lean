import ForwardProxy.Interception.Lifetimes
import ForwardProxy.Proofs.Interception.LeafCache
import ForwardProxy.Proofs.Interception.StoredLeaves

/-!
# Who has issued the leaves

A leaf that is shown to a client has been issued by an authority that an interceptor has once been started
with. It is the authority that is shown behind it as long as the files of an authority are taken away only
when no leaf stays behind. For a stored leaf is never looked at again: it is the leaf of its host in every
later process, whatever has become of the authority.

* `begins_start`, `asks_ask`, `loads_load`: what the start of a process, a look-up and a load do, each as a relation
  that has all their cases. `goes_of_move` gathers them to the moves of a site.
* `Sound P s`: all leaves, those in the files and those in memory, have been issued by authorities with `P`. One lemma
  for each move (`Sound.after_start`, `after_ask`, `after_stop`, `after_remove`).
* `Earlier`, `Current`: the same invariant for two choices of `P`: an authority that has been started in the history,
  and the authority that is in the files now.
* `Kept`: the leaf of one host stays the same, under all authorities.
* `leaves_are_issued`: the three results, each by induction over histories.

## Side conditions

`Earlier` needs none. For `Current`, a move that takes a file away has to be `Careful`: it leaves the authority as it
is, or it leaves no leaf. Without that a leaf of the old authority is shown under the new one, since nobody compares
the two when the files of a leaf are there. `Kept` asks that no file of the host is taken away (`Spares`), and says
that such a leaf outlives its authority.

`fresh`, that there are no leaves at first, stands for those of unknown origin. `links` makes a path stand for one
file. A process may stop between any two moves, but a look-up that has begun is carried out here.
-/

namespace ForwardProxy.Interception

open Certificate (KeyPair Workshop Mint)
open Files (Tree Place)
open Files.Tree (Linkless ChangesAt place)

/-! ## Moves -/

namespace Site

variable {s after : Site} {i : Interceptor} {mint : Mint} {host : String} {k ca : KeyPair}
  {P Q : KeyPair → Prop}

/-- What a beginning process changes, and which authority it has. -/
structure Begins (s after : Site) (result : Except Error Interceptor) : Prop where
  places : after.places = s.places
  within : s.tree.Within after.tree
  changes : ChangesAt [place s.places.authority.cert, place s.places.authority.key] s.tree after.tree
  running : ∀ i, after.running = some i → result = .ok i
  started : ∀ i, result = .ok i → i.leaves = s.places.leaves ∧ i.cache = {} ∧
    s.places.authorityIn after.tree = .ok i.ca
  /-- An authority that is there is not changed. -/
  kept : ∀ ca, s.places.authorityIn s.tree = .ok ca → s.places.authorityIn after.tree = .ok ca

theorem begins_start (links : s.tree.Linkless) (mint : Mint) : Begins s (s.start mint).2 (s.start mint).1 := by
  have stays {ca : KeyPair} {u : Tree} (adds : s.tree.AddsDirectories u)
      (there : s.places.authorityIn s.tree = .ok ca) : s.places.authorityIn u = .ok ca :=
    KeyPair.load_of_changesAt there (adds.changesAt []) adds.within links (by simp) (by simp)
  have living {result : Except Error Interceptor} (i : Interceptor) (hi : result.toOption = some i) :
      result = .ok i := by
    cases result with
    | error e => cases hi
    | ok j => exact congrArg Except.ok (Option.some.inj hi)
  have adds := Tree.addsDirectories_makeDirectories s.places.leaves s.tree
  rw [Site.start, Interceptor.start]
  rcases made : Tree.makeDirectories s.places.leaves s.tree with ⟨f | _, t⟩ <;> rw [made] at adds <;>
    dsimp only at adds ⊢
  · exact ⟨rfl, adds.within, adds.changesAt _, fun i hi => living i hi, by simp, fun ca => stays adds⟩
  rw [authority]
  have writes := Certificate.writes_getOrGenerate s.places.authority authorityOrder none (links.within adds.within)
    (w := ⟨t, mint⟩)
  have loaded := (Certificate.getOrGenerate_cases s.places.authority authorityOrder none ⟨t, mint⟩).2
  have seen : Tree.look s.places.authority.key t = .ok () →
      (Certificate.getOrGenerate s.places.authority authorityOrder none ⟨t, mint⟩).2 = ⟨t, mint⟩ :=
    fun looks => congrArg Prod.snd (Certificate.getOrGenerate_of_look (w := ⟨t, mint⟩) looks)
  rcases called : Certificate.getOrGenerate s.places.authority authorityOrder none ⟨t, mint⟩ with ⟨result, w⟩
  rw [called] at writes loaded seen
  refine ⟨rfl, adds.within.trans writes.within, (adds.changesAt _).trans writes.changes,
    fun i hi => living i hi, ?_, ?_⟩
  · intro i hi
    obtain ⟨ca, hca, hi⟩ := bind_eq_ok_iff.mp hi
    obtain ⟨_, -, hi⟩ := bind_eq_ok_iff.mp hi
    obtain rfl := Except.ok.inj hi
    exact ⟨rfl, rfl, loaded ca (mapError_eq_ok_iff.mp hca)⟩
  · intro ca there
    have still := stays adds there
    rw [seen (KeyPair.look_of_load still)]
    exact still

/-- A look-up finds the host in memory, or loads its key pair and keeps it if there is one. -/
inductive Asks (s : Site) (i : Interceptor) (host : String) (mint : Mint) : Except Error KeyPair → Site → Prop
  | found {k : KeyPair} (there : i.cache.find? (Text.lower host) = some k) :
      Asks s i host mint (.ok k) { s with running := some i }
  | loaded {k : KeyPair} {w : Workshop}
      (load : LeafCache.load i.ca i.leaves (Text.lower host) ⟨s.tree, mint⟩ = (.ok k, w)) :
      Asks s i host mint (.ok k) { s with
        tree := w.tree
        running := some { i with cache := i.cache.count.put (Text.lower host) k } }
  | failed {e : Error} {w : Workshop}
      (load : LeafCache.load i.ca i.leaves (Text.lower host) ⟨s.tree, mint⟩ = (.error e, w)) :
      Asks s i host mint (.error e) { s with tree := w.tree, running := some i }

theorem asks_ask (s : Site) (i : Interceptor) (host : String) (mint : Mint) :
    Asks s i host mint (s.ask i host mint).1 (s.ask i host mint).2 := by
  rw [Site.ask, Interceptor.leaf, LeafCache.get]
  cases there : i.cache.find? (Text.lower host) with
  | some k => exact .found there
  | none =>
    dsimp only
    rcases load : LeafCache.load i.ca i.leaves (Text.lower host) ⟨s.tree, mint⟩ with ⟨e | k, w⟩
    · exact .failed load
    · exact .loaded load

/-- What the load of a host's key pair changes, and what it gives. -/
structure Loads (p : Places) (ca : KeyPair) (host : String) (t : Tree) (r : Except Error KeyPair)
    (u : Tree) : Prop where
  writes : Certificate.Writes (leafPaths p.leaves host) (some ca) t u
  loaded : ∀ k, r = .ok k → p.leafIn host u = .ok k
  /-- A leaf that is there is not changed. -/
  kept : ∀ k, p.leafIn host t = .ok k → u = t

theorem loads_load {p : Places} {t : Tree} (links : t.Linkless) {r : Except Error KeyPair} {w : Workshop}
    (load : LeafCache.load ca p.leaves (Text.lower host) ⟨t, mint⟩ = (r, w)) : Loads p ca host t r w.tree := by
  rw [LeafCache.load, leafPaths_lower] at load
  obtain ⟨rfl, rfl⟩ := Prod.ext_iff.mp load
  constructor
  · exact Certificate.writes_getOrGenerate (leafPaths p.leaves host) _ (some ca) (w := ⟨t, mint⟩) links
  · intro k hk
    exact (Certificate.getOrGenerate_cases (leafPaths p.leaves host) _ (some ca) ⟨t, mint⟩).2 k
      (mapError_eq_ok_iff.mp hk)
  · intro k hk
    rw [Certificate.getOrGenerate_of_look (w := ⟨t, mint⟩) (KeyPair.look_of_load hk)]

/-! ## Authorities and leaves -/

/-- All leaves have been issued by such authorities: those in the files, and those in memory. -/
structure Sound (P : KeyPair → Prop) (s : Site) : Prop where
  apart : s.places.Apart
  linkless : s.tree.Linkless
  stored : s.places.LeavesBy P s.tree
  running : ∀ i, s.running = some i → i.leaves = s.places.leaves ∧ P i.ca ∧
    ∀ host k, i.cache.find? host = some k → ∃ ca, P ca ∧ k.IssuedBy ca

namespace Sound

theorem mono (S : Sound P s) (sub : ∀ ca, P ca → Q ca) : Sound Q s where
  apart := S.apart
  linkless := S.linkless
  stored := S.stored.mono sub
  running i hi := by
    obtain ⟨leaves, hca, cache⟩ := S.running i hi
    refine ⟨leaves, sub _ hca, fun host k hk => ?_⟩
    obtain ⟨ca, hca, issued⟩ := cache host k hk
    exact ⟨ca, sub ca hca, issued⟩

/-- A process begins, and its authority is one of them. -/
theorem after_start (S : Sound P s) {result : Except Error Interceptor} (b : Begins s after result)
    (hca : ∀ i, result = .ok i → P i.ca) : Sound P after where
  apart := b.places ▸ S.apart
  linkless := S.linkless.within b.within
  stored := by
    rw [b.places]
    exact S.stored.of_stored fun host content stored => stored.of_changes b.changes (S.apart.notMem host)
  running i hi := by
    have started := b.running i hi
    obtain ⟨leaves, cache, -⟩ := b.started i started
    rw [b.places]
    refine ⟨leaves, hca i started, fun host k hk => ?_⟩
    rw [cache] at hk
    cases hk

/-- A look-up gives a leaf that one of them has issued. -/
theorem after_ask (S : Sound P s) (hi : s.running = some i) {result : Except Error KeyPair}
    (a : Asks s i host mint result after) :
    Sound P after ∧ ∀ k, result = .ok k → ∃ ca, P ca ∧ k.IssuedBy ca := by
  obtain ⟨leaves, hca, cache⟩ := S.running i hi
  cases a with
  | @found k there =>
    refine ⟨⟨S.apart, S.linkless, S.stored, fun j hj => ?_⟩, fun k' hk' => ?_⟩
    · obtain rfl := Option.some.inj hj
      exact ⟨leaves, hca, cache⟩
    · obtain rfl := Except.ok.inj hk'
      exact cache _ _ there
  | @loaded k w load =>
    rw [leaves] at load
    have loads := loads_load S.linkless load
    have stored := S.stored.writes hca loads.writes
    have links := S.linkless.within loads.writes.within
    have issued := stored.issuedBy links (loads.loaded k rfl)
    refine ⟨⟨S.apart, links, stored, fun j hj => ?_⟩, fun k' hk' => Except.ok.inj hk' ▸ issued⟩
    obtain rfl := Option.some.inj hj
    refine ⟨leaves, hca, fun host' k' hk' => ?_⟩
    rw [LeafCache.find?_put] at hk'
    split at hk'
    · exact Option.some.inj hk' ▸ issued
    · exact cache host' k' hk'
  | @failed e w load =>
    rw [leaves] at load
    have loads := loads_load S.linkless load
    refine ⟨⟨S.apart, S.linkless.within loads.writes.within, S.stored.writes hca loads.writes, fun j hj => ?_⟩,
      fun k hk => by cases hk⟩
    obtain rfl := Option.some.inj hj
    exact ⟨leaves, hca, cache⟩

theorem after_stop (S : Sound P s) : Sound P { s with running := none } :=
  ⟨S.apart, S.linkless, S.stored, fun _ hi => by cases hi⟩

/-- What is taken away leaves the other leaves as they are. -/
theorem after_remove (S : Sound P s) (hs : s.running = none) (path : String) :
    Sound P { s with tree := (Tree.remove path s.tree).2 } where
  apart := S.apart
  linkless := S.linkless.remove path
  stored := S.stored.of_stored fun host content stored => by
    obtain ⟨⟨mode, cert⟩, key, mode', there⟩ := stored
    exact ⟨⟨mode, Tree.at?_of_remove S.linkless cert⟩, key, mode', Tree.at?_of_remove S.linkless there⟩
  running i hi := by rw [hs] at hi; cases hi

end Sound

/-! ## Histories -/

/-- What a move does. -/
inductive Goes (s : Site) : SiteMove → List SiteEvent → Site → Prop
  | start {mint : Mint} {i : Interceptor} {after : Site} (idle : s.running = none)
      (begins : Begins s after (.ok i)) : Goes s (.start mint) [.started i.ca] after
  | startFailed {mint : Mint} {e : Error} {after : Site} (idle : s.running = none)
      (begins : Begins s after (.error e)) : Goes s (.start mint) [] after
  | ask {host : String} {mint : Mint} {i : Interceptor} {k : KeyPair} {after : Site} (live : s.running = some i)
      (asks : Asks s i host mint (.ok k) after) : Goes s (.ask host mint) [.served i.ca host k] after
  | askFailed {host : String} {mint : Mint} {i : Interceptor} {e : Error} {after : Site}
      (live : s.running = some i) (asks : Asks s i host mint (.error e) after) : Goes s (.ask host mint) [] after
  | stop : Goes s .stop [] { s with running := none }
  | remove {path : String} (idle : s.running = none) :
      Goes s (.remove path) [] { s with tree := (Tree.remove path s.tree).2 }

theorem goes_of_move {m : SiteMove} (links : s.tree.Linkless) (hm : s.move? m = some after) :
    Goes s m (s.shows m) after := by
  cases m with
  | start mint =>
    rw [move?] at hm
    split at hm
    · rename_i idle
      obtain rfl := Option.some.inj hm
      have begins := begins_start links mint
      rw [shows]
      split
      · rename_i i started
        exact .start idle (started ▸ begins)
      · rename_i e failed
        exact .startFailed idle (failed ▸ begins)
    · cases hm
  | ask host mint =>
    rw [move?, Option.map_eq_some_iff] at hm
    obtain ⟨i, live, rfl⟩ := hm
    have asks := asks_ask s i host mint
    rw [shows, live]
    dsimp only
    split
    · rename_i k got
      exact .ask live (got ▸ asks)
    · rename_i e failed
      exact .askFailed live (failed ▸ asks)
  | stop =>
    obtain rfl := Option.some.inj hm
    exact .stop
  | remove path =>
    rw [move?] at hm
    split at hm
    · rename_i idle
      obtain rfl := Option.some.inj hm
      exact .remove idle
    · cases hm

variable {h es : List SiteEvent} {m : SiteMove}

/-- Every leaf that has been shown has been issued by an authority of some process. -/
structure Earlier (h : List SiteEvent) (s : Site) : Prop where
  sound : Sound (fun ca => .started ca ∈ h) s
  served : ∀ ca host k, .served ca host k ∈ h → ∃ issuer, .started issuer ∈ h ∧ k.IssuedBy issuer

theorem Earlier.after_move (E : Earlier h s) (g : Goes s m es after) : Earlier (h ++ es) after := by
  have more : ∀ ca : KeyPair, .started ca ∈ h → .started ca ∈ h ++ es := fun _ => List.mem_append_left es
  have S : Sound (fun ca => .started ca ∈ h ++ es) s := E.sound.mono more
  constructor
  case sound =>
    cases g with
    | @start _ i _ _ begins =>
      refine S.after_start begins fun j hj => ?_
      obtain rfl := Except.ok.inj hj
      simp
    | startFailed _ begins => exact S.after_start begins fun j hj => by cases hj
    | ask live asks => exact (S.after_ask live asks).1
    | askFailed live asks => exact (S.after_ask live asks).1
    | stop => exact S.after_stop
    | remove idle => exact S.after_remove idle _
  case served =>
    intro ca host k hk
    rcases List.mem_append.mp hk with old | new
    · obtain ⟨issuer, started, issued⟩ := E.served ca host k old
      exact ⟨issuer, more issuer started, issued⟩
    · cases g with
      | ask live asks =>
        cases List.mem_singleton.mp new
        exact (S.after_ask live asks).2 k rfl
      | start => cases List.mem_singleton.mp new
      | startFailed | askFailed | stop | remove => cases new

/-- Every leaf that has been shown has been issued by the authority behind it, which is that of the files
now. -/
structure Current (h : List SiteEvent) (s : Site) : Prop where
  sound : Sound (fun ca => s.places.authorityIn s.tree = .ok ca) s
  served : ∀ ca host k, .served ca host k ∈ h → k.IssuedBy ca

/-- A file may be taken away if the authority stays the same, or if no leaf is left. -/
def Careful (s : Site) (m : SiteMove) : Prop :=
  ∀ path, m = .remove path →
    (∀ ca, s.places.authorityIn s.tree = .ok ca →
      s.places.authorityIn (Tree.remove path s.tree).2 = .ok ca) ∨
    s.places.NoLeaves (Tree.remove path s.tree).2

/-- A look-up does not touch the authority. -/
theorem Sound.authorityIn_ask (S : Sound P s) (live : s.running = some i) {result : Except Error KeyPair}
    (a : Asks s i host mint result after) (there : s.places.authorityIn s.tree = .ok ca) :
    after.places.authorityIn after.tree = .ok ca := by
  obtain ⟨leaves, -, -⟩ := S.running i live
  have stays {r : Except Error KeyPair} {u : Tree} (loads : Loads s.places i.ca host s.tree r u) :
      s.places.authorityIn u = .ok ca := by
    have changes := loads.writes.changes
    rw [(s.places.place_leafPaths host).1, (s.places.place_leafPaths host).2] at changes
    refine KeyPair.load_of_changesAt there changes loads.writes.within S.linkless ?_ ?_
    · simp [Ne.symm (S.apart.cert host _)]
    · simp [Ne.symm (S.apart.key host _)]
  cases a with
  | found => exact there
  | loaded load => exact stays (loads_load S.linkless (leaves ▸ load))
  | failed load => exact stays (loads_load S.linkless (leaves ▸ load))

theorem Current.after_move (C : Current h s) (g : Goes s m es after) (may : Careful s m) :
    Current (h ++ es) after := by
  have begun {result : Except Error Interceptor} (b : Begins s after result) :
      Sound (fun ca => after.places.authorityIn after.tree = .ok ca) after := by
    rw [b.places]
    exact (C.sound.mono b.kept).after_start b fun i hi => (b.started i hi).2.2
  have asked {i : Interceptor} {host : String} {mint : Mint} {result : Except Error KeyPair}
      (live : s.running = some i) (a : Asks s i host mint result after) :
      Sound (fun ca => after.places.authorityIn after.tree = .ok ca) after ∧
        ∀ k, result = .ok k → ∃ ca, after.places.authorityIn after.tree = .ok ca ∧ k.IssuedBy ca :=
    (C.sound.mono fun _ => C.sound.authorityIn_ask live a).after_ask live a
  constructor
  case sound =>
    cases g with
    | start _ begins => exact begun begins
    | startFailed _ begins => exact begun begins
    | ask live asks => exact (asked live asks).1
    | askFailed live asks => exact (asked live asks).1
    | stop => exact C.sound.after_stop
    | @remove path idle =>
      rcases may path rfl with same | none
      · exact (C.sound.after_remove idle path).mono same
      · exact ⟨C.sound.apart, C.sound.linkless.remove path, .of_noLeaves none,
          fun i hi => by rw [idle] at hi; cases hi⟩
  case served =>
    intro ca host k hk
    rcases List.mem_append.mp hk with old | new
    · exact C.served ca host k old
    · cases g with
      | @ask _ _ i _ _ live asks =>
        cases List.mem_singleton.mp new
        obtain ⟨ca, there, issued⟩ := (asked live asks).2 k rfl
        have mine := C.sound.authorityIn_ask live asks (C.sound.running i live).2.1
        rw [mine] at there
        exact Except.ok.inj there ▸ issued
      | start => cases List.mem_singleton.mp new
      | startFailed | askFailed | stop | remove => cases new

/-! ## Leaves that stay -/

/-- No file of the host is taken away. -/
def Spares (host : String) (s : Site) (m : SiteMove) : Prop :=
  ∀ path, m = .remove path → ∀ f, place path ≠ s.places.leafPlace host f

/-- Every leaf that has been shown for the host is the one in the files, and so is the one in memory. -/
structure Kept (host : String) (h : List SiteEvent) (s : Site) : Prop where
  apart : s.places.Apart
  linkless : s.tree.Linkless
  served : ∀ ca host' k, .served ca host' k ∈ h → Text.lower host' = Text.lower host →
    s.places.leafIn host s.tree = .ok k
  running : ∀ i, s.running = some i → i.leaves = s.places.leaves ∧
    ∀ k, i.cache.find? (Text.lower host) = some k → s.places.leafIn host s.tree = .ok k

/-- The load of a leaf, of this or another host, leaves this one as it is. -/
theorem leafIn_of_loads {p : Places} {t u : Tree} {host' : String} {r : Except Error KeyPair} (links : t.Linkless)
    (loads : Loads p ca host' t r u) (there : p.leafIn host t = .ok k) : p.leafIn host u = .ok k := by
  by_cases same : p.leafPlace host .certificate = p.leafPlace host' .certificate
  · have one (t : Tree) : p.leafIn host t = p.leafIn host' t := by
      rw [Places.leafIn, Places.leafIn, Places.leafPaths_congr same]
    rw [loads.kept k (one t ▸ there)]
    exact there
  · have changes := loads.writes.changes
    rw [(p.place_leafPaths host').1, (p.place_leafPaths host').2] at changes
    refine KeyPair.load_of_changesAt there changes loads.writes.within links ?_ ?_
    · rw [(p.place_leafPaths host).1]
      exact Places.leafPlace_notMem same .certificate
    · rw [(p.place_leafPaths host).2]
      exact Places.leafPlace_notMem same .key

theorem leafIn_congr {host' : String} (h : Text.lower host' = Text.lower host) (p : Places) (t : Tree) :
    p.leafIn host' t = p.leafIn host t := by
  rw [Places.leafIn, Places.leafIn, ← leafPaths_lower, h, leafPaths_lower]

/-- A move after which the leaf of a host is the same. -/
structure Keeps (host : String) (s after : Site) : Prop where
  places : after.places = s.places
  linkless : after.tree.Linkless
  stays : ∀ k, s.places.leafIn host s.tree = .ok k → s.places.leafIn host after.tree = .ok k
  running : ∀ i, after.running = some i → i.leaves = s.places.leaves ∧
    ∀ k, i.cache.find? (Text.lower host) = some k → s.places.leafIn host after.tree = .ok k

namespace Kept

theorem keeps_of_begins (K : Kept host h s) {result : Except Error Interceptor} (b : Begins s after result) :
    Keeps host s after where
  places := b.places
  linkless := K.linkless.within b.within
  stays k there := by
    obtain ⟨cert, key⟩ := s.places.place_leafPaths host
    exact KeyPair.load_of_changesAt there b.changes b.within K.linkless (cert ▸ K.apart.notMem host _)
      (key ▸ K.apart.notMem host _)
  running i hi := by
    obtain ⟨leaves, cache, -⟩ := b.started i (b.running i hi)
    refine ⟨leaves, fun k hk => ?_⟩
    rw [cache] at hk
    cases hk

/-- A look-up keeps the leaf, and gives it if it is asked for the host. -/
theorem keeps_of_asks (K : Kept host h s) {host' : String} {result : Except Error KeyPair} (live : s.running = some i)
    (a : Asks s i host' mint result after) : Keeps host s after ∧
      (Text.lower host' = Text.lower host → ∀ k, result = .ok k → s.places.leafIn host after.tree = .ok k) := by
  obtain ⟨leaves, cache⟩ := K.running i live
  cases a with
  | @found k there =>
    refine ⟨⟨rfl, K.linkless, fun _ hk => hk, fun j hj => ?_⟩, fun same k' hk' => ?_⟩
    · obtain rfl := Option.some.inj hj
      exact ⟨leaves, cache⟩
    · obtain rfl := Except.ok.inj hk'
      exact cache _ (same ▸ there)
  | @loaded k w load =>
    have loads := loads_load K.linkless (leaves ▸ load)
    have new (same : Text.lower host' = Text.lower host) : s.places.leafIn host w.tree = .ok k := by
      rw [← leafIn_congr same]
      exact loads.loaded k rfl
    refine ⟨⟨rfl, K.linkless.within loads.writes.within, fun _ => leafIn_of_loads K.linkless loads, fun j hj => ?_⟩,
      fun same k' hk' => Except.ok.inj hk' ▸ new same⟩
    obtain rfl := Option.some.inj hj
    refine ⟨leaves, fun k' hk' => ?_⟩
    rw [LeafCache.find?_put] at hk'
    split at hk'
    · rename_i same
      exact Option.some.inj hk' ▸ new same.symm
    · exact leafIn_of_loads K.linkless loads (cache k' hk')
  | failed load =>
    have loads := loads_load K.linkless (leaves ▸ load)
    refine ⟨⟨rfl, K.linkless.within loads.writes.within, fun _ => leafIn_of_loads K.linkless loads, fun j hj => ?_⟩,
      fun _ k hk => by cases hk⟩
    obtain rfl := Option.some.inj hj
    exact ⟨leaves, fun k' hk' => leafIn_of_loads K.linkless loads (cache k' hk')⟩

theorem keeps_remove (K : Kept host h s) (idle : s.running = none) {path : String}
    (apart : ∀ f, place path ≠ s.places.leafPlace host f) :
    Keeps host s { s with tree := (Tree.remove path s.tree).2 } where
  places := rfl
  linkless := K.linkless.remove path
  stays k there := by
    obtain ⟨cert, key⟩ := s.places.place_leafPaths host
    exact KeyPair.load_of_read there (fun _ => Tree.read_remove K.linkless (cert ▸ apart _))
      (fun _ => Tree.read_remove K.linkless (key ▸ apart _))
  running i hi := by rw [idle] at hi; cases hi

theorem after_move (K : Kept host h s) (g : Goes s m es after) (may : Spares host s m) :
    Kept host (h ++ es) after := by
  obtain ⟨keeps, new⟩ : Keeps host s after ∧ ∀ ca host' k, .served ca host' k ∈ es →
      Text.lower host' = Text.lower host → s.places.leafIn host after.tree = .ok k := by
    cases g with
    | start _ begins => exact ⟨K.keeps_of_begins begins, by simp⟩
    | startFailed _ begins => exact ⟨K.keeps_of_begins begins, by simp⟩
    | ask live asks =>
      obtain ⟨keeps, new⟩ := K.keeps_of_asks live asks
      refine ⟨keeps, fun ca host' k hk same => ?_⟩
      cases List.mem_singleton.mp hk
      exact new same _ rfl
    | askFailed live asks => exact ⟨(K.keeps_of_asks live asks).1, by simp⟩
    | stop => exact ⟨⟨rfl, K.linkless, fun _ hk => hk, fun _ hi => by cases hi⟩, by simp⟩
    | remove idle => exact ⟨K.keeps_remove idle (may _ rfl), by simp⟩
  refine ⟨keeps.places ▸ K.apart, keeps.linkless, fun ca host' k hk same => ?_, ?_⟩
  · rw [keeps.places]
    rcases List.mem_append.mp hk with old | hk
    · exact keeps.stays k (K.served ca host' k old same)
    · exact new ca host' k hk same
  · rw [keeps.places]
    exact keeps.running

end Kept

/-! ## All histories -/

/-- Who has issued the leaves that are shown in processes that begin with these files. -/
structure Issuing (s : Site) : Prop where
  /-- Every leaf has been issued by the authority of this process or of an earlier one. -/
  earlier : ∀ {h after}, system.Run s h after → ∀ {ca host k}, .served ca host k ∈ h →
    ∃ issuer, .started issuer ∈ h ∧ k.IssuedBy issuer
  /-- It is the authority of this process if an authority is only taken away with all leaves. -/
  current : ∀ {h after}, system.RunWith Careful s h after → ∀ {ca host k}, .served ca host k ∈ h →
    k.IssuedBy ca
  /-- A host whose files are not taken away has the same leaf under all authorities. -/
  outlives : ∀ {host h after}, system.RunWith (Spares host) s h after →
    ∀ {ca ca' host' k k'}, Text.lower host' = Text.lower host →
      .served ca host k ∈ h → .served ca' host' k' ∈ h → k = k'

/-- Leaves that no process finds in the files at first are issued by its authorities. -/
theorem leaves_are_issued {p : Places} {t : Tree} (apart : p.Apart) (links : t.Linkless) (fresh : p.NoLeaves t) :
    Issuing ⟨p, t, .none⟩ := by
  have sound (P : KeyPair → Prop) : Sound P ⟨p, t, .none⟩ :=
    ⟨apart, links, .of_noLeaves fresh, fun _ hi => by cases hi⟩
  constructor
  case earlier =>
    intro h after run
    have E : Earlier h after := by
      induction run with
      | start => exact ⟨sound _, by simp⟩
      | move m _ hm ih => exact ih.after_move (goes_of_move ih.sound.linkless hm)
    intro ca host k hk
    exact E.served ca host k hk
  case current =>
    intro h after run
    have C : Current h after := by
      induction run with
      | start => exact ⟨sound _, by simp⟩
      | move m _ may hm ih => exact ih.after_move (goes_of_move ih.sound.linkless hm) may
    intro ca host k hk
    exact C.served ca host k hk
  case outlives =>
    intro host h after run
    have K : Kept host h after := by
      induction run with
      | start => exact ⟨apart, links, by simp, fun _ hi => by cases hi⟩
      | move m _ may hm ih => exact ih.after_move (goes_of_move ih.linkless hm) may
    intro ca ca' host' k k' same hk hk'
    exact Except.ok.inj ((K.served ca host k hk rfl).symm.trans (K.served ca' host' k' hk' same))

/-- The leaves have a directory of their own, beside the files of the authority. -/
def ownDirectory : Places := ⟨⟨"ca_cert.pem", "ca_key.pem"⟩, "hosts"⟩

theorem leaves_are_issued_empty : ownDirectory.Apart ∧ ({} : Tree).Linkless ∧ ownDirectory.NoLeaves {} ∧
    Issuing ⟨ownDirectory, {}, none⟩ := by
  have free (q : Place) : ({} : Tree).at? q = if q.isEmpty then some .directory else none := by
    simp [Tree.at?]
  have apart : ownDirectory.Apart := by
    have places : place ownDirectory.leaves = ["hosts"] ∧ place ownDirectory.authority.cert = ["ca_cert.pem"] ∧
        place ownDirectory.authority.key = ["ca_key.pem"] := by decide
    refine ⟨fun host f => ?_, fun host f => ?_⟩
    · simp [Places.leafPlace, places.1, places.2.1]
    · simp [Places.leafPlace, places.1, places.2.2]
  have links : ({} : Tree).Linkless := by
    intro q target
    rw [free]
    split <;> simp
  have nothing : ownDirectory.NoLeaves {} := by
    rintro host content ⟨⟨mode, cert⟩, -⟩
    simp [free, Places.leafPlace] at cert
  exact ⟨apart, links, nothing, leaves_are_issued apart links nothing⟩

end Site
end ForwardProxy.Interception
