import ForwardProxy.Interception.LeafCache

/-!
# The cache among many callers

Callers look hosts up at the same time. The lock of the cache belongs to the caller that looks, and
then, if the host is not there, to the task that loads it; the task keeps the lock until it is done,
whether or not the caller still waits. What each of them does without a break is one move.
-/

namespace ForwardProxy.Interception

open Certificate (KeyPair)

/-! ## Loads -/

/-- Where a load is. -/
inductive LoadProgress
  /-- The key pair is being loaded or made. -/
  | loading
  /-- That is over. -/
  | loaded (result : Except Error KeyPair)
  /-- The load is counted. -/
  | counted (k : KeyPair)
  /-- The key pair is in the cache. -/
  | inserted (k : KeyPair)
  | finished (result : Except Error KeyPair)
  deriving Repr

/-- A load of a host, which is given in small letters. -/
structure Load where
  host : String
  progress : LoadProgress := .loading
  deriving Repr

/-- The next move of a load, and the cache behind it. The result is what loading comes to. -/
def Load.advance (result : Except Error KeyPair) (c : LeafCache) (l : Load) :
    Option (LeafCache × LoadProgress) :=
  match l.progress with
  | .loading => some (c, .loaded result)
  | .loaded (.ok k) => some (c.count, .counted k)
  | .counted k => some (c.put l.host k, .inserted k)
  | .inserted k => some (c, .finished (.ok k))
  | .loaded (.error e) => some (c, .finished (.error e))
  | .finished _ => none

/-- The load is over. -/
def LoadProgress.isFinished : LoadProgress → Bool
  | finished _ => true
  | _ => false

/-! ## Callers -/

/-- Where a caller is. -/
inductive LookupProgress
  /-- It waits for the lock. -/
  | waiting
  /-- It has the lock and has not looked yet. -/
  | holding
  /-- It waits for a load. -/
  | joining (l : Nat)
  | done (result : Except Error KeyPair)
  /-- It has given up. -/
  | abandoned
  deriving Repr

/-- A look-up of a host. -/
structure Lookup where
  host : String
  progress : LookupProgress := .waiting
  deriving Repr

/-! ## All together -/

/-- Who has the lock. -/
inductive Holder
  | lookup (n : Nat)
  | load (l : Nat)
  deriving DecidableEq, Repr

/-- The cache, its lock, and all look-ups and loads there ever were. -/
structure SharedCache where
  cache : LeafCache := {}
  holder : Option Holder := none
  lookups : List Lookup := []
  tasks : List Load := []
  deriving Repr

namespace SharedCache

/-- What happens without a break. -/
inductive Move
  /-- A caller asks for a host. -/
  | ask (host : String)
  /-- Caller `n` gets the lock. -/
  | acquire (n : Nat)
  /-- Caller `n`, which has the lock, looks. -/
  | look (n : Nat)
  /-- Caller `n` gives up. -/
  | abandon (n : Nat)
  /-- Load `l` makes its next move. The result counts if it is that of loading. -/
  | work (l : Nat) (result : Except Error KeyPair)
  /-- Caller `n` gets the result of the load that it waits for. -/
  | join (n : Nat)
  deriving Repr

/-- Caller `n` goes on to another place. -/
def setLookup (c : SharedCache) (n : Nat) (x : Lookup) (p : LookupProgress) : SharedCache :=
  { c with lookups := c.lookups.set n { x with progress := p } }

/-- A caller gets the lock if it is free. -/
def acquire (c : SharedCache) (n : Nat) : Option SharedCache := do
  let x ← c.lookups[n]?
  match x.progress, c.holder with
  | .waiting, none => some { c.setLookup n x .holding with holder := some (.lookup n) }
  | _, _ => none

/-- A caller that has the lock looks. Either it is done, and the lock is free, or a load begins, which
gets the lock. -/
def look (c : SharedCache) (n : Nat) : Option SharedCache := do
  let x ← c.lookups[n]?
  match x.progress, c.cache.find? (Text.lower x.host) with
  | .holding, some k => some { c.setLookup n x (.done (.ok k)) with holder := none }
  | .holding, none =>
    some { c.setLookup n x (.joining c.tasks.length) with
      holder := some (.load c.tasks.length)
      tasks := c.tasks ++ [⟨Text.lower x.host, .loading⟩] }
  | _, _ => none

/-- A caller gives up. If it has the lock, the lock is free. -/
def abandon (c : SharedCache) (n : Nat) : Option SharedCache := do
  let x ← c.lookups[n]?
  match x.progress with
  | .waiting | .joining _ => some (c.setLookup n x .abandoned)
  | .holding => some { c.setLookup n x .abandoned with holder := none }
  | .done _ | .abandoned => none

/-- A load makes its next move. When it is over, the lock is free. -/
def work (c : SharedCache) (l : Nat) (result : Except Error KeyPair) : Option SharedCache := do
  let x ← c.tasks[l]?
  let (cache, progress) ← x.advance result c.cache
  some { c with
    cache
    tasks := c.tasks.set l { x with progress }
    holder := if progress.isFinished then none else c.holder }

/-- A caller gets the result of the load that it waits for, once it is over. -/
def join (c : SharedCache) (n : Nat) : Option SharedCache := do
  let x ← c.lookups[n]?
  match x.progress with
  | .joining l =>
    match (← c.tasks[l]?).progress with
    | .finished result => some (c.setLookup n x (.done result))
    | _ => none
  | _ => none

/-- The cache behind a move, if the move is possible. -/
def move? (c : SharedCache) : Move → Option SharedCache
  | .ask host => some { c with lookups := c.lookups ++ [⟨host, .waiting⟩] }
  | .acquire n => c.acquire n
  | .look n => c.look n
  | .abandon n => c.abandon n
  | .work l result => c.work l result
  | .join n => c.join n

/-- The cache behind a sequence of moves, if all of them are possible. -/
def run? (c : SharedCache) : List Move → Option SharedCache
  | [] => some c
  | m :: ms => do (← c.move? m).run? ms

end SharedCache
end ForwardProxy.Interception
