import ForwardProxy.Bytes
import ForwardProxy.Files.Fault

/-!
# Directory trees

The state of a directory and everything below it, as far as the proxy can tell: directories, files
with content and mode, and symbolic links. A path is a text with slashes; relative paths start at the
top of the tree. Every operation is a function from a tree to its result and the tree after it, so
that what is left behind by a series of operations that stops early can be told.
-/

namespace ForwardProxy.Files

/-- What is found under a name. -/
inductive Entry
  | file (content : Bytes) (mode : Nat)
  | directory
  | link (target : String)
  deriving DecidableEq, Repr

/-- A place in a tree: the names on the way to it. -/
abbrev Place := List String

/-- Entries by place. The top is a directory and has no entry of its own. -/
structure Tree where
  entries : List (Place × Entry) := []
  deriving DecidableEq, Repr, Inhabited

namespace Tree

/-! ## Places -/

/-- The entry at a place. -/
def at? (t : Tree) (p : Place) : Option Entry :=
  if p.isEmpty then some .directory
  else (t.entries.find? fun e => e.1 = p).map Prod.snd

/-- The entry at a place is replaced. -/
def set (t : Tree) (p : Place) (e : Entry) : Tree :=
  ⟨(t.entries.filter fun f => f.1 ≠ p) ++ [(p, e)]⟩

/-- No entry at a place. -/
def erase (t : Tree) (p : Place) : Tree := ⟨t.entries.filter fun f => f.1 ≠ p⟩

/-- The names of a path. Doubled slashes and single points count for nothing. -/
def names (path : String) : List String :=
  ((path.toList.splitOn '/').map String.ofList).filter fun n => n ≠ "" ∧ n ≠ "."

/-- The path starts at the top of the tree, wherever it is used. -/
def isAbsolute (path : String) : Bool := path.toList.head? == some '/'

/-- What stands in front of the names of a path. -/
def rootOf (path : String) : String := if isAbsolute path then "/" else ""

/-- The path can only lead to a directory. -/
def endsInSlash (path : String) : Bool := path.toList.getLast? == some '/'

/-- The path of a name in a directory. -/
def under (dir name : String) : String :=
  if dir.isEmpty || endsInSlash dir then dir ++ name else dir ++ "/" ++ name

/-- The longest name, in bytes. -/
def maxName : Nat := 255

/-- How many links are followed at most. -/
def maxLinks : Nat := 40

/-- Follows names from a place. A link on the way is left to `follow`, and so is one at the end if `last`
says so. The result is a place that may be empty in an existing directory. -/
def walkWith (t : Tree) (last : Bool) (follow : Place → List String → Except Fault Place) :
    Place → List String → Except Fault Place
  | here, [] => .ok here
  | here, name :: rest =>
    if name = ".." then t.walkWith last follow here.dropLast rest
    else if maxName < name.utf8ByteSize then .error .nameTooLong
    else
      match t.at? (here ++ [name]) with
      | some .directory => t.walkWith last follow (here ++ [name]) rest
      | some (.file _ _) => if rest.isEmpty then .ok (here ++ [name]) else .error .notDirectory
      | none => if rest.isEmpty then .ok (here ++ [name]) else .error .notFound
      | some (.link target) =>
        if rest.isEmpty && !last then .ok (here ++ [name])
        else follow (if isAbsolute target then [] else here) (names target ++ rest)

/-- Follows names from a place, and at most so many links. -/
def walk (t : Tree) (last : Bool) : (links : Nat) → Place → List String → Except Fault Place
  | 0 => t.walkWith last fun _ _ => .error .tooManyLinks
  | links + 1 => t.walkWith last (t.walk last links)

/-- The place that a path leads to. -/
def resolve (t : Tree) (path : String) : Except Fault Place :=
  if path.isEmpty then .error .notFound else t.walk true maxLinks [] (names path)

/-- The place of a path's own entry, which may be a link. -/
def locate (t : Tree) (path : String) : Except Fault Place :=
  if path.isEmpty then .error .notFound else t.walk false maxLinks [] (names path)

/-! ## Operations -/

/-- A result, and the tree behind the operation. -/
abbrev Action (α : Type) := Tree → Except Fault α × Tree

/-- There is an entry of any kind under the path, a link that leads nowhere included. -/
def look (path : String) (t : Tree) : Except Fault Unit :=
  match t.locate path with
  | .error f => .error f
  | .ok p => if (t.at? p).isSome then .ok () else .error .notFound

/-- The content of a file. -/
def read (path : String) (t : Tree) : Except Fault Bytes :=
  match t.resolve path with
  | .error f => .error f
  | .ok p =>
    match t.at? p with
    | some (.file content _) => .ok content
    | some _ => .error .isDirectory
    | none => .error .notFound

/-- Opens a file for writing from its start: it is empty afterwards, and new with the given mode
unless it was there. -/
def create (path : String) (mode : Nat) : Action Unit := fun t =>
  match t.resolve path with
  | .error f => (.error f, t)
  | .ok p =>
    match t.at? p with
    | some (.file _ old) => (.ok (), t.set p (.file [] old))
    | some _ => (.error .isDirectory, t)
    | none =>
      if endsInSlash path then (.error .isDirectory, t) else (.ok (), t.set p (.file [] mode))

/-- Writes more bytes at the end of a file. -/
def append (path : String) (bytes : Bytes) : Action Unit := fun t =>
  match t.resolve path with
  | .error f => (.error f, t)
  | .ok p =>
    match t.at? p with
    | some (.file content mode) => (.ok (), t.set p (.file (content ++ bytes) mode))
    | some _ => (.error .isDirectory, t)
    | none => (.error .notFound, t)

/-- The path of the directory in which the last name of a path stands. -/
def parent? (path : String) : Option String :=
  match (names path).reverse with
  | [] => none
  | _ :: front =>
    some (rootOf path ++ String.intercalate "/" front.reverse)

/-- A single directory, in a directory that is there. -/
def makeDirectory (path : String) : Action Unit := fun t =>
  match t.locate path with
  | .error f => (.error f, t)
  | .ok p =>
    match t.at? p with
    | some _ => (.error .exists, t)
    | none => (.ok (), t.set p .directory)

/-- The path leads to a directory. -/
def isDirectory (path : String) (t : Tree) : Bool :=
  match t.resolve path with
  | .ok p => t.at? p == some .directory
  | .error _ => false

/-- A path of names, which come last first. -/
def pathOf (root : String) (reversed : List String) : String :=
  root ++ String.intercalate "/" reversed.reverse

/-- That a directory has not been made does not matter if it is there. -/
def orThere (path : String) : Except Fault Unit × Tree → Except Fault Unit × Tree
  | (.error f, t) => if isDirectory path t then (.ok (), t) else (.error f, t)
  | done => done

/-- A directory, given by its names, last first, and those on the way to it, as far as they are
missing. It is tried first whether the way is there. -/
def makeWay (root : String) : List String → Action Unit
  | [] => fun t => (.ok (), t)
  | name :: above => fun t =>
    let path := pathOf root (name :: above)
    match makeDirectory path t with
    | (.error .notFound, t) =>
      match makeWay root above t with
      | (.ok _, t) => orThere path (makeDirectory path t)
      | failed => failed
    | made => orThere path made

/-- A directory and those on the way to it, as far as they are missing. -/
def makeDirectories (path : String) : Action Unit :=
  makeWay (rootOf path) (names path).reverse

/-- A file has a content; a new one may be read by anyone. -/
def write (path : String) (bytes : Bytes) : Action Unit := fun t =>
  match create path 0o644 t with
  | (.ok _, t) => append path bytes t
  | failed => failed

/-- A new link. -/
def link (path target : String) : Action Unit := fun t =>
  match t.locate path with
  | .error f => (.error f, t)
  | .ok p => if (t.at? p).isSome then (.error .exists, t) else (.ok (), t.set p (.link target))

/-- No file or link under the path any more. -/
def remove (path : String) : Action Unit := fun t =>
  match t.locate path with
  | .error f => (.error f, t)
  | .ok p =>
    match t.at? p with
    | none => (.error .notFound, t)
    | some .directory => (.error .isDirectory, t)
    | some _ => (.ok (), t.erase p)

/-! ## Whole trees -/

/-- The names in the directory at a place. -/
def namesIn (t : Tree) (p : Place) : List String :=
  (t.entries.filter fun e => e.1.dropLast = p).filterMap fun e => e.1.getLast?

/-- The files at and below a path of names, at most so deep, each with its content and mode. Links
count as what they lead to; one that leads nowhere counts as a file without content. -/
def filesUpTo (t : Tree) : (depth : Nat) → Place → List (Place × Option (Bytes × Nat))
  | 0, _ => []
  | depth + 1, path =>
    match (t.walk true maxLinks [] path).toOption.bind t.at? with
    | some .directory => (t.namesIn path).flatMap fun n => t.filesUpTo depth (path ++ [n])
    | some (.file content mode) => [(path, some (content, mode))]
    | _ => [(path, none)]

/-- How deep a tree is looked through. -/
def maxDepth : Nat := 64

/-- The files with their paths, in the order of these. -/
def files (t : Tree) : List (String × Option (Bytes × Nat)) :=
  ((t.filesUpTo maxDepth []).map fun f => (String.intercalate "/" f.1, f.2)).mergeSort
    fun a b => decide (a.1 ≤ b.1)

/-- The entries at and below a place. -/
def branch (t : Tree) (p : Place) : List (Place × Entry) :=
  t.entries.filter fun e => p.isPrefixOf e.1

/-- What stands at a place of another tree, the place itself included, is put to a place of this
one. -/
def graft (t : Tree) (source : Tree) (origin target : Place) : Tree :=
  (source.branch origin).foldl (fun t e => t.set (target ++ e.1.drop origin.length) e.2) t

/-- Nothing at or below a place. -/
def prune (t : Tree) (p : Place) : Tree := ⟨t.entries.filter fun e => !p.isPrefixOf e.1⟩

end Tree
end ForwardProxy.Files
