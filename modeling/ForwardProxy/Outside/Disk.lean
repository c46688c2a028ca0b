import ForwardProxy.Files.Tree

/-!
# The disk

What the program is to know of the disk is copied into a tree before it runs, and what it has changed
in the tree is written back behind it. Only the paths that the program may touch are looked at.
-/

namespace ForwardProxy.Outside.Disk

open Files (Entry Place Tree)

/-- A path leads to a directory. -/
def isDirectory (path : String) : IO Bool := do
  match ← (IO.FS.Handle.mk (path ++ "/.") .read).toBaseIO with
  | .ok _ => return true
  | .error _ => return false

/-- What stands under a path. Links count as what they lead to. -/
def look (path : String) : IO (Option Entry) := do
  if ← isDirectory path then return some .directory
  match ← (IO.FS.readBinFile path).toBaseIO with
  | .ok content => return some (.file content.toList 0o644)
  | .error _ => return none

/-- The paths on the way to a path, each with its place; the path itself comes last. -/
def way (path : String) : List (String × Place) :=
  let names := Tree.names path
  (List.range names.length).map fun n =>
    let front := names.take (n + 1)
    (Tree.rootOf path ++ String.intercalate "/" front, front)

/-- Copies what stands at a path, and the way there. -/
def copyPath (t : Tree) (path : String) : IO Tree :=
  (way path).foldlM (fun t (path, place) => do
    match ← look path with
    | some entry => return t.set place entry
    | none => return t) t

/-- Copies what stands at paths. -/
def copy (paths : List String) : IO Tree := paths.foldlM copyPath {}

/-- Writes an entry. A file that only its owner may read is so from the start. -/
def writeEntry (path : String) : Entry → IO Unit
  | .directory => IO.FS.createDir path
  | .file content mode => do
    IO.FS.writeBinFile path .empty
    if mode = 0o600 then IO.setAccessRights path ⟨⟨true, true, false⟩, {}, {}⟩
    IO.FS.writeBinFile path content.toByteArray
  | .link _ => return ()

/-- Writes back what has changed along paths, with all directories before the files in them. -/
def write (paths : List String) (old new : Tree) : IO Unit := do
  let _ ← (paths.flatMap way).foldlM (fun old (path, place) => do
    match new.at? place with
    | some entry =>
      if old.at? place == some entry then return old
      else
        writeEntry path entry
        return old.set place entry
    | none => return old) old

end ForwardProxy.Outside.Disk
