import CommandTemplates.File.Tree
import CommandTemplates.Text.Order

/-!
# Walking through a file tree

A walk through a directory comes to the directory itself and to all that is below it.

## Main Definitions

* `WalkEntry`, `WalkFault`, `WalkStep` — what a walk comes to, and what it cannot come to
* `FileTree.below` — what is below a place, each directory before what it holds
* `FileTree.walkDir` — the walk through what a path leads to

## Design Notes

Links below the start are entries of their own, and never followed. A link at the start is
followed to a directory, and is no file even if it leads to one. Names are compared octet by
octet.
-/

namespace CommandTemplates

/-- What a walk comes to. A link is no file. -/
structure WalkEntry where
  path : Octets
  isFile : Bool
  deriving DecidableEq, Repr

/-- What a walk cannot come to: its path, where that is known, and the text of the fault. -/
structure WalkFault where
  path : Option Octets
  message : Text
  deriving DecidableEq, Repr

/-- One step of a walk, which goes on after a fault. -/
abbrev WalkStep := Except WalkFault WalkEntry

/-- The fault of a path that cannot be looked at, or looked into. -/
def WalkFault.of (path : Octets) (fault : FileFault) : WalkFault :=
  ⟨some path, "IO error for operation on ".toList ++ path.lossy ++ ": ".toList ++ fault.message⟩

/-- Whether an entry is a file. -/
def FileEntry.isFile : FileEntry → Bool
  | .file _ _ => true
  | .dir _ => false
  | .link _ => false

namespace FileTree

/-- What is below a place, by relative place. -/
def below (t : FileTree) (place : Place) : List (Place × FileEntry) :=
  let entries := t.entries.filterMap fun e =>
    match e.1.drop place.length with
    | [] => none
    | rest => if place.isPrefixOf e.1 then some (rest, e.2) else none
  entries.mergeSort fun a b =>
    !comesBefore (comesBefore (·.toNat < ·.toNat)) (b.1.map Octets.bytes) (a.1.map Octets.bytes)

/-- A relative place as it is shown: names with slashes between them. -/
def shownPlace (place : Place) : Text := List.intercalate ['/'] (place.map Octets.lossy)

/-- The step to an entry below a directory, by the path of the directory. -/
def stepBelow (path : Text) (e : Place × FileEntry) : WalkStep :=
  .ok ⟨Path.below (.text path) e.1, e.2.isFile⟩

/-- The walk through what a path leads to. -/
def walkDir (t : FileTree) (path : Text) : List WalkStep :=
  let failing (fault : FileFault) : List WalkStep := [.error (.of (.text path) fault)]
  match t.locate false (.text path), t.find (.text path) with
  | .error fault, _ => failing fault
  | .ok (.vacant _), _ => failing .notFound
  | .ok (.present _ (.link _)), .error fault => failing fault
  | .ok (.present _ entry), .ok (place, .dir _) =>
    .ok ⟨.text path, entry.isFile⟩ :: (t.below place).map (stepBelow path)
  | .ok (.present _ entry), _ => [.ok ⟨.text path, entry.isFile⟩]

end FileTree

end CommandTemplates
