import CommandTemplates.File.Tree

/-!
# Changing a file tree

## Main Definitions

* `TemporaryFile` — a new file that is not in its place yet
* `FileTree.overwrite` — gives a file a new content, or makes the file
* `FileTree.persist` — puts a new file where a path leads, in the stead of a link too
* `FileTree.replace` — what is left of that when the new file has the mode of the old one
* `FileTree.makeDirs`, `FileTree.link`, `FileTree.remove`, `FileTree.chmod` — the rest

## Design Notes

`overwrite` writes through links and keeps the file that is there. `persist` does not follow
a link at the end of the path: the link goes, and the new file stands in its place. A temporary
file stands outside the tree until it is put in its place, and is gone if it never is.
-/

namespace CommandTemplates

/-- A new file in a directory that is not in its place yet. Nobody else may read it at first. -/
structure TemporaryFile where
  directory : Text
  content : Text := []
  mode : Nat := 0o600
  deriving DecidableEq, Repr

namespace FileTree

/-- Gives the file that a path leads to a new content, or makes the file. -/
def overwrite (t : FileTree) (path content : Octets) : Except FileFault FileTree :=
  match t.locate true path with
  | .ok (.present place (.file _ mode)) => .ok (t.put place (.file content mode))
  | .ok (.present _ _) => .error .isDirectory
  | .ok (.vacant place) => .ok (t.put place (.file content fileMode))
  | .error fault => .error fault

/-- Puts a new file where a path leads, in the stead of a link too. -/
def persist (t : FileTree) (path content : Octets) (mode : Nat) : Except FileFault FileTree :=
  match t.locate false path with
  | .ok (.present _ (.dir _)) => .error .isDirectory
  | .ok (.present place _) => .ok (t.put place (.file content mode))
  | .ok (.vacant place) => .ok (t.put place (.file content mode))
  | .error fault => .error fault

/-- Puts a file with a new content where a path leads, in the stead of a link too. The mode
of the file that the path led to is kept. -/
def replace (t : FileTree) (path content : Octets) : Except FileFault FileTree :=
  match t.mode path with
  | .ok mode => t.persist path content mode
  | .error fault => .error fault

/-- Makes the directory that some steps lead to, in a directory that is there. Something
else in its place is a fault; before further steps the fault is left to them. -/
def makeDir (t : FileTree) (start : Place) (steps : List Octets) (last : Bool) :
    Except FileFault FileTree :=
  match t.follow false linkLimit start steps with
  | .error fault => .error fault
  | .ok (.vacant place) => .ok (t.put place (.dir dirMode))
  | .ok (.present _ _) =>
    match t.follow true linkLimit start steps with
    | .ok (.present _ (.dir _)) => .ok t
    | .ok (.vacant _) => .error .alreadyThere
    | .error .notFound => .error .alreadyThere
    | _ => if last then .error .alreadyThere else .ok t

/-- Makes the directories for the steps that are left, below those taken. -/
def makeDirsFrom (t : FileTree) (start : Place) (taken : List Octets) :
    List Octets → Except FileFault FileTree
  | [] => .ok t
  | step :: steps => do
    let t ← t.makeDir start (taken ++ [step]) steps.isEmpty
    t.makeDirsFrom start (taken ++ [step]) steps

/-- Makes the directory that a path names, and those above it. -/
def makeDirs (t : FileTree) (path : Octets) : Except FileFault FileTree :=
  if path.bytes.contains 0 then .error .nulInName
  else if pathLimit < path.bytes.length then .error .nameTooLong
  else t.makeDirsFrom (startOf t.base path) [] ((Path.steps path).filter (· ≠ Path.self))

/-- Makes a link. -/
def link (t : FileTree) (path : Octets) (target : Text) : Except FileFault FileTree :=
  if target.isEmpty then .error .notFound
  else
    match t.locate false path with
    | .ok (.vacant place) => .ok (t.put place (.link target))
    | .ok (.present _ _) => .error .alreadyThere
    | .error fault => .error fault

/-- Removes a file, a link or a directory with all that is in it. -/
def remove (t : FileTree) (path : Octets) : Except FileFault FileTree :=
  match t.locate false path with
  | .ok (.present place _) => .ok (t.erase place)
  | .ok (.vacant _) => .error .notFound
  | .error fault => .error fault

/-- Sets the permission bits of what a path leads to. -/
def chmod (t : FileTree) (path : Octets) (mode : Nat) : Except FileFault FileTree :=
  match t.find path with
  | .ok (place, .file content _) => .ok (t.put place (.file content mode))
  | .ok (place, .dir _) => .ok (t.put place (.dir mode))
  | .ok (_, .link _) => .error .notFound
  | .error fault => .error fault

end FileTree

end CommandTemplates
