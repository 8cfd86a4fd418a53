import CommandTemplates.File.Fault
import CommandTemplates.File.Path

/-!
# File trees

Files, directories and symbolic links, each at its place, and how a path leads to a place.

## Main Definitions

* `Place` — the names on the way from the top to an entry
* `FileTree` — the entries, and the place where relative paths start
* `FileTree.locate` — the spot that a path leads to
* `FileTree.read`, `FileTree.isFile`, `FileTree.isDir`, `FileTree.isThere` — what is there

## Design Notes

A spot is an entry or a vacant place in a directory. A link is followed by taking the steps
of its target, and then those that are left; at most forty links are followed on one path.
The last link of a path is followed or not as the operation demands.
-/

namespace CommandTemplates

/-- The names on the way from the top to an entry. -/
abbrev Place := List Octets

/-- What stands at a place. -/
inductive FileEntry
  | file (content : Octets) (mode : Nat)
  | dir (mode : Nat)
  | link (target : Text)
  deriving DecidableEq, Repr

/-- Files, directories and links. -/
structure FileTree where
  /-- Where relative paths start. -/
  base : Place
  entries : List (Place × FileEntry)
  deriving DecidableEq, Repr

/-- Where a path leads. -/
inductive Spot
  | present (place : Place) (entry : FileEntry)
  /-- Nothing has this name, in a directory that is there. -/
  | vacant (place : Place)
  deriving DecidableEq, Repr

namespace FileTree

/-- The mode of a new file. -/
def fileMode : Nat := 0o644

/-- The mode of a new directory. -/
def dirMode : Nat := 0o755

/-- How many links are followed on one path. -/
def linkLimit : Nat := 40

/-- How many octets a name may have. -/
def nameLimit : Nat := 255

/-- How many octets a path may have. -/
def pathLimit : Nat := 4095

/-! ### Places -/

/-- What stands at a place. The top is a directory in every tree. -/
def entryAt? (t : FileTree) : Place → Option FileEntry
  | [] => some (.dir dirMode)
  | place => t.entries.lookup place

/-- The tree with an entry at a place, in the stead of any other. -/
def put (t : FileTree) (place : Place) (entry : FileEntry) : FileTree :=
  { t with entries := (place, entry) :: t.entries.filter (·.1 ≠ place) }

/-- The tree without a place and all below it. -/
def erase (t : FileTree) (place : Place) : FileTree :=
  { t with entries := t.entries.filter fun e => !place.isPrefixOf e.1 }

/-! ### Paths -/

/-- Takes steps from a place that is no link; a link is left to `onLink`, with the place
that holds it, its target and the steps that are left. -/
def walk (t : FileTree) (followLast : Bool)
    (onLink : Place → Text → List Octets → Except FileFault Spot) :
    Place → List Octets → Except FileFault Spot
  | here, [] =>
    match t.entryAt? here with
    | some entry => .ok (.present here entry)
    | none => .error .notFound
  | here, name :: rest =>
    match t.entryAt? here with
    | some (.dir _) =>
      if name = Path.self then walk t followLast onLink here rest
      else if name = Path.above then walk t followLast onLink here.dropLast rest
      else if nameLimit < name.bytes.length then .error .nameTooLong
      else
        match t.entryAt? (here ++ [name]) with
        | none => if rest.isEmpty then .ok (.vacant (here ++ [name])) else .error .notFound
        | some (.link target) =>
          if rest.isEmpty && !followLast then .ok (.present (here ++ [name]) (.link target))
          else onLink here target rest
        | some _ => walk t followLast onLink (here ++ [name]) rest
    | some _ => .error .notDirectory
    | none => .error .notFound

/-- Where a path starts, from a place. -/
def startOf (here : Place) (path : Octets) : Place :=
  if path.bytes.head? = some 0x2F then [] else here

/-- Takes steps from a place, following a limited number of links. -/
def follow (t : FileTree) (followLast : Bool) :
    Nat → Place → List Octets → Except FileFault Spot
  | 0 => t.walk followLast fun _ _ _ => .error .tooManyLinks
  | n + 1 => t.walk followLast fun here target rest =>
    follow t followLast n (startOf here (.text target)) (Path.steps (.text target) ++ rest)

/-- The spot that a path leads to. -/
def locate (t : FileTree) (followLast : Bool) (path : Octets) : Except FileFault Spot :=
  if path.bytes.contains 0 then .error .nulInName
  else if path.bytes.isEmpty then .error .notFound
  else if pathLimit < path.bytes.length then .error .nameTooLong
  else t.follow followLast linkLimit (startOf t.base path) (Path.steps path)

/-- The entry that a path leads to, through links. -/
def find (t : FileTree) (path : Octets) : Except FileFault (Place × FileEntry) :=
  match t.locate true path with
  | .ok (.present place entry) => .ok (place, entry)
  | .ok (.vacant _) => .error .notFound
  | .error fault => .error fault

/-! ### What is there -/

/-- Whether a path leads to something. -/
def isThere (t : FileTree) (path : Octets) : Bool := (t.find path).isOk

/-- Whether a path leads to a file. -/
def isFile (t : FileTree) (path : Octets) : Bool :=
  match t.find path with
  | .ok (_, .file _ _) => true
  | _ => false

/-- Whether a path leads to a directory. -/
def isDir (t : FileTree) (path : Octets) : Bool :=
  match t.find path with
  | .ok (_, .dir _) => true
  | _ => false

/-- The content of the file that a path leads to. -/
def read (t : FileTree) (path : Octets) : Except FileFault Octets :=
  match t.find path with
  | .ok (_, .file content _) => .ok content
  | .ok _ => .error .isDirectory
  | .error fault => .error fault

/-- The permission bits of what a path leads to. -/
def mode (t : FileTree) (path : Octets) : Except FileFault Nat :=
  match t.find path with
  | .ok (_, .file _ mode) => .ok mode
  | .ok (_, .dir mode) => .ok mode
  | .ok (_, .link _) => .error .notFound
  | .error fault => .error fault

end FileTree

end CommandTemplates
