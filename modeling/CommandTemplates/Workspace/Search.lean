import CommandTemplates.Host.Basic

/-!
# Searching for Markdown files

A search walks through a directory and keeps the names of the Markdown files. What the walk
cannot come to is noted and reported, and the walk goes on.

## Main Definitions

* `MarkdownFiles` — what a search finds
* `MarkdownFiles.nameOf?` — the name of an entry, if it is a Markdown file
* `MarkdownFiles.collect` — goes through the steps of a walk
* `MarkdownFiles.search` — the Markdown files below a directory, by name

## Design Notes

Names are relative to the directory. The entry at the start of a walk is named by the empty text.
-/

namespace CommandTemplates

/-- The Markdown files of a directory, by relative name, and the paths that could not be
searched. -/
structure MarkdownFiles where
  names : List Text := []
  unreadable : List Text := []
  deriving DecidableEq, Repr

/-- The path that is reported for a fault of a walk: the start, where the path is not known. -/
def WalkFault.shownPath (root : Text) (fault : WalkFault) : Text :=
  (fault.path.map Octets.lossy).getD root

namespace MarkdownFiles

/-- The name of a path relative to a directory, unless it leads elsewhere. -/
def relativeName? (root : Text) (path : Octets) : Option Text :=
  let above := Path.components (.text root)
  let components := Path.components path
  if above.isPrefixOf components then
    some (FileTree.shownPlace (components.drop above.length))
  else none

/-- The name of an entry relative to a directory, if it is a Markdown file. -/
def nameOf? (root : Text) (e : WalkEntry) : Option Text :=
  if e.isFile && Path.isMarkdown e.path then relativeName? root e.path else none

variable {m : Type → Type} [Monad m] [Host m]

/-- Goes through the steps of a walk, and notes what it could not come to. -/
def collect (root : Text) : List WalkStep → m MarkdownFiles
  | [] => pure {}
  | .error fault :: steps => do
    let path := fault.shownPath root
    Host.note (.cannotSearch path fault.message)
    let found ← collect root steps
    return { found with unreadable := path :: found.unreadable }
  | .ok entry :: steps => do
    let found ← collect root steps
    return { found with names := (nameOf? root entry).toList ++ found.names }

/-- The Markdown files below a directory, in the order of their names. -/
def search (root : Text) : m MarkdownFiles := do
  let steps ← Host.walkDir root
  let found ← collect root steps
  return { found with names := Text.sorted found.names }

end MarkdownFiles

end CommandTemplates
