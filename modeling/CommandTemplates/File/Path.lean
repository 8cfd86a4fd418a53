import CommandTemplates.Text.Octets

/-!
# Paths

A path is a text. It is kept as it was given: nothing is normalised before it is used.

## Main Definitions

* `Path.join` — a path taken relative to another
* `Path.steps` — the names that are followed, one after the other
* `Path.components` — what a path says, without looking at the files
* `Path.below` — the path of what is below a directory
* `Path.isMarkdown` — whether a path has the extension `md`

## Design Notes

Empty pieces between slashes are passed over. A slash at the end is a step to the directory
itself, so that it can be followed only where there is one. The components of a path are read
off its text alone: there a step to the directory itself counts at the start only.
-/

namespace CommandTemplates.Path

/-- Whether a path starts at the top. -/
def isAbsolute (path : Text) : Bool := path.head? == some '/'

/-- The path `b`, taken relative to `a`. -/
def join (a b : Text) : Text :=
  if isAbsolute b then b
  else if a.isEmpty || a.getLast? == some '/' then a ++ b
  else a ++ ['/'] ++ b

/-- The name of a directory in itself. -/
def self : Octets := .text ['.']

/-- The name of the directory above. -/
def above : Octets := .text ['.', '.']

/-- The names that are followed, one after the other. -/
def steps (path : Octets) : List Octets :=
  let pieces := path.pieces '/'
  pieces.filter (· ≠ .text []) ++
    (if pieces.getLast? = some (.text []) then [self] else [])

/-! ### Components -/

/-- The component that an absolute path starts with. -/
def top : Octets := .text ['/']

/-- The component at the start that is no name: the top, or the directory itself. -/
def opening : List Octets → List Octets
  | .text [] :: _ :: _ => [top]
  | .text ['.'] :: _ => [self]
  | _ => []

/-- The components of a path. -/
def components (path : Octets) : List Octets :=
  let pieces := path.pieces '/'
  opening pieces ++ pieces.filter fun piece => piece ≠ .text [] ∧ piece ≠ self

/-- The path of an entry of a directory, by its name. -/
def child : Octets → Octets → Octets
  | .text dir, .text name => .text (join dir name)
  | dir, name => .ofBytes (dir.bytes ++ 0x2F :: name.bytes)

/-- The path of what is below a directory, by the names from there. -/
def below (dir : Octets) (names : List Octets) : Octets := names.foldl child dir

/-- The path of what holds the entry at a path; empty for a single name. -/
def parent (path : Octets) : Octets :=
  .ofBytes ((path.bytes.reverse.dropWhile (· ≠ 0x2F)).drop 1).reverse

/-- The directory in which a file is put beside the one at a path. -/
def directoryOf (path : Text) : Text :=
  match (components (.text path)).dropLast with
  | [] => self.lossy
  | first :: rest => (below first rest).lossy

/-- Whether a name has the extension `md`: it ends in `.md`, with something before it. -/
def isMarkdownName (name : Octets) : Bool :=
  let ending := (Octets.text ".md".toList).bytes
  ending.isSuffixOf name.bytes && name.bytes ≠ ending

/-- Whether a path has the extension `md`, which is that of its last name. -/
def isMarkdown (path : Octets) : Bool := (components path).getLast?.any isMarkdownName

end CommandTemplates.Path
