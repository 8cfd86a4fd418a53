import CommandTemplates.Yaml.Glyph

/-!
# Block scalars

A literal block keeps its line breaks, a folded block joins lines of text that stand
directly below each other. The header may fix the indentation of the lines and say what
becomes of the line breaks at the end.

## Main Definitions

* `BlockHeader` — style, chomping and indentation of a block
* `BlockHeader.read` — the header up to the end of its line
* `blockIndent` — the indentation that the first lines show
* `blockLines` — the lines of a block
* `blockScalar` — header and lines together

## Design Notes

Without an explicit number the indentation is that of the first line that shows
something, but at least one more than that of the parent; lines of spaces before it count
too if they are longer.
-/

namespace CommandTemplates.Yaml

/-- What becomes of the line breaks at the end of a block. -/
inductive Chomping
  /-- None is kept. -/
  | strip
  /-- One is kept. -/
  | clip
  /-- All are kept. -/
  | keep
  deriving DecidableEq, Repr

/-- Style, chomping and explicit indentation of a block. -/
structure BlockHeader where
  literal : Bool
  chomping : Chomping := .clip
  increment : Option Nat := none
  deriving DecidableEq, Repr

namespace BlockHeader

/-- The chomping that a header character asks for. -/
def chomping? : Char → Option Chomping
  | '+' => some .keep
  | '-' => some .strip
  | _ => none

/-- The header with its indicators read; a zero is no indentation. -/
def indicators (header : BlockHeader) : Bool → Bool → List Glyph → Option (BlockHeader × List Glyph)
  | _, _, [] => some (header, [])
  | chomped, indented, g :: rest =>
    match chomping? g.char with
    | some chomping =>
      if chomped then some (header, g :: rest)
      else { header with chomping := chomping }.indicators true indented rest
    | none =>
      if g.char.isDigit && !indented then
        if g.char = '0' then none
        else
          { header with increment := some (g.char.toNat - '0'.toNat) }.indicators chomped true rest
      else some (header, g :: rest)

/-- Reads a header after its `|` or `>`, up to the start of the next line. -/
def read (literal : Bool) (text : List Glyph) : Option (BlockHeader × List Glyph) := do
  let (header, rest) ← indicators { literal := literal } false false text
  let rest ← endOfLine? rest
  some (header, rest)

end BlockHeader

/-- Reads the line breaks before the first line that shows something, and the indentation:
the largest column reached, but at least `least`. A tab cannot indent. -/
def blockIndent (least : Nat) : Nat → Text → List Glyph → Option (Nat × Text × List Glyph)
  | largest, breaks, [] => some (max largest least, breaks, [])
  | largest, breaks, g :: rest =>
    if g.char = ' ' then blockIndent least largest breaks rest
    else if g.char = '\t' then none
    else if isBreak g.char then
      blockIndent least (max largest g.mark.column) (breaks ++ [g.char]) rest
    else some (max (max largest g.mark.column) least, breaks, g :: rest)

/-- What has been read of a block. -/
structure BlockText where
  /-- The text so far, last character first. -/
  acc : Text := []
  /-- The break that ended the last line. -/
  lineBreak : Option Char := none
  /-- The breaks of the empty lines since then. -/
  emptyLines : Text := []
  /-- Whether the last line started with a blank. -/
  startedBlank : Bool := false
  deriving DecidableEq, Repr

namespace BlockText

/-- Starts a line with its first character, joining it to the lines before. -/
def startLine (b : BlockText) (literal : Bool) (c : Char) : BlockText :=
  let folds := !literal && b.lineBreak == some '\n' && !b.startedBlank && !isBlank c
  let joint : Text :=
    if folds then if b.emptyLines.isEmpty then [' '] else [] else b.lineBreak.toList
  { acc := c :: ((joint ++ b.emptyLines).reverse ++ b.acc), startedBlank := isBlank c }

/-- The text of the block once its end is reached. -/
def finish (b : BlockText) : Chomping → Text
  | .strip => b.acc.reverse
  | .clip => b.acc.reverse ++ b.lineBreak.toList
  | .keep => b.acc.reverse ++ b.lineBreak.toList ++ b.emptyLines

end BlockText

/-- Reads the lines of a block whose indentation is known. The flag tells whether a line
has begun. -/
def blockLines (literal : Bool) (indent : Nat) :
    Bool → BlockText → List Glyph → Option (BlockText × List Glyph)
  | _, b, [] => some (b, [])
  | true, b, g :: rest =>
    if isBreak g.char then
      blockLines literal indent false { b with lineBreak := some g.char } rest
    else if g.char = endChar then some (b, g :: rest)
    else blockLines literal indent true { b with acc := g.char :: b.acc } rest
  | false, b, g :: rest =>
    if g.mark.column < indent && g.char == ' ' then blockLines literal indent false b rest
    else if g.mark.column < indent && g.char == '\t' then none
    else if isBreak g.char then
      blockLines literal indent false { b with emptyLines := b.emptyLines ++ [g.char] } rest
    else if g.mark.column = indent && g.char != endChar then
      blockLines literal indent true (b.startLine literal g.char) rest
    else some (b, g :: rest)

/-- Reads a block scalar after its `|` or `>`. `parent` is the indentation of the
collection around it, which is negative at the top. -/
def blockScalar (literal : Bool) (parent : Int) (text : List Glyph) :
    Option (Text × List Glyph) := do
  let (header, rest) ← BlockHeader.read literal text
  let (indent, breaks, rest) ←
    match header.increment with
    | some n => some (parent.toNat + n, [], rest)
    | none => blockIndent (max (parent + 1).toNat 1) 0 [] rest
  let (b, rest) ← blockLines literal indent false { emptyLines := breaks } rest
  some (b.finish header.chomping, rest)

end CommandTemplates.Yaml
