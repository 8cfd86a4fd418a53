import CommandTemplates.Text.Search

/-!
# Characters with their places

A YAML text is read as a list of glyphs: characters that know where they stand.

## Main Definitions

* `Mark` — a place in a text
* `Glyph` — a character and its place
* `glyphs` — the glyphs of a text, or nothing if it holds a forbidden character

## Design Notes

Every line ending but U+2028 and U+2029 becomes a line feed here, so that later stages
know one kind of break; the two separators are breaks that keep their character. A NUL
closes the list and carries the place of the end: no text can hold one, since control
characters are forbidden. A byte order mark at the very start takes no place.
-/

namespace CommandTemplates.Yaml

/-- A place in a text. All counts start at zero. -/
structure Mark where
  index : Nat := 0
  line : Nat := 0
  column : Nat := 0
  deriving DecidableEq, Repr

namespace Mark

/-- The place after a character that ends no line. -/
def next (m : Mark) : Mark := ⟨m.index + 1, m.line, m.column + 1⟩

/-- The start of the next line, after a line ending of `width` characters. -/
def nextLine (m : Mark) (width : Nat) : Mark := ⟨m.index + width, m.line + 1, 0⟩

end Mark

/-- A character and its place. -/
structure Glyph where
  char : Char
  mark : Mark
  deriving DecidableEq, Repr

/-- The character that stands for the end of the text. -/
def endChar : Char := '\x00'

/-- The byte order mark. -/
def byteOrderMark : Char := '\ufeff'

/-- Whether a character may occur in a YAML text. -/
def isAllowed (c : Char) : Bool :=
  let n := c.toNat
  n == 0x09 || n == 0x0A || n == 0x0D || (0x20 ≤ n && n ≤ 0x7E) || n == 0x85 ||
    (0xA0 ≤ n && n ≤ 0xD7FF) || (0xE000 ≤ n && n ≤ 0xFFFD) || 0x10000 ≤ n

/-- The separators that break a line and keep their character. -/
def isSeparator (c : Char) : Bool := c == '\u2028' || c == '\u2029'

/-- Whether a character of a glyph breaks the line. -/
def isBreak (c : Char) : Bool := c == '\n' || isSeparator c

/-- Whether a character is a space or a tab. -/
def isBlank (c : Char) : Bool := c == ' ' || c == '\t'

/-- Whether a character ends a word: a blank, a break or the end of the text. -/
def isGap (c : Char) : Bool := isBlank c || isBreak c || c == endChar

/-- Gives every character its place, from a starting place on. -/
def locate : Mark → Text → List Glyph
  | m, [] => [⟨endChar, m⟩]
  | m, '\r' :: '\n' :: text => ⟨'\n', m⟩ :: locate (m.nextLine 2) text
  | m, c :: text =>
    if c = '\n' ∨ c = '\r' ∨ c = '\u0085' then ⟨'\n', m⟩ :: locate (m.nextLine 1) text
    else if isSeparator c then ⟨c, m⟩ :: locate (m.nextLine 1) text
    else ⟨c, m⟩ :: locate m.next text

/-- The text without a byte order mark at its start. -/
def withoutByteOrderMark : Text → Text
  | [] => []
  | c :: text => if c = byteOrderMark then text else c :: text

/-- The glyphs of a text whose characters are all allowed. -/
def glyphs (text : Text) : Option (List Glyph) :=
  let text := withoutByteOrderMark text
  if text.all isAllowed then some (locate {} text) else none

/-! ### Looking ahead -/

/-- Whether the next glyph ends a word. -/
def startsGap : List Glyph → Bool
  | [] => true
  | g :: _ => isGap g.char

/-- Whether the next glyph is one of the given characters. -/
def startsWithOneOf (chars : Text) : List Glyph → Bool
  | [] => false
  | g :: _ => chars.contains g.char

/-- Whether a line starts here with three times `c` as a word of its own. -/
def isDocumentMark (c : Char) : List Glyph → Bool
  | g :: h :: i :: rest =>
    g.mark.column == 0 && g.char == c && h.char == c && i.char == c && startsGap rest
  | _ => false

/-- Whether a line starts here with a mark that opens or closes a document. -/
def isDocumentBoundary (text : List Glyph) : Bool :=
  isDocumentMark '-' text || isDocumentMark '.' text

/-- The glyphs after a run of blanks. -/
def skipBlanks (text : List Glyph) : List Glyph := text.dropWhile fun g => isBlank g.char

/-- The glyphs from the next line break, or the end, on. -/
def skipToBreak (text : List Glyph) : List Glyph :=
  text.dropWhile fun g => !(isBreak g.char || g.char == endChar)

/-- The start of the next line after blanks and a comment, if nothing else is left on this one. -/
def endOfLine? (text : List Glyph) : Option (List Glyph) :=
  let text := skipBlanks text
  let text := if startsWithOneOf ['#'] text then skipToBreak text else text
  match text with
  | [] => some []
  | g :: rest =>
    if isBreak g.char then some rest
    else if g.char = endChar then some (g :: rest)
    else none

/-! ### Character classes -/

/-- The characters of names: ASCII letters and digits, `_` and `-`. -/
def isNameChar (c : Char) : Bool := c.isAlphanum || c == '_' || c == '-'

/-- The value of a hexadecimal digit. -/
def hexValue? (c : Char) : Option Nat :=
  if '0' ≤ c ∧ c ≤ '9' then some (c.toNat - '0'.toNat)
  else if 'a' ≤ c ∧ c ≤ 'f' then some (c.toNat - 'a'.toNat + 10)
  else if 'A' ≤ c ∧ c ≤ 'F' then some (c.toNat - 'A'.toNat + 10)
  else none

/-- The scalar with a given number, unless it is a surrogate or out of range. -/
def scalarOfNat? (n : Nat) : Option Char := if n.isValidChar then some (Char.ofNat n) else none

end CommandTemplates.Yaml
