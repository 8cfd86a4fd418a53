import CommandTemplates.Yaml.Block
import CommandTemplates.Yaml.Plain
import CommandTemplates.Yaml.Quoted
import CommandTemplates.Yaml.Tag

/-!
# Tokens

The structure of a YAML text, with indentation made explicit: every block collection has
a token for its start and one for its end.

## Main Definitions

* `Lexeme`, `Token` — what a token is, and where it stands
* `Scanner` — how far a text has been read
* `Scanner.step` — reads the next token
* `tokens?` — the tokens of a text, if it is well formed on this level

## Design Notes

A key is recognised only when its `:` is met, so the place where a key may have begun is
remembered, one for every flow collection around. The key token, and the start of a block
mapping if this is its first key, are then put before the tokens read since. Such a place
is forgotten when the line ends or 1024 characters have passed. In a block mapping the
first thing on a line of its own must be a key: there it is an error to forget the place.

The tokens read so far are kept last first, so that a late key is put near the front.
-/

namespace CommandTemplates.Yaml

/-- What a token is. -/
inductive Lexeme
  | streamEnd
  | directive (d : Directive)
  | documentStart
  | documentEnd
  | blockSequenceStart
  | blockMappingStart
  | blockEnd
  | flowSequenceStart
  | flowSequenceEnd
  | flowMappingStart
  | flowMappingEnd
  | blockEntry
  | flowEntry
  | key
  | value
  | alias (name : Text)
  | anchor (name : Text)
  | tag (handle suffix : Text)
  | scalar (plain : Bool) (text : Text)
  deriving DecidableEq, Repr

/-- A token with the places where it starts and where it stops. -/
structure Token where
  lexeme : Lexeme
  start : Mark
  stop : Mark
  deriving DecidableEq, Repr

/-- A place where a key may have begun. -/
structure KeyPlace where
  /-- How many tokens there were before it. -/
  position : Nat
  mark : Mark
  /-- Whether nothing but a key may stand here. -/
  required : Bool
  deriving DecidableEq, Repr

/-- Whether a key that began there can no longer be completed at `m`. -/
def KeyPlace.isStale (k : KeyPlace) (m : Mark) : Bool :=
  k.mark.line < m.line || k.mark.index + 1024 < m.index

/-- How far a text has been read. -/
structure Scanner where
  rest : List Glyph
  /-- The tokens read, last first. -/
  read : List Token := []
  /-- The indentation of the innermost block collection; negative outside of all. -/
  indent : Int := -1
  /-- The indentations of the block collections around it. -/
  outerIndents : List Int := []
  /-- Where a key may have begun in the innermost flow collection, or outside of all. -/
  keyPlace : Option KeyPlace := none
  /-- The same for the collections around it, one for every open flow collection. -/
  outerKeyPlaces : List (Option KeyPlace) := []
  /-- Whether a key may begin at the next token. -/
  keyAllowed : Bool := true
  deriving Repr

namespace Scanner

/-- Whether a flow collection is open. -/
def inFlow (s : Scanner) : Bool := !s.outerKeyPlaces.isEmpty

/-- Adds a token. -/
def add (s : Scanner) (lexeme : Lexeme) (start stop : Mark) : Scanner :=
  { s with read := ⟨lexeme, start, stop⟩ :: s.read }

/-- Puts a token without extent after the first `position` tokens. -/
def insert (s : Scanner) (position : Nat) (lexeme : Lexeme) (m : Mark) : Scanner :=
  { s with read := s.read.insertIdx (s.read.length - position) ⟨lexeme, m, m⟩ }

/-! ### Blanks, comments and line breaks -/

/-- Passes blanks, comments and line breaks. A line break in block context allows a key; a
tab indents nothing, so where a key is allowed it is not passed. The second flag tells
whether a comment is being read. -/
def skipToToken (inFlow : Bool) : Bool → Bool → List Glyph → Bool × List Glyph
  | allowed, _, [] => (allowed, [])
  | allowed, comment, g :: rest =>
    if isBreak g.char then skipToToken inFlow (allowed || !inFlow) false rest
    else if g.char = endChar then (allowed, g :: rest)
    else if comment || g.char == ' ' || (g.char == '\t' && (inFlow || !allowed)) ||
        (g.char == byteOrderMark && g.mark.column == 0) then
      skipToToken inFlow allowed comment rest
    else if g.char = '#' then skipToToken inFlow allowed true rest
    else (allowed, g :: rest)

/-! ### Places of keys -/

/-- Forgets where a key may have begun, unless a key is required there. -/
def forgetKey (s : Scanner) : Option Scanner :=
  match s.keyPlace with
  | none => some s
  | some k => if k.required then none else some { s with keyPlace := none }

/-- Forgets a stale place, unless a key is required there. -/
def refresh (m : Mark) : Option KeyPlace → Option (Option KeyPlace)
  | none => some none
  | some k =>
    if k.isStale m then if k.required then none else some none
    else some (some k)

/-- Forgets every stale place. -/
def forgetStaleKeys (s : Scanner) (m : Mark) : Option Scanner := do
  let place ← refresh m s.keyPlace
  let outer ← s.outerKeyPlaces.mapM (refresh m)
  some { s with keyPlace := place, outerKeyPlaces := outer }

/-- Remembers that a key may begin here, if one is allowed. -/
def rememberKey (s : Scanner) (m : Mark) : Option Scanner :=
  if s.keyAllowed then do
    let s ← s.forgetKey
    some { s with
      keyPlace := some
        { position := s.read.length
          mark := m
          required := !s.inFlow && s.indent == (m.column : Int) } }
  else some s

/-! ### Indentation -/

/-- Opens a block collection at a column if it lies deeper than the innermost one. The start
token goes after the first `position` tokens. -/
def openBlock (s : Scanner) (column position : Nat) (lexeme : Lexeme) (m : Mark) : Scanner :=
  if !s.inFlow && s.indent < (column : Int) then
    { s.insert position lexeme m with
      indent := column
      outerIndents := s.indent :: s.outerIndents }
  else s

/-- Closes block collections that lie deeper than a column, given the indentations around. -/
def closeFrom (s : Scanner) (column : Int) (m : Mark) : List Int → Scanner
  | [] => s
  | outer :: outers =>
    if column < s.indent then
      closeFrom { s.add .blockEnd m m with indent := outer, outerIndents := outers } column m outers
    else s

/-- Closes the block collections that lie deeper than a column. -/
def closeBlocks (s : Scanner) (column : Int) (m : Mark) : Scanner :=
  if s.inFlow then s else s.closeFrom column m s.outerIndents

/-! ### Single tokens -/

/-- A token of the given characters, after which reading goes on at `rest`. -/
def punctuation (s : Scanner) (lexeme : Lexeme) (m : Mark) (width : Nat) (rest : List Glyph) :
    Scanner :=
  { s.add lexeme m { m with index := m.index + width, column := m.column + width } with
    rest := rest }

/-- The end of the text. -/
def endStream (s : Scanner) (m : Mark) : Option Scanner := do
  let m : Mark := if m.column = 0 then m else { m with line := m.line + 1, column := 0 }
  let s ← (s.closeBlocks (-1) m).forgetKey
  some { s.add .streamEnd m m with rest := [], keyAllowed := false }

/-- A directive line. -/
def directiveLine (s : Scanner) (m : Mark) (rest : List Glyph) : Option Scanner := do
  let s ← (s.closeBlocks (-1) m).forgetKey
  let (d, rest) ← Directive.read rest
  some { s.add (.directive d) m m with rest := rest, keyAllowed := false }

/-- The start or the end of a document. -/
def documentBoundary (s : Scanner) (lexeme : Lexeme) (m : Mark) (rest : List Glyph) :
    Option Scanner := do
  let s ← (s.closeBlocks (-1) m).forgetKey
  some { s.punctuation lexeme m 3 rest with keyAllowed := false }

/-- The start of a flow collection, which may itself be a key. -/
def openFlow (s : Scanner) (lexeme : Lexeme) (m : Mark) (rest : List Glyph) : Option Scanner := do
  let s ← s.rememberKey m
  some { s.punctuation lexeme m 1 rest with
    keyPlace := none
    outerKeyPlaces := s.keyPlace :: s.outerKeyPlaces
    keyAllowed := true }

/-- The end of a flow collection. -/
def closeFlow (s : Scanner) (lexeme : Lexeme) (m : Mark) (rest : List Glyph) : Option Scanner := do
  let s ← s.forgetKey
  let s := match s.outerKeyPlaces with
    | [] => s
    | place :: outer => { s with keyPlace := place, outerKeyPlaces := outer }
  some { s.punctuation lexeme m 1 rest with keyAllowed := false }

/-- The comma of a flow collection. -/
def flowEntry (s : Scanner) (m : Mark) (rest : List Glyph) : Option Scanner := do
  let s ← s.forgetKey
  some { s.punctuation .flowEntry m 1 rest with keyAllowed := true }

/-- The dash of a block sequence. -/
def blockEntry (s : Scanner) (m : Mark) (rest : List Glyph) : Option Scanner := do
  if !s.inFlow && !s.keyAllowed then none
  else
    let s ← (s.openBlock m.column s.read.length .blockSequenceStart m).forgetKey
    some { s.punctuation .blockEntry m 1 rest with keyAllowed := true }

/-- The question mark of an explicit key. -/
def explicitKey (s : Scanner) (m : Mark) (rest : List Glyph) : Option Scanner := do
  if !s.inFlow && !s.keyAllowed then none
  else
    let s ← (s.openBlock m.column s.read.length .blockMappingStart m).forgetKey
    some { s.punctuation .key m 1 rest with keyAllowed := !s.inFlow }

/-- The colon before a value. What was read since the remembered place becomes the key. -/
def value (s : Scanner) (m : Mark) (rest : List Glyph) : Option Scanner :=
  match s.keyPlace with
  | some k =>
    let s := (s.insert k.position .key k.mark).openBlock k.mark.column k.position
      .blockMappingStart k.mark
    some { s.punctuation .value m 1 rest with keyPlace := none, keyAllowed := false }
  | none =>
    if !s.inFlow && !s.keyAllowed then none
    else
      let s := s.openBlock m.column s.read.length .blockMappingStart m
      some { s.punctuation .value m 1 rest with keyAllowed := !s.inFlow }

/-- The end mark of what lies between `m` and `rest`; only its place on the line matters. -/
def stopAt (m : Mark) : List Glyph → Mark
  | [] => m
  | g :: _ => g.mark

/-- An alias, an anchor, a tag or a scalar: something that a node, and so a key, may begin
with. -/
def content (s : Scanner) (lexeme : Lexeme) (m : Mark) (rest : List Glyph) : Option Scanner := do
  let s ← s.rememberKey m
  some { s.add lexeme m (stopAt m rest) with rest := rest, keyAllowed := false }

/-- A block scalar, after which a key may begin. -/
def block (s : Scanner) (literal : Bool) (m : Mark) (rest : List Glyph) : Option Scanner := do
  let s ← s.forgetKey
  let (text, rest) ← blockScalar literal s.indent rest
  some { s.add (.scalar false text) m (stopAt m rest) with rest := rest, keyAllowed := true }

/-- A plain scalar; if it took in a line break, a key may follow. -/
def plain (s : Scanner) (g : Glyph) (rest : List Glyph) : Option Scanner := do
  let (text, broken, rest) ←
    plainScalar s.inFlow (s.indent + 1).toNat [] Gap.empty (g :: rest)
  let s ← s.content (.scalar true text) g.mark rest
  some { s with keyAllowed := broken }

/-! ### The next token -/

/-- The characters that no plain scalar starts with. -/
def indicators : Text :=
  "-?:,[]\x7b\x7d#&*!|>'\"%@`".toList

/-- Whether a plain scalar starts with `c`, followed by `rest`. -/
def startsPlain (inFlow : Bool) (c : Char) (rest : List Glyph) : Bool :=
  (!isGap c && !indicators.contains c) ||
    (c == '-' && !startsWithOneOf [' ', '\t'] rest) ||
    (!inFlow && (c == '?' || c == ':') && !startsGap rest)

/-- Reads the token that begins with `g`. -/
def token (s : Scanner) (g : Glyph) (rest : List Glyph) : Option Scanner :=
  let m := g.mark
  if g.char = endChar then s.endStream m
  else if m.column = 0 ∧ g.char = '%' then s.directiveLine m rest
  else if isDocumentMark '-' (g :: rest) then s.documentBoundary .documentStart m (rest.drop 2)
  else if isDocumentMark '.' (g :: rest) then s.documentBoundary .documentEnd m (rest.drop 2)
  else if g.char = '[' then s.openFlow .flowSequenceStart m rest
  else if g.char = '\x7b' then s.openFlow .flowMappingStart m rest
  else if g.char = ']' then s.closeFlow .flowSequenceEnd m rest
  else if g.char = '\x7d' then s.closeFlow .flowMappingEnd m rest
  else if g.char = ',' then s.flowEntry m rest
  else if g.char = '-' && startsGap rest then s.blockEntry m rest
  else if g.char = '?' && (s.inFlow || startsGap rest) then s.explicitKey m rest
  else if g.char = ':' && (s.inFlow || startsGap rest) then s.value m rest
  else if g.char = '*' then do
    let (name, rest) ← anchorName rest
    s.content (.alias name) m rest
  else if g.char = '&' then do
    let (name, rest) ← anchorName rest
    s.content (.anchor name) m rest
  else if g.char = '!' then do
    let (handle, suffix, rest) ← tagProperty s.inFlow rest
    s.content (.tag handle suffix) m rest
  else if g.char = '|' && !s.inFlow then s.block true m rest
  else if g.char = '>' && !s.inFlow then s.block false m rest
  else if g.char = '\'' || g.char = '"' then do
    let (text, rest) ← quotedScalar g.char .text [] Gap.empty rest
    s.content (.scalar false text) m rest
  else if startsPlain s.inFlow g.char rest then s.plain g rest
  else none

/-- Reads the next token, after what separates it from the one before. -/
def step (s : Scanner) : Option Scanner :=
  match skipToToken s.inFlow s.keyAllowed false s.rest with
  | (_, []) => none
  | (allowed, g :: rest) => do
    let s ← { s with keyAllowed := allowed }.forgetStaleKeys g.mark
    (s.closeBlocks g.mark.column g.mark).token g rest

/-- Reads tokens until nothing is left. -/
def run : Nat → Scanner → Option (List Token)
  | 0, _ => none
  | fuel + 1, s => if s.rest.isEmpty then some s.read.reverse else s.step.bind (run fuel)

end Scanner

/-- The tokens of a text. Every token but the last takes at least one glyph. -/
def tokens? (text : Text) : Option (List Token) := do
  let gs ← glyphs text
  Scanner.run (gs.length + 1) { rest := gs }

end CommandTemplates.Yaml
