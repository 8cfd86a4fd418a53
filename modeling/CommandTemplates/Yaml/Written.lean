import CommandTemplates.Yaml.Meaning

/-!
# Writing scalars

A text is written in the simplest style that reads back as the same text.

## Main Definitions

* `Style` — plain, single-quoted, double-quoted or literal
* `styleOf` — the style of a text
* `written` — a text in its style, up to the end of its last line

## Design Notes

Text that spans lines is a literal block, other text is plain if it can be. A separator
(U+2028 or U+2029) breaks a line without ending it for the writer: in single quotes and
in literal blocks the text after it is indented like a new line. Continuation lines are
indented by a number of spaces that the place in the document gives.
-/

namespace CommandTemplates.Yaml

/-- How a scalar is written. -/
inductive Style
  | plain
  | singleQuoted
  | doubleQuoted
  | literal
  deriving DecidableEq, Repr

/-! ### What a text consists of -/

/-- Whether a character can be written as it is. -/
def isPrintable (c : Char) : Bool :=
  let n := c.toNat
  n == 0x0A || (0x20 ≤ n && n ≤ 0x7E) ||
    (0xA0 ≤ n && n != 0xFEFF && n != 0xFFFE && n != 0xFFFF)

/-- Whether a character breaks the line or ends the text, or is blank. -/
def isWordEnd (c : Char) : Bool :=
  isGap c || c == '\r' || c == '\u0085'

/-- Whether the text is empty or starts with a character that ends a word. -/
def startsWordEnd : Text → Bool
  | [] => true
  | c :: _ => isWordEnd c

/-- Whether some character with `p` is directly followed by one with `q`. -/
def hasPair (p q : Char → Bool) : Text → Bool
  | c :: d :: text => (p c && q d) || hasPair p q (d :: text)
  | _ => false

/-- Whether a colon stands at the end of a word. -/
def hasValueMark : Text → Bool
  | [] => false
  | c :: text => (c == ':' && startsWordEnd text) || hasValueMark text

/-- The characters that a plain scalar cannot start with. -/
def openingIndicators : Text := "#,[]\x7b\x7d&*!|>'\"%@`".toList

/-- Whether the start of a text would be read as structure. -/
def startsLikeStructure (text : Text) : Bool :=
  "---".toList.isPrefixOf text || "...".toList.isPrefixOf text ||
    match text with
    | [] => false
    | c :: rest =>
      openingIndicators.contains c || ((c == '-' || c == '?') && startsWordEnd rest)

/-- Whether a text would be read as structure somewhere. -/
def looksLikeStructure (text : Text) : Bool :=
  startsLikeStructure text || hasValueMark text || hasPair isWordEnd (· == '#') text

/-- Whether a text means something else than itself when written plain. -/
def isAmbiguous (text : Text) : Bool := meaningOf text != .text || isZeroPadded text

/-! ### The choice of a style -/

/-- Whether a plain scalar reads back as the text. -/
def canBePlain (text : Text) : Bool :=
  text.all isPrintable && !text.any isBreak && !looksLikeStructure text &&
    text.head? != some ' ' && text.getLast? != some ' '

/-- Whether a text in single quotes reads back. -/
def canBeSingleQuoted (text : Text) : Bool :=
  text.all isPrintable && !hasPair isBreak (· == ' ') text && !hasPair (· == ' ') isBreak text

/-- Whether a literal block reads back as the text. -/
def canBeLiteral (text : Text) : Bool :=
  text.all isPrintable && !hasPair (· == ' ') isBreak text && text.getLast? != some ' '

/-- The style of a text. -/
def styleOf (text : Text) : Style :=
  if text.contains '\n' then if canBeLiteral text then .literal else .doubleQuoted
  else if !isAmbiguous text && canBePlain text then .plain
  else if canBeSingleQuoted text then .singleQuoted
  else .doubleQuoted

/-! ### The styles -/

/-- The spaces that indent a line. -/
def spaces (n : Nat) : Text := List.replicate n ' '

/-- The digits of a number in upper-case hexadecimal, filled up with zeros. -/
def hexDigits (width n : Nat) : Text :=
  let digits := (Nat.toDigits 16 n).map Char.toUpper
  List.replicate (width - digits.length) '0' ++ digits

/-- A character in double quotes. -/
def doubleQuotedChar (c : Char) : Text :=
  if c = '"' ∨ c = '\\' then ['\\', c]
  else if isPrintable c ∧ ¬ isBreak c then [c]
  else
    match c with
    | '\x00' => ['\\', '0']
    | '\x07' => ['\\', 'a']
    | '\x08' => ['\\', 'b']
    | '\t' => ['\\', 't']
    | '\n' => ['\\', 'n']
    | '\x0b' => ['\\', 'v']
    | '\x0c' => ['\\', 'f']
    | '\r' => ['\\', 'r']
    | '\x1b' => ['\\', 'e']
    | '\u0085' => ['\\', 'N']
    | '\u2028' => ['\\', 'L']
    | '\u2029' => ['\\', 'P']
    | c =>
      let n := c.toNat
      if n ≤ 0xFF then ['\\', 'x'] ++ hexDigits 2 n
      else if n ≤ 0xFFFF then ['\\', 'u'] ++ hexDigits 4 n
      else ['\\', 'U'] ++ hexDigits 8 n

/-- The inside of single quotes. The flag tells that a break stands before. -/
def singleQuotedBody (indent : Nat) : Bool → Text → Text
  | broken, [] => if broken then spaces indent else []
  | broken, c :: text =>
    if isBreak c then c :: singleQuotedBody indent true text
    else
      (if broken then spaces indent else []) ++ (if c = '\'' then ['\'', '\''] else [c]) ++
        singleQuotedBody indent false text

/-- The lines of a literal block. The flag tells that a break stands before. -/
def literalBody (indent : Nat) : Bool → Text → Text
  | _, [] => []
  | broken, c :: text =>
    if isBreak c then c :: literalBody indent true text
    else (if broken then spaces indent else []) ++ c :: literalBody indent false text

/-- The header of a literal block: its indentation if the text starts blank, and what
becomes of the breaks at its end. -/
def literalHeader (text : Text) : Text :=
  let indentation : Text :=
    match text with
    | [] => []
    | c :: _ => if c = ' ' ∨ isBreak c then ['2'] else []
  let chomping : Text :=
    match text.reverse with
    | [] => ['-']
    | [c] => if isBreak c then ['+'] else ['-']
    | c :: d :: _ => if !isBreak c then ['-'] else if isBreak d then ['+'] else []
  ['|'] ++ indentation ++ chomping

/-- A text in its style, up to the end of its last line; further lines are indented. -/
def written (indent : Nat) (text : Text) : Text :=
  match styleOf text with
  | .plain => text ++ ['\n']
  | .singleQuoted => ['\''] ++ singleQuotedBody indent false text ++ ['\'', '\n']
  | .doubleQuoted => ['"'] ++ text.flatMap doubleQuotedChar ++ ['"', '\n']
  | .literal =>
    literalHeader text ++ ['\n'] ++ literalBody indent true text ++
      (if text.getLast?.any isBreak then [] else ['\n'])

end CommandTemplates.Yaml
