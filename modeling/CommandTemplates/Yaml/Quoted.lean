import CommandTemplates.Yaml.Folding

/-!
# Quoted scalars

In single quotes only the quote itself is special: it is written twice. In double quotes
a backslash starts an escape, and a backslash before a line break joins the lines.

## Main Definitions

* `escapedChar?` — the character that a one-letter escape stands for
* `codeLength?` — the number of digits after `\x`, `\u` and `\U`
* `quotedScalar` — the text of a quoted scalar and the rest after its closing quote
-/

namespace CommandTemplates.Yaml

/-- The character that a one-letter escape stands for. -/
def escapedChar? : Char → Option Char
  | '0' => some '\x00'
  | 'a' => some '\x07'
  | 'b' => some '\x08'
  | 't' => some '\t'
  | '\t' => some '\t'
  | 'n' => some '\n'
  | 'v' => some '\x0b'
  | 'f' => some '\x0c'
  | 'r' => some '\r'
  | 'e' => some '\x1b'
  | ' ' => some ' '
  | '"' => some '"'
  | '/' => some '/'
  | '\\' => some '\\'
  | 'N' => some '\u0085'
  | '_' => some '\u00a0'
  | 'L' => some '\u2028'
  | 'P' => some '\u2029'
  | _ => none

/-- How many hexadecimal digits follow an escape by number. -/
def codeLength? : Char → Option Nat
  | 'x' => some 2
  | 'u' => some 4
  | 'U' => some 8
  | _ => none

/-- Where the reader of a quoted scalar stands. -/
inductive QuotePosition
  /-- Between characters. -/
  | text
  /-- Inside an escape by number: the digits still to come and the value so far. -/
  | code (left value : Nat)
  deriving DecidableEq, Repr

/-- Reads a quoted scalar after its opening quote. The accumulator holds the text read so
far, last character first. -/
def quotedScalar (quote : Char) :
    QuotePosition → Text → Gap → List Glyph → Option (Text × List Glyph)
  | _, _, _, [] => none
  | .code left value, acc, gap, g :: rest =>
    match hexValue? g.char with
    | none => none
    | some digit =>
      let value := 16 * value + digit
      if left ≤ 1 then
        match scalarOfNat? value with
        | none => none
        | some c => quotedScalar quote .text (c :: acc) gap rest
      else quotedScalar quote (.code (left - 1) value) acc gap rest
  | .text, acc, gap, g :: rest =>
    if isBlank g.char then quotedScalar quote .text acc (gap.addBlank g.char) rest
    else if isBreak g.char then quotedScalar quote .text acc (gap.addBreak g.char) rest
    else if g.char = endChar || isDocumentBoundary (g :: rest) then none
    else
      let acc := gap.joined.reverse ++ acc
      if g.char = quote then
        match rest with
        | h :: rest' =>
          if quote = '\'' ∧ h.char = '\'' then
            quotedScalar quote .text ('\'' :: acc) Gap.empty rest'
          else some (acc.reverse, h :: rest')
        | [] => some (acc.reverse, [])
      else if quote = '"' ∧ g.char = '\\' then
        match rest with
        | [] => none
        | e :: rest' =>
          if isBreak e.char then quotedScalar quote .text acc (.breaks none []) rest'
          else
            match escapedChar? e.char, codeLength? e.char with
            | some c, _ => quotedScalar quote .text (c :: acc) Gap.empty rest'
            | none, some digits => quotedScalar quote (.code digits 0) acc Gap.empty rest'
            | none, none => none
      else quotedScalar quote .text (g.char :: acc) Gap.empty rest

end CommandTemplates.Yaml
