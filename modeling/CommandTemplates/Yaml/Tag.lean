import CommandTemplates.Yaml.Glyph

/-!
# Names, tags and directives

What stands before a node, and what stands before a document.

## Main Definitions

* `anchorName` — the name after `&` or `*`
* `tagProperty` — a tag, split into handle and suffix
* `Directive` — `%YAML` and `%TAG` lines

## Design Notes

A tag is `!<verbatim>`, `!handle!suffix` or `!suffix`. The lone `!` has an empty handle and
the suffix `!`. Escaped octets in a tag are decoded as UTF-8.
-/

namespace CommandTemplates.Yaml

/-- The text of glyphs. -/
def textOf (gs : List Glyph) : Text := gs.map (·.char)

/-- Reads a name, which is not empty. -/
def name? (text : List Glyph) : Option (Text × List Glyph) :=
  match text.span fun g => isNameChar g.char with
  | ([], _) => none
  | (name, rest) => some (textOf name, rest)

/-- Reads the name of an anchor or alias, which ends at a gap or an indicator. -/
def anchorName (text : List Glyph) : Option (Text × List Glyph) := do
  let (name, rest) ← name? text
  if startsGap rest || startsWithOneOf ['?', ':', ',', ']', '\x7d', '%', '@', '`'] rest then
    some (name, rest)
  else none

/-! ### Tags -/

/-- The characters of a tag; a verbatim one may also hold flow indicators. -/
def isTagChar (verbatim : Bool) (c : Char) : Bool :=
  isNameChar c || ";/?:@&=+$.%!~*'()".toList.contains c ||
    (verbatim && [',', '[', ']'].contains c)

/-- How many octets an UTF-8 sequence has that starts with this octet. -/
def octetCount? (octet : Nat) : Option Nat :=
  if octet < 0x80 then some 1
  else if 0xC0 ≤ octet ∧ octet < 0xE0 then some 2
  else if 0xE0 ≤ octet ∧ octet < 0xF0 then some 3
  else if 0xF0 ≤ octet ∧ octet < 0xF8 then some 4
  else none

/-- The character that an UTF-8 sequence encodes; U+FFFD where it encodes none. -/
def charOfOctets (octets : List Nat) : Char :=
  match octets with
  | [] => '\ufffd'
  | first :: more =>
    let lead := if more.isEmpty then first else first % (1 <<< (6 - more.length))
    (scalarOfNat? (more.foldl (fun value octet => 64 * value + octet % 64) lead)).getD '\ufffd'

/-- Reads the characters of a tag. The octets are those of an escaped character that is not
complete yet, with the number of those still to come. -/
def tagChars (verbatim : Bool) : Text → List Nat → Nat → List Glyph → Option (Text × List Glyph)
  | acc, _, left, [] => if left = 0 then some (acc.reverse, []) else none
  | acc, octets, left, g :: rest =>
    if g.char = '%' then
      match rest with
      | h :: l :: rest' =>
        match hexValue? h.char, hexValue? l.char with
        | some high, some low =>
          let octet := 16 * high + low
          if left = 0 then
            match octetCount? octet with
            | none => none
            | some 1 => tagChars verbatim (Char.ofNat octet :: acc) [] 0 rest'
            | some n => tagChars verbatim acc [octet] (n - 1) rest'
          else if octet / 64 = 2 then
            if left = 1 then
              tagChars verbatim (charOfOctets (octets ++ [octet]) :: acc) [] 0 rest'
            else tagChars verbatim acc (octets ++ [octet]) (left - 1) rest'
          else none
        | _, _ => none
      | _ => none
    else if left = 0 then
      if isTagChar verbatim g.char then tagChars verbatim (g.char :: acc) [] 0 rest
      else some (acc.reverse, g :: rest)
    else none

/-- Reads a tag after its `!`: handle, suffix and the rest. -/
def shorthandTag (text : List Glyph) : Option (Text × Text × List Glyph) :=
  let (name, rest) := text.span fun g => isNameChar g.char
  match rest with
  | g :: rest' =>
    if g.char = '!' then do
      let (suffix, rest) ← tagChars false [] [] 0 rest'
      if suffix.isEmpty then none else some (['!'] ++ textOf name ++ ['!'], suffix, rest)
    else plainSuffix name rest
  | [] => plainSuffix name rest
where
  /-- A tag without a handle of its own. -/
  plainSuffix (name rest : List Glyph) : Option (Text × Text × List Glyph) := do
    let (suffix, rest) ← tagChars false [] [] 0 rest
    match textOf name ++ suffix with
    | [] => some ([], ['!'], rest)
    | suffix => some (['!'], suffix, rest)

/-- Reads a tag after its first `!`. -/
def tagProperty (inFlow : Bool) (text : List Glyph) : Option (Text × Text × List Glyph) := do
  let (handle, suffix, rest) ←
    match text with
    | g :: rest =>
      if g.char = '<' then do
        let (suffix, rest) ← tagChars true [] [] 0 rest
        match suffix, rest with
        | [], _ => none
        | _, [] => none
        | _, h :: rest => if h.char = '>' then some ([], suffix, rest) else none
      else shorthandTag text
    | [] => shorthandTag text
  if startsGap rest || (inFlow && startsWithOneOf [','] rest) then some (handle, suffix, rest)
  else none

/-! ### Directives -/

/-- A line before a document. -/
inductive Directive
  | version (major minor : Nat)
  | tag (handle opening : Text)
  deriving DecidableEq, Repr

namespace Directive

/-- Reads a version number of one to nine digits. -/
def number? (text : List Glyph) : Option (Nat × List Glyph) :=
  match text.span fun g => g.char.isDigit with
  | ([], _) => none
  | (digits, rest) =>
    if digits.length ≤ 9 then
      some (digits.foldl (fun n g => 10 * n + (g.char.toNat - '0'.toNat)) 0, rest)
    else none

/-- Reads the two numbers of a version. -/
def version? (text : List Glyph) : Option (Directive × List Glyph) := do
  let (major, rest) ← number? (skipBlanks text)
  if startsWithOneOf ['.'] rest then
    let (minor, rest) ← number? (rest.drop 1)
    some (.version major minor, rest)
  else none

/-- Reads a handle: `!`, `!!` or a name between two `!`. -/
def handle? (text : List Glyph) : Option (Text × List Glyph) :=
  match text with
  | [] => none
  | g :: rest =>
    if g.char = '!' then
      let (name, rest) := rest.span fun g => isNameChar g.char
      if startsWithOneOf ['!'] rest then some (['!'] ++ textOf name ++ ['!'], rest.drop 1)
      else if name.isEmpty then some (['!'], rest)
      else none
    else none

/-- Reads the handle and the opening of tags that it stands for. -/
def tag? (text : List Glyph) : Option (Directive × List Glyph) := do
  let (handle, rest) ← handle? (skipBlanks text)
  let blank := match rest with
    | g :: _ => isBlank g.char
    | [] => false
  if blank then
    let (opening, rest) ← tagChars true [] [] 0 (skipBlanks rest)
    if opening.isEmpty || !startsGap rest then none else some (.tag handle opening, rest)
  else none

/-- Reads a directive after its `%`, up to the start of the next line. -/
def read (text : List Glyph) : Option (Directive × List Glyph) := do
  let (name, rest) ← name? text
  if startsGap rest then
    let (directive, rest) ←
      if name = "YAML".toList then version? rest
      else if name = "TAG".toList then tag? rest
      else none
    let rest ← endOfLine? rest
    some (directive, rest)
  else none

end Directive

end CommandTemplates.Yaml
