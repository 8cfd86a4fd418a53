import CommandTemplates.Yaml.Glyph

/-!
# Folding of line breaks

Between two words of a plain or quoted scalar stand blanks or line breaks. Blanks on one
line are kept. A single line break becomes a space; of several, the first is dropped.

## Main Definitions

* `Gap` — what has been read since the last word
* `Gap.joined` — the text that stands for it
-/

namespace CommandTemplates.Yaml

/-- What has been read since the last word of a scalar. -/
inductive Gap
  /-- Blanks on one line. -/
  | blanks (text : Text)
  /-- Line breaks: the first, unless it was escaped, and those after it. -/
  | breaks (first : Option Char) (more : Text)
  deriving DecidableEq, Repr

namespace Gap

/-- Nothing between two characters. -/
def empty : Gap := .blanks []

/-- Whether nothing has been read. -/
def isEmpty : Gap → Bool
  | .blanks [] => true
  | _ => false

/-- Whether the line has ended. -/
def hasBreak : Gap → Bool
  | .blanks _ => false
  | .breaks _ _ => true

/-- A blank counts only on the line of the last word. -/
def addBlank (c : Char) : Gap → Gap
  | .blanks text => .blanks (text ++ [c])
  | g => g

/-- A line break makes the blanks before it disappear. -/
def addBreak (c : Char) : Gap → Gap
  | .blanks _ => .breaks (some c) []
  | .breaks first more => .breaks first (more ++ [c])

/-- The text that stands for a gap. -/
def joined : Gap → Text
  | .blanks text => text
  | .breaks (some '\n') [] => [' ']
  | .breaks (some '\n') more => more
  | .breaks (some c) more => c :: more
  | .breaks none more => more

end Gap

end CommandTemplates.Yaml
