import CommandTemplates.Text.Search

/-!
# Terminal styles

Parts of a report are set off by colour or weight, if the terminal shows them.

## Main Definitions

* `Style` — the styles in use
* `Style.apply` — a text in a style
-/

namespace CommandTemplates.Report

/-- The styles in use. -/
inductive Style
  | red
  | green
  | yellow
  | bold
  | dim
  | boldCyan
  deriving DecidableEq, Repr

namespace Style

/-- The escape sequences that switch a style on: colour first, then weight. -/
def opening : Style → Text
  | red => "\x1b[31m".toList
  | green => "\x1b[32m".toList
  | yellow => "\x1b[33m".toList
  | bold => "\x1b[1m".toList
  | dim => "\x1b[2m".toList
  | boldCyan => "\x1b[36m\x1b[1m".toList

/-- The escape sequence that switches all styles off. -/
def closing : Text := "\x1b[0m".toList

/-- A text in a style, or as it is when colours are off. -/
def apply (s : Style) (color : Bool) (text : Text) : Text :=
  if color then s.opening ++ text ++ closing else text

end Style

end CommandTemplates.Report
