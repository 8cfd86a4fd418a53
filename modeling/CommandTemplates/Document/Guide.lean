import CommandTemplates.Rules.Basic

/-!
# The customization guide

The guide is the last section of a command file: a heading, a line of instruction and a
table with one row per placeholder.

## Main Definitions

* `Guide.split` — the document before the guide, and the guide
* `Guide.render` — the guide for a list of placeholders
* `Guide.append?` — the document with a guide, unless it has one

## Design Notes

Cells are padded to the width of their column; a longer cell is written whole, so the
columns of such a row do not line up. Widths count Unicode scalars.
-/

namespace CommandTemplates

namespace Guide

/-- The heading of the guide. -/
def heading : Text := "## Customization Guide".toList

/-- Whether a document already has a guide. -/
def isPresent (content : Text) : Bool := content.includes heading

/-- The document before the guide heading, and the rest from the heading on. -/
def split (content : Text) : Text × Text :=
  match Text.cut heading content with
  | some (body, rest) => (body, heading ++ rest)
  | none => (content, [])

/-- A cell filled up with spaces to the width of its column. -/
def pad (width : Nat) (cell : Text) : Text := cell ++ List.replicate (width - cell.length) ' '

/-- The name of a placeholder as code, filled up as if the backticks took no room. -/
def nameCell (name : Text) : Text :=
  ['`'] ++ name ++ ['`'] ++ List.replicate (17 - name.length) ' '

/-- The row of one placeholder. -/
def row (p : Placeholder) : Text :=
  "| ".toList ++ nameCell p.name ++ " | ".toList ++ pad 30 p.description ++ " | ".toList ++
    pad 32 p.sample ++ " |\n".toList

/-- What stands above the rows: heading, instruction and the head of the table. -/
def preamble : Text :=
  ['\n'] ++ heading ++ "\n\n".toList ++
    "To adapt this command for your infrastructure, replace these placeholders:\n\n".toList ++
    "| Placeholder       | Description                    | Example                          |\n".toList ++
    "| ----------------- | ------------------------------ | -------------------------------- |\n".toList

/-- The guide for a list of placeholders, with the empty line that sets it off. -/
def render (placeholders : List Placeholder) : Text := preamble ++ placeholders.flatMap row

/-- The document with a guide at its end. -/
def append? (content : Text) (placeholders : List Placeholder) : Option Text :=
  if isPresent content then none else some (content ++ render placeholders)

end Guide

end CommandTemplates
