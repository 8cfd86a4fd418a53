import CommandTemplates.Text.Search

/-!
# Frontmatter and the template notice

A command file opens with frontmatter between two `---` delimiters. The template
notice goes right after it.

## Main Definitions

* `Frontmatter.split` — the frontmatter and the text after its closing delimiter
* `Notice.isPresent` — whether a document carries a notice, recognised by a marker
* `Notice.insert?` — the document with the notice, unless it has one or has no frontmatter

## Design Notes

The closing delimiter is the first `---` after the opening one, wherever it stands: it
need not be a line of its own. The marker alone decides whether a notice is present, and
a custom notice need not contain it.
-/

namespace CommandTemplates

namespace Frontmatter

/-- The delimiter before and after the frontmatter. -/
def delimiter : Text := "---".toList

/-- The frontmatter and the text after its closing delimiter. -/
def split (content : Text) : Option (Text × Text) :=
  (Text.after? delimiter content).bind (Text.cut delimiter)

end Frontmatter

namespace Notice

/-- The text by which a notice is recognised. -/
def marker : Text := "📋 TEMPLATE".toList

/-- The notice of a rule set that does not set one. -/
def standard : Text :=
  ("> **📋 TEMPLATE**: This command is a template. See \"Customization Guide\" below to adapt " ++
    "for your infrastructure.").toList

/-- Whether a document already carries a notice. -/
def isPresent (content : Text) : Bool := content.includes marker

/-- The document with the notice between frontmatter and body, set off by blank lines. -/
def insert? (content notice : Text) : Option Text :=
  if isPresent content then none
  else
    (Frontmatter.split content).map fun parts =>
      Frontmatter.delimiter ++ parts.1 ++ Frontmatter.delimiter ++ ['\n', '\n'] ++
        notice.dropTrailing '\n' ++ ['\n', '\n'] ++ parts.2

end Notice

end CommandTemplates
