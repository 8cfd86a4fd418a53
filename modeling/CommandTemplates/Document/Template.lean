import CommandTemplates.Document.Guide
import CommandTemplates.Document.Notice

/-!
# Templates

A document becomes a template in three steps: the notice is inserted, the literals of the group
are replaced, the guide is added.

## Main Definitions

* `Replacement.applyAll` — ordered literal replacement, with the number of matches of each
* `Template` — the template made of a document, and what was done for it
* `Group.generalize` — the three steps

## Design Notes

Replacements see only what stands before the guide, so that the samples in an existing
guide keep the values that the replacements remove elsewhere.
-/

namespace CommandTemplates

/-- A replacement and how often it matched. -/
structure ReplacementCount where
  replacement : Replacement
  count : Nat
  deriving DecidableEq, Repr

/-- The total over all replacements. -/
def ReplacementCount.total : List ReplacementCount → Nat
  | [] => 0
  | c :: counts => c.count + total counts

namespace Replacement

/-- Applies replacements in order, each to the output of the one before, and counts those
that matched. -/
def applyAll (text : Text) : List Replacement → Text × List ReplacementCount
  | [] => (text, [])
  | r :: rs =>
    match Text.occurrences r.literal text with
    | 0 => applyAll text rs
    | n + 1 =>
      let rest := applyAll (Text.replaceAll r.literal r.substitute text) rs
      (rest.1, ⟨r, n + 1⟩ :: rest.2)

end Replacement

/-- The template made of a document, and what was done for it. -/
structure Template where
  content : Text
  noticeAdded : Bool
  guideAdded : Bool
  replacements : List ReplacementCount
  deriving DecidableEq, Repr

namespace Template

/-- How many matches were replaced. -/
def replaced (t : Template) : Nat := ReplacementCount.total t.replacements

/-- Whether the document was left as it was. -/
def isNoop (t : Template) : Bool := !t.noticeAdded && !t.guideAdded && t.replacements.isEmpty

end Template

/-- Makes a document of this group a template: notice, replacements, guide. -/
def Group.generalize (group : Group) (notice content : Text) : Template :=
  let noticed := Notice.insert? content notice
  let parts := Guide.split (noticed.getD content)
  let body := Replacement.applyAll parts.1 group.replacements
  let text := body.1 ++ parts.2
  let guided := if group.wantsGuide text then Guide.append? text group.placeholders else none
  { content := guided.getD text
    noticeAdded := noticed.isSome
    guideAdded := guided.isSome
    replacements := body.2 }

/-- Makes a document a template again and again, each time from the text of the time before. -/
def Group.generalizeTimes (group : Group) (notice : Text) : Nat → Text → List Template
  | 0, _ => []
  | n + 1, content =>
    let t := group.generalize notice content
    t :: group.generalizeTimes notice n t.content

end CommandTemplates
