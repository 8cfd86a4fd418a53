import CommandTemplates.Yaml.Folding

/-!
# Plain scalars

A plain scalar runs from its first character to a comment, a `: `, the mark of a document
boundary, or a line that is indented too little. In a flow collection it also ends at a
flow indicator.

## Main Definitions

* `plainScalar` — the text of a plain scalar, whether its line has ended, and the rest
-/

namespace CommandTemplates.Yaml

/-- The characters that structure flow collections. -/
def flowIndicators : Text := [',', '[', ']', '\x7b', '\x7d']

/-- Reads a plain scalar. `indent` is the least column of its continuation lines, and the
accumulator holds the text read so far, last character first. -/
def plainScalar (inFlow : Bool) (indent : Nat) :
    Text → Gap → List Glyph → Option (Text × Bool × List Glyph)
  | acc, gap, [] => some (acc.reverse, gap.hasBreak, [])
  | acc, gap, g :: rest =>
    if isBlank g.char then
      if gap.hasBreak && g.mark.column < indent && g.char == '\t' then none
      else plainScalar inFlow indent acc (gap.addBlank g.char) rest
    else if isBreak g.char then plainScalar inFlow indent acc (gap.addBreak g.char) rest
    else if g.char = endChar
        || (!gap.isEmpty && ((!inFlow && g.mark.column < indent) || g.char == '#' ||
          isDocumentBoundary (g :: rest))) then
      some (acc.reverse, gap.hasBreak, g :: rest)
    else if inFlow && g.char == ':' && startsWithOneOf ('?' :: flowIndicators) rest then none
    else if (g.char == ':' && startsGap rest) || (inFlow && flowIndicators.contains g.char) then
      some (acc.reverse, gap.hasBreak, g :: rest)
    else plainScalar inFlow indent (g.char :: (gap.joined.reverse ++ acc)) Gap.empty rest

end CommandTemplates.Yaml
