import CommandTemplates.Text.Quoted
import CommandTemplates.Yaml.Meaning
import CommandTemplates.Yaml.Node

/-!
# Documents that are no rules

A well-formed YAML document need not have the shape of a rule set.

## Main Definitions

* `PathStep`, `pathText` — where in the document something stands
* `Found` — what was found instead of what was wanted
* `Mismatch` — what is wrong, and where
* `Mismatch.reason` — the text shown for it

## Design Notes

A mismatch is noticed without its place in some cases, for instance a field that is
missing at the end of its mapping. The innermost node that encloses it then gives the
place. Lines and columns are shown from one; the start of the text is not shown at all.
-/

namespace CommandTemplates

open Yaml (Mark)

/-- One step from a node to a part of it. -/
inductive PathStep
  | field (name : Text)
  | item (index : Nat)
  /-- A field whose key was not written out. -/
  | unnamed
  deriving DecidableEq, Repr

/-- A path from the root of the document, in the way it is shown. -/
def pathText (path : List PathStep) : Text :=
  path.foldl (fun shown step =>
    let dotted : Text := if shown.isEmpty then [] else shown ++ ['.']
    match step with
    | .field name => dotted ++ name
    | .item index => shown ++ ['['] ++ Text.ofNat index ++ [']']
    | .unnamed => dotted ++ ['?']) []

/-- What was found instead of what was wanted. -/
inductive Found
  | sequence
  | mapping
  | null
  | bool (b : Bool)
  | integer (n : Int) (width : Yaml.IntegerWidth)
  | float (f : Yaml.FloatValue)
  | text (t : Text)
  deriving DecidableEq, Repr

/-- The text shown for what was found. -/
def Found.shown : Found → Text
  | .sequence => "sequence".toList
  | .mapping => "map".toList
  | .null => "unit value".toList
  | .bool b => "boolean `".toList ++ (if b then "true" else "false").toList ++ ['`']
  | .integer n width =>
    let digits : Text := (if n < 0 then ['-'] else []) ++ Text.ofNat n.natAbs
    let suffix := match width with
      | .word => ""
      | .wideUnsigned => " as u128"
      | .wideSigned => " as i128"
    "integer `".toList ++ digits ++ ['`'] ++ suffix.toList
  | .float f => "floating point `".toList ++ f.shown ++ ['`']
  | .text t => "string ".toList ++ t.quoted

/-- What is wrong. -/
inductive MismatchCause
  | missingField (name : Text)
  | repeatedField (name : Text)
  | unknownPolicy (word : Text)
  | wrongKind (found : Found) (wanted : Text)
  | wrongText (found wanted : Text)
  deriving DecidableEq, Repr

/-- The text shown for what is wrong. -/
def MismatchCause.message : MismatchCause → Text
  | .missingField name => "missing field `".toList ++ name ++ ['`']
  | .repeatedField name => "duplicate field `".toList ++ name ++ ['`']
  | .unknownPolicy word =>
    "unknown variant `".toList ++ word ++ "`, expected `always` or `when-used`".toList
  | .wrongKind found wanted =>
    "invalid type: ".toList ++ found.shown ++ ", expected ".toList ++ wanted
  | .wrongText found wanted =>
    "invalid value: string ".toList ++ found.quoted ++ ", expected ".toList ++ wanted

/-- What is wrong, and where. -/
structure Mismatch where
  cause : MismatchCause
  site : Option (List PathStep × Mark) := none
  deriving DecidableEq, Repr

namespace Mismatch

/-- The text shown for a mismatch. -/
def reason (m : Mismatch) : Text :=
  match m.site with
  | none => m.cause.message
  | some (path, mark) =>
    let location : Text := if path.isEmpty then [] else pathText path ++ ": ".toList
    let place : Text :=
      if mark.line = 0 ∧ mark.column = 0 then []
      else " at line ".toList ++ Text.ofNat (mark.line + 1) ++ " column ".toList ++
        Text.ofNat (mark.column + 1)
    location ++ m.cause.message ++ place

/-- The mismatch with a place, unless it has one. -/
def located (path : List PathStep) (mark : Mark) (m : Mismatch) : Mismatch :=
  { m with site := m.site.or (some (path, mark)) }

end Mismatch

end CommandTemplates
