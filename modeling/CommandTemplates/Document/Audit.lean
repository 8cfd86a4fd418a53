import CommandTemplates.Document.Template

/-!
# Auditing a document

An audit reports what is still to be done for a document to be a template, and does nothing.

## Main Definitions

* `Text.countLiterals` — the literals that occur in a text, with their counts
* `Audit` — what was found in one document
* `audit` — the audit of a document against a list of literals

## Design Notes

The literals are counted before the guide only. Whether a notice or a guide is missing is
asked only of a document that belongs to a group.
-/

namespace CommandTemplates

/-- The literals that occur in a text, with their counts, in the order given. -/
def Text.countLiterals (text : Text) (literals : List Text) : List (Text × Nat) :=
  literals.filterMap fun literal =>
    match Text.occurrences literal text with
    | 0 => none
    | n + 1 => some (literal, n + 1)

/-- What an audit found in one document. -/
structure Audit where
  literals : List (Text × Nat)
  missingNotice : Bool
  missingGuide : Bool
  deriving DecidableEq, Repr

/-- Whether an audit found nothing. -/
def Audit.isClean (a : Audit) : Bool := a.literals.isEmpty && !a.missingNotice && !a.missingGuide

/-- Whether a document has room for a notice and lacks it. -/
def Notice.isMissing (content : Text) : Bool :=
  !Notice.isPresent content && (Frontmatter.split content).isSome

/-- Whether a document lacks the guide that its group wants for it once its literals are
replaced. -/
def Group.lacksGuide (group : Group) (content : Text) : Bool :=
  !Guide.isPresent content &&
    group.wantsGuide (Replacement.applyAll (Guide.split content).1 group.replacements).1

/-- Audits a document against literals and, if it belongs to a group, for notice and guide. -/
def audit (content : Text) (literals : List Text) (group : Option Group) : Audit where
  literals := (Guide.split content).1.countLiterals literals
  missingNotice := group.isSome && Notice.isMissing content
  missingGuide := group.any (·.lacksGuide content)

end CommandTemplates
