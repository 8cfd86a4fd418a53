import CommandTemplates.Document.Audit
import CommandTemplates.Report.Json
import CommandTemplates.Report.Style

/-!
# The report of a check

Which files still need attention, and how it is shown.

## Main Definitions

* `CheckEntry`, `CheckReport` — the report
* `CheckEntry.lines` — the lines of one finding
* `CheckReport.printed`, `CheckReport.json` — the report as text and as JSON
-/

namespace CommandTemplates

open Report (Style Json)

/-- What an audit found in one file. -/
structure CheckEntry where
  file : Text
  group : Option Text
  audit : Audit
  deriving DecidableEq, Repr

/-- What a check found. -/
structure CheckReport where
  /-- How many files were audited. -/
  checked : Nat
  findings : List CheckEntry
  /-- The paths that could not be searched for files. -/
  unreadable : List Text
  deriving DecidableEq, Repr

namespace CheckEntry

/-- The lines of a finding: the file, then one line for every problem. -/
def lines (e : CheckEntry) (color : Bool) : List Text :=
  let group : Text := ['['] ++ e.group.getD "unlisted".toList ++ [']']
  ["  ".toList ++ Style.bold.apply color e.file ++ [' '] ++ Style.dim.apply color group] ++
    (e.audit.literals.map fun found =>
      "    ".toList ++ Style.red.apply color "literal".toList ++ " '".toList ++ found.1 ++
        "' ×".toList ++ Text.ofNat found.2) ++
    (if e.audit.missingNotice then
      ["    ".toList ++ Style.yellow.apply color "missing template notice".toList] else []) ++
    (if e.audit.missingGuide then
      ["    ".toList ++ Style.yellow.apply color "missing customization guide".toList] else [])

/-- A finding as JSON. -/
def json (e : CheckEntry) : Json :=
  .object [
    ("file".toList, .string e.file),
    ("group".toList, .ofOption .string e.group),
    ("literals".toList, .array (e.audit.literals.map fun found =>
      .array [.string found.1, .number found.2])),
    ("missing_notice".toList, .bool e.audit.missingNotice),
    ("missing_guide".toList, .bool e.audit.missingGuide)]

end CheckEntry

namespace CheckReport

/-- Whether there is nothing to do. -/
def isClean (r : CheckReport) : Bool := r.findings.isEmpty && r.unreadable.isEmpty

/-- How many problems make the check fail. -/
def problemCount (r : CheckReport) : Nat := r.findings.length + r.unreadable.length

/-- The lines of a report. -/
def lines (r : CheckReport) (color : Bool) : List Text :=
  if r.isClean then
    [Style.green.apply color "✓".toList ++ [' '] ++ Text.ofNat r.checked ++
      " file(s) checked, no hardcoded values found".toList]
  else
    r.findings.flatMap (·.lines color) ++
      (r.unreadable.map fun path =>
        "  ".toList ++ Style.red.apply color "unreadable".toList ++ [' '] ++ path) ++
      [[], Text.ofNat r.findings.length ++ " of ".toList ++ Text.ofNat r.checked ++
        " file(s) need attention".toList]

/-- A report as it is printed. -/
def printed (r : CheckReport) (color : Bool) : Text := (r.lines color).flatMap (· ++ ['\n'])

/-- A report as JSON. -/
def json (r : CheckReport) : Json :=
  .object [
    ("checked".toList, .number r.checked),
    ("findings".toList, .array (r.findings.map CheckEntry.json)),
    ("unreadable".toList, .array (r.unreadable.map .string))]

end CheckReport

end CommandTemplates
