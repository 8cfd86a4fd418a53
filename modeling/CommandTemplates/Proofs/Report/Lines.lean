import CommandTemplates.Report.Apply
import Mathlib.Algebra.GroupWithZero.Nat

/-!
# What the lines of a report say

A report says the same with colours and without: colours are codes put between its characters, and
a terminal shows none of them.  What is left without them is plain text: the name of a group, the
name of a file with what happened to it, a literal with its substitute.

## Main Definitions

* `Report.Coloured` — a text with colour codes put in
* `FileReport.plainLine`, `ReplacementCount.plainLine` — lines without colours, word by word

## Main Results

* `Report.Style.coloured_apply` — a style puts in colour codes
* `FileReport.line_false`, `ReplacementCount.line_false` — what lines say without colours
* `FileReport.coloured_line`, `ReplacementCount.coloured_line` — with colours they say the same

## Design Notes

The plain lines are written out here once more, apart from the styles: they are what a line has to
say, and `FileReport.line` is how it comes to say that.
-/

namespace CommandTemplates

namespace Report

/-! ### Colours -/

/-- A text with colour codes put in, each of them an escape character, a bracket, digits and the
letter `m`. -/
inductive Coloured : Text → Text → Prop
  | nil : Coloured [] []
  | char (c : Char) (h : Coloured plain shown) : Coloured (c :: plain) (c :: shown)
  | code (digits : Text) (hdigits : ∀ c ∈ digits, c.isDigit = true) (h : Coloured plain shown) :
      Coloured plain ("\x1b[".toList ++ digits ++ 'm' :: shown)

namespace Coloured

variable {plain shown plain' shown' : Text}

/-- No colours at all are colours, too. -/
theorem refl (text : Text) : Coloured text text := by
  induction text with
  | nil => exact .nil
  | cons c text ih => exact .char c ih

/-- A code alone has nothing to show. -/
theorem ofDigits (digits : Text) (h : digits.all Char.isDigit = true) :
    Coloured [] ("\x1b[".toList ++ digits ++ ['m']) :=
  .code digits (List.all_eq_true.mp h) .nil

/-- Text that is coloured in parts is coloured as a whole. -/
theorem append (h : Coloured plain shown) (h' : Coloured plain' shown') :
    Coloured (plain ++ plain') (shown ++ shown') := by
  induction h with
  | nil => exact h'
  | char c _ ih => exact .char c ih
  | code digits hdigits _ ih =>
    rw [List.append_assoc, List.cons_append]
    exact .code digits hdigits ih

/-- Text that is put together from coloured parts is coloured. -/
theorem flatMap {α : Type} {f g : α → Text} {as : List α}
    (h : ∀ a ∈ as, Coloured (f a) (g a)) : Coloured (as.flatMap f) (as.flatMap g) := by
  induction as with
  | nil => exact .nil
  | cons a as ih =>
    rw [List.forall_mem_cons] at h
    rw [List.flatMap_cons, List.flatMap_cons]
    exact h.1.append (ih h.2)

end Coloured

namespace Style

@[simp] theorem apply_false (style : Style) (text : Text) : style.apply false text = text := rfl

/-- What switches a style on shows nothing by itself. -/
theorem coloured_opening (style : Style) : Coloured [] style.opening := by
  cases style with
  | red => exact .ofDigits ['3', '1'] rfl
  | green => exact .ofDigits ['3', '2'] rfl
  | yellow => exact .ofDigits ['3', '3'] rfl
  | bold => exact .ofDigits ['1'] rfl
  | dim => exact .ofDigits ['2'] rfl
  | boldCyan => exact (Coloured.ofDigits ['3', '6'] rfl).append (.ofDigits ['1'] rfl)

/-- A style puts in colour codes. -/
theorem coloured_apply (style : Style) (color : Bool) (text : Text) :
    Coloured text (style.apply color text) := by
  cases color with
  | false => exact .refl text
  | true =>
    have hclosing : Coloured [] closing := .ofDigits ['0'] rfl
    have h := (style.coloured_opening.append (.refl text)).append hclosing
    rwa [List.nil_append, List.append_nil] at h

end Style

end Report

open Report (Coloured Style)

/-! ### Lines of a file -/

namespace FileStatus

/-- What is said of a status. -/
def plainLabel (dryRun : Bool) : FileStatus → Text
  | updated => if dryRun then "would update".toList else "✓ updated".toList
  | unchanged => "unchanged".toList
  | skipped => "skipped (not found)".toList

/-- Without colour the label of a status is its plain text. -/
theorem label_false (status : FileStatus) (dryRun : Bool) :
    status.label false dryRun = status.plainLabel dryRun := by
  cases status <;> cases dryRun <;> rfl

/-- With colour the label has the same text to show. -/
theorem coloured_label (status : FileStatus) (color dryRun : Bool) :
    Coloured (status.plainLabel dryRun) (status.label color dryRun) := by
  cases status <;> cases dryRun <;> exact Style.coloured_apply _ color _

end FileStatus

namespace FileReport

/-- What is said of an updated file in brackets: how many matches were replaced, unless there were
none, and whether it got a notice and a guide. -/
def plainDetails (f : FileReport) : Text :=
  let replaced := (f.replacements.map (·.count)).sum
  let parts :=
    (if 0 < replaced then [Text.ofNat replaced ++ " replacement(s)".toList] else []) ++
      (if f.noticeAdded then ["notice".toList] else []) ++
      (if f.guideAdded then ["guide".toList] else [])
  if parts = [] then [] else " (".toList ++ List.intercalate ", ".toList parts ++ ")".toList

/-- The line of a file without colours. -/
def plainLine (f : FileReport) (dryRun : Bool) : Text :=
  "  ".toList ++ f.file ++ " ".toList ++ f.status.plainLabel dryRun ++
    (if f.status = .updated then f.plainDetails else [])

/-- The number of replacements of a file is the sum of its counts. -/
theorem replaced_eq_sum (f : FileReport) : f.replaced = (f.replacements.map (·.count)).sum := by
  rw [replaced]
  induction f.replacements with
  | nil => rfl
  | cons c counts ih => rw [ReplacementCount.total, ih, List.map_cons, List.sum_cons]

/-- A line is the plain one with styles for the name and the status. -/
theorem line_eq (f : FileReport) (color dryRun : Bool) : f.line color dryRun =
    "  ".toList ++ Style.bold.apply color f.file ++ " ".toList ++ f.status.label color dryRun ++
      (if f.status = .updated then f.plainDetails else []) := by
  rw [line, plainDetails, ← replaced_eq_sum, ite_and, ite_not]
  rfl

/-- Without colour the line of a file is plain text: its name, the status and what was done. -/
theorem line_false (f : FileReport) (dryRun : Bool) : f.line false dryRun = f.plainLine dryRun := by
  rw [line_eq, Style.apply_false, f.status.label_false, plainLine]

/-- The line of a file says the same with colours and without. -/
theorem coloured_line (f : FileReport) (color dryRun : Bool) :
    Coloured (f.plainLine dryRun) (f.line color dryRun) := by
  rw [line_eq, plainLine]
  have hname := (Coloured.refl "  ".toList).append (Style.coloured_apply .bold color f.file)
  exact ((hname.append (.refl _)).append (f.status.coloured_label color dryRun)).append (.refl _)

end FileReport

namespace ReplacementCount

/-- The line of a replacement without colours. -/
def plainLine (c : ReplacementCount) : Text :=
  "      ".toList ++ c.replacement.literal ++ " → ".toList ++ c.replacement.substitute ++
    " ×".toList ++ Text.ofNat c.count

/-- Without colour the line of a replacement is plain text: the literal, its substitute and the
number of matches. -/
theorem line_false (c : ReplacementCount) : c.line false = c.plainLine := rfl

/-- The line of a replacement says the same with colours and without. -/
theorem coloured_line (c : ReplacementCount) (color : Bool) :
    Coloured c.plainLine (c.line color) := by
  have hliteral := (Coloured.refl "      ".toList).append
    (Style.coloured_apply .red color c.replacement.literal)
  have hsubstitute := (hliteral.append (.refl " → ".toList)).append
    (Style.coloured_apply .green color c.replacement.substitute)
  exact (hsubstitute.append (.refl " ×".toList)).append (.refl _)

end ReplacementCount

end CommandTemplates
