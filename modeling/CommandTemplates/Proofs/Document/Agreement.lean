import CommandTemplates.Proofs.Document.Guide
import CommandTemplates.Proofs.Document.Replacement

/-!
# An audit sees what a template would change

`audit` only looks at a document: it counts every literal on the text as it is, and asks for the
guide on the replaced body.  `Group.generalize` does the work: it counts each replacement on
the output of the ones before, after a notice may have gone in, and asks for the guide on the
whole text.  The two are written apart from each other and agree:

* `Notice.isMissing_eq` — they find the same notices missing.
* `Group.generalize_of_clean` — a document that has its notice and no literal keeps its text, up
  to the guide that the audit misses.
* `audit_isClean_iff`, `Group.generalize_isNoop_iff` — an audit finds nothing exactly when there
  is nothing to do.

## What makes them agree

They can only be compared step by step while nothing has happened.  As soon as a notice goes in
or a literal is replaced, both report something, and no longer need to look at one text.
-/

namespace CommandTemplates

open Text

variable {group : Group} {notice content : Text}

/-! ### The three steps -/

/-- A notice is missing exactly when one would be inserted. -/
theorem Notice.isMissing_eq (notice content : Text) :
    Notice.isMissing content = (Notice.insert? content notice).isSome := by
  rw [Notice.isMissing, Notice.insert?]
  cases Notice.isPresent content <;> simp

namespace Group

theorem generalize_noticeAdded :
    (group.generalize notice content).noticeAdded = (Notice.insert? content notice).isSome := rfl

/-- While no notice goes in, the literals of the document itself are replaced. -/
theorem generalize_replacements (hnotice : Notice.insert? content notice = none) :
    (group.generalize notice content).replacements =
      (Replacement.applyAll (Guide.split content).1 group.replacements).2 := by
  rw [generalize, hnotice]
  rfl

/-- In a document without literals a guide is lacking when the whole text wants one. -/
theorem lacksGuide_of_clean (hclean : (Guide.split content).1.IsClean group.literals) :
    group.lacksGuide content = (!Guide.isPresent content && group.wantsGuide content) := by
  rw [lacksGuide, Replacement.applyAll_of_clean hclean]
  by_cases hguide : Guide.heading <:+: content
  · rw [Guide.isPresent_iff.mpr hguide, Bool.not_true, Bool.false_and, Bool.false_and]
  · -- without a heading the body is the whole text
    rw [Guide.split_of_absent hguide]

/-- A document that needs no notice and has no literal is left as it is, but for its guide. -/
theorem generalize_of_clean (hnotice : Notice.insert? content notice = none)
    (hclean : (Guide.split content).1.IsClean group.literals) :
    group.generalize notice content =
      { content := if group.lacksGuide content then content ++ Guide.render group.placeholders
          else content
        noticeAdded := false
        guideAdded := group.lacksGuide content
        replacements := [] } := by
  have happly : Replacement.applyAll (Guide.split content).1 group.replacements =
      ((Guide.split content).1, []) := Replacement.applyAll_of_clean hclean
  rw [lacksGuide_of_clean hclean, generalize, hnotice]
  simp only [Option.getD_none, happly, ← (Guide.split_eq _).1, Guide.append?]
  cases group.wantsGuide content <;> cases Guide.isPresent content <;> rfl

end Group

/-! ### Doing nothing -/

namespace Template

/-- Nothing was done to make a template when nothing was added and nothing was replaced. -/
theorem isNoop_iff {t : Template} :
    t.isNoop = true ↔ t.noticeAdded = false ∧ t.guideAdded = false ∧ t.replacements = [] := by
  rw [isNoop, Bool.and_eq_true, Bool.and_eq_true, Bool.not_eq_true', Bool.not_eq_true',
    List.isEmpty_iff, and_assoc]

end Template

/-- Nothing is done for a document exactly when it needs no notice, has no literal and lacks no
guide. -/
theorem Group.generalize_isNoop_iff :
    (group.generalize notice content).isNoop = true ↔
      Notice.insert? content notice = none ∧
        (Guide.split content).1.IsClean group.literals ∧ group.lacksGuide content = false := by
  rw [Template.isNoop_iff, generalize_noticeAdded, Option.isSome_eq_false_iff,
    Option.isNone_iff_eq_none]
  refine and_congr_right fun hnotice => ?_
  rw [and_comm, generalize_replacements hnotice, Replacement.applyAll_snd_eq_nil_iff]
  refine and_congr_right fun hclean => ?_
  rw [generalize_of_clean hnotice hclean]

/-- Then its text stays. -/
theorem Group.generalize_of_isNoop (h : (group.generalize notice content).isNoop = true) :
    group.generalize notice content = ⟨content, false, false, []⟩ := by
  obtain ⟨hnotice, hclean, hguide⟩ := generalize_isNoop_iff.mp h
  rw [generalize_of_clean hnotice hclean, hguide]
  rfl

/-- An audit for a group misses a notice exactly when one would be inserted. -/
theorem audit_missingNotice (notice : Text) {literals : List Text} :
    (audit content literals (some group)).missingNotice =
      (Notice.insert? content notice).isSome := by
  rw [← Notice.isMissing_eq notice content]
  exact Bool.true_and _

/-- An audit finds nothing exactly when the document needs no notice, has no literal and lacks no
guide. -/
theorem audit_isClean_iff (notice : Text) :
    (audit content group.literals (some group)).isClean = true ↔
      Notice.insert? content notice = none ∧
        (Guide.split content).1.IsClean group.literals ∧ group.lacksGuide content = false := by
  have hliterals : (audit content group.literals (some group)).literals = [] ↔
      (Guide.split content).1.IsClean group.literals := countLiterals_eq_nil_iff
  have hguide : (audit content group.literals (some group)).missingGuide =
      group.lacksGuide content := rfl
  rw [Audit.isClean, Bool.and_eq_true, Bool.and_eq_true, List.isEmpty_iff, Bool.not_eq_true',
    Bool.not_eq_true', hliterals, hguide, audit_missingNotice notice, Option.isSome_eq_false_iff,
    Option.isNone_iff_eq_none, and_comm (a := Text.IsClean _ _), and_assoc]

/-- An audit finds nothing exactly when there is nothing to do, and then the document is a template
already.  It misses a notice exactly when one is inserted; and as long as none is, it finds a
literal exactly when one is replaced. -/
theorem audit_agrees_with_generalize (group : Group) (notice content : Text) :
    let found := audit content group.literals (some group)
    let template := group.generalize notice content
    (found.isClean = true ↔ template.noticeAdded = false ∧ template.guideAdded = false ∧
        template.replacements = []) ∧
      (found.isClean = true → template.content = content) ∧
      found.missingNotice = template.noticeAdded ∧
      (template.noticeAdded = false → (found.literals ≠ [] ↔ template.replacements ≠ [])) := by
  intro found template
  have hiff : found.isClean = true ↔ template.isNoop = true := by
    rw [audit_isClean_iff notice, Group.generalize_isNoop_iff]
  refine ⟨hiff.trans Template.isNoop_iff, ?_, audit_missingNotice notice, ?_⟩
  · intro hclean
    exact congrArg Template.content (Group.generalize_of_isNoop (hiff.mp hclean))
  · intro hnotice
    have hnone : Notice.insert? content notice = none := by
      simpa [template, Group.generalize_noticeAdded] using hnotice
    have hfound : found.literals = [] ↔ template.replacements = [] := by
      rw [Group.generalize_replacements hnone, Replacement.applyAll_snd_eq_nil_iff]
      exact countLiterals_eq_nil_iff
    exact not_congr hfound

end CommandTemplates
