import CommandTemplates.Proofs.Document.Idempotence
import CommandTemplates.Proofs.Document.Notice

/-!
# What becomes of a guide that is there

The guide of a document is everything from its first heading on.  Replacements see only what
stands before it, and no second guide is put behind it, so that it goes through both steps as it
is.  The notice step comes before the split and knows nothing of guides: the notice goes behind
the second `---` of the text, and that may stand in the guide.

* `Guide.infix_insert?` — no notice breaks a heading.
* `Group.generalize_of_present` — a document with a heading gets no guide, and the guide that it
  has after the notice step is the end of its template.
* `guide_suffix_generalize_iff` — the guide that it had *before* the notice step is the end of its
  template unless a notice goes in behind the heading, and then it is not.

## Frontmatter that is never closed

A guide has dashes in its table.  A document that opens frontmatter and does not close it gets
no notice at first, and a guide; the next time the dashes of that guide close the frontmatter, and
the notice goes into the table (`guide_altered_by_notice`).
-/

namespace CommandTemplates

open Text

variable {content notice front rest text : Text}

/-! ### Splitting longer texts -/

namespace Guide

/-- The part behind the split begins with the heading, where there is one. -/
theorem prefix_split_of_present (h : heading <:+: text) : heading <+: (split text).2 := by
  obtain ⟨heq, hbody, hguide⟩ := split_eq text
  rcases hguide with hnil | hpre
  · rw [hnil, List.append_nil] at heq
    exact absurd (heq ▸ h) hbody
  · exact hpre

/-- What follows a heading belongs to the guide. -/
theorem split_append_of_present (h : heading <:+: text) (rest : Text) :
    split (text ++ rest) = ((split text).1, (split text).2 ++ rest) := by
  obtain ⟨heq, hbody, -⟩ := split_eq text
  have hguide : IsGuide ((split text).2 ++ rest) :=
    Or.inr ((prefix_split_of_present h).trans (List.prefix_append _ _))
  have hsplit := split_append hbody hguide
  rwa [← List.append_assoc, ← heq] at hsplit

/-- A text without a heading that keeps apart from headings belongs to the body. -/
theorem split_append_of_apart {part : Text} (hpart : Apart part heading)
    (hfront : ¬ heading <:+: front) (rest : Text) :
    split (front ++ part ++ rest) = (front ++ part ++ (split rest).1, (split rest).2) := by
  obtain ⟨heq, hbody, hguide⟩ := split_eq rest
  have hnot : ¬ heading <:+: front ++ part ++ (split rest).1 :=
    fun hin => (hpart _ _ hin).elim hfront hbody
  have hsplit := split_append hnot hguide
  rwa [List.append_assoc (front ++ part), ← heq] at hsplit

/-- A text put in front leaves the guide at the end of the guide. -/
theorem suffix_split_append (front text : Text) : (split text).2 <:+ (split (front ++ text)).2 := by
  obtain ⟨heq, -, hguide⟩ := split_eq text
  have hassoc : front ++ text = front ++ (split text).1 ++ (split text).2 := by
    rw [List.append_assoc, ← heq]
  rw [hassoc]
  by_cases hbody : heading <:+: front ++ (split text).1
  · -- there is an earlier heading, and its guide reaches to the end
    rw [split_append_of_present hbody]
    exact List.suffix_append _ _
  · rw [split_append hbody hguide]

/-- A delimiter keeps apart from headings. -/
theorem apart_delimiter : Apart Frontmatter.delimiter heading :=
  NoOverlap.apart (by decide)

theorem infix_delimiter_append_iff :
    heading <:+: Frontmatter.delimiter ++ front ↔ heading <:+: front := by
  constructor
  · intro h
    exact (apart_delimiter [] front h).resolve_left (by decide)
  · exact List.infix_append_of_infix_right

end Guide

/-- No notice breaks a heading. -/
theorem Guide.infix_insert? (notice : Text) (h : heading <:+: content) :
    heading <:+: (Notice.insert? content notice).getD content := by
  cases hinsert : Notice.insert? content notice with
  | none => exact h
  | some text =>
    obtain ⟨-, front, rest, hsplit, rfl⟩ := Notice.insert?_eq_some_iff.mp hinsert
    rw [(Frontmatter.split_eq_some_iff.mp hsplit).1, ← List.append_assoc] at h
    rw [Option.getD_some]
    -- the notice goes in right after a delimiter
    rcases apart_delimiter _ _ h with hin | hin
    · exact List.infix_append_of_infix_left hin
    · iterate 3 refine List.infix_append_of_infix_right ?_
      exact hin

/-! ### Making a template of a document with a guide -/

namespace Group

variable {group : Group}

/-- Where a heading is, the replaced text has one. -/
theorem infix_replaced (group : Group) (h : Guide.heading <:+: text) :
    Guide.heading <:+: group.replaced text :=
  (Guide.prefix_split_of_present h).isInfix.trans (List.suffix_append _ _).isInfix

/-- A guide is added where one is wanted and no heading is. -/
theorem generalize_guideAdded (group : Group) (notice content : Text) :
    (group.generalize notice content).guideAdded = true ↔
      let text := group.replaced ((Notice.insert? content notice).getD content)
      group.wantsGuide text = true ∧ ¬ Guide.heading <:+: text := by
  rw [generalize, replaced]
  simp only [Guide.append?, ← Guide.isPresent_iff, Bool.not_eq_true]
  split_ifs <;> simp_all

/-- A document with a heading gets no guide: its template is the replaced text. -/
theorem generalize_of_present (group : Group) (notice : Text) (h : Guide.heading <:+: content) :
    (group.generalize notice content).content =
        group.replaced ((Notice.insert? content notice).getD content) ∧
      (group.generalize notice content).guideAdded = false := by
  have hreplaced := group.infix_replaced (Guide.infix_insert? notice h)
  constructor
  · rw [generalize_content]
    exact if_neg fun hwanted => hwanted.2 hreplaced
  · rw [← Bool.not_eq_true, generalize_guideAdded]
    exact fun hwanted => hwanted.2 hreplaced

end Group

/-! ### Where the guide goes -/

section Noticed

variable (hsplit : Frontmatter.split content = some (front, rest))

include hsplit

/-- A guide behind the frontmatter ends the guide of the text that the notice went into. -/
theorem Guide.suffix_split_of_behind (hfront : ¬ heading <:+: front) (inserted : Text) :
    (split content).2 <:+
      (split
        (Frontmatter.delimiter ++ front ++ (Frontmatter.delimiter ++ (inserted ++ rest)))).2 := by
  have hopening : ¬ heading <:+: Frontmatter.delimiter ++ front :=
    fun h => hfront (infix_delimiter_append_iff.mp h)
  rw [(Frontmatter.split_eq_some_iff.mp hsplit).1, ← List.append_assoc, ← List.append_assoc,
    split_append_of_apart apart_delimiter hopening, split_append_of_apart apart_delimiter hopening]
  exact suffix_split_append inserted rest

/-- A guide that begins in the frontmatter is no end of a text that lines went into. -/
theorem Guide.not_suffix_of_within (hfront : heading <:+: front) {inserted : Text}
    (hline : ['\n'] <:+ inserted) (body : Text) :
    ¬ (split content).2 <:+ body ++
      (split
        (Frontmatter.delimiter ++ front ++ (Frontmatter.delimiter ++ (inserted ++ rest)))).2 := by
  obtain ⟨lines, rfl⟩ := hline
  have hopening : heading <:+: Frontmatter.delimiter ++ front :=
    infix_delimiter_append_iff.mpr hfront
  rw [(Frontmatter.split_eq_some_iff.mp hsplit).1, split_append_of_present hopening,
    split_append_of_present hopening]
  rintro ⟨before, heq⟩
  -- without the rest that both end in, one ends in a dash and the other in a newline
  have hends : (before ++ (split (Frontmatter.delimiter ++ front)).2 ++ Frontmatter.delimiter) ++
      rest = (body ++ (split (Frontmatter.delimiter ++ front)).2 ++ Frontmatter.delimiter ++
        lines ++ ['\n']) ++ rest := by
    simpa only [List.append_assoc] using heq
  have hlast := congrArg List.getLast? (List.append_cancel_right hends)
  rw [List.getLast?_concat, List.getLast?_append_of_ne_nil _ (by decide)] at hlast
  exact absurd hlast (by decide)

/-- The guide of a document is the end of a text that a notice went into exactly when the notice
went in before the guide. -/
theorem Guide.suffix_insert?_iff (hinsert : Notice.insert? content notice = some text)
    (body : Text) : (split content).2 <:+ body ++ (split text).2 ↔ ¬ heading <:+: front := by
  obtain ⟨-, front', rest', hsplit', rfl⟩ := Notice.insert?_eq_some_iff.mp hinsert
  obtain ⟨rfl, rfl⟩ := Prod.mk.inj (Option.some.inj (hsplit'.symm.trans hsplit))
  constructor
  · intro hsuffix hfront
    exact not_suffix_of_within hsplit hfront (Notice.suffix_block notice) body hsuffix
  · intro hfront
    exact (suffix_split_of_behind hsplit hfront _).trans (List.suffix_append _ _)

end Noticed

/-- A document with a guide gets no second one, and what is its guide after the notice step is the
end of its template.  So is the guide that it had before, unless a notice goes in behind the
heading, which stands in the frontmatter then; in that case it is not. -/
theorem guide_suffix_generalize_iff (group : Group) (notice content : Text)
    (hguide : Guide.heading <:+: content) :
    let noticed := (Notice.insert? content notice).getD content
    let template := group.generalize notice content
    template.guideAdded = false ∧
      template.content =
        (Replacement.applyAll (Guide.split noticed).1 group.replacements).1 ++
          (Guide.split noticed).2 ∧
      ((Guide.split content).2 <:+ template.content ↔
        ¬ (template.noticeAdded = true ∧ ∃ front rest,
          Frontmatter.split content = some (front, rest) ∧ Guide.heading <:+: front)) := by
  intro noticed template
  obtain ⟨htemplate, hnone⟩ := group.generalize_of_present notice hguide
  refine ⟨hnone, htemplate, ?_⟩
  rw [show template.content = _ from htemplate, Group.replaced, Group.generalize_noticeAdded]
  cases hinsert : Notice.insert? content notice with
  | none =>
    have hend : (Guide.split content).2 <:+ (Replacement.applyAll (Guide.split content).1
        group.replacements).1 ++ (Guide.split content).2 := List.suffix_append _ _
    exact iff_of_true hend fun h => Bool.false_ne_true h.1
  | some text =>
    obtain ⟨-, front, rest, hsplit, -⟩ := Notice.insert?_eq_some_iff.mp hinsert
    rw [Option.getD_some, Guide.suffix_insert?_iff hsplit hinsert]
    refine not_congr ⟨fun hfront => ⟨rfl, front, rest, hsplit, hfront⟩, ?_⟩
    rintro ⟨-, front', rest', hsplit', hfront⟩
    obtain ⟨rfl, rfl⟩ := Prod.mk.inj (Option.some.inj (hsplit.symm.trans hsplit'))
    exact hfront

/-- A guide with dashes in its table and a literal in a row stays as it is behind closed
frontmatter. -/
theorem guide_suffix_generalize_closed :
    let content := "---\nd: x\n---\nWOR-1\n## Customization Guide\n| --- | WOR- |".toList
    let template := RuleSet.workflowCommands.generalize Notice.standard content
    Guide.heading <:+: content ∧ template.noticeAdded = true ∧
      (Guide.split content).2 = "## Customization Guide\n| --- | WOR- |".toList ∧
      (Guide.split content).2 <:+ template.content := by
  intro content template
  have hguide : Guide.heading <:+: content := includes_iff.mp (by decide +kernel)
  refine ⟨hguide, by decide +kernel, by decide +kernel, ?_⟩
  refine (guide_suffix_generalize_iff RuleSet.workflowCommands _ content hguide).2.2.mpr ?_
  rintro ⟨-, front, rest, hsplit, hfront⟩
  have hclosed : Frontmatter.split content =
      some ("\nd: x\n".toList, "\nWOR-1\n## Customization Guide\n| --- | WOR- |".toList) := by
    decide +kernel
  obtain ⟨rfl, -⟩ := Prod.mk.inj (Option.some.inj (hclosed.symm.trans hsplit))
  exact absurd (includes_iff.mpr hfront) (by decide +kernel)

/-- The guide that a template was given is cut in two the next time, as the dashes of its table
close the frontmatter that the document left open. -/
theorem guide_altered_by_notice :
    let content := (RuleSet.deprecatedAliases.generalize Notice.standard "---\nx\n".toList).content
    Guide.heading <:+: content ∧
      ¬ (Guide.split content).2 <:+
        (RuleSet.deprecatedAliases.generalize Notice.standard content).content := by
  refine ⟨includes_iff.mp (by decide +kernel), by decide +kernel⟩

end CommandTemplates
