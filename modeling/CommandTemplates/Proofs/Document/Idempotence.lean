import CommandTemplates.Proofs.Document.Settled

/-!
# A template stays as it is

Making a template of a template changes nothing.  For a group that settles documents
(`Group.Settles`) this holds whatever the document was, as long as it did not leave frontmatter
open: `Group.isNoop_generalize`.

The template of a document is its text after notice and replacement, with a guide behind it if
one is wanted and missing.  Read again, it falls apart into a body without literals and
headings and a guide (`Group.split_generalize`), so that every one of the three steps finds its
work done.
-/

namespace CommandTemplates

open Text

namespace Group

variable {group : Group} {notice content text : Text}

/-- The text of a document once the literals before its guide are replaced. -/
def replaced (group : Group) (text : Text) : Text :=
  (Replacement.applyAll (Guide.split text).1 group.replacements).1 ++ (Guide.split text).2

/-- A template is the replaced text, with a guide behind it where one is wanted and missing. -/
theorem generalize_content (group : Group) (notice content : Text) :
    (group.generalize notice content).content =
      let text := group.replaced ((Notice.insert? content notice).getD content)
      if group.wantsGuide text = true ∧ ¬ Guide.heading <:+: text
        then text ++ Guide.render group.placeholders else text := by
  rw [generalize, replaced]
  simp only [Guide.append?, ← Guide.isPresent_iff, Bool.not_eq_true]
  split_ifs <;> simp_all

/-- Read again, a template has a body without literals, and a guide if the group wants one. -/
theorem split_generalize (hgroup : group.Settles) (notice content : Text) :
    (Guide.split (group.generalize notice content).content).1.IsClean group.literals ∧
      (¬ Guide.heading <:+: (group.generalize notice content).content →
        group.wantsGuide (group.generalize notice content).content = false) := by
  rw [generalize_content]
  generalize (Notice.insert? content notice).getD content = text
  obtain ⟨-, hheading, hguide⟩ := Guide.split_eq text
  have hclean := hgroup.isClean (Guide.split text).1
  have hbody := hgroup.not_heading hheading
  dsimp only
  split
  · next hwanted =>
    -- no heading at all, so the text is all body, and the new guide begins after its newline
    obtain ⟨guide, hrender, hstart⟩ := Guide.exists_render group.placeholders
    have hnil : (Guide.split text).2 = [] := by
      rcases hguide with hnil | hpre
      · exact hnil
      · exact absurd (hpre.isInfix.trans (List.suffix_append _ _).isInfix) hwanted.2
    have hline : ¬ Guide.heading <:+: group.replaced text ++ ['\n'] :=
      not_infix_concat (by decide) hwanted.2
    rw [hrender, List.append_cons, Guide.split_append hline (Or.inr hstart)]
    refine ⟨?_, fun h => absurd (hstart.isInfix.trans (List.suffix_append _ _).isInfix) h⟩
    rw [replaced, hnil, List.append_nil]
    exact fun literal hmem => not_infix_concat (hgroup.oneLine literal hmem) (hclean literal hmem)
  · next hwanted =>
    rw [replaced] at hwanted ⊢
    rw [Guide.split_append hbody hguide]
    refine ⟨hclean, fun h => ?_⟩
    rw [← Bool.not_eq_true]
    exact fun hwants => hwanted ⟨hwants, h⟩

/-- A template needs no notice. -/
theorem notNeeded_generalize (hgroup : group.Settles)
    (hnotice : Notice.marker <:+: notice.dropTrailing '\n')
    (hcontent : ¬ (Frontmatter.IsUnclosed content ∧ ¬ Notice.marker <:+: content)) :
    Notice.NotNeeded (group.generalize notice content).content := by
  have htext := Notice.notNeeded_insert? hnotice hcontent
  rw [generalize_content]
  generalize (Notice.insert? content notice).getD content = text at htext ⊢
  rw [(Guide.split_eq text).1] at htext
  have hreplaced : Notice.NotNeeded (group.replaced text) := hgroup.notNeeded htext
  dsimp only
  split
  · obtain ⟨guide, hrender, -⟩ := Guide.exists_render group.placeholders
    rw [hrender]
    rcases hreplaced with hmarker | hopens
    · exact Or.inl (hmarker.trans (List.prefix_append _ _).isInfix)
    · exact Or.inr fun h => hopens (prefix_of_prefix_append_cons (by decide) h)
  · exact hreplaced

/-- In a template there is nothing to do. -/
theorem isNoop_generalize (hgroup : group.Settles)
    (hnotice : Notice.marker <:+: notice.dropTrailing '\n')
    (hcontent : ¬ (Frontmatter.IsUnclosed content ∧ ¬ Notice.marker <:+: content)) :
    (group.generalize notice (group.generalize notice content).content).isNoop = true := by
  obtain ⟨hclean, hguide⟩ := split_generalize hgroup notice content
  rw [generalize_isNoop_iff]
  refine ⟨(notNeeded_generalize hgroup hnotice hcontent).insert?_eq_none, hclean, ?_⟩
  rw [lacksGuide_of_clean hclean, Bool.and_eq_false_iff]
  by_cases hpresent : Guide.heading <:+: (group.generalize notice content).content
  · rw [Guide.isPresent_iff.mpr hpresent]
    exact Or.inl rfl
  · exact Or.inr (hguide hpresent)

/-- A text that is its own template stays so, however often it is made one. -/
theorem generalizeTimes_of_isNoop (h : (group.generalize notice text).isNoop = true) (n : Nat) :
    group.generalizeTimes notice n text = List.replicate n ⟨text, false, false, []⟩ := by
  induction n with
  | zero => rfl
  | succ n ih => rw [generalizeTimes, generalize_of_isNoop h, ih, List.replicate_succ]

end Group

/-! ### The built-in groups -/

/-- The template that a built-in group makes of a document stays as it is however often it is made
a template again, and an audit finds nothing in it.  The document must not leave frontmatter
open, unless it carries the marker of a notice. -/
theorem generalizeTimes_builtin {group : Group} (hgroup : group ∈ RuleSet.builtin.groups)
    {content : Text}
    (hcontent : ¬ (Frontmatter.IsUnclosed content ∧ ¬ Notice.marker <:+: content)) :
    let template := group.generalize RuleSet.builtin.notice content
    (∀ n, group.generalizeTimes RuleSet.builtin.notice n template.content =
        List.replicate n ⟨template.content, false, false, []⟩) ∧
      (audit template.content group.literals (some group)).isClean = true := by
  have hnotice : Notice.marker <:+: RuleSet.builtin.notice.dropTrailing '\n' :=
    includes_iff.mp (by decide +kernel)
  have hnoop := Group.isNoop_generalize (Group.builtin_settles group hgroup) hnotice hcontent
  refine ⟨Group.generalizeTimes_of_isNoop hnoop, ?_⟩
  rw [audit_isClean_iff RuleSet.builtin.notice, ← Group.generalize_isNoop_iff]
  exact hnoop

/-- A rollback command in which what one replacement inserts meets what another looks for. -/
theorem generalizeTimes_builtin_rollback :
    let content := "---\nd: x\n---\nssh cheddarfox@pop-os\nwtfb-dev-appop-os: WOR-1".toList
    (RuleSet.rollback ∈ RuleSet.builtin.groups ∧
        ¬ (Frontmatter.IsUnclosed content ∧ ¬ Notice.marker <:+: content)) ∧
      let template := RuleSet.rollback.generalize RuleSet.builtin.notice content
      (∀ n, RuleSet.rollback.generalizeTimes RuleSet.builtin.notice n template.content =
          List.replicate n ⟨template.content, false, false, []⟩) ∧
        (audit template.content RuleSet.rollback.literals (some RuleSet.rollback)).isClean =
          true := by
  intro content
  have hgroup : RuleSet.rollback ∈ RuleSet.builtin.groups := by simp [RuleSet.builtin]
  have hclosed : Frontmatter.split content ≠ none := by decide +kernel
  have hcontent : ¬ (Frontmatter.IsUnclosed content ∧ ¬ Notice.marker <:+: content) :=
    fun h => hclosed (Frontmatter.split_eq_none_iff.mpr (Or.inr h.1))
  exact ⟨⟨hgroup, hcontent⟩, generalizeTimes_builtin hgroup hcontent⟩

end CommandTemplates
