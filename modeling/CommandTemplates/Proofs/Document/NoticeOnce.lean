import CommandTemplates.Proofs.Document.History
import CommandTemplates.Rules.Validity

/-!
# How often a notice goes in

A document that has a notice is recognised by a marker.  A notice that has the marker brings it in,
and if no replacement takes it away, it stays: the notice goes in once at most.  A notice without
the marker is not recognised, and goes in every time.

## Main Definitions

* `Replacement.Keeps`, `Replacement.KeepsFrontmatter` — what a replacement leaves alone
* `Group.IgnoresNotices` — a group of which nothing bears on notices

## Main Results

* `Group.infix_marker_generalize`, `Group.IgnoresNotices.isMissing_generalize` — what one step keeps
* `noticeAdded_at_most_once` — how often a notice goes in, by whether it has the marker
-/

namespace CommandTemplates

open Text

namespace Replacement

variable {r : Replacement} {part : Text}

/-- A replacement after which a text is still there. -/
def Keeps (r : Replacement) (part : Text) : Prop :=
  ∀ text, part <:+: text → part <:+: r.apply text

/-- A replacement that leaves frontmatter closed, whatever follows. -/
def KeepsFrontmatter (r : Replacement) : Prop :=
  ∀ text back, Frontmatter.IsClosed (text ++ back) → Frontmatter.IsClosed (r.apply text ++ back)

/-- A literal that does not overlap with a part of a text leaves it as it is. -/
theorem keeps_of_noOverlap (h : NoOverlap r.literal part) : r.Keeps part := by
  intro text hpart
  rw [← List.append_nil text] at hpart
  have hkept : part <:+: r.apply text ++ [] :=
    infix_replaceAll_append h.part_ne_nil h.apart hpart
  rwa [List.append_nil] at hkept

/-- A literal without dashes touches no delimiter. -/
theorem apply_delimiter_append (hne : r.literal ≠ []) (hdash : '-' ∉ r.literal) (text : Text) :
    r.apply (Frontmatter.delimiter ++ text) = Frontmatter.delimiter ++ r.apply text := by
  have hcons (text : Text) : r.apply ('-' :: text) = '-' :: r.apply text :=
    replaceAll_cons_of_not_mem hne hdash
  change r.apply ('-' :: '-' :: '-' :: text) = '-' :: '-' :: '-' :: r.apply text
  rw [hcons, hcons, hcons]

/-- A literal without a dash leaves delimiters as they are. -/
theorem keepsFrontmatter_of_not_mem (hne : r.literal ≠ []) (hdash : '-' ∉ r.literal) :
    r.KeepsFrontmatter := by
  have hdisjoint : ∀ c ∈ r.literal, c ∉ Frontmatter.delimiter := by
    intro c hc hmem
    have hcdash : c = '-' := by simpa [Frontmatter.delimiter] using hmem
    exact hdash (hcdash ▸ hc)
  rintro text back ⟨rest, heq, hclosing⟩
  rcases List.append_eq_append_iff.mp heq with ⟨dashes, hopening, -⟩ | ⟨body, rfl, rfl⟩
  · -- the text ends in its opening delimiter, where the literal cannot be
    have habsent : ¬ r.literal <:+: text := by
      intro hin
      obtain ⟨c, hc⟩ := List.exists_mem_of_ne_nil _ hne
      exact hdisjoint c hc (hopening ▸ List.mem_append_left _ (hin.subset hc))
    rw [apply_of_absent habsent]
    exact ⟨rest, heq, hclosing⟩
  · have hapart : Apart r.literal Frontmatter.delimiter :=
      (noOverlap_of_disjoint hne (by decide) hdisjoint).apart
    rw [apply_delimiter_append hne hdash]
    refine ⟨r.apply body ++ back, List.append_assoc _ _ _, ?_⟩
    exact infix_replaceAll_append hne hapart hclosing

end Replacement

/-! ### One step -/

namespace Notice

/-- A document misses a notice when it lacks the marker and its frontmatter is closed. -/
theorem isMissing_iff {content : Text} : isMissing content = true ↔
    ¬ marker <:+: content ∧ Frontmatter.IsClosed content := by
  rw [isMissing_eq [], isSome_insert?_iff]

/-- No marker reaches from the body into the guide. -/
theorem infix_append_guide_iff {body guide : Text} (hguide : Guide.IsGuide guide) :
    marker <:+: body ++ guide ↔ marker <:+: body ∨ marker <:+: guide := by
  constructor
  · intro h
    rcases hguide with rfl | ⟨rest, rfl⟩
    · rw [List.append_nil] at h
      exact Or.inl h
    · have hapart : Apart Guide.heading marker := NoOverlap.apart (by decide)
      rw [← List.append_assoc] at h
      exact (hapart _ _ h).imp_right List.infix_append_of_infix_right
  · rintro (h | h)
    · exact List.infix_append_of_infix_left h
    · exact List.infix_append_of_infix_right h

end Notice

namespace Group

variable {group : Group} {notice content text : Text}

/-- A template begins with the replaced text, and the rest is a guide that was added. -/
theorem exists_generalize_content (group : Group) (notice content : Text) :
    ∃ added, (added = [] ∨ added = Guide.render group.placeholders) ∧
      (group.generalize notice content).content =
        group.replaced ((Notice.insert? content notice).getD content) ++ added := by
  rw [generalize_content]
  dsimp only
  split
  · exact ⟨_, Or.inr rfl, rfl⟩
  · exact ⟨[], Or.inl rfl, (List.append_nil _).symm⟩

/-- A marker that is there after the notice step is there in the template, if the replacements keep
it. -/
theorem infix_marker_generalize (hkeeps : ∀ r ∈ group.replacements, r.Keeps Notice.marker)
    (h : Notice.marker <:+: (Notice.insert? content notice).getD content) :
    Notice.marker <:+: (group.generalize notice content).content := by
  obtain ⟨added, -, hcontent⟩ := group.exists_generalize_content notice content
  rw [hcontent]
  refine List.infix_append_of_infix_left ?_
  generalize (Notice.insert? content notice).getD content = text at h
  obtain ⟨heq, -, hguide⟩ := Guide.split_eq text
  rw [heq, Notice.infix_append_guide_iff hguide] at h
  rw [replaced, Notice.infix_append_guide_iff hguide]
  refine h.imp_left fun hbody => ?_
  exact Replacement.applyAll_induction (motive := (Notice.marker <:+: ·)) hkeeps hbody

/-- A group of which nothing bears on notices. -/
structure IgnoresNotices (group : Group) : Prop where
  /-- No replacement makes a marker. -/
  spares : ∀ r ∈ group.replacements, r.Spares Notice.marker
  keepsFrontmatter : ∀ r ∈ group.replacements, r.KeepsFrontmatter
  guide : ¬ Notice.marker <:+: Guide.render group.placeholders

/-- Such a group leaves a document without a notice as one that misses it. -/
theorem IgnoresNotices.isMissing_replaced (hgroup : group.IgnoresNotices)
    (h : Notice.isMissing text = true) : Notice.isMissing (group.replaced text) = true := by
  obtain ⟨hmarker, hclosed⟩ := Notice.isMissing_iff.mp h
  obtain ⟨heq, -, hguide⟩ := Guide.split_eq text
  rw [heq, Notice.infix_append_guide_iff hguide, not_or] at hmarker
  rw [heq] at hclosed
  rw [Notice.isMissing_iff, replaced, Notice.infix_append_guide_iff hguide, not_or]
  refine ⟨⟨?_, hmarker.2⟩, ?_⟩
  · exact Replacement.applyAll_induction (motive := (¬ Notice.marker <:+: ·)) hgroup.spares
      hmarker.1
  · exact Replacement.applyAll_induction
      (motive := fun body => Frontmatter.IsClosed (body ++ (Guide.split text).2))
      (fun r hr body => hgroup.keepsFrontmatter r hr body _) hclosed

/-- With a notice that has no marker, a document still misses a notice after it got one. -/
theorem IgnoresNotices.isMissing_generalize (hgroup : group.IgnoresNotices)
    (hnotice : ¬ Notice.marker <:+: notice) (h : Notice.isMissing content = true) :
    Notice.isMissing (group.generalize notice content).content = true ∧
      (group.generalize notice content).noticeAdded = true := by
  have hadded := Notice.isMissing_eq notice content ▸ h
  refine ⟨?_, hadded⟩
  obtain ⟨noticed, hinsert⟩ := Option.isSome_iff_exists.mp hadded
  obtain ⟨front, rest, -, hsplit⟩ := Notice.split_insert? hinsert
  have hnoticed : Notice.isMissing noticed = true := by
    rw [Notice.isMissing_iff, Notice.infix_insert?_iff hinsert]
    exact ⟨hnotice, Frontmatter.isClosed_of_split hsplit⟩
  obtain ⟨hmarker, hclosed⟩ := Notice.isMissing_iff.mp (hgroup.isMissing_replaced hnoticed)
  obtain ⟨added, hcases, hcontent⟩ := group.exists_generalize_content notice content
  rw [hcontent, hinsert, Option.getD_some, Notice.isMissing_iff]
  refine ⟨?_, hclosed.append added⟩
  rcases hcases with rfl | rfl
  · rwa [List.append_nil]
  · -- the guide begins with a newline, which no marker has
    obtain ⟨guide, hrender, -⟩ := Guide.exists_render group.placeholders
    have hline : Apart ['\n'] Notice.marker := NoOverlap.apart (by decide)
    intro hin
    rw [hrender, List.append_cons] at hin
    refine (hline _ _ hin).elim hmarker fun hguide => hgroup.guide ?_
    rw [hrender]
    exact hguide.trans (List.suffix_cons _ _).isInfix

end Group

/-! ### How often -/

/-- A notice that has the marker goes in once at most, whatever the document is and however often
it is made a template, if the replacements keep the marker.  A notice that lacks the marker goes in
every time into a document that misses one, for a group of which nothing bears on notices. -/
theorem noticeAdded_at_most_once (group : Group) (notice : Text) :
    ((∀ r ∈ group.replacements, r.Keeps Notice.marker) → Notice.marker <:+: notice →
        ∀ content n, (group.generalizeTimes notice n content).countP (·.noticeAdded) ≤ 1) ∧
      (group.IgnoresNotices → ¬ Notice.marker <:+: notice →
        ∀ content, Notice.isMissing content = true →
          ∀ n, (group.generalizeTimes notice n content).countP (·.noticeAdded) = n) := by
  constructor
  · intro hkeeps hnotice content n
    rw [Template.generalizeTimes_eq_history]
    refine Template.countP_history_le_one (P := (Notice.marker <:+: ·)) content ?_ ?_
    · rintro step hstep text hadded
      obtain rfl := List.eq_of_mem_replicate hstep
      obtain ⟨noticed, hinsert⟩ := Option.isSome_iff_exists.mp hadded
      refine group.infix_marker_generalize hkeeps ?_
      rw [hinsert, Option.getD_some, Notice.infix_insert?_iff hinsert]
      exact hnotice
    · rintro step hstep text hmarker
      obtain rfl := List.eq_of_mem_replicate hstep
      have hnone : Notice.insert? text notice = none :=
        Notice.NotNeeded.insert?_eq_none (Or.inl hmarker)
      refine ⟨group.infix_marker_generalize hkeeps ?_, ?_⟩
      · rwa [hnone, Option.getD_none]
      · rw [Group.generalize_noticeAdded, hnone, Option.isSome_none]
  · intro hgroup hnotice content hmissing n
    have hruns : ∀ t ∈ Template.history (List.replicate n (group, notice)) content,
        Notice.isMissing t.content = true ∧ t.noticeAdded = true := by
      refine Template.history_forall (P := (Notice.isMissing · = true)) ?_ hmissing
      rintro step hstep text h
      obtain rfl := List.eq_of_mem_replicate hstep
      exact hgroup.isMissing_generalize hnotice h
    rw [Template.generalizeTimes_eq_history, List.countP_eq_length.mpr fun t ht => (hruns t ht).2,
      Template.length_history, List.length_replicate]

/-- The standard notice goes into a rollback command once at most, and a notice in words of its own
goes in every time. -/
theorem noticeAdded_at_most_once_rollback :
    let plain : Group :=
      { name := ['g'], files := ["a.md".toList], replacements := [⟨"Pop OS".toList, ['x']⟩] }
    let content := "---\nd: x\n---\nPop OS\n".toList
    (∀ r ∈ RuleSet.rollback.replacements, r.Keeps Notice.marker) ∧
      Notice.marker <:+: Notice.standard ∧ plain.IgnoresNotices ∧
      ¬ Notice.marker <:+: "> note".toList ∧ Notice.isMissing content = true ∧
      (∀ content n, (RuleSet.rollback.generalizeTimes Notice.standard n content).countP
        (·.noticeAdded) ≤ 1) ∧
      ∀ n, (plain.generalizeTimes "> note".toList n content).countP (·.noticeAdded) = n := by
  intro plain content
  have hsettles : RuleSet.rollback.Settles := Group.builtin_settles _ (by simp [RuleSet.builtin])
  have hkeeps : ∀ r ∈ RuleSet.rollback.replacements, r.Keeps Notice.marker :=
    fun r hr => Replacement.keeps_of_noOverlap (hsettles.keepsMarker r hr)
  have hstandard : Notice.marker <:+: Notice.standard := includes_iff.mp (by decide +kernel)
  have hplain : plain.IgnoresNotices := by
    refine ⟨fun r hr => ?_, fun r hr => ?_, includes_eq_false_iff.mp (by decide +kernel)⟩
    · obtain rfl := List.mem_singleton.mp hr
      exact Replacement.spares_of_noOverlap (by decide) (Or.inl (by decide))
    · obtain rfl := List.mem_singleton.mp hr
      exact Replacement.keepsFrontmatter_of_not_mem (by decide) (by decide)
  have hown : ¬ Notice.marker <:+: "> note".toList := includes_eq_false_iff.mp (by decide +kernel)
  have hmissing : Notice.isMissing content = true := by decide +kernel
  refine ⟨hkeeps, hstandard, hplain, hown, hmissing, ?_, ?_⟩
  · exact (noticeAdded_at_most_once _ _).1 hkeeps hstandard
  · exact (noticeAdded_at_most_once _ _).2 hplain hown content hmissing

/-- Rules with a notice of their own are accepted, and two runs put in two notices. -/
theorem notice_inserted_twice :
    let group : Group := { name := ['g'], files := ["a.md".toList] }
    let rules : RuleSet := ⟨"> note".toList, [group]⟩
    let runs := group.generalizeTimes rules.notice 2 "---\na: b\n---\nBody\n".toList
    rules.validate = .ok () ∧ group ∈ rules.groups ∧ runs.countP (·.noticeAdded) = 2 := by
  decide +kernel

end CommandTemplates
