import CommandTemplates.Document.Guide
import CommandTemplates.Proofs.Text.Apart

/-!
# Splitting a document at its guide

The guide begins at the first heading.  The heading has no border — no proper beginning of it is
also an end — so a text without the heading stays without it up to the place where one is
put behind it.

* `split_append` — a body without the heading, followed by a guide, is split there.
* `split_eq` — the guide that is split off is empty or begins with the heading.
* `split_append?` — a document that was given a guide is split where the guide was put.
-/

namespace CommandTemplates.Guide

open Text

variable {content body guide : Text}

/-- Whether a text is empty or begins with the heading of a guide. -/
def IsGuide (guide : Text) : Prop := guide = [] ∨ heading <+: guide

/-- A guide is present exactly when its heading occurs. -/
theorem isPresent_iff : isPresent content = true ↔ heading <:+: content := includes_iff

/-- The heading begins with no character that it also ends with, nor with any longer end. -/
theorem heading_borderless :
    ∀ edge ∈ heading.tails, edge ≠ [] → edge ≠ heading → ¬ edge <+: heading := by
  decide +kernel

/-- In front of a heading no other one begins unless it also ends there. -/
theorem not_infix_append_dropLast (h : ¬ heading <:+: body) :
    ¬ heading <:+: body ++ heading.dropLast := by
  intro hin
  rcases List.infix_append_iff.mp hin with hin | hin | ⟨left, right, heq, hleft, hright⟩
  · exact h hin
  · exact absurd hin.length_le (by decide)
  · by_cases hr : right = []
    · rw [hr, List.append_nil] at heq
      exact h (heq ▸ hleft.isInfix)
    · refine heading_borderless right ((List.mem_tails _ _).mpr (heq ▸ List.suffix_append _ _)) hr
        ?_ (hright.trans (List.dropLast_prefix _))
      rintro rfl
      exact absurd hright.length_le (by decide)

/-- A body without the heading, followed by a guide, is split where the guide begins. -/
theorem split_append (hbody : ¬ heading <:+: body) (hguide : IsGuide guide) :
    split (body ++ guide) = (body, guide) := by
  rcases hguide with rfl | ⟨rest, rfl⟩
  · rw [List.append_nil, split, cut_eq_none_iff.mpr hbody]
  · rw [split, ← List.append_assoc, cut_append (not_infix_append_dropLast hbody)]

/-- A split loses nothing, leaves no heading in the body, and gives a guide. -/
theorem split_eq (content : Text) : content = (split content).1 ++ (split content).2 ∧
    ¬ heading <:+: (split content).1 ∧ IsGuide (split content).2 := by
  cases hcut : cut heading content with
  | none =>
    rw [split, hcut]
    exact ⟨(List.append_nil content).symm, cut_eq_none_iff.mp hcut, Or.inl rfl⟩
  | some parts =>
    rw [split, hcut]
    refine ⟨?_, not_infix_before (by decide) hcut, Or.inr (List.prefix_append _ _)⟩
    rw [← List.append_assoc]
    exact eq_of_cut hcut

/-- Without a heading the document is all body. -/
theorem split_of_absent (h : ¬ heading <:+: content) : split content = (content, []) := by
  rw [split, cut_eq_none_iff.mpr h]

/-- A rendered guide is an empty line's newline and then a guide. -/
theorem exists_render (placeholders : List Placeholder) :
    ∃ guide, render placeholders = '\n' :: guide ∧ heading <+: guide := by
  have hpre : ['\n'] ++ heading <+: render placeholders := by
    rw [render, preamble]
    iterate 4 refine List.prefix_append_of_prefix ?_
    exact List.prefix_append _ _
  obtain ⟨rest, hrest⟩ := hpre
  refine ⟨heading ++ rest, ?_, List.prefix_append _ _⟩
  rw [← hrest, List.append_assoc, List.singleton_append]

/-! ### Putting a guide behind a document -/

/-- There is one way to take a document apart into a body without a heading and a guide. -/
theorem split_eq_iff : split content = (body, guide) ↔
    body ++ guide = content ∧ ¬ heading <:+: body ∧ IsGuide guide := by
  constructor
  · intro h
    have hsplit := split_eq content
    rw [h] at hsplit
    exact ⟨hsplit.1.symm, hsplit.2⟩
  · rintro ⟨rfl, hbody, hguide⟩
    exact split_append hbody hguide

/-- No guide is appended exactly where one is present, whatever it would describe. -/
theorem append?_eq_none_iff {placeholders : List Placeholder} :
    append? content placeholders = none ↔ heading <:+: content := by
  simp [append?, isPresent_iff]

/-- A split takes apart a document in the one way in which its body has no heading and its guide is
empty or begins with one.  A guide is put behind every document without a heading, whatever stands
in its rows, and a split finds it where it was put, behind a newline.  The document has a guide
then, and gets no other one. -/
theorem split_append? (content : Text) (placeholders : List Placeholder) :
    (∀ body guide, split content = (body, guide) ↔
      body ++ guide = content ∧ ¬ heading <:+: body ∧ IsGuide guide) ∧
      (append? content placeholders = none ↔ heading <:+: content) ∧
      (¬ heading <:+: content → ∃ text guide, append? content placeholders = some text ∧
        render placeholders = '\n' :: guide ∧ split text = (content ++ ['\n'], guide) ∧
        ∀ others, append? text others = none) := by
  refine ⟨fun body guide => split_eq_iff, append?_eq_none_iff, fun habsent => ?_⟩
  obtain ⟨guide, hrender, hguide⟩ := exists_render placeholders
  have htext : append? content placeholders = some (content ++ ['\n'] ++ guide) := by
    rw [append?, if_neg (mt isPresent_iff.mp habsent), hrender, List.append_assoc,
      List.singleton_append]
  -- the newline completes no heading
  have hbody : ¬ heading <:+: content ++ ['\n'] := not_infix_concat (by decide) habsent
  refine ⟨_, guide, htext, hrender, split_append hbody (Or.inr hguide), fun others => ?_⟩
  exact append?_eq_none_iff.mpr (List.infix_append_of_infix_right hguide.isInfix)

/-- The document ends in most of a heading, and a row has a newline and a heading in it. -/
theorem split_append?_beginning :
    let content := "Body\n## Customization Guid".toList
    let row : Placeholder := ⟨"x\n## Customization Guide".toList, [], []⟩
    ¬ heading <:+: content ∧ ∃ text guide, append? content [row] = some text ∧
      render [row] = '\n' :: guide ∧ split text = (content ++ ['\n'], guide) ∧
      append? text [row] = none := by
  intro content row
  have habsent : ¬ heading <:+: content := by
    rw [← isPresent_iff]
    decide +kernel
  obtain ⟨text, guide, htext, hrender, hsplit, hagain⟩ :=
    (split_append? content [row]).2.2 habsent
  exact ⟨habsent, text, guide, htext, hrender, hsplit, hagain [row]⟩

end CommandTemplates.Guide
