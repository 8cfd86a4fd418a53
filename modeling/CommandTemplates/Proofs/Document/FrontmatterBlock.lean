import CommandTemplates.Proofs.Document.Notice
import CommandTemplates.Proofs.Text.Pieces

/-!
# Frontmatter as a block of lines

A document shows its frontmatter as a block of lines: the delimiter is the first line, and the block
is closed by the next line that is nothing but a delimiter.  The search for the closing delimiter
knows nothing of lines, and takes dashes inside a field for it as well.

## Main Definitions

* `Frontmatter.IsBlock` — the first lines of a document are such a block
* `Frontmatter.blockText` — the block as a text

## Main Results

* `Frontmatter.split_blockText_iff` — the block is split off exactly when no field has a delimiter
  in it
* `Notice.eq_of_put_in` — it can be told where a notice went in
* `insert?_behind_block_iff` — a notice goes in right behind the block exactly when no field has a
  delimiter in it
-/

namespace CommandTemplates

open Text

variable {content notice text : Text} {fields body : List Text}

namespace Frontmatter

/-- The lines of a document begin with a delimiter, fields, and a delimiter that is the first one
after the opening one. -/
structure IsBlock (content : Text) (fields body : List Text) : Prop where
  lines : content.pieces '\n' = delimiter :: (fields ++ delimiter :: body)
  first : delimiter ∉ fields

/-- A document begins with a block when its first line and a later one are delimiters. -/
theorem exists_isBlock_iff : (∃ fields body, IsBlock content fields body) ↔
    ∃ lines, content.pieces '\n' = delimiter :: lines ∧ delimiter ∈ lines := by
  constructor
  · rintro ⟨fields, body, h⟩
    exact ⟨_, h.lines, by simp⟩
  · rintro ⟨lines, hlines, hclosed⟩
    obtain ⟨fields, body, rfl, hfirst⟩ := List.eq_append_cons_of_mem hclosed
    exact ⟨fields, body, hlines, hfirst⟩

/-- What stands between the two delimiters of a block: the fields, each on a line of its own. -/
def inside (fields : List Text) : Text := fields.flatMap ('\n' :: ·) ++ ['\n']

/-- The lines from the opening delimiter to the closing one. -/
def blockText (fields : List Text) : Text :=
  List.intercalate ['\n'] (delimiter :: (fields ++ [delimiter]))

/-- A block is what stands inside it, between two delimiters. -/
theorem blockText_eq (fields : List Text) :
    blockText fields = delimiter ++ inside fields ++ delimiter := by
  rw [blockText, intercalate_cons]
  simp [inside]

/-- A document that begins with a block is the text of the block and what follows its last
delimiter. -/
theorem IsBlock.exists_content_eq (h : IsBlock content fields body) :
    ∃ after, content = blockText fields ++ after := by
  refine ⟨body.flatMap ('\n' :: ·), ?_⟩
  rw [← intercalate_pieces '\n' content, h.lines, blockText_eq, intercalate_cons]
  simp [inside]

/-- Dashes between the delimiters are dashes in a field. -/
theorem infix_inside_append_iff {back : Text} (hback : ¬ delimiter <:+: back) :
    delimiter <:+: inside fields ++ back ↔ ∃ field ∈ fields, delimiter <:+: field := by
  have hjoined : inside fields ++ back = List.intercalate ['\n'] ([] :: (fields ++ [back])) := by
    rw [intercalate_cons]
    simp [inside]
  rw [hjoined, infix_intercalate_iff (by decide) (by decide), List.exists_mem_cons_iff,
    or_iff_right (by decide)]
  constructor
  · rintro ⟨field, hmem, hin⟩
    rcases List.mem_append.mp hmem with hmem | hmem
    · exact ⟨field, hmem, hin⟩
    · exact absurd (List.mem_singleton.mp hmem ▸ hin) hback
  · rintro ⟨field, hmem, hin⟩
    exact ⟨field, List.mem_append_left _ hmem, hin⟩

/-- The whole block is split off exactly when no field has dashes in it. -/
theorem split_blockText_iff (after : Text) :
    split (blockText fields ++ after) = some (inside fields, after) ↔
      ∀ field ∈ fields, ¬ delimiter <:+: field := by
  have heq : blockText fields ++ after = delimiter ++ inside fields ++ (delimiter ++ after) := by
    rw [blockText_eq, List.append_assoc]
  rw [split_eq_some_iff, and_iff_right heq, infix_inside_append_iff (by decide)]
  simp only [not_exists, not_and]

end Frontmatter

/-! ### Where lines were put in -/

namespace Notice

open Frontmatter (delimiter)

variable {lines front front' back back' part : Text}

/-- Lines do not change places with what ends in a delimiter. -/
theorem eq_nil_of_append_comm (hfront : delimiter <:+ front ++ part) (hlines : ['\n'] <:+ lines)
    (h : lines ++ (part ++ back) = part ++ (lines ++ back)) : part = [] := by
  by_contra hne
  obtain ⟨start, hstart⟩ := hfront
  obtain ⟨start', rfl⟩ := hlines
  have hdash : part.getLast? = some '-' := by
    have hlast := congrArg List.getLast? hstart
    rw [List.getLast?_append, List.getLast?_append] at hlast
    rw [List.getLast?_eq_some_getLast hne] at hlast ⊢
    exact hlast.symm
  have hcomm : start' ++ ['\n'] ++ part = part ++ (start' ++ ['\n']) := by
    rw [← List.append_assoc, ← List.append_assoc] at h
    exact List.append_cancel_right h
  -- one side ends in a dash, the other in a newline
  have hlast := congrArg List.getLast? hcomm
  rw [← List.append_assoc part, List.getLast?_concat, List.getLast?_append, hdash] at hlast
  simp at hlast

/-- When lines are put in behind a delimiter, the text without them and the text with them tell
where. -/
theorem eq_of_put_in (hfront : delimiter <:+ front) (hfront' : delimiter <:+ front')
    (hlines : ['\n'] <:+ lines) (h : front ++ back = front' ++ back')
    (hput : front ++ (lines ++ back) = front' ++ (lines ++ back')) : front = front' := by
  rcases List.append_eq_append_iff.mp h with ⟨part, rfl, rfl⟩ | ⟨part, rfl, rfl⟩
  · rw [List.append_assoc] at hput
    rw [eq_nil_of_append_comm hfront' hlines (List.append_cancel_left hput), List.append_nil]
  · rw [List.append_assoc] at hput
    rw [eq_nil_of_append_comm hfront hlines (List.append_cancel_left hput).symm, List.append_nil]

end Notice

/-- A notice that goes into a document with a block of frontmatter goes in right behind the block,
and leaves everything else as it is, exactly when no field has a delimiter in it. -/
theorem insert?_behind_block_iff (hblock : Frontmatter.IsBlock content fields body)
    (h : Notice.insert? content notice = some text) :
    (∃ after, content = Frontmatter.blockText fields ++ after ∧
        text = Frontmatter.blockText fields ++ (Notice.block notice ++ after)) ↔
      ∀ field ∈ fields, ¬ Frontmatter.delimiter <:+: field := by
  obtain ⟨after, rfl⟩ := hblock.exists_content_eq
  obtain ⟨-, front, rest, hsplit, rfl⟩ := Notice.insert?_eq_some_iff.mp h
  rw [← Frontmatter.split_blockText_iff after, hsplit, Frontmatter.blockText_eq]
  constructor
  · rintro ⟨after', hcontent, htext⟩
    obtain rfl := List.append_cancel_left hcontent
    have hbefore : Frontmatter.delimiter ++ front ++ Frontmatter.delimiter ++ rest =
        Frontmatter.delimiter ++ Frontmatter.inside fields ++ Frontmatter.delimiter ++ after := by
      rw [← Frontmatter.blockText_eq, (Frontmatter.split_eq_some_iff.mp hsplit).1]
      exact List.append_assoc _ _ _
    rw [← List.append_assoc] at htext
    have hplace := Notice.eq_of_put_in (List.suffix_append _ _) (List.suffix_append _ _)
      (Notice.suffix_block notice) hbefore htext
    rw [hplace] at hbefore
    rw [List.append_cancel_left (List.append_cancel_right hplace),
      List.append_cancel_left hbefore]
  · intro hsame
    obtain ⟨rfl, rfl⟩ := Prod.mk.inj (Option.some.inj hsame)
    exact ⟨rest, rfl, (List.append_assoc _ _ _).symm⟩

/-- Two dashes in a field, and a delimiter in the body, do not move the notice. -/
theorem insert?_behind_block_deploy :
    let content := "---\ndescription: Deploy -- now\n---\n\n# Deploy\n\n---\n".toList
    let fields := ["description: Deploy -- now".toList]
    let text := "---\ndescription: Deploy -- now\n---\n\n> note\n\n\n\n# Deploy\n\n---\n".toList
    Frontmatter.IsBlock content fields [[], "# Deploy".toList, [], "---".toList, []] ∧
      Notice.insert? content "> note\n".toList = some text ∧
      (∀ field ∈ fields, ¬ Frontmatter.delimiter <:+: field) ∧
      ∃ after, content = Frontmatter.blockText fields ++ after ∧
        text = Frontmatter.blockText fields ++ (Notice.block "> note\n".toList ++ after) := by
  intro content fields text
  have hblock : Frontmatter.IsBlock content fields [[], "# Deploy".toList, [], "---".toList, []] :=
    ⟨by decide, by decide⟩
  have hinsert : Notice.insert? content "> note\n".toList = some text := by decide +kernel
  have hfields : ∀ field ∈ fields, ¬ Frontmatter.delimiter <:+: field := by decide +kernel
  exact ⟨hblock, hinsert, hfields, (insert?_behind_block_iff hblock hinsert).mpr hfields⟩

/-- Three dashes in a field close the frontmatter, and the notice goes into the block. -/
theorem insert?_within_block :
    let content := "---\ndescription: a --- b\n---\nBody\n".toList
    let fields := ["description: a --- b".toList]
    Frontmatter.IsBlock content fields ["Body".toList, []] ∧
      ∃ text, Notice.insert? content "> note".toList = some text ∧
        ¬ Frontmatter.blockText fields <+: text := by
  intro content fields
  have hinsert : Notice.insert? content "> note".toList =
      some "---\ndescription: a ---\n\n> note\n\n b\n---\nBody\n".toList := by
    decide +kernel
  exact ⟨⟨by decide, by decide⟩, _, hinsert, by decide +kernel⟩

end CommandTemplates
