import CommandTemplates.Document.Notice
import CommandTemplates.Proofs.Text.Apart

/-!
# Where a notice goes in

A notice goes in behind the delimiter that closes the frontmatter, on lines of its own.

* `Frontmatter.split_eq_some_iff` — frontmatter ends at the first delimiter after the opening one.
* `Notice.insert?_eq_some_iff` — what is put in is a block of lines, and nothing else changes.
* `Notice.split_insert?` — the block goes in behind the frontmatter, which stays the same.
* `Notice.infix_insert?_iff` — after a notice went in, the marker is there exactly when the notice
  has it.
* `Notice.insert?_lossless` — a notice that goes in can be taken out again, and whether another one
  goes in depends on the marker alone.
-/

namespace CommandTemplates

open Text

variable {content notice front rest text : Text}

/-! ### Frontmatter -/

namespace Frontmatter

/-- Frontmatter that is opened and closed. -/
def IsClosed (content : Text) : Prop := ∃ rest, content = delimiter ++ rest ∧ delimiter <:+: rest

/-- Behind an opening delimiter, the split is at the next one. -/
theorem split_delimiter_append (rest : Text) : split (delimiter ++ rest) = cut delimiter rest := by
  have hopens : delimiter.isPrefixOf (delimiter ++ rest) = true :=
    List.isPrefixOf_iff_prefix.mpr (List.prefix_append _ _)
  rw [split, after?, if_pos hopens, List.drop_left, Option.bind_some]

/-- A document that is split begins with a delimiter. -/
theorem delimiter_prefix_of_split (h : split content = some (front, rest)) :
    delimiter <+: content := by
  obtain ⟨tail, hafter, -⟩ := Option.bind_eq_some_iff.mp h
  rw [after?] at hafter
  by_contra hopens
  rw [← List.isPrefixOf_iff_prefix] at hopens
  rw [if_neg hopens] at hafter
  cases hafter

/-- Frontmatter ends where a delimiter begins for the first time. -/
theorem split_eq_some_iff : split content = some (front, rest) ↔
    content = delimiter ++ front ++ (delimiter ++ rest) ∧
      ¬ delimiter <:+: front ++ delimiter.dropLast := by
  have hcut (tail : Text) : split (delimiter ++ tail) = some (front, rest) ↔
      tail = front ++ delimiter ++ rest ∧ ¬ delimiter <:+: front ++ delimiter.dropLast := by
    rw [split_delimiter_append]
    exact cut_eq_some_iff (by decide)
  constructor
  · intro h
    obtain ⟨tail, rfl⟩ := delimiter_prefix_of_split h
    obtain ⟨rfl, hfirst⟩ := (hcut tail).mp h
    exact ⟨by simp only [List.append_assoc], hfirst⟩
  · rintro ⟨rfl, hfirst⟩
    rw [List.append_assoc, hcut]
    exact ⟨by simp only [List.append_assoc], hfirst⟩

/-- The frontmatter of a document that is split is closed. -/
theorem isClosed_of_split (h : split content = some (front, rest)) : IsClosed content := by
  obtain ⟨rfl, -⟩ := split_eq_some_iff.mp h
  refine ⟨front ++ (delimiter ++ rest), List.append_assoc _ _ _, ?_⟩
  exact List.infix_append_of_infix_right (List.prefix_append _ _).isInfix

/-- A document with closed frontmatter is split. -/
theorem IsClosed.exists_split (h : IsClosed content) :
    ∃ front rest, split content = some (front, rest) := by
  obtain ⟨tail, rfl, hin⟩ := h
  rw [split_delimiter_append]
  exact exists_cut hin

/-- Closed frontmatter stays closed, whatever comes behind it. -/
theorem IsClosed.append (h : IsClosed content) (back : Text) : IsClosed (content ++ back) := by
  obtain ⟨rest, rfl, hin⟩ := h
  exact ⟨rest ++ back, List.append_assoc _ _ _, List.infix_append_of_infix_left hin⟩

end Frontmatter

/-! ### The notice -/

namespace Notice

/-- What is put into a document: the notice between two empty lines. -/
def block (notice : Text) : Text := ['\n', '\n'] ++ notice.dropTrailing '\n' ++ ['\n', '\n']

theorem suffix_block (notice : Text) : ['\n'] <:+ block notice :=
  ⟨['\n', '\n'] ++ notice.dropTrailing '\n' ++ ['\n'], by simp [block]⟩

/-- The notice goes in behind the frontmatter of a document that lacks the marker. -/
theorem insert?_eq_some_iff : insert? content notice = some text ↔
    ¬ marker <:+: content ∧ ∃ front rest, Frontmatter.split content = some (front, rest) ∧
      text =
        Frontmatter.delimiter ++ front ++ (Frontmatter.delimiter ++ (block notice ++ rest)) := by
  unfold insert? isPresent
  rw [← includes_eq_false_iff]
  cases content.includes marker with
  | true => simp
  | false =>
    rw [if_neg Bool.false_ne_true, Option.map_eq_some_iff]
    simp [block, eq_comm]

/-- A document gets a notice exactly when it lacks the marker and has frontmatter to put it
behind. -/
theorem isSome_insert?_iff : (insert? content notice).isSome = true ↔
    ¬ marker <:+: content ∧ Frontmatter.IsClosed content := by
  rw [Option.isSome_iff_exists]
  constructor
  · rintro ⟨text, h⟩
    obtain ⟨hmarker, front, rest, hsplit, -⟩ := insert?_eq_some_iff.mp h
    exact ⟨hmarker, Frontmatter.isClosed_of_split hsplit⟩
  · rintro ⟨hmarker, hclosed⟩
    obtain ⟨front, rest, hsplit⟩ := hclosed.exists_split
    exact ⟨_, insert?_eq_some_iff.mpr ⟨hmarker, front, rest, hsplit, rfl⟩⟩

/-- The block goes in behind the frontmatter, which stays the same. -/
theorem split_insert? (h : insert? content notice = some text) :
    ∃ front rest, Frontmatter.split content = some (front, rest) ∧
      Frontmatter.split text = some (front, block notice ++ rest) := by
  obtain ⟨-, front, rest, hsplit, rfl⟩ := insert?_eq_some_iff.mp h
  refine ⟨front, rest, hsplit, Frontmatter.split_eq_some_iff.mpr ⟨rfl, ?_⟩⟩
  exact (Frontmatter.split_eq_some_iff.mp hsplit).2

/-- No marker reaches from one paragraph into the next. -/
theorem apart_lines : Apart ['\n', '\n'] marker := NoOverlap.apart (by decide)

/-- Around a block, a marker is in one of the three texts that it parts. -/
theorem infix_append_block_iff (before after : Text) :
    marker <:+: before ++ (block notice ++ after) ↔
      marker <:+: before ∨ marker <:+: notice ∨ marker <:+: after := by
  have hassoc : before ++ (block notice ++ after) = before ++ ['\n', '\n'] ++
      (notice.dropTrailing '\n' ++ ['\n', '\n'] ++ after) := by
    simp only [block, List.append_assoc]
  have htrailing : marker <:+: notice.dropTrailing '\n' ↔ marker <:+: notice :=
    infix_dropTrailing_iff (by decide)
  rw [hassoc, ← htrailing]
  constructor
  · intro h
    exact (apart_lines _ _ h).imp_right (apart_lines _ _)
  · rintro (h | h | h)
    · exact List.infix_append_of_infix_left (List.infix_append_of_infix_left h)
    · refine List.infix_append_of_infix_right (List.infix_append_of_infix_left ?_)
      exact List.infix_append_of_infix_left h
    · exact List.infix_append_of_infix_right (List.infix_append_of_infix_right h)

/-- After a notice went in, the marker is there exactly when the notice has it. -/
theorem infix_insert?_iff (h : insert? content notice = some text) :
    marker <:+: text ↔ marker <:+: notice := by
  obtain ⟨hmarker, front, rest, hsplit, rfl⟩ := insert?_eq_some_iff.mp h
  obtain ⟨rfl, -⟩ := Frontmatter.split_eq_some_iff.mp hsplit
  rw [← List.append_assoc] at hmarker ⊢
  rw [infix_append_block_iff]
  have hbefore := mt List.infix_append_of_infix_left hmarker
  have hafter := mt List.infix_append_of_infix_right hmarker
  simp only [hbefore, hafter, false_or, or_false]

/-! ### Taking a notice out -/

/-- The document without the block of a notice, if the block stands behind the frontmatter. -/
def remove? (text notice : Text) : Option Text :=
  (Frontmatter.split text).bind fun parts =>
    (after? (block notice) parts.2).map fun rest =>
      Frontmatter.delimiter ++ parts.1 ++ (Frontmatter.delimiter ++ rest)

/-- What went in can be taken out again. -/
theorem remove?_insert? (h : insert? content notice = some text) :
    remove? text notice = some content := by
  obtain ⟨front, rest, hsplit, hsplit'⟩ := split_insert? h
  have hafter : after? (block notice) (block notice ++ rest) = some rest := by
    simp [after?]
  rw [remove?, hsplit', Option.bind_some, hafter, Option.map_some,
    ← (Frontmatter.split_eq_some_iff.mp hsplit).1]

/-- After a notice went in, whether another one goes in depends on the marker in the first. -/
theorem insert?_insert?_eq_none_iff (h : insert? content notice = some text) (other : Text) :
    insert? text other = none ↔ marker <:+: notice := by
  obtain ⟨front, rest, -, hsplit⟩ := split_insert? h
  have hclosed : Frontmatter.IsClosed text := Frontmatter.isClosed_of_split hsplit
  rw [← Option.not_isSome_iff_eq_none, isSome_insert?_iff, infix_insert?_iff h]
  simp [hclosed]

/-- Frontmatter ends at the first three dashes behind the opening ones, even if others overlap them.
A notice goes into a document that lacks the marker and has frontmatter.  Then the frontmatter
stays the same, whatever dashes the notice has; what stands behind it is the notice, without the
newlines at its end, between two empty lines; and without them the document is as it was.  Another
notice goes in exactly when this one lacks the marker. -/
theorem insert?_lossless (content notice : Text) :
    (∀ front rest, Frontmatter.split content = some (front, rest) ↔
      content = "---".toList ++ front ++ ("---".toList ++ rest) ∧
        ¬ "---".toList <:+: front ++ "--".toList) ∧
      ((∃ text, insert? content notice = some text) ↔
        ¬ marker <:+: content ∧ ∃ front rest, Frontmatter.split content = some (front, rest)) ∧
      ∀ text, insert? content notice = some text → ∃ front rest trimmed newlines,
        Frontmatter.split content = some (front, rest) ∧
        notice = trimmed ++ List.replicate newlines '\n' ∧ trimmed.getLast? ≠ some '\n' ∧
        Frontmatter.split text =
          some (front, "\n\n".toList ++ trimmed ++ "\n\n".toList ++ rest) ∧
        remove? text notice = some content ∧
        ∀ other, insert? text other = none ↔ marker <:+: notice := by
  refine ⟨fun front rest => Frontmatter.split_eq_some_iff, ?_, fun text h => ?_⟩
  · constructor
    · rintro ⟨text, h⟩
      obtain ⟨hmarker, front, rest, hsplit, -⟩ := insert?_eq_some_iff.mp h
      exact ⟨hmarker, front, rest, hsplit⟩
    · rintro ⟨hmarker, front, rest, hsplit⟩
      exact ⟨_, insert?_eq_some_iff.mpr ⟨hmarker, front, rest, hsplit, rfl⟩⟩
  · obtain ⟨front, rest, hsplit, hsplit'⟩ := split_insert? h
    obtain ⟨run, hrun, hnewlines⟩ := exists_dropTrailing '\n' notice
    rw [List.eq_replicate_of_mem hnewlines] at hrun
    exact ⟨front, rest, notice.dropTrailing '\n', run.length, hsplit, hrun,
      getLast?_dropTrailing '\n' notice, hsplit', remove?_insert? h,
      insert?_insert?_eq_none_iff h⟩

/-- Four dashes close the frontmatter with the first three, and the dashes of the notice do not
take their place.  The notice has no marker, and goes in again. -/
theorem insert?_lossless_dashes :
    let content := "---\na-\n----\nBody".toList
    let notice := "--- note\n\n".toList
    let text := "---\na-\n---\n\n--- note\n\n-\nBody".toList
    insert? content notice = some text ∧
      Frontmatter.split text = some ("\na-\n".toList, "\n\n--- note\n\n-\nBody".toList) ∧
      remove? text notice = some content ∧ insert? text notice ≠ none := by
  intro content notice text
  have hinsert : insert? content notice = some text := by decide +kernel
  obtain ⟨front, rest, trimmed, newlines, -, -, -, -, hremove, hagain⟩ :=
    (insert?_lossless content notice).2.2 text hinsert
  have hmarker : ¬ marker <:+: notice := by
    rw [← includes_eq_false_iff]
    decide +kernel
  exact ⟨hinsert, by decide +kernel, hremove, fun hnone => hmarker ((hagain notice).mp hnone)⟩

end Notice

end CommandTemplates
