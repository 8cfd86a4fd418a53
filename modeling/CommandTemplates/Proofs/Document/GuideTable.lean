import CommandTemplates.Document.Guide
import CommandTemplates.Proofs.Text.Pieces

/-!
# Reading the guide back

A guide is seven lines that are always the same, and then a line for every placeholder.  What such
a line was made of can be read back from it, however wide its cells are: the bars tell the cells
apart, and the spaces that fill a cell up stand behind a text that does not end with one.

## Main Definitions

* `Placeholder.IsTabular` — the texts of a placeholder can stand in a row
* `Guide.line` — the row of a placeholder, as cells between bars
* `Guide.readRow`, `Guide.readTable` — the placeholder of a row, and those of a guide

## Main Results

* `Guide.lines_render` — the lines of a guide
* `Guide.readRow_line` — a placeholder is read back from its row
* `Guide.readTable_render` — the lines of a guide, what they are like, and what is read from them

## Design Notes

The name of a placeholder may end with a space, and may have backticks of its own: the backtick
that is put behind it ends the cell.
-/

namespace CommandTemplates

open Text

/-- The texts of a placeholder can stand in a row: they have neither bars nor newlines, and those
that are not put in backticks do not end with a space. -/
structure Placeholder.IsTabular (p : Placeholder) : Prop where
  plain : ∀ text ∈ [p.name, p.description, p.sample], '\n' ∉ text ∧ '|' ∉ text
  trimmed : ∀ text ∈ [p.description, p.sample], text.getLast? ≠ some ' '

instance (p : Placeholder) : Decidable p.IsTabular :=
  decidable_of_iff ((∀ text ∈ [p.name, p.description, p.sample], '\n' ∉ text ∧ '|' ∉ text) ∧
      ∀ text ∈ [p.description, p.sample], text.getLast? ≠ some ' ')
    ⟨fun h => ⟨h.1, h.2⟩, fun h => ⟨h.plain, h.trimmed⟩⟩

namespace Guide

variable {p : Placeholder} {placeholders : List Placeholder} {text : Text}

/-! ### Rows -/

/-- A text as code. -/
def code (text : Text) : Text := '`' :: text ++ ['`']

/-- What stands between two bars: a space, the text, the spaces that fill it up, and one more. -/
def spaced (text : Text) (padding : Nat) : Text := ' ' :: text ++ List.replicate (padding + 1) ' '

/-- What stands before, between and behind the bars of a row. -/
def cells (p : Placeholder) : List Text := [
  [],
  spaced (code p.name) (17 - p.name.length),
  spaced p.description (30 - p.description.length),
  spaced p.sample (32 - p.sample.length),
  []]

/-- The row of a placeholder without its newline. -/
def line (p : Placeholder) : Text := List.intercalate ['|'] (cells p)

/-- A row is a line of the table. -/
theorem row_eq (p : Placeholder) : row p = line p ++ ['\n'] := by
  unfold row nameCell pad line cells spaced code
  repeat rewrite [String.toList_ofList]
  simp [List.intercalate, List.replicate_succ']

/-- A row is as wide as its columns, or wider where a text is. -/
theorem length_line (p : Placeholder) : (line p).length =
    12 + max 17 p.name.length + max 30 p.description.length + max 32 p.sample.length := by
  simp only [line, cells, spaced, code, List.intercalate, List.intersperse, List.flatten_cons,
    List.flatten_nil, List.length_append, List.length_cons, List.length_nil, List.length_replicate]
  omega

/-- A cell has no character but spaces, backticks and those of its text. -/
theorem not_mem_cells {c : Char} (hspace : c ≠ ' ') (htick : c ≠ '`')
    (h : ∀ text ∈ [p.name, p.description, p.sample], c ∉ text) : ∀ cell ∈ cells p, c ∉ cell := by
  simp only [List.forall_mem_cons] at h
  simp [cells, spaced, code, hspace, htick, h]

theorem bar_not_mem_cells (h : p.IsTabular) : ∀ cell ∈ cells p, '|' ∉ cell :=
  not_mem_cells (by decide) (by decide) fun text htext => (h.plain text htext).2

theorem newline_not_mem_line (h : p.IsTabular) : '\n' ∉ line p := by
  have hcells : ∀ cell ∈ cells p, '\n' ∉ cell :=
    not_mem_cells (by decide) (by decide) fun text htext => (h.plain text htext).1
  simp only [cells, List.forall_mem_cons] at hcells
  simp [line, cells, List.intercalate, hcells]

/-- The bars are those around the three cells. -/
theorem count_bar_line (h : p.IsTabular) : (line p).count '|' = 4 := by
  have hcells := bar_not_mem_cells h
  simp only [cells, List.forall_mem_cons, ← List.count_eq_zero] at hcells
  simp [line, cells, List.intercalate, hcells]

/-- The cells are found between the bars. -/
theorem pieces_line (h : p.IsTabular) : pieces '|' (line p) = cells p :=
  pieces_intercalate (List.cons_ne_nil _ _) (bar_not_mem_cells h)

/-! ### Reading rows -/

/-- The text of a cell: the space before it and all spaces behind it are dropped. -/
def readCell (cell : Text) : Option Text := (after? [' '] cell).map (dropTrailing ' ')

/-- The text between two backticks. -/
def readCode (text : Text) : Option Text :=
  (after? ['`'] text).bind fun rest =>
    if rest.getLast? = some '`' then some rest.dropLast else none

/-- The placeholder of a row. -/
def readRow (row : Text) : Option Placeholder :=
  match pieces '|' row with
  | [[], name, description, sample, []] => do
    let name ← readCell name
    return ⟨← readCode name, ← readCell description, ← readCell sample⟩
  | _ => none

/-- A cell is read without the spaces around it. -/
theorem readCell_spaced (h : text.getLast? ≠ some ' ') (padding : Nat) :
    readCell (spaced text padding) = some text := by
  rw [readCell, after?, if_pos (by simp [spaced])]
  exact congrArg some (dropTrailing_append_replicate h _)

theorem readCode_code (text : Text) : readCode (code text) = some text := by
  simp [readCode, after?, code]

/-- A placeholder is read back from its row. -/
theorem readRow_line (h : p.IsTabular) : readRow (line p) = some p := by
  have hname : (code p.name).getLast? ≠ some ' ' := by
    rw [code, List.getLast?_concat]
    exact nofun
  have htrimmed := h.trimmed
  simp only [List.forall_mem_cons] at htrimmed
  rw [readRow, pieces_line h, cells]
  dsimp only
  rw [readCell_spaced hname, readCell_spaced htrimmed.1, readCell_spaced htrimmed.2.1]
  simp only [Option.bind_eq_bind, Option.bind_some, readCode_code]
  rfl

/-! ### Guides -/

/-- The lines above the rows. -/
def preambleLines : List Text := [
  [],
  "## Customization Guide".toList,
  [],
  "To adapt this command for your infrastructure, replace these placeholders:".toList,
  [],
  "| Placeholder       | Description                    | Example                          |".toList,
  "| ----------------- | ------------------------------ | -------------------------------- |".toList]

theorem preamble_eq : preamble = preambleLines.flatMap (· ++ ['\n']) := by
  unfold preamble preambleLines heading
  -- to take the characters out of a literal is slow for `decide`
  repeat rewrite [String.toList_ofList]
  decide +kernel

theorem newline_not_mem_preambleLines : ∀ line ∈ preambleLines, '\n' ∉ line := by
  unfold preambleLines
  repeat rewrite [String.toList_ofList]
  decide +kernel

/-- A guide is lines that end with a newline each. -/
theorem render_eq (placeholders : List Placeholder) :
    render placeholders = (preambleLines ++ placeholders.map line).flatMap (· ++ ['\n']) := by
  rw [render, preamble_eq, List.flatMap_append, List.flatMap_map]
  exact congrArg _ (List.flatMap_congr fun p _ => row_eq p)

/-- The lines of a guide; nothing stands behind the last newline. -/
theorem lines_render (h : ∀ p ∈ placeholders, p.IsTabular) :
    pieces '\n' (render placeholders) = preambleLines ++ placeholders.map line ++ [[]] := by
  rw [render_eq, pieces_terminated]
  intro text htext
  rcases List.mem_append.mp htext with htext | htext
  · exact newline_not_mem_preambleLines text htext
  · obtain ⟨p, hp, rfl⟩ := List.mem_map.mp htext
    exact newline_not_mem_line (h p hp)

/-- The placeholders of a guide: those of the rows below its first seven lines. -/
def readTable (guide : Text) : Option (List Placeholder) :=
  ((pieces '\n' guide).drop 7).dropLast.mapM readRow

/-- All rows are read back, in order. -/
theorem mapM_readRow (h : ∀ p ∈ placeholders, p.IsTabular) :
    (placeholders.map line).mapM readRow = some placeholders := by
  induction placeholders with
  | nil => rfl
  | cons p placeholders ih =>
    rw [List.forall_mem_cons] at h
    rw [List.map_cons, List.mapM_cons, readRow_line h.1, ih h.2]
    rfl

/-- The placeholders of a guide are read back from it. -/
theorem readTable_of_isTabular (h : ∀ p ∈ placeholders, p.IsTabular) :
    readTable (render placeholders) = some placeholders := by
  rw [readTable, lines_render h, List.append_assoc, show 7 = preambleLines.length from rfl,
    List.drop_left, List.dropLast_concat, mapM_readRow h]

/-- A guide is seven lines that are always the same and a line for every placeholder, in order, each
with its newline.  The line of a placeholder is as wide as its columns and texts ask for, its only
bars are those around the cells, and it can be read back.  So can the whole guide, and different
placeholders have different guides. -/
theorem readTable_render (placeholders : List Placeholder)
    (h : ∀ p ∈ placeholders, p.IsTabular) :
    (render placeholders = (preambleLines ++ placeholders.map line).flatMap (· ++ ['\n']) ∧
        pieces '\n' (render placeholders) = preambleLines ++ placeholders.map line ++ [[]] ∧
        preambleLines.length = 7) ∧
      (∀ p ∈ placeholders,
        (line p).length =
          12 + max 17 p.name.length + max 30 p.description.length + max 32 p.sample.length ∧
        (line p).count '|' = 4 ∧ readRow (line p) = some p) ∧
      readTable (render placeholders) = some placeholders ∧
      ∀ others, (∀ p ∈ others, p.IsTabular) → render others = render placeholders →
        others = placeholders := by
  have hread := readTable_of_isTabular h
  refine ⟨⟨render_eq placeholders, lines_render h, rfl⟩, fun p hp => ?_, hread,
    fun others hothers heq => ?_⟩
  · exact ⟨length_line p, count_bar_line (h p hp), readRow_line (h p hp)⟩
  · have hread' := readTable_of_isTabular hothers
    rw [heq, hread] at hread'
    exact (Option.some.inj hread').symm

/-- Texts that are shorter and longer than their columns, empty, or with spaces and backticks at
their edges. -/
theorem readTable_render_edges :
    let placeholders : List Placeholder := [
      ⟨"{CAFÉ} ".toList, "A host that has more than thirty letters".toList, "`📋`".toList⟩,
      ⟨"`".toList, [], "  x".toList⟩]
    (∀ p ∈ placeholders, p.IsTabular) ∧
      readTable (render placeholders) = some placeholders ∧
      (placeholders.map line).map (·.length) = [101, 91] := by
  intro placeholders
  have htabular : ∀ p ∈ placeholders, p.IsTabular := by decide
  obtain ⟨-, hlines, hread, -⟩ := readTable_render placeholders htabular
  refine ⟨htabular, hread, ?_⟩
  rw [List.forall_mem_cons, List.forall_mem_singleton] at hlines
  rw [List.map_cons, List.map_singleton, List.map_cons, List.map_singleton, hlines.1.1,
    hlines.2.1]
  rfl

end Guide

end CommandTemplates
