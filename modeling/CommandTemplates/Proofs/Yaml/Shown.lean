import CommandTemplates.Yaml.Written

/-!
# Characters that are written as they stand

A document is written in characters that stand for themselves, and the reader finds each of them
where it was written.

## Main Definitions

* `IsShown`, `IsInline` — characters that are written as they stand, and those that end no line
* `Mark.past` — the place after a text

## Main Results

* `locate_cons` — such a character is the next glyph
* `glyphs_of_shown` — a text of such characters can be read
-/

namespace CommandTemplates.Yaml

variable {c : Char} {text : Text} {m : Mark}

/-! ### Characters -/

/-- A character that is written as it stands: it can be printed, and is no separator of lines or
paragraphs. -/
structure IsShown (c : Char) : Prop where
  isPrintable : isPrintable c = true
  isSeparator : isSeparator c = false

/-- A character that is written as it stands, on the line of what stands before it.  Every such
character moves a mark by one column. -/
structure IsInline (c : Char) : Prop extends IsShown c where
  ne_lineFeed : c ≠ '\n'

/-- What can be printed and is no line break can stand in a line. -/
theorem isInline_of_printable (h : isPrintable c = true) (hbreak : isBreak c = false) :
    IsInline c := by
  rw [isBreak, Bool.or_eq_false_iff, beq_eq_false_iff_ne] at hbreak
  exact ⟨⟨h, hbreak.2⟩, hbreak.1⟩

/-- The ASCII characters from the space on are such characters. -/
theorem isInline_of_ascii (h : 0x20 ≤ c.toNat ∧ c.toNat ≤ 0x7E) : IsInline c := by
  have hne : ∀ {d : Char}, d.toNat < 0x20 ∨ 0x7E < d.toNat → c ≠ d := by
    rintro d hd rfl
    omega
  refine isInline_of_printable ?_ ?_
  · simp only [isPrintable, Bool.or_eq_true, Bool.and_eq_true, decide_eq_true_eq]
    exact .inl (.inr h)
  · rw [isBreak, isSeparator, beq_eq_false_iff_ne.mpr (hne (d := '\n') (by decide)),
      beq_eq_false_iff_ne.mpr (hne (d := '\u2028') (by decide)),
      beq_eq_false_iff_ne.mpr (hne (d := '\u2029') (by decide))]
    rfl

namespace IsShown

/-- What cannot be printed is no such character. -/
theorem ne {d : Char} (h : IsShown c) (hd : Yaml.isPrintable d = false) : c ≠ d := by
  rintro rfl
  exact Bool.false_ne_true (hd.symm.trans h.isPrintable)

/-- What is shown as it is may stand in a document. -/
theorem isAllowed (h : IsShown c) : isAllowed c = true := by
  have hprintable := h.isPrintable
  have hvalid : c.toNat < 0xD800 ∨ 0xDFFF < c.toNat ∧ c.toNat < 0x110000 := c.valid
  simp only [Yaml.isPrintable, Yaml.isAllowed, Bool.or_eq_true, Bool.and_eq_true, beq_iff_eq,
    bne_iff_ne, decide_eq_true_eq] at hprintable ⊢
  omega

theorem ne_endChar (h : IsShown c) : c ≠ endChar := h.ne (by decide)

/-- Of what is shown as it is, a line feed alone breaks a line. -/
theorem isBreak_eq (h : IsShown c) : isBreak c = (c == '\n') := by
  rw [isBreak, h.isSeparator, Bool.or_false]

/-- Of what is shown as it is, a space alone is blank. -/
theorem isBlank_eq (h : IsShown c) : isBlank c = (c == ' ') := by
  rw [isBlank, beq_eq_false_iff_ne.mpr (h.ne (d := '\t') (by decide)), Bool.or_false]

end IsShown

theorem isInline_of_all {front : Text}
    (h : front.all fun c => 0x20 ≤ c.toNat ∧ c.toNat ≤ 0x7E) : ∀ c ∈ front, IsInline c := by
  intro c hc
  exact isInline_of_ascii (of_decide_eq_true (List.all_eq_true.mp h c hc))

theorem isInline_space : IsInline ' ' := isInline_of_ascii (by decide)

theorem isShown_lineFeed : IsShown '\n' := ⟨by decide, by decide⟩

theorem isShown_spaces {n : Nat} : ∀ c ∈ spaces n, IsShown c := by
  intro c hc
  rw [List.eq_of_mem_replicate hc]
  exact isInline_space.toIsShown

namespace IsInline

theorem isBlank_of_ne (h : IsInline c) (hspace : c ≠ ' ') : isBlank c = false := by
  rw [h.isBlank_eq]
  exact beq_eq_false_iff_ne.mpr hspace

theorem isBreak (h : IsInline c) : isBreak c = false := by
  rw [h.isBreak_eq, beq_eq_false_iff_ne]
  exact h.ne_lineFeed

/-- Among these characters only the space ends a word. -/
theorem isGap_eq (h : IsInline c) : isGap c = (c == ' ') := by
  rw [isGap, h.isBlank_eq, h.isBreak, beq_eq_false_iff_ne.mpr h.ne_endChar, Bool.or_false,
    Bool.or_false]

end IsInline

/-! ### Places -/

namespace Mark

/-- The place after a character. -/
def after (m : Mark) (c : Char) : Mark := if c = '\n' then m.nextLine 1 else m.next

/-- The place after a text.  Marks are followed along texts in this way instead of by counting
columns, so that what is read can be compared with what was written. -/
def past (m : Mark) (text : Text) : Mark := text.foldl after m

@[simp] theorem past_nil : m.past [] = m := rfl

@[simp] theorem past_cons : m.past (c :: text) = (m.after c).past text := rfl

/-- A mark moves along a text part by part. -/
theorem past_append (text text' : Text) : m.past (text ++ text') = (m.past text).past text' :=
  List.foldl_append

@[simp] theorem after_lineFeed : m.after '\n' = m.nextLine 1 := rfl

theorem after_of_inline (h : c ≠ '\n') : m.after c = m.next := if_neg h

/-- A text on one line moves the place along the line. -/
theorem past_of_inline (h : ∀ c ∈ text, c ≠ '\n') :
    m.past text = ⟨m.index + text.length, m.line, m.column + text.length⟩ := by
  induction text generalizing m with
  | nil => rfl
  | cons c text ih =>
    rw [List.forall_mem_cons] at h
    rw [past_cons, ih h.2, after_of_inline h.1]
    simp only [next, List.length_cons]
    congr 1 <;> omega

theorem column_past_spaces {n : Nat} : (m.past (spaces n)).column = m.column + n := by
  rw [past_of_inline (by simp [spaces]), spaces, List.length_replicate]

/-- A mark never moves up. -/
theorem line_le_past : m.line ≤ (m.past text).line := by
  induction text generalizing m with
  | nil => exact Nat.le_refl _
  | cons c text ih =>
    refine Nat.le_trans ?_ ih
    rw [after]
    split
    · exact Nat.le_succ _
    · exact Nat.le_refl _

/-- A text that ends its last line leads to the start of a line further down. -/
theorem past_lineFeed (text : Text) :
    (m.past (text ++ ['\n'])).column = 0 ∧ m.line < (m.past (text ++ ['\n'])).line := by
  rw [past_append]
  exact ⟨rfl, Nat.lt_succ_of_le line_le_past⟩

end Mark

/-! ### Glyphs -/

/-- A text that ends at once, or starts with a character of a word.  Nothing is skipped in front of
it: it begins with neither a blank nor a comment. -/
def Opens (text : Text) : Prop := ∀ c ∈ text.head?, IsInline c ∧ c ≠ ' ' ∧ c ≠ '#'

theorem locate_nil : locate m [] = [⟨endChar, m⟩] := by rw [locate]

/-- A character that is written as it stands is the next glyph. -/
theorem locate_cons (h : IsShown c) :
    locate m (c :: text) = ⟨c, m⟩ :: locate (m.after c) text := by
  have hreturn : c ≠ '\r' := h.ne (by decide)
  have hnextLine : c ≠ '\u0085' := h.ne (by decide)
  rw [locate]
  · by_cases hfeed : c = '\n'
    · rw [if_pos (Or.inl hfeed), Mark.after, if_pos hfeed, hfeed]
    · have hends : ¬(c = '\n' ∨ c = '\r' ∨ c = '\u0085') := by
        rintro (h | h | h)
        · exact hfeed h
        · exact hreturn h
        · exact hnextLine h
      rw [if_neg hends, h.isSeparator, if_neg Bool.false_ne_true, Mark.after, if_neg hfeed]
  · rintro rest rfl
    exact absurd rfl hreturn

/-- The first glyph of a word. -/
theorem Opens.exists_glyph (h : Opens text) (m : Mark) : ∃ g gs, locate m text = g :: gs ∧
    g.mark = m ∧ isBlank g.char = false ∧ isBreak g.char = false ∧ g.char ≠ '#' := by
  cases text with
  | nil => exact ⟨_, _, locate_nil, rfl, rfl, rfl, (by decide : endChar ≠ '#')⟩
  | cons c text =>
    obtain ⟨hc, hspace, hcomment⟩ := h c rfl
    exact ⟨_, _, locate_cons hc.toIsShown, rfl, hc.isBlank_of_ne hspace, hc.isBreak, hcomment⟩

/-- Spaces in front of a word are skipped. -/
theorem skipBlanks_spaces {n : Nat} (h : Opens text) :
    skipBlanks (locate m (spaces n ++ text)) = locate (m.past (spaces n)) text := by
  induction n generalizing m with
  | zero =>
    obtain ⟨g, gs, hlocate, -, hblank, -⟩ := h.exists_glyph m
    change skipBlanks (locate m text) = locate m text
    rw [hlocate, skipBlanks, List.dropWhile_cons, hblank]
    rfl
  | succ n ih =>
    rw [spaces, List.replicate_succ, List.cons_append, locate_cons isInline_space.toIsShown,
      skipBlanks, List.dropWhile_cons]
    exact ih

/-- As many glyphs are left as there are characters, apart from those that were passed. -/
theorem length_locate_past {a : Text} (h : ∀ c ∈ a, IsShown c) (b : Text) :
    (locate (m.past a) b).length + a.length = (locate m (a ++ b)).length := by
  induction a generalizing m with
  | nil => rfl
  | cons c a ih =>
    rw [List.forall_mem_cons] at h
    rw [List.cons_append, locate_cons h.1, List.length_cons, List.length_cons, Mark.past_cons,
      ← ih h.2]
    rfl

/-- Fewer glyphs are left after a text that is not empty, which is what makes scanning end. -/
theorem length_locate_past_lt {a : Text} (hne : a ≠ []) (h : ∀ c ∈ a, IsShown c) (b : Text) :
    (locate (m.past a) b).length < (locate m (a ++ b)).length := by
  rw [← length_locate_past h]
  exact Nat.lt_add_of_pos_right (List.length_pos_iff.mpr hne)

/-- A text of characters that are written as they stand can be read, and is read as it stands. -/
theorem glyphs_of_shown (h : ∀ c ∈ text, IsShown c) : glyphs text = some (locate {} text) := by
  have hwithout : withoutByteOrderMark text = text := by
    cases text with
    | nil => rfl
    | cons c text =>
      rw [List.forall_mem_cons] at h
      rw [withoutByteOrderMark, if_neg (h.1.ne (by decide))]
  rw [glyphs, hwithout]
  exact if_pos (List.all_eq_true.mpr fun c hc => (h c hc).isAllowed)

end CommandTemplates.Yaml
