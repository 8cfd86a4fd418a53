import CommandTemplates.Proofs.Yaml.Shown
import CommandTemplates.Yaml.Block

/-!
# Literal blocks

What is written as a literal block is read back as the same text, its breaks at the end included.

## Main Definitions

* `chompingOf` — what the header of a text says of the breaks at its end

## Main Results

* `blockLines_literalBody` — the lines of a block are read as they were written
* `blockScalar_written` — a block is read up to the next line that is indented less
-/

namespace CommandTemplates.Yaml

variable {c : Char} {text rest : Text} {m : Mark} {indent : Nat} {b : BlockText}

/-! ### Headers -/

/-- What the header of a text says of the breaks at its end: that there is none, that there is one,
or that all of them count. -/
def chompingOf (text : Text) : Chomping :=
  match text.reverse with
  | [] => .strip
  | [c] => if isBreak c then .keep else .strip
  | c :: d :: _ => if !isBreak c then .strip else if isBreak d then .keep else .clip

/-- The indicator of a chomping. -/
def Chomping.indicator : Chomping → Text
  | .strip => ['-']
  | .clip => []
  | .keep => ['+']

/-- Whether the header of a text says how far its lines are indented.  It does where the first line
would show something else, because it is blank or starts with a space. -/
def showsIndent (text : Text) : Bool := text.head?.any fun c => c = ' ' ∨ isBreak c

/-- A header has a bar, the indentation if it must be shown, and how the end is chomped. -/
theorem literalHeader_eq (text : Text) : literalHeader text =
    '|' :: ((if showsIndent text then ['2'] else []) ++ (chompingOf text).indicator) := by
  unfold literalHeader chompingOf showsIndent
  generalize text.reverse = back
  rcases text with _ | ⟨c, text⟩
  all_goals rcases back with _ | ⟨d, _ | ⟨e, back⟩⟩
  all_goals
    simp only [apply_ite Chomping.indicator]
    simp [Chomping.indicator]

/-- A header that was written is read as what it says. -/
theorem read_header (shown : Bool) (chomping : Chomping) :
    BlockHeader.read true (locate m
      ((if shown then ['2'] else []) ++ chomping.indicator ++ '\n' :: text)) =
      some (⟨true, chomping, if shown then some 2 else none⟩,
        locate (m.past ((if shown then ['2'] else []) ++ chomping.indicator ++ ['\n'])) text) := by
  have hinline : IsInline '2' ∧ IsInline '-' ∧ IsInline '+' := by
    refine ⟨?_, ?_, ?_⟩ <;> exact isInline_of_ascii (by decide)
  obtain ⟨htwo, hdash, hplus⟩ := hinline
  cases shown <;> cases chomping <;>
    simp [Chomping.indicator, BlockHeader.read, locate_cons, htwo.toIsShown, hdash.toIsShown,
      hplus.toIsShown, isShown_lineFeed, BlockHeader.indicators, BlockHeader.chomping?, endOfLine?,
      skipBlanks, startsWithOneOf, isBlank, isBreak]

/-! ### Lines -/

/-- Indentation up to that of the block is passed over. -/
theorem blockLines_spaces {n : Nat} (h : m.column + n ≤ indent) :
    blockLines true indent false b (locate m (spaces n ++ rest)) =
      blockLines true indent false b (locate (m.past (spaces n)) rest) := by
  induction n generalizing m with
  | zero => rfl
  | succ n ih =>
    have hindented : m.column < indent := by omega
    rw [spaces, List.replicate_succ, List.cons_append, locate_cons isInline_space.toIsShown,
      blockLines, if_pos (by simpa using hindented)]
    refine ih ?_
    change m.column + 1 + n ≤ indent
    omega

/-- A line that is indented less ends the block. -/
theorem blockLines_outdented {n : Nat} (hrest : Opens rest) (h : m.column + n < indent) :
    blockLines true indent false b (locate m (spaces n ++ rest)) =
      some (b, locate (m.past (spaces n)) rest) := by
  rw [blockLines_spaces (Nat.le_of_lt h)]
  obtain ⟨g, gs, hlocate, hmark, hblank, hbreak, -⟩ := hrest.exists_glyph (m.past (spaces n))
  have hcolumn : g.mark.column ≠ indent := by
    rw [hmark, Mark.column_past_spaces]
    exact Nat.ne_of_lt h
  rw [isBlank, Bool.or_eq_false_iff] at hblank
  rw [hlocate, blockLines, hblank.1, hblank.2, hbreak]
  simp [hcolumn]

/-- The first character of a line. -/
theorem blockLines_start {gs : List Glyph} (hc : IsInline c) (hm : m.column = indent) :
    blockLines true indent false b (⟨c, m⟩ :: gs) =
      blockLines true indent true (b.startLine true c) gs := by
  rw [blockLines]
  simp [hm, hc.isBreak, hc.ne_endChar]

/-- Whether a break stands at the end of a text, or before it if it is empty. -/
def endsBroken (broken : Bool) (text : Text) : Bool := text.foldl (fun _ c => isBreak c) broken

/-- The lines of a block are read as they were written, whatever was read before them.  The
induction is on the text; at each line break the indentation that was written is passed over before
the next character. -/
theorem blockLines_literalBody (indent : Nat) (broken : Bool) (b : BlockText) (rest : Text)
    (htext : ∀ c ∈ text, IsShown c)
    (hm : broken = true → m.column = 0)
    (hb : broken = false → b.lineBreak = none ∧ b.emptyLines = []) :
    ∃ b' : BlockText, b'.finish .keep = b.finish .keep ++ text ∧
      (endsBroken broken text = false → b'.lineBreak = none ∧ b'.emptyLines = []) ∧
      blockLines true indent (!broken) b (locate m (literalBody indent broken text ++ rest)) =
        blockLines true indent (!endsBroken broken text) b'
          (locate (m.past (literalBody indent broken text)) rest) := by
  induction text generalizing m b broken with
  | nil => exact ⟨b, (List.append_nil _).symm, hb, rfl⟩
  | cons c text ih =>
    rw [List.forall_mem_cons] at htext
    obtain ⟨hc, htext⟩ := htext
    rw [literalBody, endsBroken, List.foldl_cons, ← endsBroken]
    by_cases hfeed : c = '\n'
    · -- a break ends the line, or an empty one
      subst hfeed
      have hcolumn : true = true → (m.nextLine 1).column = 0 := fun _ => rfl
      rw [if_pos (by decide), List.cons_append, locate_cons hc, Mark.past_cons]
      cases broken with
      | false =>
        obtain ⟨hline, hempty⟩ := hb rfl
        obtain ⟨b', htotal, hinline, hread⟩ :=
          ih true { b with lineBreak := some '\n' } htext hcolumn (by simp)
        refine ⟨b', ?_, hinline, ?_⟩
        · rw [htotal]
          simp [BlockText.finish, hline, hempty]
        · rw [Bool.not_false, blockLines]
          exact hread
      | true =>
        obtain ⟨b', htotal, hinline, hread⟩ :=
          ih true { b with emptyLines := b.emptyLines ++ ['\n'] } htext hcolumn (by simp)
        refine ⟨b', ?_, hinline, ?_⟩
        · rw [htotal]
          simp [BlockText.finish]
        · rw [Bool.not_true, blockLines]
          simpa [isBreak] using hread
    · have hinline : IsInline c := ⟨hc, hfeed⟩
      have hnobreak : ¬ isBreak c = true := by
        rw [hinline.isBreak]
        exact Bool.false_ne_true
      rw [if_neg hnobreak, hinline.isBreak]
      cases broken with
      | false =>
        obtain ⟨hline, hempty⟩ := hb rfl
        obtain ⟨b', htotal, hinline', hread⟩ :=
          ih false { b with acc := c :: b.acc } (m := m.after c) htext (by simp)
            fun _ => ⟨hline, hempty⟩
        refine ⟨b', ?_, hinline', ?_⟩
        · rw [htotal]
          simp [BlockText.finish, hline, hempty]
        · change blockLines true indent true b (locate m (c :: (_ ++ rest))) = _
          rw [locate_cons hc, blockLines, if_neg hnobreak, if_neg hc.ne_endChar]
          exact hread
      | true =>
        -- the first character of a line stands at its indentation
        have hm' : (m.past (spaces indent)).column = indent := by
          rw [Mark.column_past_spaces, hm rfl, Nat.zero_add]
        obtain ⟨b', htotal, hinline', hread⟩ :=
          ih false (b.startLine true c) (m := (m.past (spaces indent)).after c) htext (by simp)
            fun _ => ⟨rfl, rfl⟩
        refine ⟨b', ?_, hinline', ?_⟩
        · rw [htotal]
          simp [BlockText.finish, BlockText.startLine]
        · rw [if_pos rfl, List.append_assoc, List.cons_append, Bool.not_true,
            blockLines_spaces (Nat.le_of_eq (by rw [hm rfl, Nat.zero_add])), locate_cons hc,
            blockLines_start hinline hm', Mark.past_append, Mark.past_cons]
          exact hread

/-! ### Blocks -/

/-- A line break at the end is written as it is. -/
theorem literalBody_concat {broken : Bool} :
    literalBody indent broken (text ++ ['\n']) = literalBody indent broken text ++ ['\n'] := by
  induction text generalizing broken with
  | nil => rfl
  | cons c text ih =>
    rw [List.cons_append, literalBody, literalBody, ih, ih]
    split <;> simp

/-- A text ends broken if its last character is a line break. -/
theorem endsBroken_concat {broken : Bool} :
    endsBroken broken (text ++ [c]) = isBreak c := by
  rw [endsBroken, List.foldl_append]
  rfl

theorem column_past_lineFeed : (m.past (text ++ ['\n'])).column = 0 := (Mark.past_lineFeed text).1

/-- The lines of a text that does not end with a break.  One break ends the last line all the same;
it is not part of the text, and kept only on demand. -/
theorem blockLines_inline {n : Nat} (htext : ∀ c ∈ text, IsShown c) (hm : m.column = 0)
    (hends : endsBroken true text = false) (hrest : Opens rest) (hn : n < indent) :
    ∃ b : BlockText, b.finish .strip = text ∧ b.finish .clip = text ++ ['\n'] ∧
      blockLines true indent false {}
        (locate m (literalBody indent true text ++ ['\n'] ++ (spaces n ++ rest))) =
        some (b, locate (m.past (literalBody indent true text ++ ['\n'] ++ spaces n)) rest) := by
  obtain ⟨b, htotal, hinline, hread⟩ := blockLines_literalBody indent true {}
    (['\n'] ++ (spaces n ++ rest)) htext (fun _ => hm) nofun
  obtain ⟨hline, hempty⟩ := hinline hends
  have hacc : b.acc.reverse = text := by
    simpa [BlockText.finish, hline, hempty] using htotal
  have hnext : ((m.past (literalBody indent true text)).after '\n').column + n < indent := by
    change 0 + n < indent
    omega
  refine ⟨{ b with lineBreak := some '\n' }, hacc, ?_, ?_⟩
  · simp [BlockText.finish, hacc]
  · rw [Bool.not_true, hends, Bool.not_false] at hread
    rw [List.append_assoc, hread, List.singleton_append, locate_cons isShown_lineFeed, blockLines,
      if_pos (by rfl), blockLines_outdented hrest hnext, Mark.past_append, Mark.past_append]
    rfl

/-- The lines of a text that ends with a break. -/
theorem blockLines_broken {n : Nat} (htext : ∀ c ∈ text, IsShown c) (hm : m.column = 0)
    (hrest : Opens rest) (hn : n < indent) :
    ∃ b : BlockText, b.finish .keep = text ++ ['\n'] ∧
      blockLines true indent false {}
        (locate m (literalBody indent true (text ++ ['\n']) ++ (spaces n ++ rest))) =
        some (b, locate (m.past (literalBody indent true (text ++ ['\n']) ++ spaces n)) rest) := by
  have htext' : ∀ c ∈ text ++ ['\n'], IsShown c :=
    List.forall_mem_append.mpr ⟨htext, List.forall_mem_singleton.mpr isShown_lineFeed⟩
  obtain ⟨b, htotal, -, hread⟩ := blockLines_literalBody indent true {}
    (spaces n ++ rest) htext' (fun _ => hm) nofun
  have hnext : (m.past (literalBody indent true (text ++ ['\n']))).column + n < indent := by
    rw [literalBody_concat, column_past_lineFeed]
    omega
  refine ⟨b, htotal, ?_⟩
  rw [endsBroken_concat] at hread
  rw [Mark.past_append, ← blockLines_outdented hrest hnext]
  exact hread

theorem exists_concat_of_ne_nil (hne : text ≠ []) : ∃ front c, text = front ++ [c] :=
  ⟨_, _, (List.dropLast_concat_getLast hne).symm⟩

/-- A text without a line break at the end is stripped. -/
theorem chompingOf_inline (hends : endsBroken true text = false) : chompingOf text = .strip := by
  have hne : text ≠ [] := by
    rintro rfl
    cases hends
  obtain ⟨front, c, rfl⟩ := exists_concat_of_ne_nil hne
  rw [endsBroken_concat] at hends
  rw [chompingOf, List.reverse_append, List.reverse_singleton, List.singleton_append]
  cases front.reverse with
  | nil => exact if_neg (by rw [hends]; exact Bool.false_ne_true)
  | cons d back => exact if_pos (by rw [hends]; rfl)

/-- A text with one line break at the end is clipped, and with more of them kept. -/
theorem chompingOf_broken :
    chompingOf (text ++ ['\n']) = if endsBroken true text then .keep else .clip := by
  rw [chompingOf, List.reverse_append, List.reverse_singleton, List.singleton_append]
  by_cases hne : text = []
  · subst hne
    rfl
  · obtain ⟨front, c, rfl⟩ := exists_concat_of_ne_nil hne
    rw [endsBroken_concat, List.reverse_append, List.reverse_singleton, List.singleton_append]
    rfl

/-- Without an indentation in the header, the first line shows it. -/
theorem blockIndent_spaces {least largest n : Nat} {breaks : Text} (hc : IsInline c)
    (hspace : c ≠ ' ') :
    blockIndent least largest breaks (locate m (spaces n ++ c :: rest)) =
      some (max (max largest (m.column + n)) least, breaks,
        locate (m.past (spaces n)) (c :: rest)) := by
  induction n generalizing m with
  | zero =>
    have htab : c ≠ '\t' := hc.ne (by decide)
    change blockIndent least largest breaks (locate m (c :: rest)) = _
    rw [locate_cons hc.toIsShown, blockIndent]
    simp only [hspace, htab, hc.isBreak, Bool.false_eq_true, if_false]
    rw [← locate_cons hc.toIsShown]
    rfl
  | succ n ih =>
    rw [spaces, List.replicate_succ, List.cons_append, locate_cons isInline_space.toIsShown,
      blockIndent, if_pos rfl, ← spaces, ih]
    simp only [Mark.after_of_inline isInline_space.ne_lineFeed, Mark.next, Mark.past_cons,
      Nat.add_assoc, Nat.add_comm 1]

/-- The lines of a text, the last one with its end. -/
def literalLines (indent : Nat) (text : Text) : Text :=
  literalBody indent true text ++ if text.getLast?.any isBreak then [] else ['\n']

/-- A text that ends with a break, or one that does not. -/
theorem ends_cases (htext : ∀ c ∈ text, IsShown c) (hne : text ≠ []) :
    (∃ front, text = front ++ ['\n']) ∨ endsBroken true text = false := by
  obtain ⟨front, c, rfl⟩ := exists_concat_of_ne_nil hne
  rw [endsBroken_concat]
  have hc : IsShown c := htext c (List.mem_append_right _ (List.mem_singleton_self c))
  by_cases hfeed : c = '\n'
  · exact .inl ⟨front, by rw [hfeed]⟩
  · exact .inr (IsInline.isBreak ⟨hc, hfeed⟩)

/-- The lines of a block whose text does not end in a line break. -/
theorem literalLines_inline (hends : endsBroken true text = false) :
    literalLines indent text = literalBody indent true text ++ ['\n'] := by
  have hne : text ≠ [] := by
    rintro rfl
    cases hends
  obtain ⟨front, c, rfl⟩ := exists_concat_of_ne_nil hne
  rw [endsBroken_concat] at hends
  rw [literalLines, List.getLast?_concat, if_neg (by simp [hends])]

/-- The lines of a block whose text does. -/
theorem literalLines_broken :
    literalLines indent (text ++ ['\n']) = literalBody indent true (text ++ ['\n']) := by
  rw [literalLines, List.getLast?_concat, if_pos (by decide), List.append_nil]

/-- A block ends with its last line, in any case. -/
theorem exists_literalLines (indent : Nat) (htext : ∀ c ∈ text, IsShown c) (hne : text ≠ []) :
    ∃ front, literalLines indent text = front ++ ['\n'] := by
  rcases ends_cases htext hne with ⟨front, rfl⟩ | hends
  · exact ⟨_, by rw [literalLines_broken, literalBody_concat]⟩
  · exact ⟨_, literalLines_inline hends⟩

/-- The lines of a text give it back, with the chomping that its header asks for. -/
theorem blockLines_written {n : Nat} (htext : ∀ c ∈ text, IsShown c) (hne : text ≠ [])
    (hm : m.column = 0) (hrest : Opens rest) (hn : n < indent) :
    ∃ b : BlockText, b.finish (chompingOf text) = text ∧
      blockLines true indent false {}
        (locate m (literalLines indent text ++ (spaces n ++ rest))) =
        some (b, locate (m.past (literalLines indent text ++ spaces n)) rest) := by
  rcases ends_cases htext hne with ⟨front, rfl⟩ | hends
  · rw [List.forall_mem_append] at htext
    rw [literalLines_broken, chompingOf_broken]
    cases hends : endsBroken true front with
    | true =>
      obtain ⟨b, htotal, hread⟩ := blockLines_broken htext.1 hm hrest hn
      exact ⟨b, htotal, hread⟩
    | false =>
      obtain ⟨b, -, htotal, hread⟩ := blockLines_inline htext.1 hm hends hrest hn
      rw [literalBody_concat]
      exact ⟨b, htotal, hread⟩
  · obtain ⟨b, htotal, -, hread⟩ := blockLines_inline htext hm hends hrest hn
    rw [literalLines_inline hends, chompingOf_inline hends]
    exact ⟨b, htotal, hread⟩

/-- The text of a literal block after its bar, up to the end of its last line. -/
def blockTail (indent : Nat) (text : Text) : Text :=
  (if showsIndent text then ['2'] else []) ++ (chompingOf text).indicator ++ '\n' ::
    literalLines indent text

/-- The indentation is left out only where the first line shows it. -/
theorem inline_of_not_showsIndent (hc : IsShown c) (h : showsIndent (c :: text) = false) :
    IsInline c ∧ c ≠ ' ' := by
  simp only [showsIndent, List.head?_cons, Option.any_some, decide_eq_false_iff_not, not_or,
    hc.isBreak_eq, beq_iff_eq] at h
  exact ⟨⟨hc, h.2⟩, h.1⟩

/-- A block is read up to the next line that is indented less, with its header and whatever its text
begins or ends with. -/
theorem blockScalar_written {parent n : Nat} (htext : ∀ c ∈ text, IsShown c) (hne : text ≠ [])
    (hrest : Opens rest) (hn : n < parent + 2) :
    blockScalar true parent (locate m (blockTail (parent + 2) text ++ (spaces n ++ rest))) =
      some (text, locate (m.past (blockTail (parent + 2) text ++ spaces n)) rest) := by
  have hsplit : ∀ tail : Text, blockTail (parent + 2) text ++ tail =
      (if showsIndent text then ['2'] else []) ++ (chompingOf text).indicator ++ '\n' ::
        (literalLines (parent + 2) text ++ tail) := by
    intro tail
    rw [blockTail, List.append_assoc, List.cons_append]
  rw [blockScalar, hsplit, read_header, hsplit]
  generalize hm' : m.past ((if showsIndent text then ['2'] else []) ++
    (chompingOf text).indicator ++ ['\n']) = m'
  have hcolumn : m'.column = 0 := by rw [← hm', column_past_lineFeed]
  obtain ⟨b, htotal, hread⟩ := blockLines_written htext hne hcolumn hrest hn
  have hpast : m.past ((if showsIndent text then ['2'] else []) ++ (chompingOf text).indicator ++
      '\n' :: (literalLines (parent + 2) text ++ spaces n)) =
      m'.past (literalLines (parent + 2) text ++ spaces n) := by
    rw [← hm', ← Mark.past_append, List.append_assoc, List.append_assoc, List.append_assoc]
    rfl
  rw [hpast]
  cases hshown : showsIndent text with
  | true =>
    simp only [if_true, Option.bind_eq_bind, Option.bind_some, Int.toNat_natCast, hread, htotal]
  | false =>
    -- the first line starts with a character of a word
    obtain ⟨c, text', rfl⟩ := List.exists_cons_of_ne_nil hne
    obtain ⟨hinline, hspace⟩ := inline_of_not_showsIndent (htext c List.mem_cons_self) hshown
    have hlines : literalLines (parent + 2) (c :: text') ++ (spaces n ++ rest) =
        spaces (parent + 2) ++ c :: (literalBody (parent + 2) false text' ++
          (if (c :: text').getLast?.any isBreak then [] else ['\n']) ++ (spaces n ++ rest)) := by
      rw [literalLines, literalBody, if_neg (by rw [hinline.isBreak]; exact Bool.false_ne_true)]
      simp
    have hindent : max (max 0 (m'.column + (parent + 2))) (max ((parent : Int) + 1).toNat 1) =
        parent + 2 := by
      rw [hcolumn]
      omega
    have hspaces : m'.column + (parent + 2) ≤ parent + 2 := by omega
    rw [hlines, blockLines_spaces hspaces] at hread
    rw [hlines]
    simp only [Option.bind_eq_bind, Option.bind_some, Bool.false_eq_true, if_false,
      blockIndent_spaces hinline hspace, hindent, hread, htotal]

end CommandTemplates.Yaml
