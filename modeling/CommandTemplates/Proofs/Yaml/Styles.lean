import CommandTemplates.Proofs.Yaml.FlowScalars
import CommandTemplates.Proofs.Yaml.LiteralBlocks

/-!
# Styles of scalars

Whatever style is chosen for a text, the reader of that style gives the text back.

## Main Definitions

* `HasNoSeparator` — texts without U+2028 and U+2029

## Main Results

* `written_cases` — the styles in which a text is written
* `isShown_of_mem_written` — all that is written can be read
-/

namespace CommandTemplates.Yaml

variable {text : Text} {indent : Nat}

/-- There is no separator of lines or paragraphs in a text.  Such a character breaks a line where it
is read but not where it is written, and so a text with one need not survive. -/
def HasNoSeparator (text : Text) : Prop := ∀ c ∈ text, isSeparator c = false

instance : Decidable (HasNoSeparator text) :=
  List.decidableBAll (fun c => isSeparator c = false) text

/-- What the choice of a style says about a text.  Double quotes are for everything else, so they
say nothing. -/
theorem styleOf_spec (text : Text) :
    match styleOf text with
    | .plain => isAmbiguous text = false ∧ canBePlain text = true
    | .singleQuoted => '\n' ∉ text ∧ canBeSingleQuoted text = true
    | .doubleQuoted => True
    | .literal => '\n' ∈ text ∧ canBeLiteral text = true := by
  rw [styleOf]
  by_cases hfeed : text.contains '\n' = true
  · rw [if_pos hfeed]
    by_cases hliteral : canBeLiteral text = true
    · rw [if_pos hliteral]
      exact ⟨by simpa using hfeed, hliteral⟩
    · rw [if_neg hliteral]
      trivial
  · rw [if_neg hfeed]
    by_cases hplain : (!isAmbiguous text && canBePlain text) = true
    · rw [if_pos hplain]
      simpa using hplain
    · rw [if_neg hplain]
      by_cases hsingle : canBeSingleQuoted text = true
      · rw [if_pos hsingle]
        exact ⟨by simpa using hfeed, hsingle⟩
      · rw [if_neg hsingle]
        trivial

/-- A text is written plain if it can be, between quotes, or as a literal block.  Every proof about
what is written splits in this way, and no other. -/
theorem written_cases (indent : Nat) (htext : HasNoSeparator text) :
    (styleOf text = .plain ∧ text ≠ [] ∧ canBePlain text = true ∧
      written indent text = text ++ ['\n']) ∨
    (styleOf text ≠ .plain ∧ ∃ quote code, (quote = '\'' ∨ quote = '"') ∧
      (∀ c ∈ text, Quotes quote (code c) c ∧ ∀ d ∈ code c, IsInline d) ∧
      written indent text = quote :: (text.flatMap code ++ [quote, '\n'])) ∨
    (styleOf text ≠ .plain ∧ text ≠ [] ∧ (∀ c ∈ text, IsShown c) ∧
      written indent text = '|' :: blockTail indent text) := by
  have hspec := styleOf_spec text
  rw [written]
  cases hstyle : styleOf text with
  | plain =>
    rw [hstyle] at hspec
    refine .inl ⟨rfl, ?_, hspec.2, rfl⟩
    rintro rfl
    exact absurd hspec.1 (by decide)
  | singleQuoted =>
    rw [hstyle] at hspec
    obtain ⟨hfeed, hsingle⟩ := hspec
    simp only [canBeSingleQuoted, Bool.and_eq_true] at hsingle
    have hinline : ∀ c ∈ text, IsInline c := fun c hc =>
      ⟨⟨List.all_eq_true.mp hsingle.1.1 c hc, htext c hc⟩, fun h => hfeed (h ▸ hc)⟩
    refine .inr (.inl ⟨nofun, '\'', singleQuotedChar, .inl rfl,
      fun c hc => quotes_singleQuotedChar (hinline c hc), ?_⟩)
    simp only [singleQuotedBody_of_inline hinline]
    rfl
  | doubleQuoted =>
    exact .inr (.inl ⟨nofun, '"', doubleQuotedChar, .inr rfl,
      fun c _ => quotes_doubleQuotedChar c, rfl⟩)
  | literal =>
    rw [hstyle] at hspec
    obtain ⟨hfeed, hliteral⟩ := hspec
    simp only [canBeLiteral, Bool.and_eq_true] at hliteral
    refine .inr (.inr ⟨nofun, List.ne_nil_of_mem hfeed,
      fun c hc => ⟨List.all_eq_true.mp hliteral.1.1 c hc, htext c hc⟩, ?_⟩)
    simp [literalHeader_eq, blockTail, literalLines]

/-! ### What is written -/

/-- A block holds nothing that its text does not, apart from indentation. -/
theorem isShown_of_mem_literalBody {broken : Bool} {c : Char} (htext : ∀ c ∈ text, IsShown c)
    (hc : c ∈ literalBody indent broken text) : IsShown c := by
  induction text generalizing broken with
  | nil => cases hc
  | cons d text ih =>
    rw [List.forall_mem_cons] at htext
    rw [literalBody] at hc
    split at hc
    · rcases List.mem_cons.mp hc with rfl | hc
      · exact htext.1
      · exact ih htext.2 hc
    · rw [List.mem_append, List.mem_cons] at hc
      rcases hc with hc | rfl | hc
      · split at hc
        · rw [List.eq_of_mem_replicate hc]
          exact isInline_space.toIsShown
        · cases hc
      · exact htext.1
      · exact ih htext.2 hc

/-- Nor does the rest of a block, with its header. -/
theorem isShown_of_mem_blockTail {c : Char} (htext : ∀ c ∈ text, IsShown c)
    (hc : c ∈ blockTail indent text) : IsShown c := by
  have hheader : ∀ d : Char, d ∈ ['2', '-', '+'] → IsShown d := fun d hd =>
    (isInline_of_all (by decide) d hd).toIsShown
  simp only [blockTail, literalLines, List.mem_append, List.mem_cons] at hc
  rcases hc with (hc | hc) | rfl | hc | hc
  · split at hc
    · exact hheader c (by simp_all)
    · cases hc
  · cases hchomping : chompingOf text
    all_goals
      rw [hchomping] at hc
      first
      | cases hc; done
      | exact hheader c (by simp_all [Chomping.indicator])
  · exact isShown_lineFeed
  · exact isShown_of_mem_literalBody htext hc
  · split at hc
    · cases hc
    · rw [List.mem_singleton.mp hc]
      exact isShown_lineFeed

theorem isInline_quote {quote : Char} (hquote : quote = '\'' ∨ quote = '"') : IsInline quote := by
  rcases hquote with rfl | rfl
  all_goals exact isInline_of_ascii (by decide)

/-- All that is written can be read. -/
theorem isShown_of_mem_written (indent : Nat) {c : Char} (htext : HasNoSeparator text)
    (hc : c ∈ written indent text) : IsShown c := by
  rcases written_cases indent htext with ⟨-, -, hplain, heq⟩ |
    ⟨-, quote, code, hquote, hcode, heq⟩ | ⟨-, -, hshown, heq⟩
  · rw [heq, List.mem_append, List.mem_singleton] at hc
    rcases hc with hc | rfl
    · exact (isInline_of_canBePlain hplain c hc).toIsShown
    · exact isShown_lineFeed
  · simp only [heq, List.mem_cons, List.mem_append, List.mem_flatMap, List.not_mem_nil,
      or_false] at hc
    rcases hc with rfl | ⟨d, hd, hc⟩ | rfl | rfl
    · exact (isInline_quote hquote).toIsShown
    · exact ((hcode d hd).2 c hc).toIsShown
    · exact (isInline_quote hquote).toIsShown
    · exact isShown_lineFeed
  · rw [heq, List.mem_cons] at hc
    rcases hc with rfl | hc
    · exact (isInline_of_ascii (by decide)).toIsShown
    · exact isShown_of_mem_blockTail hshown hc

/-- What is written ends its last line, so that the next field starts a line of its own. -/
theorem exists_written (indent : Nat) (htext : HasNoSeparator text) :
    ∃ front, written indent text = front ++ ['\n'] := by
  rcases written_cases indent htext with ⟨-, -, -, heq⟩ | ⟨-, quote, code, -, -, heq⟩ |
    ⟨-, hne, hshown, heq⟩
  · exact ⟨_, heq⟩
  · exact ⟨quote :: (text.flatMap code ++ [quote]), by simp [heq]⟩
  · obtain ⟨front, hfront⟩ := exists_literalLines indent hshown hne
    exact ⟨'|' :: ((if showsIndent text then ['2'] else []) ++ (chompingOf text).indicator ++
      '\n' :: front), by simp [heq, blockTail, hfront]⟩

/-- What a text that can be plain starts with. -/
theorem canBePlain_head {c : Char} {tail : Text} (h : canBePlain (c :: tail) = true) :
    c ≠ ' ' ∧ openingIndicators.contains c = false ∧
      (c = '-' ∨ c = '?' ∨ c = ':' → startsWordEnd tail = false) := by
  simp only [canBePlain, looksLikeStructure, startsLikeStructure, hasValueMark, Bool.and_eq_true,
    Bool.not_eq_true', Bool.or_eq_false_iff, bne_iff_ne, List.head?_cons, ne_eq,
    Option.some.injEq] at h
  obtain ⟨⟨⟨-, ⟨⟨-, hopening, hsign⟩, hvalue, -⟩, -⟩, hspace⟩, -⟩ := h
  refine ⟨hspace, hopening, ?_⟩
  rintro (rfl | rfl | rfl)
  · simpa using hsign
  · simpa using hsign
  · simpa using hvalue

/-- What is written starts with a character of a word. -/
theorem opens_written (indent : Nat) (htext : HasNoSeparator text) (rest : Text) :
    Opens (written indent text ++ rest) := by
  rcases written_cases indent htext with ⟨-, hne, hplain, heq⟩ | ⟨-, quote, code, hquote, -, heq⟩ |
    ⟨-, -, -, heq⟩
  · obtain ⟨c, tail, rfl⟩ := List.exists_cons_of_ne_nil hne
    obtain ⟨hspace, hopening, -⟩ := canBePlain_head hplain
    rw [heq]
    rintro d ⟨⟩
    refine ⟨isInline_of_canBePlain hplain c List.mem_cons_self, hspace, ?_⟩
    rintro rfl
    exact absurd hopening (by decide)
  · rw [heq]
    rintro d ⟨⟩
    refine ⟨isInline_quote hquote, ?_⟩
    rcases hquote with rfl | rfl <;> decide
  · rw [heq]
    rintro d ⟨⟩
    exact ⟨isInline_of_ascii (by decide), by decide, by decide⟩

end CommandTemplates.Yaml
