import Mathlib.Algebra.Group.Nat.Defs
import CommandTemplates.Proofs.Yaml.Shown
import CommandTemplates.Yaml.Plain
import CommandTemplates.Yaml.Quoted

/-!
# Scalars on one line

What is written plain or in quotes is read back as the same text.

## Main Definitions

* `Quotes` — code that stands for a character between quotes

## Main Results

* `plainScalar_written` — a plain text is read up to the end of its line
* `quotes_singleQuotedChar`, `quotes_doubleQuotedChar` — the code that is written for a character
* `quotedScalar_written` — a quoted text is read up to its closing quote
-/

namespace CommandTemplates.Yaml

variable {c quote : Char} {text code acc bs : Text} {m : Mark}

/-- No document boundary is in the middle of a line. -/
theorem isDocumentBoundary_of_column {gs : List Glyph} (h : m.column ≠ 0) :
    isDocumentBoundary (⟨c, m⟩ :: gs) = false := by
  rw [isDocumentBoundary, Bool.or_eq_false_iff]
  constructor
  all_goals
    rw [isDocumentMark.eq_def]
    split
    · next heq =>
      cases heq
      simp [h]
    · rfl

/-! ### Numbers of characters -/

/-- The number that one more digit gives. -/
def addDigit (value : Nat) (c : Char) : Option Nat := (hexValue? c).map (16 * value + ·)

theorem isInline_of_hexValue {v : Nat} (h : hexValue? c = some v) : IsInline c := by
  have h0 : ('0' : Char).toNat = 0x30 := rfl
  have h9 : ('9' : Char).toNat = 0x39 := rfl
  have ha : ('a' : Char).toNat = 0x61 := rfl
  have hf : ('f' : Char).toNat = 0x66 := rfl
  have hA : ('A' : Char).toNat = 0x41 := rfl
  have hF : ('F' : Char).toNat = 0x46 := rfl
  have hrange : 0x20 ≤ c.toNat ∧ c.toNat ≤ 0x7E := by
    rw [hexValue?] at h
    simp only [Char.le_def, UInt32.le_iff_toNat_le, Char.toNat_val] at h
    split at h
    · omega
    · split at h
      · omega
      · split at h
        · omega
        · cases h
  exact isInline_of_ascii hrange

/-- A digit that was written is read as its value. -/
theorem addDigit_digitChar {value d : Nat} (h : d < 16) :
    addDigit value d.digitChar.toUpper = some (16 * value + d) := by
  have hdigit : ∀ d < 16, hexValue? (Nat.digitChar d).toUpper = some d := by decide
  rw [addDigit, hdigit d h, Option.map_some]

/-- A number that was written in digits is read as the number. -/
theorem foldlM_addDigit_toDigits (n : Nat) :
    ((Nat.toDigits 16 n).map Char.toUpper).foldlM addDigit 0 = some n := by
  induction n using Nat.strongRecOn with
  | ind n ih =>
    rw [Nat.toDigits_eq_if (by decide)]
    split
    · next h =>
      rw [List.map_singleton, List.foldlM_cons, addDigit_digitChar h]
      simp
    · next h =>
      rw [List.map_append, List.foldlM_append, ih (n / 16) (by omega), List.map_singleton]
      simp only [Option.bind_eq_bind, Option.bind_some, List.foldlM_cons, List.foldlM_nil]
      rw [addDigit_digitChar (Nat.mod_lt n (by decide)), Option.bind_some, Nat.div_add_mod]
      rfl

/-- Digits give back the number. -/
theorem foldlM_addDigit_hexDigits (width n : Nat) :
    (hexDigits width n).foldlM addDigit 0 = some n := by
  have hzeros : ∀ k : Nat, (List.replicate k '0').foldlM addDigit 0 = some 0 := by
    intro k
    induction k with
    | zero => rfl
    | succ k ih => exact ih
  rw [hexDigits, List.foldlM_append, hzeros]
  exact foldlM_addDigit_toDigits n

/-- A number is padded to its width. -/
theorem length_hexDigits {width n : Nat} (hwidth : 0 < width) (h : n < 16 ^ width) :
    (hexDigits width n).length = width := by
  have hle := (Nat.length_toDigits_le_iff (by decide) hwidth).mpr h
  rw [hexDigits, List.length_append, List.length_replicate, List.length_map]
  omega

/-- Every character is found again by its number. -/
theorem scalarOfNat?_toNat (c : Char) : scalarOfNat? c.toNat = some c := by
  have hvalid : c.toNat.isValidChar := c.valid
  rw [scalarOfNat?, if_pos hvalid, Char.ofNat_toNat]

/-! ### Steps of a quoted scalar -/

section Steps

variable {gs : List Glyph} {m' : Mark}

theorem isInline_backslash : IsInline '\\' := isInline_of_ascii (by decide)

theorem quotedScalar_space : quotedScalar quote .text acc (.blanks bs) (⟨' ', m⟩ :: gs) =
    quotedScalar quote .text acc (.blanks (bs ++ [' '])) gs := by
  rw [quotedScalar]
  exact if_pos rfl

/-- A character that stands for itself. -/
theorem quotedScalar_inline (hc : IsInline c) (hspace : c ≠ ' ') (hquote : c ≠ quote)
    (hescape : quote = '"' → c ≠ '\\') (hm : m.column ≠ 0) :
    quotedScalar quote .text acc (.blanks bs) (⟨c, m⟩ :: gs) =
      quotedScalar quote .text (c :: (bs.reverse ++ acc)) Gap.empty gs := by
  have hno : ¬(quote = '"' ∧ c = '\\') := fun h => hescape h.1 h.2
  rw [quotedScalar]
  simp only [hc.isBlank_of_ne hspace, hc.isBreak, isDocumentBoundary_of_column hm, hc.ne_endChar,
    hquote, hno, Bool.or_false, decide_false, Bool.false_eq_true, if_false, Gap.joined]

/-- The quote itself, which is written twice. -/
theorem quotedScalar_quote (hm : m.column ≠ 0) :
    quotedScalar '\'' .text acc (.blanks bs) (⟨'\'', m⟩ :: ⟨'\'', m'⟩ :: gs) =
      quotedScalar '\'' .text ('\'' :: (bs.reverse ++ acc)) Gap.empty gs := by
  rw [quotedScalar, isDocumentBoundary_of_column hm]
  simp [isBlank, isBreak, isSeparator, endChar, Gap.joined]

/-- The closing quote, before another character. -/
theorem quotedScalar_close (hquote : quote = '\'' ∨ quote = '"') (hm : m.column ≠ 0)
    (hc : c ≠ '\'') :
    quotedScalar quote .text acc (.blanks bs) (⟨quote, m⟩ :: ⟨c, m'⟩ :: gs) =
      some (acc.reverse ++ bs, ⟨c, m'⟩ :: gs) := by
  rw [quotedScalar, isDocumentBoundary_of_column hm]
  rcases hquote with rfl | rfl
  all_goals simp [hc, isBlank, isBreak, isSeparator, endChar, Gap.joined]

/-- An escape of one letter. -/
theorem quotedScalar_escape {d : Char} (hm : m.column ≠ 0) (hc : isBreak c = false)
    (hescaped : escapedChar? c = some d) :
    quotedScalar '"' .text acc (.blanks bs) (⟨'\\', m⟩ :: ⟨c, m'⟩ :: gs) =
      quotedScalar '"' .text (d :: (bs.reverse ++ acc)) Gap.empty gs := by
  rw [quotedScalar]
  simp only [isInline_backslash.isBlank_of_ne (by decide), isInline_backslash.isBreak,
    isDocumentBoundary_of_column hm, isInline_backslash.ne_endChar, hc, hescaped, Char.reduceEq,
    Bool.or_false, decide_false, Bool.false_eq_true, if_false, and_self, if_true, Gap.joined]

/-- The start of an escape by number. -/
theorem quotedScalar_number {digits : Nat} (hm : m.column ≠ 0) (hc : isBreak c = false)
    (hescaped : escapedChar? c = none) (hdigits : codeLength? c = some digits) :
    quotedScalar '"' .text acc (.blanks bs) (⟨'\\', m⟩ :: ⟨c, m'⟩ :: gs) =
      quotedScalar '"' (.code digits 0) (bs.reverse ++ acc) Gap.empty gs := by
  rw [quotedScalar]
  simp only [isInline_backslash.isBlank_of_ne (by decide), isInline_backslash.isBreak,
    isDocumentBoundary_of_column hm, isInline_backslash.ne_endChar, hc, hescaped, hdigits,
    Char.reduceEq, Bool.or_false, decide_false, Bool.false_eq_true, if_false, and_self, if_true,
    Gap.joined]

/-- The digits of the number of a character. -/
theorem quotedScalar_digits {digits : Text} {left value number : Nat} {gap : Gap} {rest : Text}
    (hne : digits ≠ []) (hleft : digits.length = left)
    (hdigits : digits.foldlM addDigit value = some number)
    (hnumber : scalarOfNat? number = some c) :
    quotedScalar '"' (.code left value) acc gap (locate m (digits ++ rest)) =
      quotedScalar '"' .text (c :: acc) gap (locate (m.past digits) rest) := by
  induction digits generalizing m left value with
  | nil => exact absurd rfl hne
  | cons d digits ih =>
    rw [List.foldlM_cons, Option.bind_eq_bind, Option.bind_eq_some_iff] at hdigits
    obtain ⟨value', hvalue', hdigits⟩ := hdigits
    obtain ⟨v, hv, rfl⟩ := Option.map_eq_some_iff.mp hvalue'
    rw [List.cons_append, locate_cons (isInline_of_hexValue hv).toIsShown, quotedScalar, hv,
      Mark.past_cons]
    dsimp only
    cases digits with
    | nil =>
      cases hdigits
      have hone : left ≤ 1 := Nat.le_of_eq hleft.symm
      rw [if_pos hone, hnumber]
      rfl
    | cons d' digits =>
      rw [List.length_cons, List.length_cons] at hleft
      rw [if_neg (by omega)]
      exact ih (List.cons_ne_nil _ _) (by rw [List.length_cons]; omega) hdigits

end Steps

/-! ### Between quotes -/

/-- Between these quotes the code is read as the character, whatever stands before and behind it. -/
def Quotes (quote : Char) (code : Text) (c : Char) : Prop :=
  ∀ (acc bs : Text) (m : Mark) (rest : Text), m.column ≠ 0 →
    ∃ acc' bs', acc'.reverse ++ bs' = acc.reverse ++ bs ++ [c] ∧
      quotedScalar quote .text acc (.blanks bs) (locate m (code ++ rest)) =
        quotedScalar quote .text acc' (.blanks bs') (locate (m.past code) rest)

/-- A character that needs no escape stands for itself between quotes. -/
theorem quotes_self (hc : IsInline c) (hquote : c ≠ quote) (hescape : quote = '"' → c ≠ '\\') :
    Quotes quote [c] c := by
  intro acc bs m rest hm
  rw [List.singleton_append, locate_cons hc.toIsShown]
  by_cases hspace : c = ' '
  · subst hspace
    exact ⟨acc, bs ++ [' '], by rw [List.append_assoc], quotedScalar_space⟩
  · exact ⟨c :: (bs.reverse ++ acc), [], by simp,
      quotedScalar_inline hc hspace hquote hescape hm⟩

/-- A text that is written character by character is read character by character.  Blanks are held
back until it is known that no line ends behind them. -/
theorem quotedScalar_flatMap {code : Char → Text} (acc bs rest : Text)
    (hcode : ∀ c ∈ text, Quotes quote (code c) c ∧ ∀ d ∈ code c, IsInline d)
    (hm : m.column ≠ 0) :
    ∃ acc' bs', acc'.reverse ++ bs' = acc.reverse ++ bs ++ text ∧
      quotedScalar quote .text acc (.blanks bs) (locate m (text.flatMap code ++ rest)) =
        quotedScalar quote .text acc' (.blanks bs') (locate (m.past (text.flatMap code)) rest) := by
  induction text generalizing m acc bs with
  | nil => exact ⟨acc, bs, (List.append_nil _).symm, rfl⟩
  | cons c text ih =>
    obtain ⟨⟨hc, hinline⟩, htext⟩ := List.forall_mem_cons.mp hcode
    obtain ⟨acc', bs', heq, hread⟩ := hc acc bs m (text.flatMap code ++ rest) hm
    have hm' : (m.past (code c)).column ≠ 0 := by
      rw [Mark.past_of_inline fun d hd => (hinline d hd).ne_lineFeed]
      exact Nat.ne_of_gt (Nat.add_pos_left (Nat.pos_of_ne_zero hm) _)
    obtain ⟨acc'', bs'', heq', hread'⟩ := ih acc' bs' htext hm'
    refine ⟨acc'', bs'', ?_, ?_⟩
    · rw [heq', heq, List.append_assoc, List.singleton_append]
    · rw [List.flatMap_cons, List.append_assoc, hread, hread', Mark.past_append]

/-- A character of a text in single quotes. -/
def singleQuotedChar (c : Char) : Text := if c = '\'' then ['\'', '\''] else [c]

/-- Without line breaks, a text between single quotes is written character by character. -/
theorem singleQuotedBody_of_inline {indent : Nat} (h : ∀ c ∈ text, IsInline c) :
    singleQuotedBody indent false text = text.flatMap singleQuotedChar := by
  induction text with
  | nil => rfl
  | cons c text ih =>
    rw [List.forall_mem_cons] at h
    rw [singleQuotedBody, if_neg (by rw [h.1.isBreak]; exact Bool.false_ne_true), ih h.2]
    rfl

/-- What is written for a character between single quotes is read as the character. -/
theorem quotes_singleQuotedChar (hc : IsInline c) :
    Quotes '\'' (singleQuotedChar c) c ∧ ∀ d ∈ singleQuotedChar c, IsInline d := by
  rw [singleQuotedChar]
  split
  · next hquote =>
    subst hquote
    refine ⟨fun acc bs m rest hm => ⟨'\'' :: (bs.reverse ++ acc), [], by simp, ?_⟩, ?_⟩
    · rw [List.cons_append, locate_cons hc.toIsShown, List.singleton_append,
        locate_cons hc.toIsShown, quotedScalar_quote hm]
      rfl
    · simpa using hc
  · next hquote => exact ⟨quotes_self hc hquote nofun, by simpa using hc⟩

/-- A character in double quotes stands for itself, or after a backslash there is a letter for it,
or a letter and its number. -/
theorem doubleQuotedChar_cases (c : Char) :
    (doubleQuotedChar c = [c] ∧ IsInline c ∧ c ≠ '"' ∧ c ≠ '\\') ∨
    (∃ e, doubleQuotedChar c = ['\\', e] ∧ IsInline e ∧ escapedChar? e = some c) ∨
    ∃ e width, doubleQuotedChar c = ['\\', e] ++ hexDigits width c.toNat ∧ IsInline e ∧
      escapedChar? e = none ∧ codeLength? e = some width ∧ 0 < width ∧ c.toNat < 16 ^ width := by
  rw [doubleQuotedChar.eq_def]
  split
  · next h =>
    refine .inr (.inl ⟨c, rfl, ?_⟩)
    rcases h with rfl | rfl
    all_goals exact ⟨isInline_of_ascii (by decide), rfl⟩
  · next hne =>
    rw [not_or] at hne
    split
    · next h =>
      exact .inl ⟨rfl, isInline_of_printable h.1 (Bool.eq_false_iff.mpr h.2), hne⟩
    · right
      split
      case h_13 =>
        right
        have hlt : c.toNat < 16 ^ 8 := by
          have hvalid : c.toNat < 0xD800 ∨ 0xDFFF < c.toNat ∧ c.toNat < 0x110000 := c.valid
          omega
        dsimp only
        split
        · next h =>
          exact ⟨'x', 2, rfl, isInline_of_ascii (by decide), rfl, rfl, by decide,
            Nat.lt_succ_of_le h⟩
        · split
          · next h =>
            exact ⟨'u', 4, rfl, isInline_of_ascii (by decide), rfl, rfl, by decide,
              Nat.lt_succ_of_le h⟩
          · exact ⟨'U', 8, rfl, isInline_of_ascii (by decide), rfl, rfl, by decide, hlt⟩
      all_goals exact .inl ⟨_, rfl, isInline_of_ascii (by decide), rfl⟩

/-- Digits can stand anywhere in a line. -/
theorem isInline_of_mem_hexDigits {width n : Nat} (h : c ∈ hexDigits width n) : IsInline c := by
  have hfold : ∀ {digits : Text} {value number : Nat},
      digits.foldlM addDigit value = some number → ∀ d ∈ digits, IsInline d := by
    intro digits
    induction digits with
    | nil => exact fun _ => List.forall_mem_nil _
    | cons d digits ih =>
      intro value number hdigits
      rw [List.foldlM_cons, Option.bind_eq_bind, Option.bind_eq_some_iff] at hdigits
      obtain ⟨value', hvalue', hdigits⟩ := hdigits
      obtain ⟨v, hv, -⟩ := Option.map_eq_some_iff.mp hvalue'
      exact List.forall_mem_cons.mpr ⟨isInline_of_hexValue hv, ih hdigits⟩
  exact hfold (foldlM_addDigit_hexDigits width n) c h

/-- What is written for a character between double quotes, escaped or not, is read as the character.
-/
theorem quotes_doubleQuotedChar (c : Char) :
    Quotes '"' (doubleQuotedChar c) c ∧ ∀ d ∈ doubleQuotedChar c, IsInline d := by
  rcases doubleQuotedChar_cases c with ⟨heq, hc, hquote, hslash⟩ | ⟨e, heq, he, hescaped⟩ |
    ⟨e, width, heq, he, hescaped, hwidth, hpos, hlt⟩
  · rw [heq]
    exact ⟨quotes_self hc hquote fun _ => hslash, by simpa using hc⟩
  · rw [heq]
    refine ⟨fun acc bs m rest hm => ⟨c :: (bs.reverse ++ acc), [], by simp, ?_⟩, ?_⟩
    · rw [List.cons_append, locate_cons isInline_backslash.toIsShown, List.singleton_append,
        locate_cons he.toIsShown, quotedScalar_escape hm he.isBreak hescaped]
      rfl
    · exact List.forall_mem_cons.mpr ⟨isInline_backslash, by simpa using he⟩
  · rw [heq]
    have hdigits : hexDigits width c.toNat ≠ [] := by
      rw [← List.length_pos_iff, length_hexDigits hpos hlt]
      exact hpos
    refine ⟨fun acc bs m rest hm => ⟨c :: (bs.reverse ++ acc), [], by simp, ?_⟩, ?_⟩
    · rw [List.append_assoc, List.cons_append, locate_cons isInline_backslash.toIsShown,
        List.singleton_append, locate_cons he.toIsShown,
        quotedScalar_number hm he.isBreak hescaped hwidth,
        quotedScalar_digits hdigits (length_hexDigits hpos hlt)
          (foldlM_addDigit_hexDigits width c.toNat) (scalarOfNat?_toNat c)]
      rfl
    · rw [List.forall_mem_append]
      exact ⟨List.forall_mem_cons.mpr ⟨isInline_backslash, by simpa using he⟩,
        fun d hd => isInline_of_mem_hexDigits hd⟩

/-- A text in quotes is read up to its closing quote, and what comes behind that is left as it is.
-/
theorem quotedScalar_written {code : Char → Text} {rest : Text}
    (hquote : quote = '\'' ∨ quote = '"')
    (hcode : ∀ c ∈ text, Quotes quote (code c) c ∧ ∀ d ∈ code c, IsInline d)
    (hm : m.column ≠ 0) :
    quotedScalar quote .text [] Gap.empty (locate m (text.flatMap code ++ quote :: '\n' :: rest)) =
      some (text, locate (m.past (text.flatMap code ++ [quote])) ('\n' :: rest)) := by
  have hinline : IsInline quote := by
    rcases hquote with rfl | rfl
    all_goals exact isInline_of_ascii (by decide)
  obtain ⟨acc, bs, heq, hread⟩ := quotedScalar_flatMap [] [] (quote :: '\n' :: rest) hcode hm
  have hm' : (m.past (text.flatMap code)).column ≠ 0 := by
    rw [Mark.past_of_inline]
    · exact Nat.ne_of_gt (Nat.add_pos_left (Nat.pos_of_ne_zero hm) _)
    · intro d hd
      obtain ⟨c, hc, hd⟩ := List.mem_flatMap.mp hd
      exact ((hcode c hc).2 d hd).ne_lineFeed
  rw [Gap.empty, hread, locate_cons hinline.toIsShown, locate_cons isShown_lineFeed,
    quotedScalar_close hquote hm' (by decide), heq, Mark.past_append, Mark.past_cons, Mark.past_nil,
    locate_cons isShown_lineFeed]
  rfl

/-! ### Plain text -/

/-- A pair of characters is found when they stand next to each other. -/
theorem hasPair_eq_true_iff {p q : Char → Bool} : hasPair p q text = true ↔
    ∃ c d, [c, d] <:+: text ∧ p c = true ∧ q d = true := by
  induction text with
  | nil => simp [hasPair]
  | cons c text ih =>
    cases text with
    | nil =>
      simp only [hasPair, Bool.false_eq_true, false_iff]
      rintro ⟨c', d, h, -⟩
      exact absurd h.length_le (by simp)
    | cons d text =>
      have hwithin : ∀ l : Text, l <:+: c :: d :: text ↔ l <+: c :: d :: text ∨ l <:+: d :: text :=
        fun _ => List.infix_cons_iff
      rw [hasPair, Bool.or_eq_true, ih, Bool.and_eq_true]
      simp only [hwithin]
      constructor
      · rintro (⟨hp, hq⟩ | ⟨c', d', h, hpq⟩)
        · exact ⟨c, d, .inl (by simp), hp, hq⟩
        · exact ⟨c', d', .inr h, hpq⟩
      · rintro ⟨c', d', h | h, hp, hq⟩
        · simp only [List.cons_prefix_cons] at h
          obtain ⟨rfl, rfl, -⟩ := h
          exact .inl ⟨hp, hq⟩
        · exact .inr ⟨c', d', h, hp, hq⟩

theorem hasPair_eq_false_iff {p q : Char → Bool} : hasPair p q text = false ↔
    ∀ c d, [c, d] <:+: text → p c = true → q d = false := by
  rw [← Bool.not_eq_true, hasPair_eq_true_iff]
  simp only [not_exists, not_and, Bool.not_eq_true]

section Steps

variable {gs : List Glyph} {indent : Nat}

theorem plainScalar_space : plainScalar false indent acc (.blanks bs) (⟨' ', m⟩ :: gs) =
    plainScalar false indent acc (.blanks (bs ++ [' '])) gs := by
  rw [plainScalar]
  exact if_pos rfl

/-- A character that does not end the scalar. -/
theorem plainScalar_inline (hc : IsInline c) (hspace : c ≠ ' ')
    (hbs : bs ≠ [] → c ≠ '#' ∧ m.column ≠ 0 ∧ indent ≤ m.column)
    (hvalue : c = ':' → startsGap gs = false) :
    plainScalar false indent acc (.blanks bs) (⟨c, m⟩ :: gs) =
      plainScalar false indent (c :: (bs.reverse ++ acc)) Gap.empty gs := by
  have hends : (!(Gap.blanks bs).isEmpty && (!false && decide (m.column < indent) || c == '#' ||
      isDocumentBoundary (⟨c, m⟩ :: gs))) = false := by
    by_cases hempty : bs = []
    · rw [hempty]
      rfl
    · obtain ⟨hcomment, hm, hindent⟩ := hbs hempty
      rw [beq_eq_false_iff_ne.mpr hcomment, isDocumentBoundary_of_column hm,
        decide_eq_false (Nat.not_lt.mpr hindent)]
      exact Bool.and_false _
  have hcolon : (c == ':' && startsGap gs) = false := by
    by_cases h : c = ':'
    · rw [hvalue h, Bool.and_false]
    · rw [beq_eq_false_iff_ne.mpr h, Bool.false_and]
  rw [plainScalar]
  simp only [hc.isBlank_of_ne hspace, hc.isBreak, hc.ne_endChar, hends, hcolon, Bool.false_and,
    decide_false, Bool.or_false, Bool.false_eq_true, if_false, Gap.joined]

/-- The end of the line. -/
theorem plainScalar_lineFeed : plainScalar false indent acc (.blanks bs) (⟨'\n', m⟩ :: gs) =
    plainScalar false indent acc (.breaks (some '\n') []) gs := by
  rw [plainScalar]
  rfl

/-- A colon that ends a word. -/
theorem plainScalar_colon (hgap : startsGap gs = true) :
    plainScalar false indent acc Gap.empty (⟨':', m⟩ :: gs) =
      some (acc.reverse, false, ⟨':', m⟩ :: gs) := by
  rw [plainScalar]
  simp [hgap, isBlank, isBreak, isSeparator, endChar, Gap.isEmpty, Gap.empty, Gap.hasBreak]

/-- A line that is indented less ends the scalar. -/
theorem plainScalar_outdented {n : Nat} {rest : Text} (hrest : Opens rest)
    (hn : m.column + n < indent) :
    plainScalar false indent acc (.breaks (some '\n') []) (locate m (spaces n ++ rest)) =
      some (acc.reverse, true, locate (m.past (spaces n)) rest) := by
  induction n generalizing m with
  | zero =>
    obtain ⟨g, gs, hlocate, rfl, hblank, hbreak, -⟩ := hrest.exists_glyph m
    have houtdented : decide (g.mark.column < indent) = true := decide_eq_true hn
    change plainScalar false indent acc _ (locate g.mark rest) = some (_, true, locate g.mark rest)
    rw [hlocate, plainScalar, hblank, hbreak, houtdented]
    simp [Gap.isEmpty, Gap.hasBreak]
  | succ n ih =>
    rw [spaces, List.replicate_succ, List.cons_append, locate_cons isInline_space.toIsShown,
      plainScalar, if_pos (by rfl), if_neg (by simp)]
    exact ih (by
      change m.column + 1 + n < indent
      omega)

end Steps

/-- No gap starts at a text that does not end a word. -/
theorem startsGap_locate {rest : Text} (htext : ∀ c ∈ text, IsInline c)
    (h : startsWordEnd text = false) : startsGap (locate m (text ++ rest)) = false := by
  cases text with
  | nil => cases h
  | cons c text =>
    rw [startsWordEnd, isWordEnd, Bool.or_eq_false_iff, Bool.or_eq_false_iff] at h
    rw [List.forall_mem_cons] at htext
    rw [List.cons_append, locate_cons htext.1.toIsShown, startsGap]
    exact h.1.1

/-- A single word is read wherever it stands. -/
theorem plainScalar_word {indent : Nat} (acc rest : Text)
    (htext : ∀ c ∈ text, IsInline c ∧ c ≠ ' ' ∧ c ≠ ':') :
    plainScalar false indent acc Gap.empty (locate m (text ++ rest)) =
      plainScalar false indent (text.reverse ++ acc) Gap.empty (locate (m.past text) rest) := by
  induction text generalizing m acc with
  | nil => rfl
  | cons c text ih =>
    rw [List.forall_mem_cons] at htext
    obtain ⟨⟨hc, hspace, hcolon⟩, htext⟩ := htext
    rw [List.cons_append, locate_cons hc.toIsShown, Gap.empty,
      plainScalar_inline hc hspace (absurd rfl) (absurd · hcolon), ih _ htext]
    simp [Gap.empty]

/-- What is plain is read word by word: no colon ends a word, and no number sign starts one.  The
spaces between words are held back, as they would not count at the end of the line. -/
theorem plainScalar_inside {indent : Nat} (acc bs rest : Text) (htext : ∀ c ∈ text, IsInline c)
    (hbs : ∀ c ∈ bs, c = ' ') (hvalue : hasValueMark text = false)
    (hcomment : hasPair isWordEnd (· == '#') (bs ++ text) = false) (hindent : indent ≤ m.column)
    (hm : bs ≠ [] → m.column ≠ 0) :
    ∃ acc' bs', acc'.reverse ++ bs' = acc.reverse ++ bs ++ text ∧ (∀ c ∈ bs', c = ' ') ∧
      plainScalar false indent acc (.blanks bs) (locate m (text ++ rest)) =
        plainScalar false indent acc' (.blanks bs') (locate (m.past text) rest) := by
  induction text generalizing m acc bs with
  | nil => exact ⟨acc, bs, (List.append_nil _).symm, hbs, rfl⟩
  | cons c text ih =>
    rw [List.forall_mem_cons] at htext
    obtain ⟨hc, htext⟩ := htext
    rw [hasValueMark, Bool.or_eq_false_iff] at hvalue
    have hm' : m.next.column ≠ 0 := Nat.succ_ne_zero _
    have hindent' : indent ≤ m.next.column := Nat.le_succ_of_le hindent
    have hnext : m.after c = m.next := Mark.after_of_inline hc.ne_lineFeed
    rw [List.cons_append, locate_cons hc.toIsShown, hnext, Mark.past_cons, hnext]
    by_cases hspace : c = ' '
    · subst hspace
      have hspaces : ∀ c ∈ bs ++ [' '], c = ' ' :=
        List.forall_mem_append.mpr ⟨hbs, List.forall_mem_singleton.mpr rfl⟩
      obtain ⟨acc', bs', heq, hbs', hread⟩ := ih acc (bs ++ [' ']) htext hspaces hvalue.2
        (by simpa using hcomment) hindent' fun _ => hm'
      exact ⟨acc', bs', by simpa using heq, hbs', by rw [plainScalar_space, hread]⟩
    · have hword : bs ≠ [] → c ≠ '#' ∧ m.column ≠ 0 ∧ indent ≤ m.column := by
        refine fun hne => ⟨?_, hm hne, hindent⟩
        have hlast : bs.getLast hne = ' ' := hbs _ (List.getLast_mem hne)
        have hpair : [' ', c] <:+: bs ++ c :: text := by
          rw [← List.dropLast_concat_getLast hne, hlast]
          exact ⟨bs.dropLast, text, by simp⟩
        have hno := hasPair_eq_false_iff.mp hcomment ' ' c hpair (by decide)
        exact beq_eq_false_iff_ne.mp hno
      have hcolon : c = ':' → startsGap (locate m.next (text ++ rest)) = false := by
        rintro rfl
        exact startsGap_locate htext (by simpa using hvalue.1)
      have hcomment' : hasPair isWordEnd (· == '#') ([] ++ text) = false :=
        hasPair_eq_false_iff.mpr fun a b hab => hasPair_eq_false_iff.mp hcomment a b
          (hab.trans ((List.suffix_cons c text).trans (List.suffix_append bs _)).isInfix)
      obtain ⟨acc', bs', heq, hbs', hread⟩ := ih (c :: (bs.reverse ++ acc)) [] htext
        (List.forall_mem_nil _) hvalue.2 hcomment' hindent' nofun
      refine ⟨acc', bs', by simpa using heq, hbs', ?_⟩
      rw [plainScalar_inline hc hspace hword hcolon]
      exact hread

/-- A plain text that does not end blank is read as it stands. -/
theorem plainScalar_text {indent : Nat} (rest : Text) (htext : ∀ c ∈ text, IsInline c)
    (hvalue : hasValueMark text = false) (hcomment : hasPair isWordEnd (· == '#') text = false)
    (hlast : text.getLast? ≠ some ' ') (hindent : indent ≤ m.column) :
    plainScalar false indent [] Gap.empty (locate m (text ++ rest)) =
      plainScalar false indent text.reverse Gap.empty (locate (m.past text) rest) := by
  obtain ⟨acc, bs, heq, hbs, hread⟩ := plainScalar_inside [] [] rest htext
    (List.forall_mem_nil _) hvalue hcomment hindent nofun
  rw [List.reverse_nil, List.nil_append, List.nil_append] at heq
  have hnil : bs = [] := by
    refine Decidable.byContradiction fun hne => hlast ?_
    have hspace : bs.getLast hne = ' ' := hbs _ (List.getLast_mem hne)
    rw [← heq, List.getLast?_append, List.getLast?_eq_some_getLast hne, hspace]
    rfl
  subst hnil
  rw [List.append_nil] at heq
  rw [Gap.empty, hread, ← heq, List.reverse_reverse]

/-- A text that may be plain has no line breaks. -/
theorem isInline_of_canBePlain (h : canBePlain text = true) : ∀ c ∈ text, IsInline c := by
  simp only [canBePlain, Bool.and_eq_true, Bool.not_eq_true', List.any_eq_false] at h
  intro c hc
  exact isInline_of_printable (List.all_eq_true.mp h.1.1.1.1 c hc)
    (Bool.eq_false_iff.mpr (h.1.1.1.2 c hc))

/-- What is written plain is read up to the next line, if that is indented less.  A line that is
indented as far would be taken for more of the same text. -/
theorem plainScalar_written {indent n : Nat} {rest : Text} (hplain : canBePlain text = true)
    (hindent : indent ≤ m.column) (hrest : Opens rest) (hn : n < indent) :
    plainScalar false indent [] Gap.empty (locate m (text ++ '\n' :: (spaces n ++ rest))) =
      some (text, true, locate (m.past (text ++ '\n' :: spaces n)) rest) := by
  have htext := isInline_of_canBePlain hplain
  simp only [canBePlain, looksLikeStructure, Bool.and_eq_true, Bool.not_eq_true',
    Bool.or_eq_false_iff, bne_iff_ne] at hplain
  obtain ⟨⟨⟨-, ⟨-, hvalue⟩, hcomment⟩, -⟩, hlast⟩ := hplain
  rw [plainScalar_text _ htext hvalue hcomment hlast hindent, locate_cons isShown_lineFeed,
    Gap.empty, plainScalar_lineFeed, plainScalar_outdented hrest (by
      change 0 + n < indent
      omega), List.reverse_reverse, Mark.past_append, Mark.past_cons]

end CommandTemplates.Yaml
