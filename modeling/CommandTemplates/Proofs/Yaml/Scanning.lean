import CommandTemplates.Proofs.Yaml.Styles
import CommandTemplates.Yaml.Token

/-!
# Scanning what is written

Texts, the names of fields, dashes and brackets are read as the lexemes that stand for them.

## Main Definitions

* `Reads` — how one scanner is reached from another
* `Awaits` — a scanner with given lexemes behind it and given characters before it
* `scalarLexeme` — the lexeme of a text

## Main Results

* `Reads.run_eq` — the tokens of a text that is read to its end
* `reads_written` — a text is read as its lexeme, in whatever style it is written
* `reads_key` — a name is read as a key, and opens a mapping where that is due
* `reads_dash`, `reads_brackets` — items and empty lists
* `Awaits.close`, `reads_end` — what is indented less closes a mapping, and so does the end

## Design Notes

A key is known as such only at its colon, and a mapping is closed only by the token after it. So
the lemmas speak of scanners between two tokens: `Awaits` says what the next step does with the
characters before it, whatever the blanks and breaks between.
-/

namespace CommandTemplates.Yaml

variable {c : Char} {text rest : Text} {m : Mark} {gs : List Glyph}

namespace Scanner

variable {s s' : Scanner} {read : List Token} {indent : Int} {outer : List Int} {allowed : Bool}

/-! ### Runs -/

/-- One scanner is reached from another, and every step takes a glyph.  So the number of glyphs is
fuel enough for all the steps, and fuel is not mentioned again until the end of the text. -/
inductive Reads : Scanner → Scanner → Prop
  | refl (s : Scanner) : Reads s s
  | step {s s₁ s' : Scanner} (hstep : s.step = some s₁)
      (hlength : s₁.rest.length < s.rest.length) (hreads : Reads s₁ s') : Reads s s'

/-- Reading on from where something was read. -/
theorem Reads.trans {s₁ : Scanner} (h : Reads s s₁) (h' : Reads s₁ s') : Reads s s' := by
  induction h with
  | refl => exact h'
  | step hstep hlength _ ih => exact .step hstep hlength (ih h')

/-- A scanner that reaches the end of the text gives its tokens, whatever fuel is left. -/
theorem Reads.run_eq (h : Reads s s') (hend : s'.rest = []) {fuel : Nat}
    (hfuel : s.rest.length < fuel) : run fuel s = some s'.read.reverse := by
  induction h generalizing fuel with
  | refl s =>
    obtain _ | fuel := fuel
    · exact absurd hfuel (Nat.not_lt_zero _)
    · rw [run, hend]
      rfl
  | @step s s₁ s' hstep hlength _ ih =>
    obtain _ | fuel := fuel
    · exact absurd hfuel (Nat.not_lt_zero _)
    · have hrest : s.rest.isEmpty = false := by
        cases hs : s.rest with
        | nil =>
          rw [hs] at hlength
          exact absurd hlength (Nat.not_lt_zero _)
        | cons g gs => rfl
      rw [run, hrest, hstep]
      exact ih hend (by omega)

/-! ### Between tokens -/

/-- The lexemes of tokens that were read last first. -/
def lexemesOf (read : List Token) : List Lexeme := (read.map (·.lexeme)).reverse

/-- A scanner outside of flow collections, with no key begun.  This is where it stands before and
after all that is written, apart from the brackets of an empty list. -/
def between (rest : List Glyph) (read : List Token) (indent : Int) (outer : List Int)
    (allowed : Bool) : Scanner :=
  { rest := rest, read := read, indent := indent, outerIndents := outer, keyAllowed := allowed }

/-- A scanner that has read these lexemes in collections with these indentations, and whose next
token begins with the given glyphs.  Blanks and line breaks in front of the token may still have to
be skipped, so what was read last can leave them to what comes next. -/
def Awaits (s : Scanner) (lexemes : List Lexeme) (indent : Int) (outer : List Int)
    (allowed : Bool) (gs : List Glyph) : Prop :=
  ∃ read g gs', lexemesOf read = lexemes ∧ gs = g :: gs' ∧ gs.length ≤ s.rest.length ∧
    s.step = ((between s.rest read indent outer allowed).closeBlocks g.mark.column g.mark).token
      g gs'

/-- No collection is closed by what is indented as far as the innermost one. -/
theorem closeBlocks_of_le {column : Int} (h : s.indent ≤ column) :
    s.closeBlocks column m = s := by
  rw [closeBlocks]
  split
  · rfl
  · cases s.outerIndents with
    | nil => rfl
    | cons outer outers => rw [closeFrom, if_neg (Int.not_lt.mpr h)]

/-- Nothing is skipped in front of a word. -/
theorem skipToToken_opens (hrest : Opens rest) :
    skipToToken false allowed false (locate m rest) = (allowed, locate m rest) := by
  cases rest with
  | nil =>
    rw [locate_nil, skipToToken]
    rfl
  | cons c rest =>
    obtain ⟨hc, hspace, hcomment⟩ := hrest c rfl
    have htab : c ≠ '\t' := hc.ne (by decide)
    have hmark : c ≠ byteOrderMark := hc.ne (by decide)
    rw [locate_cons hc.toIsShown, skipToToken]
    simp [hc.isBreak, hc.ne_endChar, hspace, htab, hmark, hcomment]

/-- Spaces in front of a token are skipped. -/
theorem skipToToken_spaces {n : Nat} (hrest : Opens rest) :
    skipToToken false allowed false (locate m (spaces n ++ rest)) =
      (allowed, locate (m.past (spaces n)) rest) := by
  induction n generalizing m with
  | zero => exact skipToToken_opens hrest
  | succ n ih =>
    rw [spaces, List.replicate_succ, List.cons_append, locate_cons isInline_space.toIsShown,
      skipToToken]
    exact ih

/-- After a line break a key may begin. -/
theorem skipToToken_lineFeed {n : Nat} (hrest : Opens rest) :
    skipToToken false allowed false (locate m ('\n' :: (spaces n ++ rest))) =
      (true, locate (m.past ('\n' :: spaces n)) rest) := by
  rw [locate_cons isShown_lineFeed, skipToToken, if_pos (by rfl), Bool.not_false, Bool.or_true,
    skipToToken_spaces hrest, Mark.past_cons]

/-- A place of a key that is left behind when the next token is read: a key ends on its own line,
and the token is further down. -/
def LeftBehind (place : Option KeyPlace) (m : Mark) : Prop :=
  ∀ k ∈ place, k.required = false ∧ k.mark.line < m.line

/-- Where no key can be, none is left behind. -/
theorem leftBehind_none : LeftBehind none m := by
  rintro k ⟨⟩

/-- A place for a key that is left behind is given up.  No key was required there, so that is no
fault. -/
theorem refresh_of_leftBehind {place : Option KeyPlace} (h : LeftBehind place m) :
    refresh m place = some none := by
  cases place with
  | none => rfl
  | some k =>
    obtain ⟨hrequired, hline⟩ := h k rfl
    rw [refresh, KeyPlace.isStale, decide_eq_true hline, Bool.true_or, if_pos rfl, hrequired]
    rfl

/-- What is skipped in front of a word leaves the word to the next token. -/
theorem awaits_past {place : Option KeyPlace} {allowed' : Bool} {front : Text}
    {lexemes : List Lexeme} (hlexemes : lexemesOf read = lexemes)
    (hfront : ∀ c ∈ front, IsShown c)
    (hskip : skipToToken false allowed false (locate m (front ++ rest)) =
      (allowed', locate (m.past front) rest))
    (hplace : LeftBehind place (m.past front)) (hrest : Opens rest) :
    ({ rest := locate m (front ++ rest), read := read, indent := indent, outerIndents := outer,
       keyPlace := place, keyAllowed := allowed } : Scanner).Awaits lexemes indent outer allowed'
      (locate (m.past front) rest) := by
  obtain ⟨g, gs, hnext, hmark, -⟩ := hrest.exists_glyph (m.past front)
  rw [← hmark] at hplace
  rw [hnext] at hskip
  refine ⟨read, g, gs, hlexemes, hnext, Nat.le.intro (length_locate_past hfront rest), ?_⟩
  rw [step]
  simp only [inFlow, List.isEmpty_nil, Bool.not_true, hskip, forgetStaleKeys,
    refresh_of_leftBehind hplace, Option.bind_eq_bind, Option.bind_some, List.mapM_nil,
    Option.pure_def]
  rfl

section Awaits

variable {place : Option KeyPlace} {lexemes : List Lexeme}

/-- Nothing before the next token. -/
theorem awaits_here (m : Mark) (indent : Int) (outer : List Int) (allowed : Bool)
    (hlexemes : lexemesOf read = lexemes) (hplace : LeftBehind place m) (hrest : Opens rest) :
    ({ rest := locate m rest, read := read, indent := indent, outerIndents := outer,
       keyPlace := place, keyAllowed := allowed } : Scanner).Awaits lexemes indent outer allowed
      (locate m rest) :=
  awaits_past hlexemes (List.forall_mem_nil _) (skipToToken_opens hrest) hplace hrest

/-- A space before the next token. -/
theorem awaits_space (m : Mark) (indent : Int) (outer : List Int) (allowed : Bool)
    (hlexemes : lexemesOf read = lexemes) (hrest : Opens rest) :
    (between (locate m (' ' :: rest)) read indent outer allowed).Awaits lexemes indent outer allowed
      (locate (m.past [' ']) rest) :=
  awaits_past hlexemes (List.forall_mem_singleton.mpr isInline_space.toIsShown)
    (skipToToken_spaces (n := 1) hrest) leftBehind_none hrest

/-- The end of a line before the next token. -/
theorem awaits_lineFeed {n : Nat} (m : Mark) (indent : Int) (outer : List Int) (allowed : Bool)
    (hlexemes : lexemesOf read = lexemes) (hplace : LeftBehind place (m.past ('\n' :: spaces n)))
    (hrest : Opens rest) :
    ({ rest := locate m ('\n' :: (spaces n ++ rest)), read := read, indent := indent,
       outerIndents := outer, keyPlace := place, keyAllowed := allowed } : Scanner).Awaits lexemes
      indent outer true (locate (m.past ('\n' :: spaces n)) rest) :=
  awaits_past hlexemes (List.forall_mem_cons.mpr ⟨isShown_lineFeed, isShown_spaces⟩)
    (skipToToken_lineFeed hrest) hplace hrest

end Awaits

/-! ### What a token begins with -/

/-- The marks around a document stand at the start of a line only. -/
theorem isDocumentMark_of_column {d : Char} (hm : m.column ≠ 0) :
    isDocumentMark d (⟨c, m⟩ :: gs) = false := by
  rw [isDocumentMark.eq_def]
  split
  · next heq =>
    cases heq
    simp [hm]
  · rfl

theorem isDocumentMark_of_ne {d : Char} (hc : c ≠ d) :
    isDocumentMark d (⟨c, m⟩ :: gs) = false := by
  rw [isDocumentMark.eq_def]
  split
  · next heq =>
    cases heq
    simp [hc]
  · rfl

theorem isDocumentMark_of_second {d e : Char} {m' : Mark} (h : d ≠ e) :
    isDocumentMark e (⟨c, m⟩ :: ⟨d, m'⟩ :: gs) = false := by
  cases gs with
  | nil => rfl
  | cons g gs => simp [isDocumentMark, h]

theorem token_quote {quote : Char} (hquote : quote = '\'' ∨ quote = '"') (hm : m.column ≠ 0) :
    s.token ⟨quote, m⟩ gs = (quotedScalar quote .text [] Gap.empty gs).bind fun (text, rest) =>
      s.content (.scalar false text) m rest := by
  rcases hquote with rfl | rfl
  all_goals
    simp [token, isDocumentMark_of_column hm, endChar]

/-- A bar begins a block. -/
theorem token_bar (hs : s.inFlow = false) (hm : m.column ≠ 0) :
    s.token ⟨'|', m⟩ gs = s.block true m gs := by
  simp [token, isDocumentMark_of_column hm, endChar, hs]

/-- A dash with a gap behind it begins an item. -/
theorem token_dash (hgap : startsGap gs = true)
    (hmark : isDocumentMark '-' (⟨'-', m⟩ :: gs) = false) :
    s.token ⟨'-', m⟩ gs = s.blockEntry m gs := by
  simp [token, isDocumentMark_of_ne (d := '.') (c := '-') (by decide), endChar, hgap, hmark]

/-- A colon with a gap behind it begins a value. -/
theorem token_colon (hgap : startsGap gs = true) : s.token ⟨':', m⟩ gs = s.value m gs := by
  simp [token, isDocumentMark_of_ne (d := '.') (c := ':') (by decide),
    isDocumentMark_of_ne (d := '-') (c := ':') (by decide), endChar, hgap]

theorem token_openBracket : s.token ⟨'[', m⟩ gs = s.openFlow .flowSequenceStart m gs := by
  simp [token, isDocumentMark_of_ne (d := '.') (c := '[') (by decide),
    isDocumentMark_of_ne (d := '-') (c := '[') (by decide), endChar]

theorem token_closeBracket : s.token ⟨']', m⟩ gs = s.closeFlow .flowSequenceEnd m gs := by
  simp [token, isDocumentMark_of_ne (d := '.') (c := ']') (by decide),
    isDocumentMark_of_ne (d := '-') (c := ']') (by decide), endChar]

/-- A character that is no indicator begins a plain text. -/
theorem startsPlain_of_inline (hc : IsInline c) (hspace : c ≠ ' ')
    (hopening : openingIndicators.contains c = false)
    (hgap : c = '-' ∨ c = '?' ∨ c = ':' → startsGap gs = false) :
    startsPlain false c gs = true := by
  by_cases hsign : c = '-' ∨ c = '?' ∨ c = ':'
  · have hnoGap := hgap hsign
    rcases hsign with rfl | rfl | rfl
    · have hnoBlank : startsWithOneOf [' ', '\t'] gs = false := by
        cases gs with
        | nil => rfl
        | cons g gs =>
          simp only [startsGap, isGap, isBlank, Bool.or_eq_false_iff, beq_eq_false_iff_ne] at hnoGap
          simp [startsWithOneOf, hnoGap]
      simp [startsPlain, hnoBlank]
    · simp [startsPlain, hnoGap]
    · simp [startsPlain, hnoGap]
  · have hall : indicators.all fun d =>
        (d = '-' ∨ d = '?' ∨ d = ':') ∨ d ∈ openingIndicators := by decide
    have hno : c ∉ indicators := by
      rw [List.contains_eq_mem, decide_eq_false_iff_not] at hopening
      exact fun hmem => (of_decide_eq_true (List.all_eq_true.mp hall c hmem)).elim hsign hopening
    simp [startsPlain, hc.isGap_eq, hspace, hno]

/-- A character that starts no structure starts a plain scalar. -/
theorem token_plain (hs : s.inFlow = false) (hc : IsInline c) (hspace : c ≠ ' ')
    (hopening : openingIndicators.contains c = false)
    (hgap : c = '-' ∨ c = '?' ∨ c = ':' → startsGap gs = false)
    (hdash : isDocumentMark '-' (⟨c, m⟩ :: gs) = false)
    (hdot : isDocumentMark '.' (⟨c, m⟩ :: gs) = false) :
    s.token ⟨c, m⟩ gs = s.plain ⟨c, m⟩ gs := by
  have hne : ∀ d, openingIndicators.contains d = true → c ≠ d := by
    rintro d hd rfl
    exact Bool.false_ne_true (hopening.symm.trans hd)
  have hsign : ∀ d, d = '-' ∨ d = '?' ∨ d = ':' → ¬(c = d ∧ startsGap gs = true) := by
    rintro d hd ⟨rfl, h⟩
    exact Bool.false_ne_true ((hgap hd).symm.trans h)
  rw [token]
  simp [hs, hc.ne_endChar, hdash, hdot, startsPlain_of_inline hc hspace hopening hgap,
    hsign '-' (by decide), hsign '?' (by decide), hsign ':' (by decide), hne '%' (by decide),
    hne '[' (by decide), hne '\x7b' (by decide), hne ']' (by decide), hne '\x7d' (by decide),
    hne ',' (by decide), hne '*' (by decide), hne '&' (by decide), hne '!' (by decide),
    hne '|' (by decide), hne '>' (by decide), hne '\'' (by decide), hne '"' (by decide)]

/-! ### Scalars -/

/-- Content may be a key where one is allowed, and must be one at the indentation of a mapping.  Its
place is kept until a colon is seen or the line ends. -/
theorem content_between {lexeme : Lexeme} {gs' : List Glyph} :
    (between gs read indent outer allowed).content lexeme m gs' =
      some { rest := gs'
             read := ⟨lexeme, m, stopAt m gs'⟩ :: read
             indent := indent
             outerIndents := outer
             keyPlace :=
               if allowed then some ⟨read.length, m, indent == (m.column : Int)⟩ else none
             keyAllowed := false } := by
  cases allowed <;>
    simp [content, rememberKey, forgetKey, between, add, inFlow]

/-- Content that is indented further than the innermost collection need not be a key. -/
theorem content_between_of_lt {lexeme : Lexeme} {gs' : List Glyph} (hm : indent < m.column) :
    (between gs read indent outer allowed).content lexeme m gs' =
      some { rest := gs', read := ⟨lexeme, m, stopAt m gs'⟩ :: read, indent := indent,
             outerIndents := outer,
             keyPlace := if allowed then some ⟨read.length, m, false⟩ else none,
             keyAllowed := false } := by
  rw [content_between, beq_eq_false_iff_ne.mpr (Int.ne_of_lt hm)]

/-- What was read last comes last. -/
theorem lexemesOf_cons {t : Token} : lexemesOf (t :: read) = lexemesOf read ++ [t.lexeme] := by
  simp [lexemesOf]

/-- The lexeme of a text. -/
def scalarLexeme (text : Text) : Lexeme := .scalar (styleOf text = .plain) text

section Written

variable {column n : Nat} {g : Glyph} {gs' : List Glyph}

/-- A plain text that was written is read up to the end of its line, with the indentation of the
next one. -/
theorem token_plain_written (hplain : canBePlain text = true) (hne : text ≠ [])
    (hm : column < m.column) (hrest : Opens rest) (hn : n ≤ column)
    (hlocate : locate m (text ++ '\n' :: (spaces n ++ rest)) = g :: gs') :
    (between gs read column outer allowed).token g gs' =
      some { rest := locate (m.past (text ++ '\n' :: spaces n)) rest
             read := ⟨.scalar true text, m,
               stopAt m (locate (m.past (text ++ '\n' :: spaces n)) rest)⟩ :: read
             indent := column
             outerIndents := outer
             keyPlace := if allowed then some ⟨read.length, m, false⟩ else none
             keyAllowed := true } := by
  have hinline := isInline_of_canBePlain hplain
  have hcolumn : m.column ≠ 0 := Nat.ne_of_gt (Nat.zero_lt_of_lt hm)
  have hread := plainScalar_written hplain (show column + 1 ≤ m.column from hm) hrest
    (Nat.lt_succ_of_le hn)
  obtain ⟨c, tail, rfl⟩ := List.exists_cons_of_ne_nil hne
  rw [List.forall_mem_cons] at hinline
  obtain ⟨hspace, hopening, hsign⟩ := canBePlain_head hplain
  rw [hlocate] at hread
  rw [List.cons_append, locate_cons hinline.1.toIsShown] at hlocate
  cases hlocate
  rw [token_plain rfl hinline.1 hspace hopening
    (fun h => startsGap_locate hinline.2 (hsign h)) (isDocumentMark_of_column hcolumn)
    (isDocumentMark_of_column hcolumn), plain]
  have hindent : ((column : Int) + 1).toNat = column + 1 := by omega
  change (plainScalar false ((column : Int) + 1).toNat [] Gap.empty _).bind _ = _
  rw [hindent, hread, Option.bind_some]
  dsimp only
  rw [content_between_of_lt (Int.ofNat_lt.mpr hm)]
  rfl

/-- A text between quotes that was written is read up to the closing quote. -/
theorem token_quoted_written {quote : Char} {code : Char → Text}
    (hquote : quote = '\'' ∨ quote = '"')
    (hcode : ∀ c ∈ text, Quotes quote (code c) c ∧ ∀ d ∈ code c, IsInline d)
    (hm : column < m.column)
    (hlocate : locate m (quote :: (text.flatMap code ++ quote :: '\n' :: rest)) = g :: gs') :
    (between gs read column outer allowed).token g gs' =
      some { rest := locate (m.past (quote :: (text.flatMap code ++ [quote]))) ('\n' :: rest)
             read := ⟨.scalar false text, m, stopAt m (locate
               (m.past (quote :: (text.flatMap code ++ [quote]))) ('\n' :: rest))⟩ :: read
             indent := column
             outerIndents := outer
             keyPlace := if allowed then some ⟨read.length, m, false⟩ else none
             keyAllowed := false } := by
  have hinline := isInline_quote hquote
  have hcolumn : m.column ≠ 0 := Nat.ne_of_gt (Nat.zero_lt_of_lt hm)
  have hcolumn' : (m.after quote).column ≠ 0 := by
    rw [Mark.after_of_inline hinline.ne_lineFeed]
    exact Nat.succ_ne_zero _
  rw [locate_cons hinline.toIsShown] at hlocate
  cases hlocate
  rw [token_quote hquote hcolumn, quotedScalar_written hquote hcode hcolumn', Option.bind_some]
  exact content_between_of_lt (Int.ofNat_lt.mpr hm)

/-- A block that was written is read up to the first line that is indented less. -/
theorem token_block_written (htext : ∀ c ∈ text, IsShown c) (hne : text ≠ [])
    (hm : m.column ≠ 0) (hrest : Opens rest) (hn : n ≤ column)
    (hlocate : locate m ('|' :: (blockTail (column + 2) text ++ (spaces n ++ rest))) = g :: gs') :
    (between gs read column outer allowed).token g gs' =
      some { rest := locate (m.past ('|' :: (blockTail (column + 2) text ++ spaces n))) rest
             read := ⟨.scalar false text, m, stopAt m (locate
               (m.past ('|' :: (blockTail (column + 2) text ++ spaces n))) rest)⟩ :: read
             indent := column
             outerIndents := outer
             keyAllowed := true } := by
  have hbar : IsInline '|' := isInline_of_ascii (by decide)
  rw [locate_cons hbar.toIsShown] at hlocate
  cases hlocate
  rw [token_bar rfl hm, block]
  change (blockScalar true column _).bind _ = _
  rw [blockScalar_written htext hne hrest (by omega), Option.bind_some]
  rfl

/-- A key does not go on in another line. -/
theorem leftBehind_of_line {k : Nat} {m' : Mark} (h : m.line < m'.line) :
    LeftBehind (if allowed then some ⟨k, m, false⟩ else none) m' := by
  cases allowed with
  | false => exact leftBehind_none
  | true =>
    rintro k ⟨⟩
    exact ⟨rfl, h⟩

/-- A text that is written further in than the innermost collection is the next lexeme, if the next
line is not.  The three styles are read by different parts of the scanner, so this is where they
come together. -/
theorem token_written (gs : List Glyph) (read : List Token) (outer : List Int) (allowed : Bool)
    (htext : HasNoSeparator text) (hm : column < m.column) (hrest : Opens rest)
    (hn : n ≤ column)
    (hlocate : locate m (written (column + 2) text ++ (spaces n ++ rest)) = g :: gs') :
    ∃ s', (between gs read column outer allowed).token g gs' = some s' ∧
      s'.rest.length < (g :: gs').length ∧
      s'.Awaits (lexemesOf read ++ [scalarLexeme text]) column outer true
        (locate (m.past (written (column + 2) text ++ spaces n)) rest) := by
  obtain ⟨front, hfront⟩ := exists_written (column + 2) htext
  have hshown : ∀ c ∈ written (column + 2) text ++ spaces n, IsShown c :=
    List.forall_mem_append.mpr ⟨fun c hc => isShown_of_mem_written _ htext hc, isShown_spaces⟩
  have hlength : (locate (m.past (written (column + 2) text ++ spaces n)) rest).length <
      (g :: gs').length := by
    rw [← hlocate, ← List.append_assoc]
    exact length_locate_past_lt (by simp [hfront]) hshown rest
  have hplace : LeftBehind (if allowed then some ⟨read.length, m, false⟩ else none)
      (m.past (written (column + 2) text ++ spaces n)) := by
    refine leftBehind_of_line ?_
    rw [Mark.past_append, hfront]
    exact Nat.lt_of_lt_of_le (Mark.past_lineFeed front).2 Mark.line_le_past
  rcases written_cases (column + 2) htext with ⟨hstyle, hne, hplain, heq⟩ |
    ⟨hstyle, quote, code, hquote, hcode, heq⟩ | ⟨hstyle, hne, hblock, heq⟩
  · -- a plain scalar takes in the end of its line
    have hsplit : text ++ '\n' :: spaces n = written (column + 2) text ++ spaces n := by simp [heq]
    have hlexeme : scalarLexeme text = .scalar true text := by rw [scalarLexeme, hstyle]; rfl
    rw [heq, List.append_assoc, List.singleton_append] at hlocate
    refine ⟨_, token_plain_written hplain hne hm hrest hn hlocate, ?_, ?_⟩
    · rw [hsplit]
      exact hlength
    · rw [hlexeme, hsplit]
      exact awaits_here _ _ _ _ lexemesOf_cons hplace hrest
  · -- after the closing quote the end of the line is still to be read
    have hsplit : quote :: (text.flatMap code ++ [quote]) ++ '\n' :: spaces n =
        written (column + 2) text ++ spaces n := by simp [heq]
    have hlexeme : scalarLexeme text = .scalar false text := by
      rw [scalarLexeme, decide_eq_false hstyle]
    have hquoted : ∀ c ∈ quote :: (text.flatMap code ++ [quote]), IsShown c := by
      refine fun c hc => isShown_of_mem_written (column + 2) htext ?_
      rw [heq]
      simpa [or_assoc] using Or.inl hc
    have hless : (locate (m.past (quote :: (text.flatMap code ++ [quote])))
        ('\n' :: (spaces n ++ rest))).length < (g :: gs').length := by
      rw [← hlocate, heq]
      simpa using length_locate_past_lt (m := m) (List.cons_ne_nil _ _) hquoted
        ('\n' :: (spaces n ++ rest))
    simp only [heq, List.cons_append, List.append_assoc, List.nil_append] at hlocate
    refine ⟨_, token_quoted_written hquote hcode hm hlocate, hless, ?_⟩
    rw [← hsplit, Mark.past_append] at hplace ⊢
    rw [hlexeme]
    exact awaits_lineFeed _ _ _ _ lexemesOf_cons hplace hrest
  · have hsplit : '|' :: (blockTail (column + 2) text ++ spaces n) =
        written (column + 2) text ++ spaces n := by simp [heq]
    have hlexeme : scalarLexeme text = .scalar false text := by
      rw [scalarLexeme, decide_eq_false hstyle]
    have hcolumn : m.column ≠ 0 := Nat.ne_of_gt (Nat.zero_lt_of_lt hm)
    rw [heq, List.cons_append] at hlocate
    refine ⟨_, token_block_written hblock hne hcolumn hrest hn hlocate, ?_, ?_⟩
    · rw [hsplit]
      exact hlength
    · rw [hlexeme, hsplit]
      exact awaits_here _ _ _ _ lexemesOf_cons leftBehind_none hrest

/-- The same from the token before: what is in front of the text is skipped first. -/
theorem reads_written {before : List Lexeme} (htext : HasNoSeparator text)
    (hm : column < m.column) (hrest : Opens rest) (hn : n ≤ column)
    (h : s.Awaits before column outer allowed
      (locate m (written (column + 2) text ++ (spaces n ++ rest)))) :
    ∃ s', Reads s s' ∧ s'.Awaits (before ++ [scalarLexeme text]) column outer true
      (locate (m.past (written (column + 2) text ++ spaces n)) rest) := by
  obtain ⟨read, g, gs', rfl, hlocate, hlength, hstep⟩ := h
  obtain ⟨g', gs'', hfirst, hmark, -⟩ := (opens_written (column + 2) htext
    (spaces n ++ rest)).exists_glyph m
  obtain ⟨rfl, rfl⟩ := List.cons.inj (hfirst.symm.trans hlocate)
  obtain ⟨s', htoken, hless, hawaits⟩ :=
    token_written s.rest read outer allowed htext hm hrest hn hlocate
  have hle : (column : Int) ≤ g'.mark.column := by
    rw [hmark]
    omega
  rw [closeBlocks_of_le hle, htoken] at hstep
  refine ⟨s', .step hstep (Nat.lt_of_lt_of_le hless ?_) (.refl _), hawaits⟩
  rw [← hlocate]
  exact hlength

end Written

/-! ### Keys -/

/-- Names of fields: short words of small letters.  They are short enough for a key, and never need
quotes. -/
def IsFieldName (name : Text) : Prop :=
  name ≠ [] ∧ name.length ≤ 1024 ∧ name.all Char.isLower

instance {name : Text} : Decidable (IsFieldName name) := inferInstanceAs (Decidable (_ ∧ _))

theorem IsFieldName.isLower {name : Text} (h : IsFieldName name) :
    ∀ c ∈ name, c.isLower = true :=
  List.all_eq_true.mp h.2.2

/-- Lower-case letters have no meaning of their own. -/
theorem inline_of_isLower (hc : c.isLower = true) : IsInline c ∧ c ≠ ' ' ∧ c ≠ ':' ∧ c ≠ '#' := by
  have hrange : 0x61 ≤ c.toNat ∧ c.toNat ≤ 0x7A := by
    change (decide (c.val ≥ 97) && decide (c.val ≤ 122)) = true at hc
    simp only [Bool.and_eq_true, decide_eq_true_eq, UInt32.le_iff_toNat_le, ge_iff_le] at hc
    exact hc
  have hne : ∀ {d : Char}, d.toNat < 0x61 → c ≠ d := by
    rintro d hd rfl
    omega
  exact ⟨isInline_of_ascii ⟨by omega, by omega⟩, hne (by decide), hne (by decide),
    hne (by decide)⟩

section Keys

variable {name : Text} {before : List Lexeme} {column : Nat}

/-- The first letter of a name starts a plain scalar. -/
theorem token_letter (hs : s.inFlow = false) (hc : c.isLower = true) :
    s.token ⟨c, m⟩ gs = s.plain ⟨c, m⟩ gs := by
  have hne : ∀ {d : Char}, d.isLower = false → c ≠ d := by
    rintro d hd rfl
    exact Bool.false_ne_true (hd.symm.trans hc)
  have hopening : openingIndicators.contains c = false := by
    have hall : openingIndicators.all (!·.isLower) = true := by decide
    rw [List.contains_eq_mem, decide_eq_false_iff_not]
    intro hmem
    have hlower := List.all_eq_true.mp hall c hmem
    rw [hc] at hlower
    cases hlower
  obtain ⟨hinline, hspace, -⟩ := inline_of_isLower hc
  refine token_plain hs hinline hspace hopening ?_ (isDocumentMark_of_ne (hne (by decide)))
    (isDocumentMark_of_ne (hne (by decide)))
  rintro (h | h | h)
  all_goals exact absurd h (hne (by decide))

/-- The name of a field is read, and may be a key. -/
theorem step_name (hname : IsFieldName name) (hindent : indent ≤ m.column)
    (hgap : ∀ m : Mark, startsGap (locate m rest) = true)
    (h : s.Awaits before indent outer true (locate m (name ++ ':' :: rest))) :
    ∃ read t, lexemesOf read = before ∧ t.lexeme = .scalar true name ∧ s.step =
      some { rest := locate (m.past name) (':' :: rest), read := t :: read, indent := indent,
             outerIndents := outer,
             keyPlace := some ⟨read.length, m, indent == (m.column : Int)⟩,
             keyAllowed := false } ∧
      (locate (m.past name) (':' :: rest)).length < s.rest.length := by
  obtain ⟨read, g, gs', hbefore, hlocate, hlength, hstep⟩ := h
  have hne := hname.1
  have hletters := hname.isLower
  have hword : ∀ c ∈ name, IsInline c ∧ c ≠ ' ' ∧ c ≠ ':' := fun c hc =>
    ⟨(inline_of_isLower (hletters c hc)).1, (inline_of_isLower (hletters c hc)).2.1,
      (inline_of_isLower (hletters c hc)).2.2.1⟩
  have hcolon : IsShown ':' := (isInline_of_ascii (by decide)).toIsShown
  have hread : plainScalar false (indent + 1).toNat [] Gap.empty (g :: gs') =
      some (name, false, locate (m.past name) (':' :: rest)) := by
    rw [← hlocate, plainScalar_word [] _ hword, locate_cons hcolon, plainScalar_colon (hgap _),
      List.append_nil, List.reverse_reverse]
  have hless : (locate (m.past name) (':' :: rest)).length < s.rest.length := by
    refine Nat.lt_of_lt_of_le ?_ hlength
    exact length_locate_past_lt hne (fun c hc => (hword c hc).1.toIsShown) _
  obtain ⟨c, tail, rfl⟩ := List.exists_cons_of_ne_nil hne
  rw [List.forall_mem_cons] at hword hletters
  rw [List.cons_append, locate_cons hword.1.1.toIsShown] at hlocate
  cases hlocate
  refine ⟨read, ⟨.scalar true (c :: tail), m,
    stopAt m (locate (m.past (c :: tail)) (':' :: rest))⟩, hbefore, rfl, ?_, hless⟩
  rw [hstep, closeBlocks_of_le hindent, token_letter rfl hletters.1, plain]
  change (plainScalar false (indent + 1).toNat [] Gap.empty _).bind _ = _
  rw [hread, Option.bind_some]
  dsimp only
  rw [content_between]
  rfl

/-- What a field in this column adds before its key: a mapping starts with the first field that is
further in than those around it. -/
def opening (indent : Int) (column : Nat) : List Lexeme :=
  if indent < column then [.blockMappingStart] else []

/-- The collections around the fields in this column. -/
def opened (indent : Int) (outer : List Int) (column : Nat) : List Int :=
  if indent < column then indent :: outer else outer

/-- A colon makes what was read since then the key of a mapping.  The token of the key is put in
front of what was read after its place, and a mapping is opened before it if there is none in this
column. -/
theorem step_colon (outer : List Int) (t : Token) (m' : Mark) {required : Bool}
    (hindent : indent ≤ m.column)
    (hgap : ∀ m : Mark, startsGap (locate m rest) = true) (hline : m'.line = m.line)
    (hindex : m'.index ≤ m.index + 1024) (hcolumn : m.column ≤ m'.column)
    (hs : s = { rest := locate m' (':' :: rest), read := t :: read, indent := indent,
                outerIndents := outer, keyPlace := some ⟨read.length, m, required⟩,
                keyAllowed := false }) :
    ∃ read', s.step = some (between (locate (m'.after ':') rest) read' m.column
        (opened indent outer m.column) false) ∧
      lexemesOf read' = lexemesOf read ++ opening indent m.column ++ [.key, t.lexeme, .value] := by
  have hcolon : IsInline ':' := isInline_of_ascii (by decide)
  have hopens : Opens (':' :: rest) := by
    rintro d ⟨⟩
    exact ⟨hcolon, by decide, by decide⟩
  have hskip : skipToToken false false false (locate m' (':' :: rest)) =
      (false, locate m' (':' :: rest)) := skipToToken_opens hopens
  have hfresh : (⟨read.length, m, required⟩ : KeyPlace).isStale m' = false := by
    simp only [KeyPlace.isStale, Bool.or_eq_false_iff, decide_eq_false_iff_not]
    omega
  have hle : indent ≤ (m'.column : Int) := by omega
  have hkept : refresh m' (some ⟨read.length, m, required⟩) =
      some (some ⟨read.length, m, required⟩) := by
    rw [refresh, hfresh]
    rfl
  rw [locate_cons hcolon.toIsShown] at hskip hs
  have hstep : s.step = s.value m' (locate (m'.after ':') rest) := by
    rw [hs, step]
    simp only [inFlow, List.isEmpty_nil, Bool.not_true, hskip, forgetStaleKeys, hkept,
      Option.bind_eq_bind, Option.bind_some, List.mapM_nil, Option.pure_def]
    rw [closeBlocks_of_le hle, token_colon (hgap _)]
  rw [hstep, hs]
  by_cases hdeep : indent < m.column
  · refine ⟨⟨.value, m', { m' with index := m'.index + 1, column := m'.column + 1 }⟩ :: t ::
      ⟨.key, m, m⟩ :: ⟨.blockMappingStart, m, m⟩ :: read, ?_, ?_⟩
    · have htwo : read.length + 1 + 1 - read.length = 2 := by omega
      simp [value, insert, openBlock, inFlow, hdeep, punctuation, add, between, opened, htwo]
    · simp [lexemesOf, opening, hdeep]
  · refine ⟨⟨.value, m', { m' with index := m'.index + 1, column := m'.column + 1 }⟩ :: t ::
      ⟨.key, m, m⟩ :: read, ?_, ?_⟩
    · have heq : indent = m.column := by omega
      simp [value, insert, openBlock, inFlow, heq, punctuation, add, between, opened]
    · simp [lexemesOf, opening, hdeep]

/-- The name of a field and its colon are read as a key, which opens a mapping if it stands further
in than the innermost collection. -/
theorem reads_key (hname : IsFieldName name) (hindent : indent ≤ m.column)
    (hgap : ∀ m : Mark, startsGap (locate m rest) = true)
    (h : s.Awaits before indent outer true (locate m (name ++ ':' :: rest))) :
    ∃ read, Reads s (between (locate (m.past (name ++ [':'])) rest) read m.column
        (opened indent outer m.column) false) ∧
      lexemesOf read =
        before ++ opening indent m.column ++ [.key, .scalar true name, .value] := by
  obtain ⟨read, t, hbefore, hlexeme, hstep, hless⟩ := step_name hname hindent hgap h
  have hinline : ∀ c ∈ name, c ≠ '\n' := fun c hc =>
    (inline_of_isLower (hname.isLower c hc)).1.ne_lineFeed
  have hpast := Mark.past_of_inline (m := m) hinline
  have hindex : (m.past name).index ≤ m.index + 1024 := by
    rw [hpast]
    exact Nat.add_le_add_left hname.2.1 _
  have hcolumn : m.column ≤ (m.past name).column := by
    rw [hpast]
    exact Nat.le_add_right _ _
  have hcolon : IsShown ':' := (isInline_of_ascii (by decide)).toIsShown
  obtain ⟨read', hstep', hread'⟩ := step_colon outer t (m.past name) hindent hgap
    (by rw [hpast]) hindex hcolumn rfl
  refine ⟨read', .step hstep hless (.step hstep' ?_ ?_), ?_⟩
  · rw [locate_cons hcolon]
    exact Nat.lt_succ_self _
  · rw [Mark.past_append]
    exact .refl _
  · rw [hread', hbefore, hlexeme]

end Keys

/-! ### Items and the end -/

section Items

variable {before : List Lexeme} {column : Nat}

/-- A dash begins an item of the list that is the value of the innermost mapping.  The list is not
indented, so no collection is opened for it. -/
theorem reads_dash (hm : m.column = column) (hrest : Opens rest)
    (h : s.Awaits before column outer true (locate m ('-' :: ' ' :: rest))) :
    ∃ s', Reads s s' ∧ s'.Awaits (before ++ [.blockEntry]) column outer true
      (locate (m.past ['-', ' ']) rest) := by
  obtain ⟨read, g, gs', hbefore, hlocate, hlength, hstep⟩ := h
  have hdash : IsInline '-' := isInline_of_ascii (by decide)
  have hmark : isDocumentMark '-'
      (⟨'-', m⟩ :: locate (m.after '-') (' ' :: rest)) = false := by
    rw [locate_cons isInline_space.toIsShown]
    exact isDocumentMark_of_second (by decide)
  have hgap : startsGap (locate (m.after '-') (' ' :: rest)) = true := by
    rw [locate_cons isInline_space.toIsShown]
    rfl
  rw [locate_cons hdash.toIsShown] at hlocate
  cases hlocate
  have hle : (column : Int) ≤ m.column := by omega
  have hnot : ¬((column : Int) < m.column) := by omega
  rw [closeBlocks_of_le hle, token_dash hgap hmark] at hstep
  have hentry : s.step = some { rest := locate (m.after '-') (' ' :: rest)
                                read := ⟨.blockEntry, m, { m with
                                  index := m.index + 1, column := m.column + 1 }⟩ :: read
                                indent := column, outerIndents := outer, keyAllowed := true } := by
    rw [hstep]
    simp [blockEntry, inFlow, openBlock, hnot, forgetKey, punctuation, add, between]
  refine ⟨_, .step hentry ?_ (.refl _), ?_⟩
  · refine Nat.lt_of_lt_of_le ?_ hlength
    rw [locate_cons hdash.toIsShown]
    exact Nat.lt_succ_self _
  · exact awaits_space _ _ _ _ (by rw [lexemesOf_cons, hbefore]) hrest

/-- What is indented less closes a mapping.  Only the column of the next token counts, and so this
is done before that token is read. -/
theorem Awaits.close (h : s.Awaits before (column + 2 : Nat) (column :: outer) true
      (locate m rest)) (hrest : Opens rest) (hm : m.column ≤ column) :
    s.Awaits (before ++ [.blockEnd]) column outer true (locate m rest) := by
  obtain ⟨g', gs'', hnext, hmark, -⟩ := hrest.exists_glyph m
  obtain ⟨read, g, gs', hbefore, hlocate, hlength, hstep⟩ := h
  obtain ⟨rfl, rfl⟩ := List.cons.inj (hnext.symm.trans hlocate)
  refine ⟨⟨.blockEnd, g'.mark, g'.mark⟩ :: read, g', gs'', by rw [lexemesOf_cons, hbefore],
    hlocate, hlength, ?_⟩
  have hlt : (g'.mark.column : Int) <
      (between s.rest read (column + 2 : Nat) (column :: outer) true).indent := by
    change (g'.mark.column : Int) < (column + 2 : Nat)
    rw [hmark]
    omega
  rw [hstep, closeBlocks, if_neg (by simp [between, inFlow])]
  change (closeFrom _ _ _ (column :: outer)).token _ _ = _
  rw [closeFrom, if_pos hlt]
  rfl

/-- At the end of the text the outermost mapping is closed. -/
theorem reads_end (hm : m.column = 0) (h : s.Awaits before (0 : Nat) [-1] true (locate m [])) :
    ∃ s', Reads s s' ∧ s'.rest = [] ∧ lexemesOf s'.read = before ++ [.blockEnd, .streamEnd] := by
  obtain ⟨read, g, gs', hbefore, hlocate, hlength, hstep⟩ := h
  rw [locate_nil] at hlocate
  cases hlocate
  have hle : ((0 : Nat) : Int) ≤ m.column := by omega
  have hend : s.step = some { rest := []
                              read := ⟨.streamEnd, m, m⟩ :: ⟨.blockEnd, m, m⟩ :: read
                              indent := -1, outerIndents := [], keyAllowed := false } := by
    rw [hstep, closeBlocks_of_le hle]
    simp [token, endStream, hm, closeBlocks, closeFrom, inFlow, between, forgetKey, add]
  refine ⟨_, .step hend ?_ (.refl _), rfl, ?_⟩
  · exact Nat.lt_of_lt_of_le Nat.zero_lt_one hlength
  · rw [lexemesOf_cons, lexemesOf_cons, hbefore, List.append_assoc]
    rfl

/-- An empty list is written in brackets. -/
theorem reads_brackets {n : Nat} (hrest : Opens rest) (hindent : indent ≤ m.column)
    (hs : s = between (locate m ([' ', '[', ']', '\n'] ++ (spaces n ++ rest))) read indent outer
      false) :
    ∃ s', Reads s s' ∧ s'.Awaits (lexemesOf read ++ [.flowSequenceStart, .flowSequenceEnd]) indent
      outer true (locate (m.past ([' ', '[', ']', '\n'] ++ spaces n)) rest) := by
  have hopen : IsInline '[' := isInline_of_ascii (by decide)
  have hclose : IsInline ']' := isInline_of_ascii (by decide)
  have hopens : Opens ('[' :: ']' :: '\n' :: (spaces n ++ rest)) := by
    rintro d ⟨⟩
    exact ⟨hopen, by decide, by decide⟩
  have hskip : skipToToken false false false
      (locate m ([' ', '[', ']', '\n'] ++ (spaces n ++ rest))) = (false,
        ⟨'[', m.next⟩ :: locate m.next.next (']' :: '\n' :: (spaces n ++ rest))) := by
    refine (skipToToken_spaces (n := 1) (m := m) hopens).trans ?_
    rw [locate_cons hopen.toIsShown]
    rfl
  have hle : indent ≤ (m.next.column : Int) := by
    change indent ≤ ((m.column + 1 : Nat) : Int)
    omega
  -- the opening bracket
  let s₁ : Scanner :=
    { rest := locate m.next.next (']' :: '\n' :: (spaces n ++ rest))
      read := ⟨.flowSequenceStart, m.next, { m.next with
        index := m.next.index + 1, column := m.next.column + 1 }⟩ :: read
      indent := indent, outerIndents := outer, outerKeyPlaces := [none], keyAllowed := true }
  have hstep : s.step = some s₁ := by
    rw [hs, step]
    simp only [between, inFlow, List.isEmpty_nil, Bool.not_true, hskip, forgetStaleKeys, refresh,
      Option.bind_eq_bind, Option.bind_some, List.mapM_nil, Option.pure_def]
    rw [closeBlocks_of_le hle, token_openBracket]
    simp [openFlow, rememberKey, punctuation, add, s₁]
  -- the closing bracket
  let s₂ : Scanner :=
    { rest := locate m.next.next.next ('\n' :: (spaces n ++ rest))
      read := ⟨.flowSequenceEnd, m.next.next, { m.next.next with
        index := m.next.next.index + 1, column := m.next.next.column + 1 }⟩ :: s₁.read
      indent := indent, outerIndents := outer, keyAllowed := false }
  have hfirst : s₁.rest = ⟨']', m.next.next⟩ :: s₂.rest := locate_cons hclose.toIsShown
  have hstep' : s₁.step = some s₂ := by
    have hskip' : skipToToken s₁.inFlow s₁.keyAllowed false s₁.rest = (true, s₁.rest) := by
      rw [hfirst, skipToToken]
      rfl
    rw [step, hskip', hfirst]
    simp [forgetStaleKeys, refresh, closeBlocks, inFlow, token_closeBracket, closeFlow, forgetKey,
      punctuation, add, s₁, s₂]
  refine ⟨s₂, .step hstep ?_ (.step hstep' ?_ (.refl _)), ?_⟩
  · rw [hs, List.cons_append, List.cons_append]
    change _ < (locate m _).length
    rw [locate_cons isInline_space.toIsShown, locate_cons hopen.toIsShown]
    exact Nat.lt_succ_of_lt (Nat.lt_succ_self _)
  · rw [hfirst]
    exact Nat.lt_succ_self _
  · exact awaits_lineFeed m.next.next.next indent outer false (by simp [s₁, lexemesOf])
      leftBehind_none hrest

end Items

end Scanner

end CommandTemplates.Yaml
