import CommandTemplates.Proofs.Yaml.Parsing
import CommandTemplates.Proofs.Yaml.Scanning
import CommandTemplates.Rules.Writing

/-!
# The lines of a rules file

The fields and items of a rules file are read one after the other, each as the lexemes that stand
for it.

## Main Definitions

* `Fits` — what may follow the lines of a collection in a column
* `Scans` — lines that are read as given lexemes wherever they stand
* `textField`, `listField` — fields with a text and with a list

## Main Results

* `Scans.append`, `Scans.flatten` — lines after lines
* `scans_field`, `scans_list`, `scans_item`, `scans_record` — the lines of a rules file
* `tokens?_document` — the lexemes of a document
-/

namespace CommandTemplates.Yaml

open Scanner

variable {column : Nat} {lexemes lexemes' : List Lexeme} {chunk chunk' name value : Text}

/-! ### Lines -/

/-- The next line is indented as far as this column at most.  Then it can be no more of a text that
is written further in. -/
def Fits (column : Nat) (text : Text) : Prop :=
  ∃ n rest, text = spaces n ++ rest ∧ n ≤ column ∧ Opens rest

/-- What fits at a column fits further to the right. -/
theorem Fits.mono {column' : Nat} {text : Text} (h : Fits column text) (hle : column ≤ column') :
    Fits column' text := by
  obtain ⟨n, rest, heq, hn, hrest⟩ := h
  exact ⟨n, rest, heq, Nat.le_trans hn hle, hrest⟩

/-- Lines that are read as these lexemes, in a mapping whose keys stand in this column.  They end
with the end of a line, and leave the scanner in the same mapping, so that further fields can
follow. -/
structure Scans (column : Nat) (lexemes : List Lexeme) (chunk : Text) : Prop where
  fits : ∀ after, Fits column after → Fits column (chunk ++ after)
  column_past : ∀ m : Mark, m.column = 0 → (m.past chunk).column = 0
  isShown : ∀ c ∈ chunk, IsShown c
  reads : ∀ (s : Scanner) (before : List Lexeme) (outer : List Int) (m : Mark) (after : Text),
    m.column = 0 → Fits column after →
      s.Awaits before column outer true (skipBlanks (locate m (chunk ++ after))) →
        ∃ s', Reads s s' ∧ s'.Awaits (before ++ lexemes) column outer true
          (skipBlanks (locate (m.past chunk) after))

/-- No lines give no lexemes. -/
theorem Scans.nil : Scans column [] [] where
  fits _ h := h
  column_past _ h := h
  isShown := List.forall_mem_nil _
  reads s before outer m after _ _ h := ⟨s, .refl s, by rw [List.append_nil]; exact h⟩

/-- Lines after lines.  The later ones show where the earlier ones end. -/
theorem Scans.append (h : Scans column lexemes chunk) (h' : Scans column lexemes' chunk') :
    Scans column (lexemes ++ lexemes') (chunk ++ chunk') where
  fits after hafter := by
    rw [List.append_assoc]
    exact h.fits _ (h'.fits _ hafter)
  column_past m hm := by
    rw [Mark.past_append]
    exact h'.column_past _ (h.column_past m hm)
  isShown := List.forall_mem_append.mpr ⟨h.isShown, h'.isShown⟩
  reads s before outer m after hm hafter hs := by
    rw [List.append_assoc] at hs
    obtain ⟨s₁, hreads, hs₁⟩ := h.reads s before outer m _ hm (h'.fits _ hafter) hs
    obtain ⟨s₂, hreads', hs₂⟩ :=
      h'.reads s₁ _ outer _ after (h.column_past m hm) hafter hs₁
    refine ⟨s₂, hreads.trans hreads', ?_⟩
    rw [Mark.past_append, ← List.append_assoc]
    exact hs₂

/-- The lines of all items. -/
theorem Scans.flatten {α : Type} {items : List α} {lexemesOf : α → List Lexeme} {write : α → Text}
    (h : ∀ a ∈ items, Scans column (lexemesOf a) (write a)) :
    Scans column (items.flatMap lexemesOf) (items.map write).flatten := by
  induction items with
  | nil => exact .nil
  | cons a items ih =>
    rw [List.forall_mem_cons] at h
    exact h.1.append (ih h.2)

/-! ### Fields -/

section Fields

variable {s : Scanner} {before : List Lexeme} {indent : Int} {outer : List Int} {m : Mark}
variable {text after : Text}

/-- A line may go on with the name of a field. -/
theorem opens_name (hname : IsFieldName name) : Opens (name ++ text) := by
  obtain ⟨c, tail, rfl⟩ := List.exists_cons_of_ne_nil hname.1
  rintro d ⟨⟩
  obtain ⟨hinline, hspace, -, hcomment⟩ := inline_of_isLower (hname.isLower c List.mem_cons_self)
  exact ⟨hinline, hspace, hcomment⟩

theorem startsGap_space : startsGap (locate m (' ' :: text)) = true := by
  rw [locate_cons isInline_space.toIsShown]
  rfl

theorem startsGap_lineFeed : startsGap (locate m ('\n' :: text)) = true := by
  rw [locate_cons isShown_lineFeed]
  rfl

theorem column_past_spaces {n : Nat} (hm : m.column = 0) : (m.past (spaces n)).column = n := by
  rw [Mark.column_past_spaces, hm, Nat.zero_add]

/-- A text that is written further in than its mapping, up to the next line.  It is the value of a
field, or an item of a list. -/
theorem reads_value {allowed : Bool} (hvalue : HasNoSeparator value) (hm : column < m.column)
    (hafter : Fits column after)
    (h : s.Awaits before column outer allowed (locate m (written (column + 2) value ++ after))) :
    ∃ s', Reads s s' ∧ s'.Awaits (before ++ [scalarLexeme value]) column outer true
      (skipBlanks (locate (m.past (written (column + 2) value)) after)) := by
  obtain ⟨n, rest, rfl, hn, hrest⟩ := hafter
  obtain ⟨s', hreads, hs'⟩ := reads_written hvalue hm hrest hn h
  rw [Mark.past_append] at hs'
  rw [skipBlanks_spaces hrest]
  exact ⟨s', hreads, hs'⟩

/-- Behind the name of a field the column is further to the right, so that a value fits there. -/
theorem column_past_name (hname : IsFieldName name) (hm : m.column = column) :
    column < (m.past (name ++ [':'])).column := by
  have hinline : ∀ c ∈ name ++ [':'], c ≠ '\n' := by
    refine List.forall_mem_append.mpr ⟨fun c hc => ?_, by simp⟩
    exact (inline_of_isLower (hname.isLower c hc)).1.ne_lineFeed
  rw [Mark.past_of_inline hinline, List.length_append, hm]
  exact Nat.lt_add_of_pos_right (Nat.add_pos_right _ (Nat.succ_pos _))

/-- The key of a field of a mapping that is open already. -/
theorem reads_own_key (hname : IsFieldName name) (hm : m.column = column)
    (hgap : ∀ m : Mark, startsGap (locate m text) = true)
    (h : s.Awaits before column outer true (locate m (name ++ ':' :: text))) :
    ∃ read, Reads s (between (locate (m.past (name ++ [':'])) text) read column outer false) ∧
      lexemesOf read = before ++ [.key, .scalar true name, .value] := by
  subst hm
  simpa [opening, opened] using reads_key hname (Int.le_refl _) hgap h

/-- A field with a text is read, wherever its name stands: at the start of a line, or after the dash
of an item. -/
theorem reads_field (hname : IsFieldName name) (hvalue : HasNoSeparator value)
    (hm : m.column = column) (hindent : indent ≤ column) (hafter : Fits column after)
    (h : s.Awaits before indent outer true
      (locate m (name ++ [':', ' '] ++ written (column + 2) value ++ after))) :
    ∃ s', Reads s s' ∧ s'.Awaits
      (before ++ opening indent column ++ [.key, .scalar true name, .value, scalarLexeme value])
      column (opened indent outer column) true
      (skipBlanks (locate (m.past (name ++ [':', ' '] ++ written (column + 2) value)) after)) := by
  subst hm
  have hsplit : name ++ [':', ' '] ++ written (m.column + 2) value ++ after =
      name ++ ':' :: ' ' :: (written (m.column + 2) value ++ after) := by simp
  rw [hsplit] at h
  obtain ⟨read, hreads, hread⟩ := reads_key hname hindent (fun _ => startsGap_space) h
  have hspace := awaits_space (m.past (name ++ [':'])) m.column (opened indent outer m.column)
    false hread (opens_written (m.column + 2) hvalue after)
  have hpast : (m.past (name ++ [':'])).past [' '] = m.past (name ++ [':', ' ']) := by
    rw [← Mark.past_append, List.append_assoc]
    rfl
  have hdeep : m.column < ((m.past (name ++ [':'])).past [' ']).column :=
    Nat.lt_succ_of_lt (column_past_name hname rfl)
  rw [hpast] at hspace hdeep
  obtain ⟨s', hreads', hs'⟩ := reads_value hvalue hdeep hafter hspace
  refine ⟨s', hreads.trans hreads', ?_⟩
  rw [Mark.past_append]
  simpa using hs'

/-- Lines that start with a character of a word in this column. -/
theorem fits_indented {tail : Text} (h : Opens tail) : Fits column (spaces column ++ tail) :=
  ⟨column, tail, rfl, Nat.le_refl _, h⟩

/-- A value that is written ends its line, in whatever style that is. -/
theorem column_past_written {front : Text} (hvalue : HasNoSeparator value) :
    (m.past (front ++ written column value)).column = 0 := by
  obtain ⟨inside, hinside⟩ := exists_written column hvalue
  rw [hinside, ← List.append_assoc]
  exact column_past_lineFeed

/-- Names of fields hold nothing that needs quotes. -/
theorem isShown_name (hname : IsFieldName name) : ∀ c ∈ name, IsShown c := fun c hc =>
  (inline_of_isLower (hname.isLower c hc)).1.toIsShown

theorem isShown_ascii {front : Text} (h : front.all fun c => 0x20 ≤ c.toNat ∧ c.toNat ≤ 0x7E) :
    ∀ c ∈ front, IsShown c := fun c hc => (isInline_of_all h c hc).toIsShown

end Fields

/-- A field with a text, as it is described and as it is written. -/
def textField (name : String) (value : Text) : Field :=
  ⟨name, [scalarLexeme value], Node.IsText value⟩

/-- A line with a text gives the lexemes of its field, in whatever style the text is written. -/
theorem scans_field {name : String} (hname : IsFieldName name.toList)
    (hvalue : HasNoSeparator value) :
    Scans column (textField name value).entry (Writing.field column false name value) := by
  have heq : Writing.field column false name value =
      spaces column ++ (name.toList ++ [':', ' '] ++ written (column + 2) value) := by
    simp [Writing.field]
  rw [heq]
  constructor
  · intro after _
    rw [List.append_assoc, List.append_assoc, List.append_assoc]
    exact fits_indented (opens_name hname)
  · intro m _
    rw [← List.append_assoc]
    exact column_past_written hvalue
  · simp only [List.forall_mem_append]
    exact ⟨isShown_spaces, ⟨isShown_name hname, isShown_ascii (by decide)⟩,
      fun c hc => isShown_of_mem_written _ hvalue hc⟩
  · intro s before outer m after hm hafter hs
    rw [List.append_assoc, skipBlanks_spaces (by
      rw [List.append_assoc, List.append_assoc]
      exact opens_name hname)] at hs
    obtain ⟨s', hreads, hs'⟩ := reads_field hname hvalue (column_past_spaces hm)
      (Int.le_refl _) hafter hs
    refine ⟨s', hreads, ?_⟩
    rw [Mark.past_append]
    simpa [opening, opened, textField, Field.entry] using hs'

/-! ### Lists -/

/-- A field with a list, by what is known of its items. -/
def listField {α : Type} (name : String) (lexemesOf : α → List Lexeme) (holds : α → Node → Prop)
    (items : List α) : Field :=
  ⟨name, listLexemes lexemesOf items, Node.IsList holds items⟩

/-- An empty list stands on the line of its name. -/
theorem scans_empty {name : String} (hname : IsFieldName name.toList) :
    Scans column [.key, .scalar true name.toList, .value, .flowSequenceStart, .flowSequenceEnd]
      (Writing.list column name []) := by
  have heq : Writing.list column name [] =
      spaces column ++ (name.toList ++ ':' :: [' ', '[', ']', '\n']) := by
    simp [Writing.list]
  have hend : spaces column ++ (name.toList ++ ':' :: [' ', '[', ']', '\n']) =
      spaces column ++ name.toList ++ [':', ' ', '[', ']'] ++ ['\n'] := by simp
  rw [heq]
  constructor
  · intro after _
    rw [List.append_assoc, List.append_assoc]
    exact fits_indented (opens_name hname)
  · intro m _
    rw [hend]
    exact column_past_lineFeed
  · rw [hend]
    simp only [List.forall_mem_append]
    exact ⟨⟨⟨isShown_spaces, isShown_name hname⟩, isShown_ascii (by decide)⟩,
      List.forall_mem_singleton.mpr isShown_lineFeed⟩
  · intro s before outer m after hm hafter hs
    obtain ⟨n, rest, rfl, -, hrest⟩ := hafter
    have hcolumn := column_past_spaces (n := column) hm
    rw [List.append_assoc, List.append_assoc, skipBlanks_spaces (opens_name hname)] at hs
    obtain ⟨read, hreads, hread⟩ := reads_own_key hname hcolumn (fun _ => startsGap_space) hs
    have hindent := Int.ofNat_le.mpr (Nat.le_of_lt (column_past_name hname hcolumn))
    obtain ⟨s', hreads', hs'⟩ := reads_brackets hrest hindent rfl
    refine ⟨s', hreads.trans hreads', ?_⟩
    rw [skipBlanks_spaces hrest]
    simpa [hread, Mark.past_append] using hs'

/-- A list that is not empty stands below its name. -/
theorem scans_items {name : String} {items : List Text} (hname : IsFieldName name.toList)
    (hne : items ≠ []) (hitems : Scans column lexemes items.flatten) :
    Scans column ([.key, .scalar true name.toList, .value] ++ lexemes)
      (Writing.list column name items) := by
  have heq : Writing.list column name items =
      spaces column ++ (name.toList ++ ':' :: '\n' :: items.flatten) := by
    simp [Writing.list, hne]
  rw [heq]
  constructor
  · intro after _
    rw [List.append_assoc, List.append_assoc]
    exact fits_indented (opens_name hname)
  · intro m _
    have hsplit : spaces column ++ (name.toList ++ ':' :: '\n' :: items.flatten) =
        spaces column ++ name.toList ++ [':'] ++ ['\n'] ++ items.flatten := by simp
    rw [hsplit, Mark.past_append]
    exact hitems.column_past _ column_past_lineFeed
  · simp only [List.forall_mem_append, List.forall_mem_cons]
    exact ⟨isShown_spaces, isShown_name hname,
      (isInline_of_ascii (by decide)).toIsShown, isShown_lineFeed, hitems.isShown⟩
  · intro s before outer m after hm hafter hs
    rw [List.append_assoc, List.append_assoc, skipBlanks_spaces (opens_name hname)] at hs
    obtain ⟨read, hreads, hread⟩ := reads_own_key hname (column_past_spaces hm)
      (fun _ => startsGap_lineFeed) hs
    obtain ⟨n, rest, hfits, -, hrest⟩ := hitems.fits after hafter
    have hnext := awaits_lineFeed (n := n) ((m.past (spaces column)).past (name.toList ++ [':']))
      column outer false hread leftBehind_none hrest
    rw [← hfits, Mark.past_cons, ← skipBlanks_spaces hrest, ← hfits] at hnext
    obtain ⟨s', hreads', hs'⟩ := hitems.reads _ _ outer _ after rfl hafter hnext
    refine ⟨s', hreads.trans hreads', ?_⟩
    simpa [Mark.past_append] using hs'

/-- The lines of a list. -/
theorem scans_list {α : Type} {name : String} {items : List α} {lexemesOf : α → List Lexeme}
    {holds : α → Node → Prop} {write : α → Text} (hname : IsFieldName name.toList)
    (h : ∀ a ∈ items, Scans column (.blockEntry :: lexemesOf a) (write a)) :
    Scans column (listField name lexemesOf holds items).entry
      (Writing.list column name (items.map write)) := by
  cases items with
  | nil => exact scans_empty hname
  | cons a items => exact scans_items hname (List.cons_ne_nil _ _) (Scans.flatten h)

/-! ### Items -/

section Items

variable {s : Scanner} {before : List Lexeme} {outer : List Int} {m : Mark} {text : Text}

/-- A line may go on with a dash. -/
theorem opens_dash : Opens ('-' :: text) := by
  rintro d ⟨⟩
  exact ⟨isInline_of_ascii (by decide), by decide, by decide⟩

/-- Behind a dash the fields of an item start two columns to the right. -/
theorem column_past_dash (hm : m.column = 0) :
    ((m.past (spaces column)).past ['-', ' ']).column = column + 2 := by
  rw [Mark.past_of_inline (by simp), column_past_spaces hm]
  rfl

/-- The dash of an item. -/
theorem reads_item (hm : m.column = 0) (htext : Opens text)
    (h : s.Awaits before column outer true
      (skipBlanks (locate m (spaces column ++ ['-', ' '] ++ text)))) :
    ∃ s', Reads s s' ∧ s'.Awaits (before ++ [.blockEntry]) column outer true
      (locate ((m.past (spaces column)).past ['-', ' ']) text) := by
  have hdash : Opens (['-', ' '] ++ text) := opens_dash
  rw [List.append_assoc, skipBlanks_spaces hdash] at h
  exact reads_dash (column_past_spaces hm) htext h

end Items

/-- An item that is a text. -/
theorem scans_item (hvalue : HasNoSeparator value) :
    Scans column [.blockEntry, scalarLexeme value] (Writing.item column value) := by
  rw [Writing.item]
  constructor
  · intro after _
    rw [List.append_assoc, List.append_assoc]
    exact fits_indented opens_dash
  · exact fun m _ => column_past_written hvalue
  · simp only [List.forall_mem_append]
    exact ⟨⟨isShown_spaces, isShown_ascii (by decide)⟩,
      fun c hc => isShown_of_mem_written _ hvalue hc⟩
  · intro s before outer m after hm hafter hs
    rw [List.append_assoc] at hs
    obtain ⟨s₁, hreads, hs₁⟩ := reads_item hm (opens_written _ hvalue after) hs
    have hdeep : column < ((m.past (spaces column)).past ['-', ' ']).column := by
      rw [column_past_dash hm]
      exact Nat.lt_add_of_pos_right Nat.two_pos
    obtain ⟨s₂, hreads', hs₂⟩ := reads_value hvalue hdeep hafter hs₁
    refine ⟨s₂, hreads.trans hreads', ?_⟩
    rw [Mark.past_append, Mark.past_append]
    simpa using hs₂

/-- An item that is a record: its first field stands after the dash, and what comes after the others
closes it.  The mapping is opened by that field and not by the dash, which is why the first field is
treated apart. -/
theorem scans_record {name : String} {fields : List Field} (hname : IsFieldName name.toList)
    (hvalue : HasNoSeparator value)
    (hmore : Scans (column + 2) (fields.flatMap Field.entry) chunk) :
    Scans column (.blockEntry :: recordLexemes (textField name value :: fields))
      (Writing.field (column + 2) true name value ++ chunk) := by
  have heq : Writing.field (column + 2) true name value = spaces column ++ ['-', ' '] ++
      (name.toList ++ [':', ' '] ++ written (column + 2 + 2) value) := by
    simp [Writing.field]
  rw [heq]
  constructor
  · intro after _
    simp only [List.append_assoc]
    exact fits_indented opens_dash
  · intro m _
    rw [Mark.past_append]
    refine hmore.column_past _ ?_
    rw [← List.append_assoc]
    exact column_past_written hvalue
  · simp only [List.forall_mem_append]
    exact ⟨⟨⟨isShown_spaces, isShown_ascii (by decide)⟩, ⟨isShown_name hname,
      isShown_ascii (by decide)⟩, fun c hc => isShown_of_mem_written _ hvalue hc⟩, hmore.isShown⟩
  · intro s before outer m after hm hafter hs
    rw [List.append_assoc, List.append_assoc] at hs
    have hword : Opens (name.toList ++ [':', ' '] ++ written (column + 2 + 2) value ++
        (chunk ++ after)) := by
      simp only [List.append_assoc]
      exact opens_name hname
    have hafter' : Fits (column + 2) after := hafter.mono (Nat.le_add_right _ _)
    have hdeep : (column : Int) < (column + 2 : Nat) := by omega
    obtain ⟨s₁, hreads, hs₁⟩ := reads_item hm hword hs
    obtain ⟨s₂, hreads', hs₂⟩ := reads_field hname hvalue (column_past_dash hm)
      (Int.le_of_lt hdeep) (hmore.fits after hafter') hs₁
    rw [opening, if_pos hdeep, opened, if_pos hdeep] at hs₂
    obtain ⟨s₃, hreads'', hs₃⟩ :=
      hmore.reads s₂ _ _ _ after (column_past_written hvalue) hafter' hs₂
    -- the mapping is closed by what comes after the item
    obtain ⟨n, rest, rfl, hn, hrest⟩ := hafter
    rw [skipBlanks_spaces hrest] at hs₃
    have hs₄ := hs₃.close hrest (by
      rw [column_past_spaces (hmore.column_past _ (column_past_written hvalue))]
      exact hn)
    refine ⟨s₃, (hreads.trans hreads').trans hreads'', ?_⟩
    rw [skipBlanks_spaces hrest]
    simpa [recordLexemes, textField, Field.entry, Mark.past_append] using hs₄

/-! ### Documents -/

/-- The lexemes of a document that is a record, from the start of the text to its end. -/
theorem tokens?_document {name : String} {fields : List Field} (hname : IsFieldName name.toList)
    (hvalue : HasNoSeparator value) (hmore : Scans 0 (fields.flatMap Field.entry) chunk) :
    ∃ tokens, tokens? (Writing.field 0 false name value ++ chunk) = some tokens ∧
      tokens.map (·.lexeme) = recordLexemes (textField name value :: fields) ++ [.streamEnd] := by
  have heq : Writing.field 0 false name value =
      name.toList ++ [':', ' '] ++ written (0 + 2) value := by
    simp [Writing.field, spaces]
  have hshown : ∀ c ∈ Writing.field 0 false name value ++ chunk, IsShown c :=
    List.forall_mem_append.mpr ⟨(scans_field hname hvalue).isShown, hmore.isShown⟩
  have hend : Opens ([] : Text) := by
    rintro c ⟨⟩
  have hfits : Fits 0 ([] : Text) := ⟨0, [], rfl, Nat.le_refl _, hend⟩
  have hchunk : Fits 0 chunk := by
    have h := hmore.fits [] hfits
    rwa [List.append_nil] at h
  have hopens : Opens (name.toList ++ [':', ' '] ++ written (0 + 2) value ++ chunk) := by
    simp only [List.append_assoc]
    exact opens_name hname
  rw [tokens?, glyphs_of_shown hshown, heq]
  -- the name of the first field opens the mapping
  have hstart := awaits_here {} (-1) [] true (rfl : lexemesOf [] = []) leftBehind_none hopens
  obtain ⟨s₁, hreads, hs₁⟩ := reads_field hname hvalue rfl (by decide) hchunk hstart
  rw [← List.append_nil chunk] at hs₁
  have hcolumn : (({} : Mark).past (name.toList ++ [':', ' '] ++ written (0 + 2) value)).column =
      0 := column_past_written hvalue
  obtain ⟨s₂, hreads', hs₂⟩ := hmore.reads s₁ _ _ _ [] hcolumn hfits hs₁
  rw [show skipBlanks (locate _ ([] : Text)) = _ from skipBlanks_spaces (n := 0) hend] at hs₂
  obtain ⟨s₃, hreads'', hrest, hlexemes⟩ := reads_end (hmore.column_past _ hcolumn) hs₂
  refine ⟨_, ((hreads.trans hreads').trans hreads'').run_eq hrest (Nat.lt_succ_self _), ?_⟩
  rw [List.map_reverse, ← lexemesOf, hlexemes]
  simp [opening, recordLexemes, textField, Field.entry, lexemesOf]

end CommandTemplates.Yaml
