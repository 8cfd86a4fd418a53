import Mathlib.Data.List.Forall2
import CommandTemplates.Yaml.Node

/-!
# From lexemes to nodes

Texts, lists and records are recognised by their lexemes, whatever the marks of the tokens are.

## Main Definitions

* `Node.IsText`, `Node.IsList`, `Node.IsRecord` — nodes of a shape, wherever they stand
* `listLexemes`, `recordLexemes` — the lexemes of lists and records
* `Reader.Takes` — what a reader makes of the next lexemes
* `Describes` — lexemes that are read as a node with a property

## Main Results

* `describes_text`, `describes_list`, `describes_record` — the lexemes of a shape describe it
* `takes_root` — the root of a document

## Design Notes

A list inside a record is not indented and nothing marks its end, so what follows matters there: it
must not begin another item.
-/

namespace CommandTemplates.Yaml

/-! ### Shapes -/

/-- A part of a record: its name, the lexemes of its value and what is known of its node.  The
property stands in for the value, so that fields of different types can be kept in one list. -/
structure Field where
  name : String
  lexemes : List Lexeme
  holds : Node → Prop

/-- The lexemes of a field with its name. -/
def Field.entry (f : Field) : List Lexeme :=
  [.key, .scalar true f.name.toList, .value] ++ f.lexemes

/-- The lexemes of a list.  Its items are marked by dashes, and nothing marks its end; an empty
list has no dash to be known by, and is written in brackets. -/
def listLexemes {α : Type} (lexemesOf : α → List Lexeme) : List α → List Lexeme
  | [] => [.flowSequenceStart, .flowSequenceEnd]
  | items => items.flatMap fun a => .blockEntry :: lexemesOf a

/-- The lexemes of a record. -/
def recordLexemes (fields : List Field) : List Lexeme :=
  .blockMappingStart :: (fields.flatMap Field.entry ++ [.blockEnd])

namespace Node

/-- A text, whether or not it was quoted.  No tag says that it is anything else. -/
def IsText (text : Text) (n : Node) : Prop := ∃ m plain, n = .scalar m none plain text

/-- A list with items that have these properties. -/
def IsList {α : Type} (holds : α → Node → Prop) (items : List α) (n : Node) : Prop :=
  ∃ m nodes, n = .sequence m none nodes ∧ List.Forall₂ holds items nodes

/-- A mapping with these fields, in this order. -/
def IsRecord (fields : List Field) (n : Node) : Prop :=
  ∃ m entries, n = .mapping m none entries ∧
    List.Forall₂ (fun f e => IsText f.name.toList e.1 ∧ f.holds e.2) fields entries

end Node

open Node Reader

/-! ### What a reader takes

Every reader is described by the lexemes that it takes, one lemma for each, so that none is opened
again where it is used. -/

namespace Reader

/-- The lexemes still to come. -/
def lexemes (r : Reader) : List Lexeme := r.tokens.map (·.lexeme)

/-- From a place with the lexemes `before` to come, reading gets to one with the lexemes `after` to
come, with a result that has a property.  It is a total statement: whatever else is true of the
reader, such as the anchors that it remembers, it does not fail. -/
def Takes {α : Type} (x : Read α) (before after : List Lexeme) (holds : α → Prop) : Prop :=
  ∀ r : Reader, r.lexemes = before →
    ∃ a r', x.run r = some (a, r') ∧ r'.lexemes = after ∧ holds a

section Takes

variable {α β : Type} {x : Read α} {f : α → Read β} {before middle after ls : List Lexeme}
variable {holds : α → Prop} {holds' : β → Prop} {l l' : Lexeme}

/-- Reading on from where something was read.  The further steps may rely on what is known of the
result, which is all that the proofs below ever need of it. -/
theorem Takes.bind (h : Takes x before middle holds)
    (h' : ∀ a, holds a → Takes (f a) middle after holds') :
    Takes (x >>= f) before after holds' := by
  intro r hr
  obtain ⟨a, r₁, hrun, hr₁, ha⟩ := h r hr
  obtain ⟨b, r₂, hrun', hr₂, hb⟩ := h' a ha r₁ hr₁
  refine ⟨b, r₂, ?_, hr₂, hb⟩
  rw [StateT.run_bind, hrun]
  exact hrun'

/-- A result is given without taking anything. -/
theorem takes_pure {a : α} (h : holds a) : Takes (pure a) after after holds := fun r hr =>
  ⟨a, r, rfl, hr, h⟩

/-- Looking at the next token takes nothing. -/
theorem takes_peek : Takes peek (l :: after) (l :: after) (·.lexeme = l) := by
  intro r hr
  obtain ⟨t, ts, htokens, hl, -⟩ := List.map_eq_cons_iff.mp hr
  exact ⟨t, r, by simp [peek, htokens], hr, hl⟩

/-- Skipping takes the next token, whatever it is. -/
theorem takes_skip : Takes skip (l :: after) after fun _ => True := by
  intro r hr
  obtain ⟨t, ts, htokens, -, hts⟩ := List.map_eq_cons_iff.mp hr
  exact ⟨(), _, rfl, by simp [lexemes, htokens, hts], trivial⟩

/-- The lexeme that is asked for is taken. -/
theorem takes_skipIf : Takes (skipIf l) (l :: after) after (· = true) := by
  refine takes_peek.bind fun t ht => ?_
  rw [if_pos ht]
  exact takes_skip.bind fun _ _ => takes_pure rfl

/-- Any other lexeme is left where it is. -/
theorem takes_skipIf_of_ne (h : l ≠ l') :
    Takes (skipIf l') (l :: after) (l :: after) (· = false) := by
  refine takes_peek.bind fun t ht => ?_
  rw [if_neg (ht ▸ h)]
  exact takes_pure rfl

/-- Asking whether one of some lexemes comes next takes nothing. -/
theorem takes_nextIsOneOf :
    Takes (nextIsOneOf ls) (l :: after) (l :: after) (· = ls.contains l) :=
  takes_peek.bind fun t ht => takes_pure (by rw [ht])

end Takes

section Nodes

variable {place : Place} {fuel : Nat} {l : Lexeme} {before after : List Lexeme}
variable {holds : Node → Prop}

/-- Whether a node without properties may start with a lexeme; only a key or a value of a mapping
may be a list that is not in brackets. -/
def startsNode (place : Place) : Lexeme → Bool
  | .scalar _ _ => true
  | .flowSequenceStart => true
  | .blockMappingStart => true
  | .blockEntry => place = .entry
  | _ => false

/-- Where a node starts with its content, neither an anchor nor a tag is read. -/
theorem takes_properties (h : startsNode place l) :
    Takes properties (l :: after) (l :: after) fun p => p.tag = none ∧ p.anchor = none := by
  have hanchor : Takes anchor? (l :: after) (l :: after) (· = none) := by
    refine takes_peek.bind fun t ht => ?_
    split
    · rename_i hl
      rw [← ht, hl] at h
      cases h
    · exact takes_pure rfl
  have htag : Takes tag? (l :: after) (l :: after) (· = none) := by
    refine takes_peek.bind fun t ht => ?_
    split
    · rename_i hl
      rw [← ht, hl] at h
      cases h
    · exact takes_pure rfl
  refine takes_peek.bind fun t _ => hanchor.bind fun anchor hanchor => ?_
  subst hanchor
  refine htag.bind fun tag htag => ?_
  subst htag
  exact takes_pure ⟨rfl, rfl⟩

/-- A node that starts with its content is read as the content is.  It has no anchor, so nothing is
remembered of it. -/
theorem takes_node (h : startsNode place l)
    (hcontent : ∀ m, Takes (content fuel place { start := m }) (l :: before) after holds) :
    Takes (node (fuel + 1) place) (l :: before) after holds := by
  rw [node]
  refine takes_peek.bind fun t ht => ?_
  split
  · rename_i hl
    rw [← ht, hl] at h
    cases h
  · refine (takes_properties h).bind fun p hp => ?_
    obtain ⟨start, tag, anchor⟩ := p
    obtain ⟨rfl, rfl⟩ := hp
    -- without an anchor there is nothing to make room for
    have hslot : Takes (pure none : Read (Option (Nat × Nat))) (l :: before) (l :: before)
        (· = none) := takes_pure rfl
    refine hslot.bind fun slot hslot => ?_
    subst hslot
    have hkeep : ∀ n, Takes (keepAnchored n none) after after fun _ => True := fun _ =>
      takes_pure trivial
    exact (hcontent start).bind fun n hn => (hkeep n).bind fun _ _ => takes_pure hn

end Nodes

end Reader

/-! ### Lexemes of nodes -/

/-- What may follow a node: a list that is not in brackets ends where no other item begins. -/
def Ends (place : Reader.Place) (after : List Lexeme) : Prop :=
  place = .entry → ∃ l ls, after = l :: ls ∧ l ≠ .blockEntry

/-- Lexemes that are read as a node with a property, with what is needed to compose them.  The
first lexeme shows that a node is there.  The bound on the fuel is crude: reading a part spends
less than four units before it comes to a part of that, which has fewer lexemes. -/
structure Describes (place : Reader.Place) (lexemes : List Lexeme) (holds : Node → Prop) :
    Prop where
  starts : ∃ l ls, lexemes = l :: ls ∧ startsNode place l
  takes : ∀ {fuel : Nat} {after : List Lexeme}, 4 * lexemes.length + 3 ≤ fuel → Ends place after →
    Takes (node fuel place) (lexemes ++ after) after holds

section Describes

variable {α : Type} {place : Reader.Place} {fuel : Nat} {l : Lexeme} {lexemes after : List Lexeme}

/-- None of the lexemes that stand where a node is left out comes next. -/
theorem Describes.takes_nextIsOneOf {holds : Node → Prop} (h : Describes place lexemes holds)
    {ls : List Lexeme} (hls : ∀ l ∈ ls, startsNode place l = false) :
    Takes (nextIsOneOf ls) (lexemes ++ after) (lexemes ++ after) (· = false) := by
  obtain ⟨l, ls', rfl, hl⟩ := h.starts
  have hnot : ls.contains l = false := by
    rw [← Bool.not_eq_true, List.contains_iff_mem]
    intro hmem
    rw [hls l hmem] at hl
    cases hl
  rw [← hnot]
  exact Reader.takes_nextIsOneOf

/-- The lexeme of a text describes it, in whatever style it is written. -/
theorem describes_text {plain : Bool} {text : Text} :
    Describes place [.scalar plain text] (IsText text) where
  starts := ⟨_, [], rfl, rfl⟩
  takes {fuel after} hfuel _ := by
    obtain ⟨fuel, rfl⟩ : ∃ k, fuel = k + 2 := ⟨fuel - 2, by omega⟩
    refine takes_node rfl fun m => ?_
    rw [content]
    refine takes_peek.bind fun t ht => ?_
    rw [ht]
    exact takes_skip.bind fun _ _ => takes_pure ⟨m, plain, rfl⟩

/-! ### Lists -/

/-- Brackets describe the empty list. -/
theorem describes_brackets {holds : α → Node → Prop} :
    Describes place [.flowSequenceStart, .flowSequenceEnd] (IsList holds []) where
  starts := ⟨_, _, rfl, rfl⟩
  takes {fuel after} hfuel _ := by
    obtain ⟨fuel, rfl⟩ : ∃ k, fuel = k + 3 := ⟨fuel - 3, by omega⟩
    refine takes_node rfl fun m => ?_
    rw [content]
    refine takes_peek.bind fun t ht => ?_
    rw [ht]
    refine takes_skip.bind fun _ _ => ?_
    have hitems : Takes (flowItems (fuel + 1) true) (.flowSequenceEnd :: after) after (· = []) := by
      rw [flowItems]
      refine takes_skipIf.bind fun b hb => ?_
      rw [if_pos hb]
      exact takes_pure rfl
    refine hitems.bind fun nodes hnodes => ?_
    subst hnodes
    exact takes_pure ⟨m, [], rfl, .nil⟩

/-- The items of a list that is not indented are read until something else comes.  What comes then
is not taken, since it belongs to the record around the list. -/
theorem takes_items {items : List α} {lexemesOf : α → List Lexeme} {holds : α → Node → Prop}
    (h : ∀ a ∈ items, Describes .block (lexemesOf a) (holds a)) (hl : l ≠ .blockEntry)
    (hfuel : 4 * (items.flatMap fun a => .blockEntry :: lexemesOf a).length + 1 ≤ fuel) :
    Takes (indentlessItems fuel)
      ((items.flatMap fun a => .blockEntry :: lexemesOf a) ++ l :: after) (l :: after)
      (List.Forall₂ holds items) := by
  induction items generalizing fuel with
  | nil =>
    obtain ⟨fuel, rfl⟩ : ∃ k, fuel = k + 1 := ⟨fuel - 1, by omega⟩
    rw [indentlessItems]
    refine takes_peek.bind fun _ _ => (takes_skipIf_of_ne hl).bind fun b hb => ?_
    subst hb
    exact takes_pure .nil
  | cons a items ih =>
    rw [List.forall_mem_cons] at h
    obtain ⟨hdescribes, hmore⟩ := h
    rw [List.flatMap_cons, List.length_append, List.length_cons] at hfuel
    obtain ⟨fuel, rfl⟩ : ∃ k, fuel = k + 1 := ⟨fuel - 1, by omega⟩
    rw [indentlessItems, List.flatMap_cons, List.append_assoc, List.cons_append]
    refine takes_peek.bind fun dash _ => takes_skipIf.bind fun b hb => ?_
    subst hb
    rw [if_pos rfl]
    refine (hdescribes.takes_nextIsOneOf (by decide)).bind fun b hb => ?_
    subst hb
    refine (hdescribes.takes (by omega) nofun).bind fun n hn => ?_
    exact (ih hmore (by omega)).bind fun nodes hnodes => takes_pure (.cons hn hnodes)

/-- The lexemes of a list in a record describe it, given that its items are described. -/
theorem describes_list {items : List α} {lexemesOf : α → List Lexeme} {holds : α → Node → Prop}
    (h : ∀ a ∈ items, Describes .block (lexemesOf a) (holds a)) :
    Describes .entry (listLexemes lexemesOf items) (IsList holds items) := by
  cases items with
  | nil => exact describes_brackets
  | cons a items =>
    refine ⟨⟨.blockEntry, _, rfl, rfl⟩, fun {fuel after} hfuel hends => ?_⟩
    obtain ⟨l, ls, rfl, hl⟩ := hends rfl
    obtain ⟨fuel, rfl⟩ : ∃ k, fuel = k + 2 := ⟨fuel - 2, by omega⟩
    have hitems : 4 * (listLexemes lexemesOf (a :: items)).length + 1 ≤ fuel := by omega
    refine takes_node rfl fun m => ?_
    rw [content]
    refine takes_peek.bind fun t ht => ?_
    rw [ht]
    exact (takes_items h hl hitems).bind fun nodes hnodes => takes_pure ⟨m, nodes, rfl, hnodes⟩

/-! ### Records -/

/-- A key or a value of a mapping that is not left out is read as the node that it is. -/
theorem takes_blockPart {holds : Node → Prop} {m : Mark}
    (h : Describes .entry lexemes holds) (hends : Ends .entry after)
    (hfuel : 4 * lexemes.length + 4 ≤ fuel) :
    Takes (blockPart fuel m) (lexemes ++ after) after holds := by
  obtain ⟨fuel, rfl⟩ : ∃ k, fuel = k + 1 := ⟨fuel - 1, by omega⟩
  rw [blockPart]
  refine (h.takes_nextIsOneOf (by decide)).bind fun b hb => ?_
  subst hb
  exact h.takes (by omega) hends

/-- The fields of a record are read up to its end, which is taken.  A list that is the value of a
field is ended by the key of the next one, or by the end of the record. -/
theorem takes_fields {fields : List Field} (h : ∀ f ∈ fields, Describes .entry f.lexemes f.holds)
    (hfuel : 4 * (fields.flatMap Field.entry).length + 5 ≤ fuel) :
    Takes (blockEntries fuel)
      ((fields.flatMap Field.entry) ++ .blockEnd :: after) after
      (List.Forall₂ (fun f e => IsText f.name.toList e.1 ∧ f.holds e.2) fields) := by
  induction fields generalizing fuel with
  | nil =>
    obtain ⟨fuel, rfl⟩ : ∃ k, fuel = k + 1 := ⟨fuel - 1, by omega⟩
    rw [blockEntries]
    refine takes_peek.bind fun _ _ => (takes_skipIf_of_ne (by decide)).bind fun b hb => ?_
    subst hb
    refine takes_skipIf.bind fun b hb => ?_
    subst hb
    exact takes_pure .nil
  | cons f fields ih =>
    rw [List.forall_mem_cons] at h
    obtain ⟨hdescribes, hmore⟩ := h
    have hlength : f.entry.length = 3 + f.lexemes.length :=
      List.length_append
    rw [List.flatMap_cons, List.length_append, hlength] at hfuel
    obtain ⟨fuel, rfl⟩ : ∃ k, fuel = k + 1 := ⟨fuel - 1, by omega⟩
    have hname : Describes .entry [.scalar true f.name.toList] (IsText f.name.toList) :=
      describes_text
    rw [blockEntries, List.flatMap_cons, List.append_assoc, Field.entry, List.append_assoc]
    -- the key
    refine takes_peek.bind fun _ _ => takes_skipIf.bind fun b hb => ?_
    subst hb
    rw [if_pos rfl]
    refine (takes_blockPart hname (fun _ => ⟨.value, _, rfl, by decide⟩) ?_).bind fun k hk => ?_
    · rw [List.length_singleton]
      omega
    -- the value
    refine takes_peek.bind fun _ _ => takes_skipIf.bind fun b hb => ?_
    subst hb
    have hends : Ends .entry
        ((fields.flatMap Field.entry) ++ .blockEnd :: after) := by
      intro _
      cases fields with
      | nil => exact ⟨.blockEnd, _, rfl, by decide⟩
      | cons f' fields => exact ⟨.key, _, rfl, by decide⟩
    refine (takes_blockPart hdescribes hends (by omega)).bind fun v hv => ?_
    exact (ih hmore (by omega)).bind fun entries hentries =>
      takes_pure (.cons ⟨hk, hv⟩ hentries)

/-- The lexemes of a record describe it, given that the values of its fields are described. -/
theorem describes_record {fields : List Field}
    (h : ∀ f ∈ fields, Describes .entry f.lexemes f.holds) :
    Describes .block (recordLexemes fields) (IsRecord fields) where
  starts := ⟨_, _, rfl, rfl⟩
  takes {fuel after} hfuel _ := by
    rw [recordLexemes, List.length_cons, List.length_append, List.length_singleton] at hfuel
    obtain ⟨fuel, rfl⟩ : ∃ k, fuel = k + 2 := ⟨fuel - 2, by omega⟩
    rw [recordLexemes, List.cons_append, List.append_assoc]
    refine takes_node rfl fun m => ?_
    rw [content]
    refine takes_peek.bind fun t ht => ?_
    rw [ht]
    refine takes_skip.bind fun _ _ => ?_
    refine (takes_fields h (by omega)).bind fun entries hentries => ?_
    exact takes_pure ⟨m, entries, rfl, hentries⟩

end Describes

/-! ### Documents -/

/-- A document that starts with a node has no directives. -/
theorem takes_directives {fuel : Nat} {versioned : Bool} {handles : List (Text × Text)}
    {l : Lexeme} {after : List Lexeme} (hl : ∀ d, l ≠ .directive d) :
    Takes (directives (fuel + 1) versioned handles) (l :: after) (l :: after) fun _ => True := by
  rw [directives]
  refine takes_peek.bind fun t ht => ?_
  split
  · rename_i h
    exact absurd (ht.symm.trans h) (hl _)
  · rename_i h
    exact absurd (ht.symm.trans h) (hl _)
  · exact takes_pure trivial

/-- A node that ends the text is the root of the only document.  Neither directives nor the marks
around a document are there to be taken. -/
theorem takes_root {lexemes : List Lexeme} {holds : Node → Prop} {fuel : Nat}
    (h : Describes .block lexemes holds) (hfuel : 4 * lexemes.length + 3 ≤ fuel) :
    Takes (root fuel) (lexemes ++ [.streamEnd]) [.streamEnd] holds := by
  obtain ⟨l, ls, hlexemes, hl⟩ := h.starts
  obtain ⟨fuel, rfl⟩ : ∃ k, fuel = k + 1 := ⟨fuel - 1, by omega⟩
  have hnode : Takes (node (fuel + 1) .block) (lexemes ++ [.streamEnd]) [.streamEnd] holds :=
    h.takes hfuel nofun
  rw [hlexemes] at hnode ⊢
  have hdirective : ∀ d, l ≠ .directive d := by
    rintro d rfl
    cases hl
  have hstart : l ≠ .documentStart := by
    rintro rfl
    cases hl
  have hend : l ≠ .streamEnd := by
    rintro rfl
    cases hl
  rw [root]
  refine takes_peek.bind fun t ht => ?_
  rw [if_neg (ht ▸ hend)]
  refine (takes_directives hdirective).bind fun handles _ => ?_
  have hmodify : Takes (modify fun r => { r with handles := handles ++ defaultHandles })
      (l :: ls ++ [.streamEnd]) (l :: ls ++ [.streamEnd]) fun _ => True := fun r hr =>
    ⟨(), _, rfl, hr, trivial⟩
  refine hmodify.bind fun _ _ => (takes_skipIf_of_ne hstart).bind fun opened hopened => ?_
  subst hopened
  refine takes_peek.bind fun next _ => ?_
  split
  · rename_i hl'
    exact absurd (ht.symm.trans hl') (hdirective _)
  · refine hnode.bind fun n hn => ?_
    have hends : Takes (skipDocumentEnds (fuel + 1)) [.streamEnd] [.streamEnd] fun _ => True := by
      rw [skipDocumentEnds]
      refine (takes_skipIf_of_ne (by decide)).bind fun b hb => ?_
      subst hb
      exact takes_pure trivial
    refine hends.bind fun _ _ => takes_peek.bind fun t ht => ?_
    rw [if_pos ht]
    exact takes_pure hn

/-- A text with the lexemes of a node holds that node only.  The fuel that reading starts with is
enough, as there are no fewer tokens than lexemes. -/
theorem read_of_describes {lexemes : List Lexeme} {holds : Node → Prop} {text : Text}
    {tokens : List Token} (htokens : tokens? text = some tokens)
    (hlexemes : tokens.map (·.lexeme) = lexemes ++ [.streamEnd])
    (h : Describes .block lexemes holds) :
    ∃ d, Document.read text = some d ∧ holds d.root := by
  have hlength : tokens.length = lexemes.length + 1 := by
    have h := congrArg List.length hlexemes
    rwa [List.length_map, List.length_append] at h
  have hroot : Takes (root (4 * tokens.length + 4)) (lexemes ++ [.streamEnd]) [.streamEnd] holds :=
    takes_root h (by omega)
  obtain ⟨n, r', hrun, -, hn⟩ := hroot { tokens := tokens } hlexemes
  refine ⟨{ root := n, anchored := r'.anchored }, ?_, hn⟩
  rw [Document.read, htokens, Option.bind_eq_bind, Option.bind_some, hrun]
  rfl

end CommandTemplates.Yaml
