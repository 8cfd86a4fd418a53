/-!
# Literal text search

Text is a list of Unicode scalars. Every search in this library is for a literal
pattern, from left to right, and matches never overlap.

## Main Definitions

* `Text.cut` — the text before and after the first occurrence of a pattern
* `Text.includes` — whether a pattern occurs at all
* `Text.occurrences` — how many matches a left-to-right scan finds
* `Text.replaceAll` — the text with every match of that scan replaced

## Design Notes

`occurrences` and `replaceAll` are two scans over the same first occurrences, so
that what is counted and what is replaced can be compared. The empty pattern
matches before each character and once more at the end.
-/

namespace CommandTemplates

/-- A text: a list of Unicode scalars. -/
abbrev Text := List Char

namespace Text

/-- The text before and after the first occurrence of `pattern`. -/
def cut (pattern : Text) : Text → Option (Text × Text)
  | [] => if pattern.isEmpty then some ([], []) else none
  | c :: text =>
    if pattern.isPrefixOf (c :: text) then some ([], (c :: text).drop pattern.length)
    else (cut pattern text).map fun parts => (c :: parts.1, parts.2)

/-- Whether `pattern` occurs in `text`. -/
def includes (text pattern : Text) : Bool := (cut pattern text).isSome

/-- The remainder of `text` after `opening`, when it starts that way. -/
def after? (opening text : Text) : Option Text :=
  if opening.isPrefixOf text then some (text.drop opening.length) else none

/-! ### The first occurrence -/

/-- A cut loses nothing. -/
theorem eq_of_cut {pattern text before after : Text}
    (h : cut pattern text = some (before, after)) : text = before ++ pattern ++ after := by
  induction text generalizing before with
  | nil =>
    simp only [cut] at h
    split at h
    · next hp => simp_all [List.isEmpty_iff]
    · exact absurd h (by simp)
  | cons c text ih =>
    simp only [cut] at h
    split at h
    · next hp =>
      obtain ⟨tail, htail⟩ := List.isPrefixOf_iff_prefix.mp hp
      cases h
      simp [← htail]
    · obtain ⟨parts, hparts, heq⟩ := Option.map_eq_some_iff.mp h
      cases heq
      have htail : text = parts.1 ++ pattern ++ parts.2 := ih hparts
      simp [htail]

/-- What follows a non-empty pattern is shorter than the text. -/
theorem length_lt_of_cut {pattern text before after : Text} (hp : pattern ≠ [])
    (h : cut pattern text = some (before, after)) : after.length < text.length := by
  have hlen := congrArg List.length (eq_of_cut h)
  have := List.length_pos_iff.mpr hp
  simp only [List.length_append] at hlen
  omega

/-! ### Scanning for every occurrence -/

/-- How many matches of `pattern` a left-to-right scan finds. -/
def occurrences (pattern text : Text) : Nat :=
  if hp : pattern = [] then text.length + 1
  else
    match h : cut pattern text with
    | none => 0
    | some (_, after) =>
      have := length_lt_of_cut hp h
      occurrences pattern after + 1
termination_by text.length

/-- The text with every match of `pattern` replaced by `substitute`. -/
def replaceAll (pattern substitute text : Text) : Text :=
  if hp : pattern = [] then substitute ++ text.flatMap fun c => c :: substitute
  else
    match h : cut pattern text with
    | none => text
    | some (before, after) =>
      have := length_lt_of_cut hp h
      before ++ substitute ++ replaceAll pattern substitute after
termination_by text.length

/-! ### Edges -/

/-- The text without the run of `c` at its end. -/
def dropTrailing (c : Char) (text : Text) : Text :=
  (text.reverse.dropWhile (· == c)).reverse

/-- The pieces between separators; a text without one is its own only piece. -/
def pieces (separator : Char) : Text → List Text
  | [] => [[]]
  | c :: text =>
    if c = separator then [] :: pieces separator text
    else
      match pieces separator text with
      | [] => [[c]]
      | piece :: pieces => (c :: piece) :: pieces

/-- The decimal digits of a number. -/
def ofNat (n : Nat) : Text := Nat.toDigits 10 n

end Text

end CommandTemplates
