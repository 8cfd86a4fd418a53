import CommandTemplates.Text.Search
import Mathlib.Data.List.Infix

/-!
# Occurrences of a pattern

`Text.cut` looks for the first occurrence of a pattern and the two scans of `Text.Search`
repeat it on what is left.  This module says what the search finds in terms of the relation
`pattern <:+: text`, which knows nothing of a search order.

* `includes_iff`, `cut_eq_none_iff` — the search misses no occurrence and invents none.
* `cut_eq_some_iff` — a cut is the *first* occurrence: the pattern does not occur in what
  stands before it, even when all but its last character is added.
* `scan_induction` — induction along a scan, from one occurrence to the next.
-/

namespace CommandTemplates

namespace Text

variable {pattern text before after : Text}

/-! ### The first occurrence -/

/-- A search comes back empty exactly when the pattern does not occur. -/
theorem cut_eq_none_iff : cut pattern text = none ↔ ¬ pattern <:+: text := by
  induction text with
  | nil => simp [cut, List.isEmpty_iff]
  | cons c text ih =>
    rw [cut, List.infix_cons_iff, ← List.isPrefixOf_iff_prefix]
    split
    · next hp => simp [hp]
    · next hp => simp [hp, ih]

/-- A pattern that occurs is found. -/
theorem exists_cut (h : pattern <:+: text) :
    ∃ before after, cut pattern text = some (before, after) := by
  cases hcut : cut pattern text with
  | none => exact absurd h (cut_eq_none_iff.mp hcut)
  | some parts => exact ⟨parts.1, parts.2, rfl⟩

/-- The search finds a pattern exactly when it occurs. -/
theorem includes_iff : text.includes pattern = true ↔ pattern <:+: text := by
  rw [includes, Option.isSome_iff_ne_none, ne_eq, cut_eq_none_iff, not_not]

theorem includes_eq_false_iff : text.includes pattern = false ↔ ¬ pattern <:+: text := by
  rw [← includes_iff, Bool.not_eq_true]

/-- Before the first occurrence the pattern does not even begin. -/
theorem not_infix_of_cut (hp : pattern ≠ []) (h : cut pattern text = some (before, after)) :
    ¬ pattern <:+: before ++ pattern.dropLast := by
  induction text generalizing before with
  | nil =>
    rw [cut, if_neg (by simpa [List.isEmpty_iff] using hp)] at h
    exact absurd h (by simp)
  | cons c text ih =>
    rw [cut] at h
    split at h
    · -- the pattern is longer than its own beginning
      cases h
      intro hin
      have hlen := hin.length_le
      have hpos := List.length_pos_iff.mpr hp
      rw [List.nil_append, List.length_dropLast] at hlen
      omega
    · next hprefix =>
      obtain ⟨parts, hparts, heq⟩ := Option.map_eq_some_iff.mp h
      cases heq
      rw [List.cons_append, List.infix_cons_iff]
      rintro (hpre | hin)
      · -- the pattern would begin here, and continue as the one that is there
        apply hprefix
        rw [List.isPrefixOf_iff_prefix, eq_of_cut hparts]
        refine hpre.trans ?_
        rw [List.append_assoc]
        refine List.cons_prefix_cons.mpr ⟨rfl, List.prefix_append_right_inj parts.1 |>.mpr ?_⟩
        exact (List.dropLast_prefix pattern).trans (List.prefix_append pattern parts.2)
      · exact ih hparts hin

/-- Where the pattern does not begin earlier, that is where the text is cut. -/
theorem cut_append (h : ¬ pattern <:+: before ++ pattern.dropLast) :
    cut pattern (before ++ pattern ++ after) = some (before, after) := by
  induction before with
  | nil =>
    cases pattern with
    | nil => exact absurd List.nil_infix h
    | cons c pattern => simp [cut]
  | cons c before ih =>
    rw [List.cons_append, List.infix_cons_iff, not_or] at h
    have hprefix : ¬ pattern.isPrefixOf (c :: (before ++ pattern ++ after)) = true := by
      rw [List.isPrefixOf_iff_prefix]
      intro hpre
      apply h.1
      rw [List.append_assoc, ← List.cons_append] at hpre
      -- a pattern this long ends before the last character of the one that is there
      refine List.prefix_of_prefix_length_le hpre ?_ ?_
      · refine List.prefix_append_right_inj (c :: before) |>.mpr ?_
        exact (List.dropLast_prefix pattern).trans (List.prefix_append pattern after)
      · simp only [List.length_append, List.length_cons, List.length_dropLast]
        omega
    rw [List.cons_append, List.cons_append, cut, if_neg hprefix, ih h.2]
    rfl

/-- A cut is the first occurrence, and the first occurrence is cut.  This is all that later proofs
need of the search itself. -/
theorem cut_eq_some_iff (hp : pattern ≠ []) :
    cut pattern text = some (before, after) ↔
      text = before ++ pattern ++ after ∧ ¬ pattern <:+: before ++ pattern.dropLast := by
  constructor
  · intro h
    exact ⟨eq_of_cut h, not_infix_of_cut hp h⟩
  · rintro ⟨rfl, h⟩
    exact cut_append h

/-- What stands before the first occurrence does not include the pattern. -/
theorem not_infix_before (hp : pattern ≠ []) (h : cut pattern text = some (before, after)) :
    ¬ pattern <:+: before := by
  intro hin
  exact not_infix_of_cut hp h (hin.trans (List.prefix_append _ _).isInfix)

/-- A character that the pattern does not have completes no occurrence. -/
theorem not_infix_concat {c : Char} (hc : c ∉ pattern) (h : ¬ pattern <:+: text) :
    ¬ pattern <:+: text ++ [c] := by
  rw [List.infix_concat_iff, not_or]
  refine ⟨fun hsuffix => ?_, h⟩
  rcases List.suffix_concat_iff.mp hsuffix with rfl | ⟨front, rfl, -⟩
  · exact h List.nil_infix
  · simp at hc

/-- Neither do several such characters. -/
theorem infix_append_iff_of_forall_not_mem {run : Text} (hrun : ∀ c ∈ run, c ∉ pattern) :
    pattern <:+: text ++ run ↔ pattern <:+: text := by
  refine ⟨fun h => ?_, List.infix_append_of_infix_left⟩
  induction run using List.reverseRecOn with
  | nil => rwa [List.append_nil] at h
  | append_singleton run c ih =>
    have hc : c ∉ pattern := hrun c (by simp)
    refine ih (fun c hmem => hrun c (List.mem_append_left _ hmem)) ?_
    rw [← List.append_assoc] at h
    exact not_imp_not.mp (not_infix_concat hc) h

/-- What is dropped from the end of a text is a run of one character. -/
theorem exists_dropTrailing (c : Char) (text : Text) :
    ∃ run, text = text.dropTrailing c ++ run ∧ ∀ x ∈ run, x = c := by
  refine ⟨(text.reverse.takeWhile (· == c)).reverse, ?_, fun x hx => ?_⟩
  · rw [dropTrailing, ← List.reverse_append, List.takeWhile_append_dropWhile, List.reverse_reverse]
  · exact beq_iff_eq.mp (List.all_eq_true.mp List.all_takeWhile x (List.mem_reverse.mp hx))

/-- Nothing is left of it. -/
theorem getLast?_dropTrailing (c : Char) (text : Text) :
    (text.dropTrailing c).getLast? ≠ some c := by
  intro h
  rw [dropTrailing, List.getLast?_reverse] at h
  have hhead := List.head?_dropWhile_not (· == c) text.reverse
  rw [h] at hhead
  simp at hhead

/-- A text that does not end with the character stays. -/
theorem dropTrailing_of_getLast?_ne {c : Char} (h : text.getLast? ≠ some c) :
    text.dropTrailing c = text := by
  obtain ⟨run, heq, hrun⟩ := exists_dropTrailing c text
  cases hlast : run.getLast? with
  | none =>
    rw [List.getLast?_eq_none_iff.mp hlast, List.append_nil] at heq
    exact heq.symm
  | some x =>
    rw [heq, List.getLast?_append, hlast, hrun x (List.mem_of_getLast? hlast)] at h
    exact absurd rfl h

/-- Nor does it keep anything of a run that is put behind it. -/
theorem dropTrailing_append_replicate {c : Char} (h : text.getLast? ≠ some c) (n : Nat) :
    (text ++ List.replicate n c).dropTrailing c = text := by
  induction n with
  | zero => rw [List.replicate_zero, List.append_nil, dropTrailing_of_getLast?_ne h]
  | succ n ih =>
    rw [List.replicate_succ', ← List.append_assoc, dropTrailing, List.reverse_concat,
      List.dropWhile_cons, if_pos (beq_self_eq_true c)]
    exact ih

/-- To drop a character from the end costs no occurrence of a pattern without it. -/
theorem infix_dropTrailing_iff {c : Char} (hc : c ∉ pattern) :
    pattern <:+: text.dropTrailing c ↔ pattern <:+: text := by
  obtain ⟨run, heq, hrun⟩ := exists_dropTrailing c text
  have hnone : ∀ x ∈ run, x ∉ pattern := fun x hx => hrun x hx ▸ hc
  conv_rhs => rw [heq]
  exact (infix_append_iff_of_forall_not_mem hnone).symm

/-! ### Along a scan -/

/-- Induction along a scan: a text without the pattern, and a text whose rest after the first
occurrence is already dealt with. -/
@[elab_as_elim]
theorem scan_induction {motive : Text → Prop} (hp : pattern ≠ [])
    (absent : ∀ text, ¬ pattern <:+: text → motive text)
    (found : ∀ text before after, cut pattern text = some (before, after) → motive after →
      motive text) (text : Text) : motive text := by
  -- on the length, as the rest after an occurrence is shorter
  induction hn : text.length using Nat.strong_induction_on generalizing text with
  | _ n ih =>
    cases hcut : cut pattern text with
    | none => exact absent text (cut_eq_none_iff.mp hcut)
    | some parts =>
      have hlt := length_lt_of_cut hp hcut
      exact found text parts.1 parts.2 hcut (ih _ (hn ▸ hlt) parts.2 rfl)

/-- A pattern that is absent does not occur. -/
theorem occurrences_of_absent (h : ¬ pattern <:+: text) : occurrences pattern text = 0 := by
  have hp : pattern ≠ [] := by
    rintro rfl
    exact h List.nil_infix
  rw [occurrences, dif_neg hp]
  split
  · rfl
  · next hcut => rw [cut_eq_none_iff.mpr h] at hcut; cases hcut

/-- A pattern occurs once more than it does behind its first occurrence. -/
theorem occurrences_of_cut (hp : pattern ≠ []) (h : cut pattern text = some (before, after)) :
    occurrences pattern text = occurrences pattern after + 1 := by
  rw [occurrences, dif_neg hp]
  split
  · next hcut => rw [h] at hcut; cases hcut
  · next hcut => rw [h] at hcut; cases hcut; rfl

/-- Where the pattern is absent nothing is replaced. -/
theorem replaceAll_of_absent {substitute : Text} (h : ¬ pattern <:+: text) :
    replaceAll pattern substitute text = text := by
  have hp : pattern ≠ [] := by
    rintro rfl
    exact h List.nil_infix
  rw [replaceAll, dif_neg hp]
  split
  · rfl
  · next hcut => rw [cut_eq_none_iff.mpr h] at hcut; cases hcut

/-- Otherwise the first occurrence is replaced, and replacing goes on behind it. -/
theorem replaceAll_of_cut {substitute : Text} (hp : pattern ≠ [])
    (h : cut pattern text = some (before, after)) :
    replaceAll pattern substitute text =
      before ++ substitute ++ replaceAll pattern substitute after := by
  rw [replaceAll, dif_neg hp]
  split
  · next hcut => rw [h] at hcut; cases hcut
  · next hcut => rw [h] at hcut; cases hcut; rfl

/-- A scan passes a character that the pattern does not have. -/
theorem replaceAll_cons_of_not_mem {substitute : Text} {c : Char} (hp : pattern ≠ [])
    (hc : c ∉ pattern) :
    replaceAll pattern substitute (c :: text) = c :: replaceAll pattern substitute text := by
  have hhead : ¬ pattern <+: c :: text := by
    intro hpre
    obtain ⟨x, tail, rfl⟩ := List.exists_cons_of_ne_nil hp
    obtain ⟨rfl, -⟩ := List.cons_prefix_cons.mp hpre
    exact hc List.mem_cons_self
  by_cases hin : pattern <:+: text
  · obtain ⟨before, after, hcut⟩ := exists_cut hin
    have hcut' : cut pattern (c :: text) = some (c :: before, after) := by
      rw [cut, if_neg (by rwa [List.isPrefixOf_iff_prefix]), hcut]
      rfl
    rw [replaceAll_of_cut hp hcut, replaceAll_of_cut hp hcut']
    rfl
  · have hin' : ¬ pattern <:+: c :: text := by
      rw [List.infix_cons_iff, not_or]
      exact ⟨hhead, hin⟩
    rw [replaceAll_of_absent hin, replaceAll_of_absent hin']

/-- A scan counts nothing exactly when the pattern does not occur; the empty pattern always
does. -/
theorem occurrences_eq_zero_iff : occurrences pattern text = 0 ↔ ¬ pattern <:+: text := by
  refine ⟨fun h hin => ?_, occurrences_of_absent⟩
  by_cases hp : pattern = []
  · rw [occurrences, dif_pos hp] at h
    omega
  · obtain ⟨before, after, hcut⟩ := exists_cut hin
    rw [occurrences_of_cut hp hcut] at h
    omega

end Text

end CommandTemplates
