import CommandTemplates.Proofs.Text.Apart

/-!
# Replacements that commute

When a text keeps apart from a pattern, a scan for the pattern passes over it: what stands before it
and what stands behind it are scanned as if they were alone.  A replacement puts one text in the
place of another; if both keep apart from the pattern of a second replacement, the second one finds
the same matches before the first one and after it.

* `cut_append_of_cut`, `cut_append_of_apart` — the first occurrence in a joined text
* `replaceAll_append_of_apart`, `occurrences_append_of_apart` — a scan passes over a text that keeps
  apart
* `occurrences_replaceAll_of_apart` — a replacement leaves the matches of another pattern
* `replaceAll_comm` — two replacements can change places
-/

namespace CommandTemplates.Text

variable {part pattern text before after front back : Text}

/-! ### The first occurrence in a joined text -/

/-- Text behind the first occurrence does not move it. -/
theorem cut_append_of_cut (hp : pattern ≠ []) (hcut : cut pattern text = some (before, after))
    (back : Text) : cut pattern (text ++ back) = some (before, after ++ back) := by
  rw [eq_of_cut hcut, List.append_assoc]
  exact cut_append (not_infix_of_cut hp hcut)

/-- Nor does text in front of it that is without the pattern, with a part behind that keeps apart
from the pattern. -/
theorem cut_append_of_apart (hp : pattern ≠ []) (hpart : Apart part pattern)
    (hfront : ¬ pattern <:+: front) (hcut : cut pattern text = some (before, after)) :
    cut pattern (front ++ part ++ text) = some (front ++ part ++ before, after) := by
  rw [eq_of_cut hcut, ← List.append_assoc, ← List.append_assoc]
  refine cut_append ?_
  rw [List.append_assoc]
  exact fun hin => (hpart _ _ hin).elim hfront (not_infix_of_cut hp hcut)

/-! ### Scans pass over what keeps apart -/

/-- A text that keeps apart stays, and what stands on both sides of it is replaced on its own. -/
theorem replaceAll_append_of_apart (hp : pattern ≠ []) (hpart : Apart part pattern)
    (substitute front back : Text) :
    replaceAll pattern substitute (front ++ part ++ back) =
      replaceAll pattern substitute front ++ part ++ replaceAll pattern substitute back := by
  induction front using scan_induction hp with
  | absent front hfront =>
    rw [replaceAll_of_absent hfront]
    by_cases hback : pattern <:+: back
    · obtain ⟨before, after, hcut⟩ := exists_cut hback
      rw [replaceAll_of_cut hp hcut,
        replaceAll_of_cut hp (cut_append_of_apart hp hpart hfront hcut)]
      simp only [List.append_assoc]
    · have habsent : ¬ pattern <:+: front ++ part ++ back :=
        fun hin => (hpart _ _ hin).elim hfront hback
      rw [replaceAll_of_absent hback, replaceAll_of_absent habsent]
  | found front before after hcut ih =>
    rw [replaceAll_of_cut hp hcut, List.append_assoc,
      replaceAll_of_cut hp (cut_append_of_cut hp hcut _), ← List.append_assoc after, ih]
    simp only [List.append_assoc]

/-- What stands on both sides of a text that keeps apart is counted on its own. -/
theorem occurrences_append_of_apart (hp : pattern ≠ []) (hpart : Apart part pattern)
    (front back : Text) :
    occurrences pattern (front ++ part ++ back) =
      occurrences pattern front + occurrences pattern back := by
  induction front using scan_induction hp with
  | absent front hfront =>
    rw [occurrences_of_absent hfront, Nat.zero_add]
    by_cases hback : pattern <:+: back
    · obtain ⟨before, after, hcut⟩ := exists_cut hback
      rw [occurrences_of_cut hp hcut,
        occurrences_of_cut hp (cut_append_of_apart hp hpart hfront hcut)]
    · have habsent : ¬ pattern <:+: front ++ part ++ back :=
        fun hin => (hpart _ _ hin).elim hfront hback
      rw [occurrences_of_absent hback, occurrences_of_absent habsent]
  | found front before after hcut ih =>
    rw [occurrences_of_cut hp hcut, List.append_assoc,
      occurrences_of_cut hp (cut_append_of_cut hp hcut _), ← List.append_assoc after, ih]
    omega

/-! ### A replacement and another pattern -/

section Two

variable {old new old' new' : Text}

/-- A replacement whose two texts keep apart from a pattern leaves the matches of the pattern. -/
theorem occurrences_replaceAll_of_apart (hne : old ≠ []) (hp : pattern ≠ [])
    (hold : Apart old pattern) (hnew : Apart new pattern) (text : Text) :
    occurrences pattern (replaceAll old new text) = occurrences pattern text := by
  induction text using scan_induction hne with
  | absent text habsent => rw [replaceAll_of_absent habsent]
  | found text before after hcut ih =>
    rw [replaceAll_of_cut hne hcut, occurrences_append_of_apart hp hnew, ih, eq_of_cut hcut,
      occurrences_append_of_apart hp hold]

/-- Two replacements can change places when the second one looks for nothing that the first one
takes away or puts in, and puts in nothing that the first one looks for. -/
theorem replaceAll_comm (hne : old ≠ []) (hne' : old' ≠ []) (hold : Apart old old')
    (hnew : Apart new old') (hnew' : Apart new' old) (text : Text) :
    replaceAll old' new' (replaceAll old new text) =
      replaceAll old new (replaceAll old' new' text) := by
  induction text using scan_induction hne with
  | absent text habsent =>
    have habsent' : ¬ old <:+: replaceAll old' new' text ++ [] :=
      not_infix_replaceAll_append hne' hnew' (by rwa [List.append_nil])
    rw [List.append_nil] at habsent'
    rw [replaceAll_of_absent habsent, replaceAll_of_absent habsent']
  | found text before after hcut ih =>
    have hbefore : ¬ old <:+: replaceAll old' new' before ++ old.dropLast :=
      not_infix_replaceAll_append hne' hnew' (not_infix_of_cut hne hcut)
    -- the second replacement leaves the match where it is, as the first one to be found
    have hcut' : cut old (replaceAll old' new' text) =
        some (replaceAll old' new' before, replaceAll old' new' after) := by
      rw [eq_of_cut hcut, replaceAll_append_of_apart hne' hold]
      exact cut_append hbefore
    rw [replaceAll_of_cut hne hcut, replaceAll_append_of_apart hne' hnew, ih,
      replaceAll_of_cut hne hcut']

end Two

end CommandTemplates.Text
