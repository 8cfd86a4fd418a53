import CommandTemplates.Document.Audit
import CommandTemplates.Proofs.Text.Apart

/-!
# Ordered replacement

`Replacement.applyAll` puts every replacement on the output of the one before.  Three kinds of
facts are needed of it: what one step does, what it says when it has nothing to do, and which
properties of a text survive all of its steps.

* `applyAll_cons` — one step, whether the replacement finds anything or not.
* `applyAll_snd_eq_nil_iff`, `applyAll_of_clean` — it reports nothing exactly when no literal
  occurs in the text it was *given*, although each replacement is counted on the output of
  the others; then the text stays.
* `applyAll_induction` — what every single replacement keeps, the list keeps.
* `Removes`, `Spares`, `applyAll_isClean` — if each replacement ends its own literal, and
  none of the later ones brings it back, no literal is left after one pass.
-/

namespace CommandTemplates

/-- No literal occurs in a text. -/
def Text.IsClean (text : Text) (literals : List Text) : Prop :=
  ∀ literal ∈ literals, ¬ literal <:+: text

/-- The literals counted in a text are none exactly when it is clean. -/
theorem Text.countLiterals_eq_nil_iff {text : Text} {literals : List Text} :
    text.countLiterals literals = [] ↔ text.IsClean literals := by
  rw [Text.countLiterals, List.filterMap_eq_nil_iff]
  refine forall₂_congr fun literal _ => ?_
  rw [← Text.occurrences_eq_zero_iff]
  cases Text.occurrences literal text <;> simp

/-- The literals counted in a text are those that occur in it, with how often they do. -/
theorem Text.countLiterals_eq {text : Text} {literals : List Text} :
    text.countLiterals literals = (literals.filter (text.includes ·)).map fun literal =>
      (literal, Text.occurrences literal text) := by
  rw [Text.countLiterals]
  induction literals with
  | nil => rfl
  | cons literal literals ih =>
    rw [List.filterMap_cons, List.filter_cons, ih]
    cases hin : text.includes literal with
    | false =>
      rw [Text.occurrences_of_absent (Text.includes_eq_false_iff.mp hin)]
      rfl
    | true =>
      cases hcount : Text.occurrences literal text with
      | zero => exact absurd (Text.includes_iff.mp hin) (Text.occurrences_eq_zero_iff.mp hcount)
      | succ n => rw [if_pos rfl, List.map_cons, hcount]

namespace Replacement

open Text

variable {text : Text} {r : Replacement} {rs : List Replacement}

/-- One replacement, everywhere in a text. -/
def apply (r : Replacement) (text : Text) : Text := replaceAll r.literal r.substitute text

theorem apply_of_absent (h : ¬ r.literal <:+: text) : r.apply text = text :=
  replaceAll_of_absent h

/-! ### One step -/

/-- A rule whose literal is absent is passed over. -/
theorem applyAll_cons_of_absent (h : ¬ r.literal <:+: text) :
    applyAll text (r :: rs) = applyAll text rs := by
  rw [applyAll, occurrences_of_absent h]

/-- A rule whose literal is there is applied and counted, and the others see what it left. -/
theorem applyAll_cons_of_present (h : r.literal <:+: text) :
    applyAll text (r :: rs) =
      ((applyAll (r.apply text) rs).1,
        ⟨r, occurrences r.literal text⟩ :: (applyAll (r.apply text) rs).2) := by
  rw [applyAll]
  cases hcount : occurrences r.literal text with
  | zero => exact absurd h (occurrences_eq_zero_iff.mp hcount)
  | succ n => rfl

/-- What is reported of one replacement: nothing if it finds no match. -/
def counted (r : Replacement) (text : Text) : List ReplacementCount :=
  [ReplacementCount.mk r (occurrences r.literal text)].filter (0 < ·.count)

/-- A replacement that finds nothing is no exception. -/
theorem applyAll_cons :
    applyAll text (r :: rs) =
      ((applyAll (r.apply text) rs).1, r.counted text ++ (applyAll (r.apply text) rs).2) := by
  by_cases h : r.literal <:+: text
  · have hcount : 0 < occurrences r.literal text :=
      Nat.pos_of_ne_zero fun hzero => occurrences_eq_zero_iff.mp hzero h
    rw [applyAll_cons_of_present h, counted, List.filter_cons_of_pos (by simpa using hcount)]
    rfl
  · rw [applyAll_cons_of_absent h, apply_of_absent h, counted, occurrences_of_absent h]
    rfl

theorem applyAll_fst_cons : (applyAll text (r :: rs)).1 = (applyAll (r.apply text) rs).1 := by
  rw [applyAll_cons]

/-- Replacements after others see what the others made. -/
theorem applyAll_append_fst {rs' : List Replacement} :
    (applyAll text (rs ++ rs')).1 = (applyAll (applyAll text rs).1 rs').1 := by
  induction rs generalizing text with
  | nil => rfl
  | cons r rs ih => rw [List.cons_append, applyAll_fst_cons, applyAll_fst_cons, ih]

/-- What is reported are some of the replacements, in order. -/
theorem map_applyAll_sublist (text : Text) (rs : List Replacement) :
    ((applyAll text rs).2.map (·.replacement)).Sublist rs := by
  induction rs generalizing text with
  | nil => exact List.Sublist.refl _
  | cons r rs ih =>
    by_cases h : r.literal <:+: text
    · rw [applyAll_cons_of_present h]
      exact (ih _).cons_cons r
    · rw [applyAll_cons_of_absent h]
      exact (ih text).cons r

/-! ### Nothing to do -/

/-- In a clean text there is nothing to replace. -/
theorem applyAll_of_clean (h : text.IsClean (rs.map (·.literal))) :
    applyAll text rs = (text, []) := by
  induction rs with
  | nil => rfl
  | cons r rs ih =>
    rw [List.map_cons] at h
    have hr : ¬ r.literal <:+: text := h _ List.mem_cons_self
    rw [applyAll_cons_of_absent hr]
    exact ih fun literal hmem => h literal (List.mem_cons_of_mem _ hmem)

/-- Whether anything was replaced can be told from the text at the start: up to the first
literal that occurs, no replacement changes it. -/
theorem applyAll_snd_eq_nil_iff :
    (applyAll text rs).2 = [] ↔ text.IsClean (rs.map (·.literal)) := by
  constructor
  · intro h
    induction rs with
    | nil => simp [Text.IsClean]
    | cons r rs ih =>
      by_cases hr : r.literal <:+: text
      · -- the first literal that occurs is on the list
        rw [applyAll_cons_of_present hr] at h
        cases h
      · rw [applyAll_cons_of_absent hr] at h
        rw [List.map_cons]
        intro literal hmem
        rcases List.mem_cons.mp hmem with rfl | hmem
        · exact hr
        · exact ih h literal hmem
  · intro h
    rw [applyAll_of_clean h]

/-! ### What survives -/

/-- What every replacement keeps, all of them together keep. -/
theorem applyAll_induction {motive : Text → Prop}
    (step : ∀ r ∈ rs, ∀ text, motive text → motive (r.apply text)) (start : motive text) :
    motive (applyAll text rs).1 := by
  induction rs generalizing text with
  | nil => exact start
  | cons r rs ih =>
    rw [applyAll_fst_cons]
    exact ih (fun r' hr' => step r' (List.mem_cons_of_mem _ hr'))
      (step r List.mem_cons_self text start)

/-- A replacement after which its literal is gone. -/
def Removes (r : Replacement) : Prop := ∀ text, ¬ r.literal <:+: r.apply text

/-- A replacement that does not bring in a literal. -/
def Spares (r : Replacement) (literal : Text) : Prop :=
  ∀ text, ¬ literal <:+: text → ¬ literal <:+: r.apply text

/-- One pass clears a text when each replacement removes its literal and the later ones spare
it. -/
theorem applyAll_isClean (hremoves : ∀ r ∈ rs, r.Removes)
    (hspares : rs.Pairwise fun earlier later => later.Spares earlier.literal) :
    (applyAll text rs).1.IsClean (rs.map (·.literal)) := by
  induction rs generalizing text with
  | nil => simp [Text.IsClean]
  | cons r rs ih =>
    obtain ⟨hlater, hrest⟩ := List.pairwise_cons.mp hspares
    rw [applyAll_fst_cons, List.map_cons]
    intro literal hmem
    rcases List.mem_cons.mp hmem with rfl | hmem
    · -- its own literal is gone after the first step, and no later one brings it back
      exact applyAll_induction (motive := fun text => ¬ r.literal <:+: text)
        (fun r' hr' text h => hlater r' hr' text h) (hremoves r List.mem_cons_self text)
    · exact ih (fun r' hr' => hremoves r' (List.mem_cons_of_mem _ hr')) hrest literal hmem

end Replacement

end CommandTemplates
