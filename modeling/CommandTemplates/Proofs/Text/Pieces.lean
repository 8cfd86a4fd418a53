import CommandTemplates.Proofs.Text.Apart

/-!
# Texts in pieces

A text falls into the pieces between its separators, and is what these pieces are joined to.  What
has no separator in it stands in one piece.

* `pieces_intercalate`, `intercalate_pieces` — taking apart and joining undo each other.
* `infix_intercalate_iff` — a pattern without separators occurs in a joined text exactly when it
  occurs in a piece.
-/

namespace CommandTemplates.Text

variable {separator : Char} {text rest pattern : Text} {texts : List Text}

/-! ### Taking apart -/

/-- There is always a piece, if only the empty one. -/
theorem pieces_ne_nil (separator : Char) (text : Text) : pieces separator text ≠ [] := by
  cases text with
  | nil => exact List.cons_ne_nil _ _
  | cons c text =>
    unfold pieces
    split
    · exact List.cons_ne_nil _ _
    · split <;> exact List.cons_ne_nil _ _

/-- A text without separators is its only piece. -/
theorem pieces_of_not_mem (h : separator ∉ text) : pieces separator text = [text] := by
  induction text with
  | nil => rfl
  | cons c text ih =>
    rw [List.mem_cons, not_or] at h
    rw [pieces, if_neg (Ne.symm h.1), ih h.2]

/-- No piece holds a separator. -/
theorem not_mem_of_mem_pieces (h : rest ∈ pieces separator text) : separator ∉ rest := by
  induction text generalizing rest with
  | nil =>
    rw [List.mem_singleton.mp h]
    exact List.not_mem_nil
  | cons c text ih =>
    rw [pieces] at h
    split at h
    · rcases List.mem_cons.mp h with rfl | h
      · exact List.not_mem_nil
      · exact ih h
    · next hc =>
      split at h
      · rw [List.mem_singleton.mp h]
        exact fun hmem => hc (List.mem_singleton.mp hmem).symm
      · next piece pieces hpieces =>
        rw [hpieces] at ih
        rcases List.mem_cons.mp h with rfl | h
        · rw [List.mem_cons, not_or]
          exact ⟨Ne.symm hc, ih List.mem_cons_self⟩
        · exact ih (List.mem_cons_of_mem _ h)

/-- The pieces before a separator, and those after it. -/
theorem pieces_append_cons :
    pieces separator (text ++ separator :: rest) =
      pieces separator text ++ pieces separator rest := by
  induction text with
  | nil => exact if_pos rfl
  | cons c text ih =>
    rw [List.cons_append, pieces, pieces, ih]
    split
    · rfl
    · cases hpieces : pieces separator text with
      | nil => exact absurd hpieces (pieces_ne_nil separator text)
      | cons piece pieces => rfl

/-- When every text ends with a separator, nothing is left for the last piece. -/
theorem pieces_terminated (h : ∀ text ∈ texts, separator ∉ text) :
    pieces separator (texts.flatMap (· ++ [separator])) = texts ++ [[]] := by
  induction texts with
  | nil => rfl
  | cons text texts ih =>
    rw [List.forall_mem_cons] at h
    rw [List.flatMap_cons, List.append_assoc, List.singleton_append, pieces_append_cons,
      pieces_of_not_mem h.1, ih h.2, List.singleton_append, List.cons_append]

/-! ### Joining -/

/-- Texts without the separator are the pieces of what they are joined to. -/
theorem pieces_intercalate {texts : List Text} (htexts : texts ≠ [])
    (h : ∀ text ∈ texts, separator ∉ text) :
    pieces separator (List.intercalate [separator] texts) = texts := by
  induction texts with
  | nil => exact absurd rfl htexts
  | cons text texts ih =>
    rw [List.forall_mem_cons] at h
    cases texts with
    | nil => rw [List.intercalate_singleton, pieces_of_not_mem h.1]
    | cons text' texts =>
      rw [List.intercalate_cons_cons, List.append_assoc, List.singleton_append,
        pieces_append_cons, pieces_of_not_mem h.1, ih (List.cons_ne_nil _ _) h.2]
      rfl

/-- Joined texts are the first one, and the others with the glue in front of each. -/
theorem intercalate_cons (glue first : Text) (texts : List Text) :
    List.intercalate glue (first :: texts) = first ++ texts.flatMap (glue ++ ·) := by
  induction texts generalizing first with
  | nil => rw [List.intercalate_singleton, List.flatMap_nil, List.append_nil]
  | cons text texts ih =>
    rw [List.intercalate_cons_cons, ih, List.flatMap_cons]
    simp only [List.append_assoc]

/-- A text is what its pieces are joined to. -/
theorem intercalate_pieces (separator : Char) (text : Text) :
    List.intercalate [separator] (pieces separator text) = text := by
  induction text with
  | nil => rfl
  | cons c text ih =>
    rw [pieces]
    split
    · next hc =>
      rw [List.intercalate_cons_of_ne_nil (pieces_ne_nil separator text), ih, hc]
      rfl
    · cases hpieces : pieces separator text with
      | nil => exact absurd hpieces (pieces_ne_nil separator text)
      | cons piece pieces =>
        rw [hpieces, intercalate_cons] at ih
        rw [intercalate_cons, List.cons_append, ih]

/-- A pattern without separators occurs in a joined text exactly when it occurs in a piece. -/
theorem infix_intercalate_iff (hp : pattern ≠ []) (hseparator : separator ∉ pattern) :
    pattern <:+: List.intercalate [separator] texts ↔ ∃ text ∈ texts, pattern <:+: text := by
  have hapart : Apart [separator] pattern := by
    refine (noOverlap_of_disjoint (List.cons_ne_nil _ _) hp fun c hc => ?_).apart
    rwa [List.mem_singleton.mp hc]
  induction texts with
  | nil => simp [hp]
  | cons text texts ih =>
    rw [List.exists_mem_cons_iff]
    cases texts with
    | nil => simp
    | cons text' texts =>
      rw [List.intercalate_cons_cons]
      refine Iff.trans ?_ (or_congr_right ih)
      constructor
      · exact hapart _ _
      · rintro (h | h)
        · exact List.infix_append_of_infix_left (List.infix_append_of_infix_left h)
        · exact List.infix_append_of_infix_right h

end CommandTemplates.Text
