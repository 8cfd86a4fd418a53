import CommandTemplates.File.Listing
import CommandTemplates.Proofs.File.Locate
import CommandTemplates.Proofs.Text.Pieces

/-!
# Names and paths

A path that is put together from the path of a directory and names below it is followed by the
steps to the directory and then by the names, and its components are those of the directory and
then the names.  That holds for names as files have them: they can be told apart in a path.

## Main Definitions

* `IsStep`, `IsName` — what stands between slashes, and a name as files have it

## Main Results

* `Path.isStep_of_mem_steps` — the steps of a path
* `IsName.exists_steps_join` — the steps of a path below a directory
* `IsName.below_eq`, `IsName.components_join` — such a path as a whole, and its components
-/

namespace CommandTemplates

/-! ### Names with slashes between them -/

/-- What stands between slashes in a path: a text that is not empty and has no slash. -/
def IsStep : Octets → Prop
  | .text text => text ≠ [] ∧ '/' ∉ text
  | .illFormed _ => False

/-- A name as files have it: a text that is not empty, has no slash, and stands neither for a
directory itself nor for the one above. -/
def IsName : Octets → Prop
  | .text text => text ≠ [] ∧ '/' ∉ text ∧ text ≠ ['.'] ∧ text ≠ ['.', '.']
  | .illFormed _ => False

/-- A step that leads down is a name. -/
theorem IsStep.isName {step : Octets} (h : IsStep step) (hself : step ≠ Path.self)
    (habove : step ≠ Path.above) : IsName step := by
  cases step with
  | text text => exact ⟨h.1, h.2, mt (congrArg Octets.text) hself, mt (congrArg Octets.text) habove⟩
  | illFormed bytes => exact absurd h id

/-- The steps of a path stand between its slashes. -/
theorem Path.isStep_of_mem_steps {path : Text} {step : Octets}
    (h : step ∈ Path.steps (.text path)) : IsStep step := by
  rw [Path.steps, List.mem_append] at h
  rcases h with h | h
  · rw [List.mem_filter, decide_eq_true_eq] at h
    obtain ⟨hpiece, hne⟩ := h
    obtain ⟨text, htext, rfl⟩ := List.mem_map.mp hpiece
    exact ⟨fun hnil => hne (congrArg Octets.text hnil), Text.not_mem_of_mem_pieces htext⟩
  · split at h
    · rw [List.mem_singleton.mp h]
      exact ⟨List.cons_ne_nil _ _, by decide⟩
    · cases h

instance : DecidablePred IsName := by
  intro name
  cases name with
  | text text => exact inferInstanceAs (Decidable (_ ∧ _))
  | illFormed bytes => exact inferInstanceAs (Decidable False)

namespace IsName

variable {name : Octets} {names : List Octets}

/-- No name stands for the directory itself. -/
theorem ne_self (h : IsName name) : name ≠ Path.self := by
  rintro rfl
  exact h.2.2.1 rfl

/-- No name stands for the directory above. -/
theorem ne_above (h : IsName name) : name ≠ Path.above := by
  rintro rfl
  exact h.2.2.2 rfl

/-- Nothing of a name is lost when it is shown. -/
theorem text_lossy (h : IsName name) : Octets.text name.lossy = name := by
  cases name with
  | text text => rfl
  | illFormed bytes => exact absurd h id

/-- Names are the pieces of what is shown of them. -/
theorem pieces_shownPlace (hne : names ≠ []) (h : ∀ name ∈ names, IsName name) :
    (Octets.text (FileTree.shownPlace names)).pieces '/' = names := by
  have hslash : ∀ text ∈ names.map Octets.lossy, '/' ∉ text := by
    intro text htext
    obtain ⟨name, hname, rfl⟩ := List.mem_map.mp htext
    have hisName := h name hname
    cases name with
    | text text => exact hisName.2.1
    | illFormed bytes => exact absurd hisName id
  rw [Octets.pieces, FileTree.shownPlace,
    Text.pieces_intercalate (mt List.map_eq_nil_iff.mp hne) hslash, List.map_map]
  exact (List.map_congr_left fun name hname => (h name hname).text_lossy).trans (List.map_id' names)

/-- What is shown of names does not start at the top. -/
theorem not_isAbsolute_shownPlace (hne : names ≠ []) (h : ∀ name ∈ names, IsName name) :
    Path.isAbsolute (FileTree.shownPlace names) = false := by
  have hpieces := pieces_shownPlace hne h
  cases hshown : FileTree.shownPlace names with
  | nil => rfl
  | cons c text =>
    rw [Path.isAbsolute, List.head?_cons, beq_eq_false_iff_ne]
    rintro ⟨⟩
    -- the piece before the slash would be an empty name
    rw [hshown, Octets.pieces, Text.pieces, if_pos rfl, List.map_cons] at hpieces
    exact (h (.text []) (hpieces ▸ List.mem_cons_self)).1 rfl

/-- The pieces of a path below a directory are those of the directory, but for an empty one at the
end, and then the names. -/
theorem exists_pieces_join (hne : names ≠ []) (h : ∀ name ∈ names, IsName name) {dir : Text}
    (hdir : dir ≠ []) :
    ∃ front last, front ≠ [] ∧ (Octets.text dir).pieces '/' = front ++ last ∧
      (last = [] ∨ last = [.text []]) ∧
      (Octets.text (Path.join dir (FileTree.shownPlace names))).pieces '/' = front ++ names := by
  have happend : ∀ front : Text,
      (Octets.text (front ++ '/' :: FileTree.shownPlace names)).pieces '/' =
        (Octets.text front).pieces '/' ++ names := by
    intro front
    rw [Octets.pieces, Text.pieces_append_cons, List.map_append]
    exact congrArg _ (pieces_shownPlace hne h)
  have hpieces : ∀ front : Text, (Octets.text front).pieces '/' ≠ [] := fun front =>
    mt List.map_eq_nil_iff.mp (Text.pieces_ne_nil '/' front)
  rw [Path.join, if_neg (ne_true_of_eq_false (not_isAbsolute_shownPlace hne h)),
    List.isEmpty_eq_false_iff.mpr hdir, Bool.false_or]
  split
  · next hslash =>
    -- the path of the directory ends in a slash, so that its last piece is empty
    obtain ⟨front, rfl⟩ := List.getLast?_eq_some_iff.mp (beq_iff_eq.mp hslash)
    refine ⟨_, [.text []], hpieces front, ?_, Or.inr rfl, ?_⟩
    · rw [Octets.pieces, Text.pieces_append_cons, List.map_append]
      rfl
    · rw [List.append_assoc]
      exact happend front
  · refine ⟨_, [], hpieces dir, (List.append_nil _).symm, Or.inl rfl, ?_⟩
    rw [List.append_assoc]
    exact happend dir

/-- The steps to what is in a directory go on from those to the directory, but for a last one that
goes to the directory itself. -/
theorem exists_steps_join (hne : names ≠ []) (h : ∀ name ∈ names, IsName name) {dir : Text}
    (hdir : dir ≠ []) :
    ∃ first last, Path.steps (.text dir) = first ++ last ∧ (last = [] ∨ last = [Path.self]) ∧
      Path.steps (.text (Path.join dir (FileTree.shownPlace names))) = first ++ names := by
  obtain ⟨front, last, -, hpieces, hlast, hjoin⟩ := exists_pieces_join hne h hdir
  have hnone : last.filter (· ≠ .text []) = [] := by
    rcases hlast with rfl | rfl <;> rfl
  have hnames : names.filter (· ≠ .text []) = names := by
    rw [List.filter_eq_self]
    exact fun name hname => decide_eq_true fun hnil => (hnil ▸ h name hname).1 rfl
  have hend : (front ++ names).getLast? ≠ some (.text []) := by
    rw [List.getLast?_append_of_ne_nil _ hne]
    exact fun hnil => (h _ (List.mem_of_getLast? hnil)).1 rfl
  refine ⟨front.filter (· ≠ .text []),
    if (front ++ last).getLast? = some (.text []) then [Path.self] else [], ?_, ?_, ?_⟩
  · rw [Path.steps, hpieces, List.filter_append, hnone, List.append_nil]
  · split
    · exact Or.inr rfl
    · exact Or.inl rfl
  · rw [Path.steps, hjoin, List.filter_append, hnames, if_neg hend, List.append_nil]

/-- A path that is put together starts where the path of the directory starts. -/
theorem startOf_join (hne : names ≠ []) (h : ∀ name ∈ names, IsName name) {dir : Text}
    (hdir : FileTree.IsPath (.text dir)) (here : Place) :
    FileTree.startOf here (.text (Path.join dir (FileTree.shownPlace names))) =
      FileTree.startOf here (.text dir) := by
  obtain ⟨rest, hrest⟩ : ∃ rest, Path.join dir (FileTree.shownPlace names) = dir ++ rest := by
    rw [Path.join, if_neg (ne_true_of_eq_false (not_isAbsolute_shownPlace hne h))]
    split
    · exact ⟨_, rfl⟩
    · exact ⟨_, List.append_assoc _ _ _⟩
  have hbytes : (Octets.text (dir ++ rest)).bytes =
      (Octets.text dir).bytes ++ (Octets.text rest).bytes := List.flatMap_append
  rw [hrest, FileTree.startOf, FileTree.startOf, hbytes,
    List.head?_append_of_ne_nil _ (mt List.isEmpty_iff.mpr hdir.ne_empty)]

end IsName

/-! ### Components -/

namespace Path

variable {piece : Octets} {pieces : List Octets}

/-- What follows the first piece counts only in that there is something. -/
theorem opening_cons (hne : pieces ≠ []) :
    opening (piece :: pieces) = if piece = .text [] then [top] else opening [piece] := by
  obtain ⟨next, pieces, rfl⟩ := List.exists_cons_of_ne_nil hne
  split
  · next hempty => rw [hempty, opening]
  · next hempty =>
    rcases piece with (_ | ⟨c, text⟩) | bytes
    · exact absurd rfl hempty
    · by_cases hself : c :: text = ['.']
      · rw [hself]
        rfl
      · rw [opening, opening] <;> simp_all
    · rfl

end Path

namespace IsName

variable {name : Octets} {names : List Octets} {dir text rest : Text}

/-- The first of some names is no component at the start of a path. -/
theorem opening_eq (h : ∀ name ∈ names, IsName name) : Path.opening names = [] := by
  cases names with
  | nil => rfl
  | cons name names =>
    have hname := h name List.mem_cons_self
    have hne : name ≠ .text [] := by
      rintro rfl
      exact hname.1 rfl
    have hopening : Path.opening [name] = [] := by
      rcases name with text | bytes
      · rw [Path.opening] <;> simp_all [IsName]
      · rfl
    by_cases hnames : names = []
    · rw [hnames, hopening]
    · rw [Path.opening_cons hnames, if_neg hne, hopening]

/-- Names are never left out of a path. -/
theorem filter_eq (h : ∀ name ∈ names, IsName name) :
    names.filter (fun piece => piece ≠ .text [] ∧ piece ≠ Path.self) = names := by
  rw [List.filter_eq_self]
  intro name hname
  refine decide_eq_true ⟨?_, (h name hname).ne_self⟩
  rintro rfl
  exact (h _ hname).1 rfl

/-- The components of a path below a directory are those of the directory, and then the names. -/
theorem components_join (hne : names ≠ []) (h : ∀ name ∈ names, IsName name) (dir : Text) :
    Path.components (.text (Path.join dir (FileTree.shownPlace names))) =
      Path.components (.text dir) ++ names := by
  by_cases hdir : dir = []
  · subst hdir
    rw [Path.join, if_neg (ne_true_of_eq_false (not_isAbsolute_shownPlace hne h)),
      List.isEmpty_nil, Bool.true_or, if_pos rfl, List.nil_append, Path.components,
      pieces_shownPlace hne h, opening_eq h, filter_eq h]
    rfl
  · obtain ⟨front, last, hfront, hpieces, hlast, hjoin⟩ := exists_pieces_join hne h hdir
    have hnone : last.filter (fun piece => piece ≠ .text [] ∧ piece ≠ Path.self) = [] := by
      rcases hlast with rfl | rfl <;> rfl
    have hopening : Path.opening (front ++ names) = Path.opening (front ++ last) := by
      obtain ⟨first, front, rfl⟩ := List.exists_cons_of_ne_nil hfront
      rw [List.cons_append, List.cons_append,
        Path.opening_cons (List.append_ne_nil_of_right_ne_nil front hne)]
      by_cases hmore : front ++ last = []
      · -- the path of the directory is a piece of its own, which is not empty
        rw [hmore, if_neg]
        rintro rfl
        rw [List.cons_append, hmore, Octets.pieces, List.map_eq_singleton_iff] at hpieces
        obtain ⟨text, htext, hnil⟩ := hpieces
        cases hnil
        exact hdir ((Text.intercalate_pieces '/' dir).symm.trans (congrArg _ htext))
      · rw [Path.opening_cons hmore]
    rw [Path.components, Path.components, hjoin, hpieces, hopening, List.filter_append,
      List.filter_append, filter_eq h, hnone, List.append_nil, List.append_assoc]

/-- Joining a name and then what is below it is joining both at once. -/
theorem join_join (h : IsName (.text text)) (hrest : Path.isAbsolute rest = false) (dir : Text) :
    Path.join (Path.join dir text) rest = Path.join dir (text ++ '/' :: rest) := by
  have htext : Path.isAbsolute text = false := by
    rw [Path.isAbsolute, beq_eq_false_iff_ne]
    exact fun hslash => h.2.1 (List.mem_of_head? hslash)
  have hboth : Path.isAbsolute (text ++ '/' :: rest) = false := by
    rwa [Path.isAbsolute, List.head?_append_of_ne_nil _ h.1]
  have hlast : ∀ front : Text, (front ++ text).getLast? ≠ some '/' := by
    intro front hslash
    rw [List.getLast?_append_of_ne_nil _ h.1] at hslash
    exact h.2.1 (List.mem_of_getLast? hslash)
  have hfront : ∀ front : Text,
      Path.join (front ++ text) rest = front ++ (text ++ '/' :: rest) := by
    intro front
    rw [Path.join, if_neg (ne_true_of_eq_false hrest), if_neg]
    · simp
    · rw [Bool.or_eq_true, List.isEmpty_iff, beq_iff_eq, not_or]
      exact ⟨List.append_ne_nil_of_right_ne_nil _ h.1, hlast front⟩
  rw [Path.join.eq_def dir text, Path.join.eq_def dir (text ++ '/' :: rest),
    if_neg (ne_true_of_eq_false htext), if_neg (ne_true_of_eq_false hboth)]
  split
  · exact hfront dir
  · exact hfront (dir ++ ['/'])

/-- The path of what is below a directory. -/
theorem below_eq (hne : names ≠ []) (h : ∀ name ∈ names, IsName name) (dir : Text) :
    Path.below (.text dir) names = .text (Path.join dir (FileTree.shownPlace names)) := by
  induction names generalizing dir with
  | nil => exact absurd rfl hne
  | cons name names ih =>
    rw [List.forall_mem_cons] at h
    cases name with
    | illFormed bytes => exact absurd h.1 id
    | text text =>
      by_cases hnames : names = []
      · subst hnames
        exact congrArg (fun t => Octets.text (Path.join dir t)) (List.append_nil text).symm
      · have hshown : FileTree.shownPlace (.text text :: names) =
            text ++ '/' :: FileTree.shownPlace names := by
          obtain ⟨next, names, rfl⟩ := List.exists_cons_of_ne_nil hnames
          simp [FileTree.shownPlace, List.intercalate, Octets.lossy]
        rw [hshown, ← join_join h.1 (not_isAbsolute_shownPlace hnames h.2), ← ih hnames h.2]
        rfl

/-- The extension of a path below a directory is that of the last name. -/
theorem isMarkdown_join (hne : names ≠ []) (h : ∀ name ∈ names, IsName name) (dir : Text) :
    Path.isMarkdown (.text (Path.join dir (FileTree.shownPlace names))) =
      names.getLast?.any Path.isMarkdownName := by
  rw [Path.isMarkdown, components_join hne h, List.getLast?_append_of_ne_nil _ hne]

end IsName

end CommandTemplates
