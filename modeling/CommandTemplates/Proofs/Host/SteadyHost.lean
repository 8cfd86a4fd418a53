import CommandTemplates.Proofs.Host.FileHost

/-!
# Hosts that are only asked

As long as no file is changed, a host gives the same answer to the same question.  Work that only
asks has a result then that is settled by what is seen of the files.  What is seen need not hang
together: a file may be there and refuse to be read.

## Main Definitions

* `Sight` — what is seen of the files of a host
* `SteadyHost` — a host that shows the same files as long as it is only asked
* `Sight.Gives`, `Sight.GivesWithin` — work that only asks, and its result
* `Sight.Stepwise` — a relation between work and its result that steps keep

## Main Results

* `Sight.Gives.stepwise`, `Sight.GivesWithin.stepwise` — results of work in steps
* `Sight.Stepwise.mapM`, `Sight.Stepwise.filterM` — work on every element of a list has the results
  of its parts, and a list is filtered by what is seen
-/

namespace CommandTemplates

/-- What is seen of files: which paths lead to one, and what reading it gives. -/
structure Sight where
  isFile : Text → Bool
  read : Text → Except FileFault Octets

/-- A host that shows the same files as long as it is only asked.  Its sight is what it shows, and
nothing is said of what writing does to it. -/
class SteadyHost (σ : Type) [Host (StateM σ)] where
  /-- What is seen of the files. -/
  sight : σ → Sight
  run_isFile (path : Text) (s : σ) : ∃ s',
    (Host.isFile path : StateM σ Bool).run s = ((sight s).isFile path, s') ∧ sight s' = sight s
  run_read (path : Text) (s : σ) : ∃ s',
    (Host.read path : StateM σ (Except FileFault Octets)).run s = ((sight s).read path, s') ∧
      sight s' = sight s
  run_note (event : LogEvent) (s : σ) : ∃ s',
    (Host.note event : StateM σ Unit).run s = ((), s') ∧ sight s' = sight s

/-- What can be seen of the machine is its files. -/
instance : SteadyHost Machine where
  sight s := ⟨fun path => s.files.isFile (.text path), fun path => s.files.read (.text path)⟩
  run_isFile _ s := ⟨s, rfl, rfl⟩
  run_read _ s := ⟨s, rfl, rfl⟩
  run_note _ _ := ⟨_, rfl, rfl⟩

open SteadyHost (sight)

namespace Sight

/-- The text of a file, or the failure to read it. -/
def readText (v : Sight) (path : Text) : Except Failure Text :=
  match v.read path with
  | .error fault => .error (.readFailed path fault.message)
  | .ok (.illFormed _) => .error (.readFailed path FileFault.notText.message)
  | .ok (.text t) => .ok t

/-- A text that cannot be read is a failure that names its path. -/
theorem exists_reason_of_readText {v : Sight} {path : Text} {failure : Failure}
    (h : v.readText path = .error failure) : ∃ reason, failure = .readFailed path reason := by
  rw [readText] at h
  split at h
  · cases h
    exact ⟨_, rfl⟩
  · cases h
    exact ⟨_, rfl⟩
  · cases h

variable {σ α β : Type} [Host (StateM σ)] [SteadyHost σ] {v : Sight}

/-- Work that only asks, and its result where files look like that.  The sight is the same
afterwards, so that further work has the same result as if it came first. -/
def Gives (v : Sight) (x : ExceptT Failure (StateM σ) α) (result : Except Failure α) : Prop :=
  ∀ s, sight s = v → ∃ s', x.run.run s = (result, s') ∧ sight s' = v

/-- Work in a transaction that only asks, and its result where files look like that. -/
def GivesWithin (v : Sight) (x : ApplyWork σ α) (result : Except Failure α) : Prop :=
  ∀ tx, v.Gives (x.run.run tx) (.ok (result, tx))

/-! ### Work in steps -/

/-- A relation between work and its result that holds of work in steps if it holds of the steps. -/
structure Stepwise {n : Type → Type} [Monad n] [MonadExceptOf Failure n]
    (R : (γ : Type) → n γ → Except Failure γ → Prop) : Prop where
  pure {γ : Type} (c : γ) : R γ (pure c) (.ok c)
  throw {γ : Type} (failure : Failure) : R γ (throw failure) (.error failure)
  bind {γ δ : Type} {x : n γ} {r : Except Failure γ} {f : γ → n δ} {k : γ → Except Failure δ}
    (hx : R γ x r) (hf : ∀ a, r = .ok a → R δ (f a) (k a)) : R δ (x >>= f) (r >>= k)

namespace Stepwise

variable {n : Type → Type} [Monad n] [MonadExceptOf Failure n]
  {R : (γ : Type) → n γ → Except Failure γ → Prop}

/-- A step that gives something is followed by the next. -/
theorem bind_ok (h : Stepwise R) {x : n α} {f : α → n β} {a : α} {r : Except Failure β}
    (hx : R α x (.ok a)) (hf : R β (f a) r) : R β (x >>= f) r :=
  h.bind (k := fun _ => r) hx fun _ heq => Except.ok.inj heq ▸ hf

/-- Work on every element of a list has the results of its parts. -/
theorem mapM [LawfulMonad n] (h : Stepwise R) {f : α → n β} {g : α → Except Failure β}
    (hf : ∀ a, R β (f a) (g a)) (as : List α) : R (List β) (as.mapM f) (as.mapM g) := by
  induction as with
  | nil =>
    rw [List.mapM_nil, List.mapM_nil]
    exact h.pure []
  | cons a as ih =>
    rw [List.mapM_cons, List.mapM_cons]
    exact h.bind (hf a) fun b _ => h.bind ih fun bs _ => h.pure (b :: bs)

/-- A list is filtered by what comes of asking. -/
theorem filterM (h : Stepwise R) {p : α → n Bool} {q : α → Bool}
    (hp : ∀ a, R Bool (p a) (.ok (q a))) (as : List α) :
    R (List α) (as.filterM p) (.ok (as.filter q)) := by
  -- the elements that are kept are collected in reverse
  have haux : ∀ kept : List α,
      R (List α) (as.filterAuxM p kept) (.ok ((as.filter q).reverse ++ kept)) := by
    induction as with
    | nil => exact fun kept => h.pure kept
    | cons a as ih =>
      intro kept
      refine h.bind_ok (hp a) ?_
      cases hq : q a with
      | false =>
        rw [List.filter_cons_of_neg (ne_true_of_eq_false hq)]
        exact ih kept
      | true =>
        rw [List.filter_cons_of_pos hq, List.reverse_cons, List.append_assoc]
        exact ih (a :: kept)
  refine h.bind_ok (haux []) ?_
  rw [List.append_nil, List.reverse_reverse]
  exact h.pure _

/-- Where a file can be read as it is seen, so can its text. -/
theorem readText [Host n] (h : Stepwise R) {path : Text}
    (hread : R (Except FileFault Octets) (Host.read path) (.ok (v.read path))) :
    R Text (Host.readText path) (v.readText path) := by
  refine h.bind_ok hread ?_
  rw [Sight.readText]
  rcases v.read path with fault | (text | bytes)
  · exact h.throw _
  · exact h.pure text
  · exact h.throw _

end Stepwise

/-- What a host answers is given when it answers so in every state with the same sight. -/
theorem Gives.of_lift {y : StateM σ α} {a : α}
    (h : ∀ s, sight s = v → ∃ s', y.run s = (a, s') ∧ sight s' = v) :
    v.Gives (liftM y : ExceptT Failure (StateM σ) α) (.ok a) := by
  intro s hs
  obtain ⟨s', hrun, hs'⟩ := h s hs
  exact ⟨s', run_of_lift hrun, hs'⟩

/-- The result of work that only asks. -/
theorem Gives.run_fst {x : ExceptT Failure (StateM σ) α} {r : Except Failure α} {s : σ}
    (h : (sight s).Gives x r) : (x.run.run s).1 = r := by
  obtain ⟨s', hrun, -⟩ := h s rfl
  rw [hrun]

/-- What is given can be put together step by step, up to the first failure. -/
theorem Gives.stepwise (v : Sight) : Stepwise fun γ => v.Gives (σ := σ) (α := γ) where
  pure c s hs := ⟨s, rfl, hs⟩
  throw failure s hs := ⟨s, rfl, hs⟩
  bind := by
    intro γ δ x r f k hx hf s hs
    obtain ⟨s₁, hrun, hs₁⟩ := hx s hs
    cases r with
    | error failure =>
      refine ⟨s₁, ?_, hs₁⟩
      rw [ExceptT.run_bind, StateT.run_bind, hrun]
      rfl
    | ok a =>
      rw [run_bind_of_ok hrun]
      exact hf a rfl s₁ hs₁

/-- What is given is given within a transaction as well. -/
theorem GivesWithin.of_gives {y : ExceptT Failure (StateM σ) α} {a : α} (h : v.Gives y (.ok a)) :
    v.GivesWithin (liftM y : ApplyWork σ α) (.ok a) := by
  have hsteps := Gives.stepwise (σ := σ) v
  exact fun tx =>
    hsteps.bind_ok (hsteps.bind_ok h (hsteps.pure (a, tx))) (hsteps.pure (Except.ok a, tx))

/-- What is given within a transaction can be put together in the same way. -/
theorem GivesWithin.stepwise (v : Sight) :
    Stepwise fun γ => v.GivesWithin (σ := σ) (α := γ) where
  pure c tx := (Gives.stepwise v).pure (Except.ok c, tx)
  throw failure tx := (Gives.stepwise v).pure (Except.error failure, tx)
  bind := by
    intro γ δ x r f k hx hf tx
    rw [ExceptT.run_bind, StateT.run_bind]
    refine (Gives.stepwise v).bind_ok (hx tx) ?_
    cases r with
    | error failure => exact (Gives.stepwise v).pure (Except.error failure, tx)
    | ok a => exact hf a rfl tx

/-! ### Asking -/

theorem Gives.isFile (v : Sight) (path : Text) :
    v.Gives (Host.isFile path : ExceptT Failure (StateM σ) Bool) (.ok (v.isFile path)) :=
  .of_lift fun s hs => hs ▸ SteadyHost.run_isFile path s

theorem Gives.read (v : Sight) (path : Text) :
    v.Gives (Host.read path : ExceptT Failure (StateM σ) (Except FileFault Octets))
      (.ok (v.read path)) :=
  .of_lift fun s hs => hs ▸ SteadyHost.run_read path s

theorem Gives.readText (v : Sight) (path : Text) :
    v.Gives (Host.readText path : ExceptT Failure (StateM σ) Text) (v.readText path) :=
  (stepwise v).readText (.read v path)

theorem Gives.note (v : Sight) (event : LogEvent) :
    v.Gives (Host.note event : ExceptT Failure (StateM σ) Unit) (.ok ()) :=
  .of_lift fun s hs => hs ▸ SteadyHost.run_note event s

theorem GivesWithin.isFile (v : Sight) (path : Text) :
    v.GivesWithin (Host.isFile path : ApplyWork σ Bool) (.ok (v.isFile path)) :=
  of_gives (.isFile v path)

theorem GivesWithin.readText (v : Sight) (path : Text) :
    v.GivesWithin (Host.readText path : ApplyWork σ Text) (v.readText path) :=
  (stepwise v).readText (of_gives (.read v path))

theorem GivesWithin.note (v : Sight) (event : LogEvent) :
    v.GivesWithin (Host.note event : ApplyWork σ Unit) (.ok ()) :=
  of_gives (.note v event)

end Sight

end CommandTemplates
