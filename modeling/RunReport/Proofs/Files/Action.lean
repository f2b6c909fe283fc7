import RunReport.Files.Tree
import RunReport.Proofs.Traversal

/-!
# Actions on files

The second of two actions starts where the first one ends. An action that only
looks at files can be carried out on a view of them, where nothing can be changed.
What it finds there it finds in any files that show the view, and it leaves the files
as they are. What it is given up for is known from what it consists of.
-/

namespace RunReport

variable {ε α β σ : Type}

/-- Files as they can be looked at. -/
structure FileView where
  /-- Whether there is a file at the path. -/
  isFile : String → Bool
  /-- The text of the file at the path, if it can be read. -/
  text? : String → Option String

/-- A view is looked at only. -/
instance : FileReader (ReaderM FileView) where
  isFile path := fun view => view.isFile path
  readText path := fun view => view.text? path

/-- Files show a view: looking at them finds what the view has of them, and changes nothing. -/
structure FileStore.Shows [FileStore (StateM σ)] (shown : σ → FileView) : Prop where
  /-- Whether there is a file at a path. -/
  isFile : ∀ path files, (FileReader.isFile path : StateM σ Bool).run files =
    ((shown files).isFile path, files)
  /-- The text of the file at a path. -/
  readText : ∀ path files, (FileReader.readText path : StateM σ (Option String)).run files =
    ((shown files).text? path, files)

namespace FileTree

/-- How a tree looks. -/
def view (tree : FileTree) : FileView := ⟨fun path => (tree.text? path).isSome, tree.text?⟩

/-- Looking at a tree finds its files. -/
theorem shows_view : FileStore.Shows view := ⟨fun _ _ => rfl, fun _ _ => rfl⟩

end FileTree

namespace FileView

/-- What an action that can only look at files finds in a view. -/
def found (view : FileView) (look : ExceptT ε (ReaderM FileView) α) : Except ε α :=
  look.run.run view

variable (view : FileView)

/-- What is given is found. -/
@[simp] theorem found_pure (a : α) :
    view.found (pure a : ExceptT ε (ReaderM FileView) α) = .ok a := rfl

/-- What is given up is not found. -/
@[simp] theorem found_throw (cause : ε) :
    view.found (throw cause : ExceptT ε (ReaderM FileView) α) = .error cause := rfl

/-- What does not depend on files is found as it is. -/
@[simp] theorem found_ofExcept (result : Except ε α) :
    view.found (MonadExcept.ofExcept result : ExceptT ε (ReaderM FileView) α) = result := by
  cases result <;> rfl

/-- What comes after something that is found is looked for in the same view. -/
@[simp] theorem found_bind (look : ExceptT ε (ReaderM FileView) α)
    (next : α → ExceptT ε (ReaderM FileView) β) :
    view.found (look >>= next) = view.found look >>= fun a => view.found (next a) := by
  have step : view.found (look >>= next) = (match view.found look with
      | .ok a => view.found (next a)
      | .error cause => .error cause) := by
    unfold found
    rw [ExceptT.run_bind]
    refine (ReaderT.run_bind look.run _ view).trans ?_
    change (ReaderT.run (match ReaderT.run look.run view with
      | .ok a => (next a).run
      | .error cause => pure (.error cause)) view) = _
    cases ReaderT.run look.run view <;> rfl
  rw [step]
  cases view.found look <;> rfl

/-- The elements of a list are looked for one after the other. -/
@[simp] theorem found_mapM (look : α → ExceptT ε (ReaderM FileView) β) (as : List α) :
    view.found (as.mapM look) = as.mapM fun a => view.found (look a) := by
  induction as with
  | nil => rfl
  | cons a as ih => simp only [List.mapM_cons, found_bind, found_pure, ih]; rfl

end FileView

namespace Action

/-- The second of two actions starts where the first one ends. -/
theorem run_bind_of_run {x : StateM σ α} {f : α → StateM σ β} {s t : σ} {a : α}
    (h : x.run s = (a, t)) : (x >>= f).run s = (f a).run t := by
  rw [StateT.run_bind, h]
  rfl

/-- An action comes to what is found by one that can only look at what the files show, and
leaves the files as they are. It is given up only for causes of a certain kind. -/
structure Reads (shown : σ → FileView) (kind : ε → Prop) (x : ExceptT ε (StateM σ) α)
    (look : ExceptT ε (ReaderM FileView) α) : Prop where
  /-- The action comes to what is found. -/
  run_eq : ∀ files, x.run.run files = ((shown files).found look, files)
  /-- What is given up is given up for a cause of the kind. -/
  kind_of_error : ∀ (view : FileView) cause, view.found look = .error cause → kind cause

namespace Reads

variable {shown : σ → FileView} {kind : ε → Prop}

/-- The action has a result exactly when this is found. -/
theorem run_eq_ok_iff {x : ExceptT ε (StateM σ) α} {look : ExceptT ε (ReaderM FileView) α}
    (h : Reads shown kind x look) {files : σ} {a : α} :
    x.run.run files = (.ok a, files) ↔ (shown files).found look = .ok a := by
  rw [h.run_eq files]
  exact Prod.mk.injEq .. ▸ and_iff_left rfl

/-- A result is read without looking. -/
theorem pure (a : α) : Reads shown kind (Pure.pure a) (Pure.pure a) where
  run_eq _ := rfl
  kind_of_error _ _ wrong := by cases wrong

/-- An action that is given up reads nothing. -/
theorem throw {cause : ε} (h : kind cause) :
    Reads shown kind (throw cause : ExceptT ε (StateM σ) α) (throw cause) where
  run_eq _ := rfl
  kind_of_error _ _ same := Except.error.inj same ▸ h

/-- What does not depend on files is read without looking. -/
theorem ofExcept {result : Except ε α} (h : ∀ cause, result = .error cause → kind cause) :
    Reads shown kind (MonadExcept.ofExcept result) (MonadExcept.ofExcept result) := by
  cases result with
  | ok a => exact .pure a
  | error cause => exact .throw (h cause rfl)

/-- What is read may be looked at further. -/
theorem bind {x : ExceptT ε (StateM σ) α} {look : ExceptT ε (ReaderM FileView) α}
    {f : α → ExceptT ε (StateM σ) β} {next : α → ExceptT ε (ReaderM FileView) β}
    (h : Reads shown kind x look) (h' : ∀ a, Reads shown kind (f a) (next a)) :
    Reads shown kind (x >>= f) (look >>= next) where
  run_eq files := by
    rw [FileView.found_bind, ExceptT.run_bind]
    refine (run_bind_of_run (h.run_eq files)).trans ?_
    cases (shown files).found look with
    | ok a => exact (h' a).run_eq files
    | error cause => rfl
  kind_of_error view cause failed := by
    rw [FileView.found_bind] at failed
    rcases Traversal.bind_eq_error_iff.1 failed with first | ⟨a, _, second⟩
    · exact h.kind_of_error view cause first
    · exact (h' a).kind_of_error view cause second

/-- An action that cannot be given up is read if it leaves the files as they are. -/
theorem lift {x : StateM σ α} {look : ReaderM FileView α}
    (h : ∀ files, x.run files = (look.run (shown files), files)) :
    Reads shown kind (monadLift x) (monadLift look) where
  run_eq files := by
    have lifted : (monadLift x : ExceptT ε (StateM σ) α).run =
        (x >>= fun a => Pure.pure (.ok a)) := rfl
    rw [lifted]
    exact run_bind_of_run (h files)
  kind_of_error _ _ wrong := by cases wrong

/-- Every element of a list may be looked at. -/
theorem mapM {f : α → ExceptT ε (StateM σ) β} {look : α → ExceptT ε (ReaderM FileView) β}
    (h : ∀ a, Reads shown kind (f a) (look a)) (as : List α) :
    Reads shown kind (as.mapM f) (as.mapM look) := by
  induction as with
  | nil => exact .pure []
  | cons a as ih =>
    rw [List.mapM_cons, List.mapM_cons]
    exact (h a).bind fun b => ih.bind fun bs => .pure (b :: bs)

/-- One look may follow from the one before. -/
theorem foldlM {f : β → α → ExceptT ε (StateM σ) β}
    {look : β → α → ExceptT ε (ReaderM FileView) β} (h : ∀ b a, Reads shown kind (f b a) (look b a))
    (as : List α) (b : β) : Reads shown kind (as.foldlM f b) (as.foldlM look b) := by
  induction as generalizing b with
  | nil => exact .pure b
  | cons a as ih =>
    rw [List.foldlM_cons, List.foldlM_cons]
    exact (h b a).bind fun b => ih b

end Reads

end Action

end RunReport
