import RunReport.Proofs.Files.Location

/-!
# What changes a tree

Writing, moving and removing files say for every location what is found there
afterwards. None of them makes or loses a directory or goes to another one, so paths
lead where they led before. Creating directories and a directory for staging only adds
directories where nothing was.
-/

namespace RunReport.FileTree

variable {tree after : FileTree}

/-- Two trees have the same directories, and paths start at the same place. -/
structure SameDirectories (tree other : FileTree) : Prop where
  /-- The working directory is the same. -/
  home : tree.workingDirectory = other.workingDirectory
  /-- The directories are the same. -/
  held : ∀ location,
    tree.get? location = some .directory ↔ other.get? location = some .directory

namespace SameDirectories

variable {other third : FileTree}

theorem refl (tree : FileTree) : tree.SameDirectories tree := ⟨rfl, fun _ => Iff.rfl⟩

theorem symm (h : tree.SameDirectories other) : other.SameDirectories tree :=
  ⟨h.home.symm, fun location => (h.held location).symm⟩

theorem trans (h : tree.SameDirectories other) (h' : other.SameDirectories third) :
    tree.SameDirectories third :=
  ⟨h.home.trans h'.home, fun location => (h.held location).trans (h'.held location)⟩

/-- Paths lead to the same places. -/
theorem locate_eq (h : tree.SameDirectories other) (path : String) :
    tree.locate path = other.locate path :=
  locate_congr ⟨h.home, fun location => (h.held location).1⟩
    ⟨h.home.symm, fun location => (h.held location).2⟩ path

end SameDirectories

/-- A tree that differs from another at one location only, and has a directory
there in neither case, has the same directories. -/
theorem sameDirectories_of_update {location : List String} {entry : Option FileEntry}
    (home : tree.workingDirectory = after.workingDirectory)
    (before : tree.get? location ≠ some .directory) (now : entry ≠ some .directory)
    (h : ∀ other, after.get? other = if other = location then entry else tree.get? other) :
    tree.SameDirectories after := by
  refine ⟨home, fun other => ?_⟩
  rw [h other]
  by_cases here : other = location
  · subst here
    rw [if_pos rfl]
    exact iff_of_false before now
  · rw [if_neg here]

/-- A text is written exactly to a path that does not lead to a directory. -/
theorem write?_eq_some_iff {path text : String} :
    tree.write? path text = some after ↔ ∃ location, tree.locate path = some location ∧
      tree.get? location ≠ some .directory ∧ after = tree.put location (.file text) := by
  unfold write?
  cases tree.locate path with
  | none => simp
  | some location =>
    by_cases held : tree.get? location = some .directory
    · simp [held]
    · simpa [held] using eq_comm

/-- A file that is written is found, and all else is as before. -/
theorem get?_put_file {location : List String} (free : tree.get? location ≠ some .directory)
    (text : String) (other : List String) :
    (tree.put location (.file text)).get? other =
      if other = location then some (.file text) else tree.get? other :=
  get?_put (ne_nil_of_get? free) tree (.file text) other

/-- A file that is removed is gone, and all else is as before. -/
theorem get?_erase_file {location : List String} {text : String}
    (held : tree.get? location = some (.file text)) (other : List String) :
    (tree.erase location).get? other = if other = location then none else tree.get? other := by
  have free : tree.get? location ≠ some .directory := by simp [held]
  exact get?_erase (ne_nil_of_get? free) tree other

/-- A file that is removed was no directory. -/
theorem sameDirectories_erase {location : List String} {text : String}
    (held : tree.get? location = some (.file text)) :
    tree.SameDirectories (tree.erase location) :=
  sameDirectories_of_update rfl (by simp [held]) (by simp) (get?_erase_file held)

/-- A file that is written is no directory. -/
theorem sameDirectories_put {location : List String}
    (free : tree.get? location ≠ some .directory) (text : String) :
    tree.SameDirectories (tree.put location (.file text)) :=
  sameDirectories_of_update rfl free (by simp) (get?_put_file free text)

/-- What a move does to a tree: the file of one location stands at another. -/
structure Moves (tree : FileTree) (source target : List String) (text : String)
    (after : FileTree) : Prop where
  /-- A file is moved. -/
  held : tree.get? source = some (.file text)
  /-- Its place is no directory. -/
  free : tree.get? target ≠ some .directory
  /-- The working directory stays. -/
  home : tree.workingDirectory = after.workingDirectory
  /-- It stands at its new place, not at the old one, and all else is as before. -/
  found : ∀ other, after.get? other = if other = target then some (.file text)
    else if other = source then none else tree.get? other

/-- A move keeps the directories. -/
theorem Moves.sameDirectories {source target : List String} {text : String}
    (h : tree.Moves source target text after) : tree.SameDirectories after := by
  refine ⟨h.home, fun other => ?_⟩
  rw [h.found other]
  by_cases target : other = target
  · rw [if_pos target]
    exact iff_of_false (target ▸ h.free) (by simp)
  rw [if_neg target]
  by_cases source : other = source
  · rw [if_pos source]
    exact iff_of_false (by rw [source, h.held]; simp) (by simp)
  · rw [if_neg source]

/-- Where nothing is held, there is no text. -/
theorem text?_eq_none {path : String} {location : List String}
    (led : tree.locate path = some location) (free : tree.get? location = none) :
    tree.text? path = none := by
  rw [text?, led, Option.bind_some, free]

/-- The text at a path is that of the file that the path leads to. -/
theorem text?_eq_some_iff {path text : String} :
    tree.text? path = some text ↔
      ∃ location, tree.locate path = some location ∧ tree.get? location = some (.file text) := by
  unfold text?
  cases tree.locate path with
  | none => simp
  | some location =>
    rw [Option.bind_some]
    cases held : tree.get? location with
    | none => simp [held]
    | some entry => cases entry <;> simp [held]

/-- A move succeeds exactly from a file to a place that is no directory. -/
theorem move?_eq_some_iff {source target : String} :
    tree.move? source target = some after ↔ ∃ origin place text,
      tree.locate source = some origin ∧ tree.locate target = some place ∧
      tree.get? origin = some (.file text) ∧ tree.get? place ≠ some .directory ∧
      after = (tree.erase origin).put place (.file text) := by
  constructor
  · intro moved
    unfold move? at moved
    split at moved
    · rename_i text origin read led
      obtain ⟨_, led', held⟩ := text?_eq_some_iff.1 read
      obtain rfl := Option.some.inj (led.symm.trans led')
      obtain ⟨place, there, free, rfl⟩ := write?_eq_some_iff.1 moved
      have same := sameDirectories_erase held
      exact ⟨origin, place, text, led, (same.locate_eq target).trans there, held,
        fun directory => free ((same.held place).1 directory), rfl⟩
    · cases moved
  · rintro ⟨origin, place, text, led, there, held, free, rfl⟩
    have same := sameDirectories_erase held
    have read : tree.text? source = some text := text?_eq_some_iff.2 ⟨origin, led, held⟩
    unfold move?
    simp only [read, led]
    exact write?_eq_some_iff.2 ⟨place, (same.locate_eq target).symm.trans there,
      fun directory => free ((same.held place).2 directory), rfl⟩

/-- A file that is taken from one place and put to another has moved. -/
theorem moves_put_erase {origin place : List String} {text : String}
    (held : tree.get? origin = some (.file text)) (free : tree.get? place ≠ some .directory) :
    tree.Moves origin place text ((tree.erase origin).put place (.file text)) where
  held := held
  free := free
  home := rfl
  found other := by
    have cleared : (tree.erase origin).get? place ≠ some .directory :=
      fun directory => free (((sameDirectories_erase held).held place).2 directory)
    rw [get?_put_file cleared, get?_erase_file held]

/-- A removal succeeds exactly where a file is. -/
theorem remove?_eq_some_iff {path : String} : tree.remove? path = some after ↔
    ∃ location text, tree.locate path = some location ∧
      tree.get? location = some (.file text) ∧ after = tree.erase location := by
  unfold remove?
  cases tree.locate path with
  | none => simp
  | some location =>
    cases held : tree.get? location with
    | none => simp [held]
    | some entry => cases entry <;> simp [held, eq_comm]

/-- What is found after an attempt to remove the file at a path. -/
theorem get?_remove? (path : String) (other : List String) :
    ((tree.remove? path).getD tree).get? other =
      if tree.locate path = some other ∧ tree.get? other ≠ some .directory then none
      else tree.get? other := by
  unfold remove?
  cases led : tree.locate path with
  | none => simp
  | some location =>
    cases held : tree.get? location with
    | none =>
      by_cases here : location = other
      · subst here
        simp [held]
      · simp [held, here]
    | some entry =>
      cases entry with
      | directory =>
        by_cases here : location = other
        · subst here
          simp [held]
        · simp [held, here]
      | file text =>
        by_cases here : location = other
        · subst here
          simp [held, get?_erase_file held]
        · simp [held, get?_erase_file held, here, Ne.symm here]

/-- Removing a file keeps the directories. -/
theorem sameDirectories_remove? (path : String) :
    tree.SameDirectories ((tree.remove? path).getD tree) := by
  refine ⟨?_, fun other => ?_⟩
  · unfold remove?
    split
    · rfl
    · split <;> rfl
  rw [get?_remove?]
  split
  · rename_i gone
    exact iff_of_false gone.2 (by simp)
  · exact Iff.rfl

/-- A change that fails leaves the tree alone. -/
theorem attempt_apply (change : FileTree → Option FileTree) (tree : FileTree) :
    attempt change tree = ((change tree).isSome, (change tree).getD tree) := by
  unfold attempt
  cases change tree <;> rfl

@[simp]
theorem run_writeText (path text : String) (tree : FileTree) :
    (FileStore.writeText path text : StateM FileTree Bool).run tree =
      ((tree.write? path text).isSome, (tree.write? path text).getD tree) :=
  attempt_apply (fun tree => tree.write? path text) tree

@[simp]
theorem run_move (source target : String) (tree : FileTree) :
    (FileStore.move source target : StateM FileTree Bool).run tree =
      ((tree.move? source target).isSome, (tree.move? source target).getD tree) :=
  attempt_apply (fun tree => tree.move? source target) tree

@[simp]
theorem run_removeFile (path : String) (tree : FileTree) :
    (FileStore.removeFile path : StateM FileTree Bool).run tree =
      ((tree.remove? path).isSome, (tree.remove? path).getD tree) :=
  attempt_apply (fun tree => tree.remove? path) tree

end RunReport.FileTree
