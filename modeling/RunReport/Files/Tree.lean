import RunReport.Files.Basic

/-!
# Files in memory

A tree of files kept as a list of locations and what is found there. A location is the
list of names that lead to it from the root, which is the empty location and always
there. An absolute path starts at the root and every other one in the working
directory. A path is followed name by name, and every name but the last must lead to
a directory; two points lead to the directory above, and from the root nowhere else.
-/

namespace RunReport

/-- What is found at a location. -/
inductive FileEntry where
  /-- A file and its text. -/
  | file (text : String)
  /-- A directory. -/
  | directory
  deriving DecidableEq

/-- Files and directories by location. -/
structure FileTree where
  /-- What is found where; at most one entry for a location. -/
  entries : List (List String × FileEntry) := []
  /-- Where paths start that are not absolute. -/
  workingDirectory : List String := []
  deriving DecidableEq

namespace FileTree

/-- What is found at a location. -/
def get? (tree : FileTree) (location : List String) : Option FileEntry :=
  if location = [] then some .directory else tree.entries.lookup location

/-- The tree without the locations that fail a test. -/
def restrict (tree : FileTree) (keep : List String → Bool) : FileTree :=
  { tree with entries := tree.entries.filter fun entry => keep entry.1 }

/-- The tree without a location. -/
def erase (tree : FileTree) (location : List String) : FileTree :=
  tree.restrict fun other => other ≠ location

/-- The tree without a location and all below it. -/
def eraseBelow (tree : FileTree) (location : List String) : FileTree :=
  tree.restrict fun other => !location.isPrefixOf other

/-- The tree with an entry at a location, in place of what was there. -/
def put (tree : FileTree) (location : List String) (entry : FileEntry) : FileTree :=
  { tree with entries := (location, entry) :: (tree.erase location).entries }

/-- A restricted tree holds what was held at the locations that pass. -/
theorem lookup_restrict (tree : FileTree) (keep : List String → Bool) (location : List String) :
    (tree.restrict keep).entries.lookup location =
      if keep location then tree.entries.lookup location else none := by
  rcases tree with ⟨entries, workingDirectory⟩
  induction entries with
  | nil => simp [restrict]
  | cons entry rest ih =>
    rcases entry with ⟨other, found⟩
    simp only [restrict] at ih ⊢
    by_cases same : location = other
    · subst same
      by_cases kept : keep location <;> simp [kept, ih]
    · have differs : (location == other) = false := by simpa using same
      by_cases kept : keep other <;> simp [kept, differs, ih, List.lookup_cons]

/-- An erased location holds nothing, and all others are as before. -/
theorem get?_erase {location : List String} (proper : location ≠ [])
    (tree : FileTree) (other : List String) :
    (tree.erase location).get? other = if other = location then none else tree.get? other := by
  unfold get? erase
  rw [lookup_restrict]
  by_cases same : other = location
  · subst same
    simp [proper]
  · simp [same]

/-- An entry that is put is found, and all others are as before. -/
theorem get?_put {location : List String} (proper : location ≠ [])
    (tree : FileTree) (entry : FileEntry) (other : List String) :
    (tree.put location entry).get? other =
      if other = location then some entry else tree.get? other := by
  by_cases same : other = location
  · subst same
    simp [get?, put, proper]
  · have differs : (other == location) = false := by simpa using same
    have erased := get?_erase proper tree other
    simp only [get?, same, if_false] at erased ⊢
    simpa [put, List.lookup_cons, differs] using erased

/-- Nothing is left below a location, and all else is as before. -/
theorem get?_eraseBelow {location : List String} (proper : location ≠ [])
    (tree : FileTree) (other : List String) :
    (tree.eraseBelow location).get? other =
      if location.isPrefixOf other then none else tree.get? other := by
  unfold get? eraseBelow
  rw [lookup_restrict]
  by_cases root : other = []
  · subst root
    simp [proper]
  · by_cases below : location.isPrefixOf other <;> simp [root, below]

/-- Where a name leads from a location, which must be a directory. -/
def step (tree : FileTree) (location : List String) (name : String) : Option (List String) :=
  if tree.get? location ≠ some .directory then none
  else if name = "" ∨ name = "." then some location
  else if name = ".." then some location.dropLast
  else if Path.isFileName name then some (location ++ [name])
  else none

/-- Where a path starts. -/
def start (tree : FileTree) (path : String) : List String :=
  if Path.isAbsolute path then [] else tree.workingDirectory

/-- The location that a path leads to, whether or not something is there. -/
def locate (tree : FileTree) (path : String) : Option (List String) :=
  if Path.isUsable path then (Path.names path).foldlM tree.step (tree.start path) else none

/-- The text of the file at a path. -/
def text? (tree : FileTree) (path : String) : Option String :=
  match (tree.locate path).bind tree.get? with
  | some (.file text) => some text
  | _ => none

/-- The tree after a text is written to a path. -/
def write? (tree : FileTree) (path text : String) : Option FileTree :=
  match tree.locate path with
  | none => none
  | some location =>
    if tree.get? location = some .directory then none else some (tree.put location (.file text))

/-- The tree after a file is moved. -/
def move? (tree : FileTree) (source target : String) : Option FileTree :=
  match tree.text? source, tree.locate source with
  | some text, some location => (tree.erase location).write? target text
  | _, _ => none

/-- The tree after the file at a path is removed. -/
def remove? (tree : FileTree) (path : String) : Option FileTree :=
  match tree.locate path with
  | none => none
  | some location => match tree.get? location with
    | some (.file _) => some (tree.erase location)
    | _ => none

/-- The tree after the names given lead from a location to directories, as far
as they can be created, and whether all could. What a final point stands for
must be there already. -/
def makeDirectories (tree : FileTree) (location : List String) : List String → FileTree × Bool
  | [] => (tree, true)
  | name :: rest =>
    match tree.step location name with
    | none => (tree, false)
    | some next => match tree.get? next with
      | some .directory => makeDirectories tree next rest
      | some (.file _) => (tree, false)
      | none =>
        if "." ∈ rest ∧ rest.all (fun other => other = "" || other = ".") then (tree, false)
        else makeDirectories (tree.put next .directory) next rest

/-- The tree with the directories of a path, and whether all could be created. For the
empty path there is nothing to create. -/
def withDirectories (tree : FileTree) (path : String) : FileTree × Bool :=
  if path.isEmpty then (tree, true)
  else if Path.isUsable path then tree.makeDirectories (tree.start path) (Path.names path)
  else (tree, false)

/-- The tree with a directory of an unused name within the directory at a
path, and the new directory's path, which must not be too long. -/
def withStaging? (tree : FileTree) (path : String) : Option (FileTree × String) := do
  let location ← tree.locate path
  if tree.get? location ≠ some .directory then none
  else
    let name ← ((List.range (tree.entries.length + 1)).map stagingName).find? fun name =>
      (tree.get? (location ++ [name])).isNone
    let place ← tree.locate (Path.join path name)
    some (tree.put place .directory, Path.join path name)

/-- A change that may fail, as an action that leaves the tree alone if it does. -/
def attempt (change : FileTree → Option FileTree) : StateM FileTree Bool := fun tree =>
  match change tree with
  | some tree => (true, tree)
  | none => (false, tree)

/-- Files in memory, looked at and changed. -/
instance : FileStore (StateM FileTree) where
  isFile path := fun tree => ((tree.text? path).isSome, tree)
  readText path := fun tree => (tree.text? path, tree)
  writeText path text := attempt fun tree => tree.write? path text
  createDirectories path := fun tree => (tree.withDirectories path).swap
  createStaging path := fun tree => match tree.withStaging? path with
    | some (tree, staging) => (some staging, tree)
    | none => (none, tree)
  move source target := attempt fun tree => tree.move? source target
  removeFile path := attempt fun tree => tree.remove? path
  removeTree path := do
    let _ ← attempt fun tree => (tree.locate path).map tree.eraseBelow

end FileTree

end RunReport
