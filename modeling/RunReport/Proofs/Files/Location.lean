import Mathlib.Data.List.Basic
import Mathlib.Tactic.ByContra
import RunReport.Files.Tree
import RunReport.Proofs.Text.Lines

/-!
# Where paths lead

A path is followed through directories only, so where it leads depends on
nothing but where it starts and the directories of a tree, and more directories never
lead it elsewhere. A plain name joined to the path of a directory leads to the entry of
that name in the directory, as long as the joined path is not too long.
-/

namespace RunReport

namespace Path

/-- A name that leads from a directory to an entry of it. -/
def IsPlain (name : String) : Prop :=
  '/' ∉ name.toList ∧ name ≠ "" ∧ name ≠ "." ∧ name ≠ ".." ∧ isFileName name = true

instance : DecidablePred IsPlain := fun _ =>
  inferInstanceAs (Decidable (_ ∧ _ ∧ _ ∧ _ ∧ _))

/-- A name without slashes is its own only name. -/
theorem names_of_notMem {name : String} (h : '/' ∉ name.toList) : names name = [name] := by
  rw [names, Split.textParts, Split.parts_of_notMem h, List.map_singleton, String.ofList_toList]

/-- A name without slashes does not begin at the root. -/
theorem isAbsolute_of_notMem {name : String} (h : '/' ∉ name.toList) :
    isAbsolute name = false := by
  unfold isAbsolute
  cases chars : name.toList with
  | nil => simp
  | cons c cs =>
    rw [chars] at h
    have differs : c ≠ '/' := fun same => h (same ▸ List.mem_cons_self)
    simpa using differs

/-- What begins at the root still does when it is followed by more. -/
theorem isAbsolute_append {path rest : String} (h : path ≠ "") :
    isAbsolute (path ++ rest) = isAbsolute path := by
  have nonempty : path.toList ≠ [] := fun none => h (String.toList_inj.1 (none.trans rfl))
  unfold isAbsolute
  rw [String.toList_append]
  cases chars : path.toList with
  | nil => exact absurd chars nonempty
  | cons c cs => rfl

/-- The names of a name joined to a directory are those of the directory with
the name behind them, in place of an empty one if the directory ends in a
slash. -/
theorem names_join {directory name : String} (apart : '/' ∉ name.toList)
    (given : directory ≠ "") :
    (∃ before, names directory = before ++ [""] ∧
      names (join directory name) = before ++ [name]) ∨
    names (join directory name) = names directory ++ [name] := by
  have filled : directory.isEmpty = false := by simpa using given
  have last : names name = [name] := names_of_notMem apart
  unfold join
  rw [isAbsolute_of_notMem apart, filled]
  by_cases slash : directory.toList.getLast? = some '/'
  · obtain ⟨cs, hcs⟩ := List.getLast?_eq_some_iff.1 slash
    refine Or.inl ⟨(Split.parts '/' cs).map String.ofList, ?_, ?_⟩
    · rw [names, Split.textParts, hcs, Split.parts_append_cons, List.map_append]
      rfl
    · rw [if_neg (by simp), if_pos slash, ← last, names, names, Split.textParts,
        String.toList_append, hcs, List.append_assoc, List.singleton_append,
        Split.parts_append_cons, List.map_append]
      rfl
  · refine Or.inr ?_
    rw [if_neg (by simp), if_neg slash, ← last, names, names, names, Split.textParts,
      String.toList_append, String.toList_append]
    have mark : "/".toList = ['/'] := rfl
    rw [mark, List.append_assoc, List.singleton_append, Split.parts_append_cons, List.map_append]
    rfl

/-- A name joined to a directory begins at the root if the directory does. -/
theorem isAbsolute_join {directory name : String} (apart : '/' ∉ name.toList)
    (given : directory ≠ "") : isAbsolute (join directory name) = isAbsolute directory := by
  have filled : directory.isEmpty = false := by simpa using given
  unfold join
  rw [isAbsolute_of_notMem apart, filled, if_neg (by simp)]
  split
  · exact isAbsolute_append given
  · rw [String.append_assoc]
    exact isAbsolute_append given

end Path

namespace FileTree

/-- The root is always there. -/
theorem get?_nil (tree : FileTree) : tree.get? [] = some .directory := rfl

/-- What is not a directory is not the root. -/
theorem ne_nil_of_get? {tree : FileTree} {location : List String}
    (h : tree.get? location ≠ some .directory) : location ≠ [] :=
  fun root => h (root ▸ get?_nil tree)

/-- A name leads from directories only. -/
theorem step_of_not_directory {tree : FileTree} {location : List String} {name : String}
    (h : tree.get? location ≠ some .directory) : tree.step location name = none := if_pos h

/-- A plain name leads from a directory to its entry. -/
theorem step_plain {tree : FileTree} {location : List String} {name : String}
    (held : tree.get? location = some .directory) (plain : Path.IsPlain name) :
    tree.step location name = some (location ++ [name]) := by
  obtain ⟨_, notEmpty, notPoint, notPoints, short⟩ := plain
  unfold step
  rw [if_neg (by simp [held]), if_neg (by simp [notEmpty, notPoint]), if_neg notPoints,
    if_pos short]

/-- An empty name leads from a directory nowhere else. -/
theorem step_empty {tree : FileTree} {location : List String}
    (held : tree.get? location = some .directory) : tree.step location "" = some location := by
  unfold step
  rw [if_neg (by simp [held]), if_pos (Or.inl rfl)]

/-- A name leads on from a directory only. -/
theorem get?_of_step {tree : FileTree} {location next : List String} {name : String}
    (led : tree.step location name = some next) : tree.get? location = some .directory := by
  by_contra absent
  rw [step_of_not_directory absent] at led
  cases led

/-- The directories of one tree are directories of another, in which paths start at the
same place. -/
structure SubTree (tree other : FileTree) : Prop where
  /-- The working directory is the same. -/
  home : tree.workingDirectory = other.workingDirectory
  /-- Directories of the one are directories of the other. -/
  held : ∀ location, tree.get? location = some .directory → other.get? location = some .directory

/-- More directories do not lead a name elsewhere. -/
theorem SubTree.step {tree other : FileTree} (h : tree.SubTree other)
    {location next : List String} {name : String} (led : tree.step location name = some next) :
    other.step location name = some next := by
  have held := get?_of_step led
  unfold FileTree.step at led ⊢
  rw [if_neg (by simp [held])] at led
  rw [if_neg (by simp [h.held location held])]
  exact led

/-- More directories do not lead names elsewhere. -/
theorem SubTree.foldlM_step {tree other : FileTree} (h : tree.SubTree other)
    {names : List String} {location last : List String}
    (led : names.foldlM tree.step location = some last) :
    names.foldlM other.step location = some last := by
  induction names generalizing location with
  | nil => exact led
  | cons name names ih =>
    rw [List.foldlM_cons] at led ⊢
    obtain ⟨next, here, rest⟩ := Option.bind_eq_some_iff.1 led
    exact Option.bind_eq_some_iff.2 ⟨next, h.step here, ih rest⟩

/-- A path leads somewhere exactly when it is usable and its names lead there. -/
theorem locate_eq_some_iff {tree : FileTree} {path : String} {location : List String} :
    tree.locate path = some location ↔ Path.isUsable path = true ∧
      (Path.names path).foldlM tree.step (tree.start path) = some location := by
  unfold locate
  cases Path.isUsable path <;> simp

/-- More directories do not lead a path elsewhere. -/
theorem SubTree.locate {tree other : FileTree} (h : tree.SubTree other) {path : String}
    {location : List String} (led : tree.locate path = some location) :
    other.locate path = some location := by
  obtain ⟨usable, led⟩ := locate_eq_some_iff.1 led
  have same : tree.start path = other.start path := by rw [start, start, h.home]
  exact locate_eq_some_iff.2 ⟨usable, same ▸ h.foldlM_step led⟩

/-- Paths lead to the same places in trees with the same directories. -/
theorem locate_congr {tree other : FileTree} (h : tree.SubTree other) (h' : other.SubTree tree)
    (path : String) : tree.locate path = other.locate path := by
  cases here : tree.locate path with
  | some location => exact (h.locate here).symm
  | none =>
    cases there : other.locate path with
    | some location =>
      rw [h'.locate there] at here
      cases here
    | none => rfl

/-- Only a usable path leads anywhere. -/
theorem isUsable_of_locate {tree : FileTree} {path : String} {location : List String}
    (led : tree.locate path = some location) : Path.isUsable path = true :=
  (locate_eq_some_iff.1 led).1

/-- A name joined to the path of a directory leads where the name leads from there. -/
theorem locate_join_eq {tree : FileTree} {directory name : String} {location : List String}
    (led : tree.locate directory = some location) (apart : '/' ∉ name.toList)
    (usable : Path.isUsable (Path.join directory name) = true) :
    tree.locate (Path.join directory name) = tree.step location name := by
  obtain ⟨_, led⟩ := locate_eq_some_iff.1 led
  rw [locate, if_pos usable]
  by_cases empty : directory = ""
  · subst empty
    have alone : Path.join "" name = name := by simp [Path.join]
    have home : tree.start name = tree.start "" := by
      rw [start, start, Path.isAbsolute_of_notMem apart]
      rfl
    have nowhere : Path.names "" = [""] := rfl
    have stays : tree.step (tree.start "") "" = some location := by simpa [nowhere] using led
    rw [step_empty (get?_of_step stays)] at stays
    rw [alone, Path.names_of_notMem apart, home, Option.some.inj stays]
    simp
  · have same : tree.start (Path.join directory name) = tree.start directory := by
      rw [start, start, Path.isAbsolute_join apart empty]
    rw [same]
    rcases Path.names_join apart empty with ⟨before, closed, joined⟩ | joined
    · rw [closed, List.foldlM_append] at led
      obtain ⟨last, through, stays⟩ := Option.bind_eq_some_iff.1 led
      have led : tree.step last "" = some location := by simpa using stays
      rw [step_empty (get?_of_step led)] at led
      obtain rfl : last = location := Option.some.inj led
      simp [joined, List.foldlM_append, through]
    · simp [joined, List.foldlM_append, led]

/-- A plain name joined to the path of a directory leads to its entry there. -/
theorem locate_join {tree : FileTree} {directory name : String} {location : List String}
    (led : tree.locate directory = some location)
    (held : tree.get? location = some .directory) (plain : Path.IsPlain name)
    (usable : Path.isUsable (Path.join directory name) = true) :
    tree.locate (Path.join directory name) = some (location ++ [name]) := by
  rw [locate_join_eq led plain.1 usable, step_plain held plain]

end FileTree

end RunReport
