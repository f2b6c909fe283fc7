import Mathlib.Data.List.Induction
import RunReport.Proofs.Files.Change
import RunReport.Proofs.Number.Digits

/-!
# Directories that are created

Creating directories changes nothing that is there and adds nothing but
directories, each in a directory. A directory for staging is a new entry of the
directory it is created in, under a name that nothing had; so nothing is in it,
and taking it away with all that came into it leaves the rest as it is.
-/

namespace RunReport.FileTree

variable {tree after : FileTree}

/-- Every entry stands in a directory. -/
def Rooted (tree : FileTree) : Prop :=
  ∀ entry ∈ tree.entries, tree.get? entry.1.dropLast = some .directory

instance : DecidablePred Rooted := fun tree =>
  inferInstanceAs (Decidable (∀ entry ∈ tree.entries, tree.get? entry.1.dropLast = _))

/-- All that was there is unchanged, and all that is new is a directory. -/
structure Grown (tree after : FileTree) : Prop where
  /-- The working directory stays. -/
  home : tree.workingDirectory = after.workingDirectory
  /-- What is new is a directory where nothing was. -/
  held : ∀ location, after.get? location = tree.get? location ∨
    tree.get? location = none ∧ after.get? location = some .directory

namespace Grown

variable {last : FileTree}

theorem refl (tree : FileTree) : tree.Grown tree := ⟨rfl, fun _ => Or.inl rfl⟩

theorem trans (h : tree.Grown after) (h' : after.Grown last) : tree.Grown last := by
  refine ⟨h.home.trans h'.home, fun location => ?_⟩
  rcases h'.held location with same | ⟨absent, new⟩
  · rcases h.held location with same' | ⟨absent', new'⟩
    · exact Or.inl (same.trans same')
    · exact Or.inr ⟨absent', same.trans new'⟩
  · rcases h.held location with same' | ⟨_, new'⟩
    · exact Or.inr ⟨same'.symm.trans absent, new⟩
    · exact absurd (absent.symm.trans new') (by simp)

/-- What was there is still there. -/
theorem get?_eq_some (h : tree.Grown after) {location : List String} {entry : FileEntry}
    (held : tree.get? location = some entry) : after.get? location = some entry := by
  rcases h.held location with same | ⟨absent, _⟩
  · exact same.trans held
  · exact absurd (absent.symm.trans held) (by simp)

/-- No directory is lost. -/
theorem subTree (h : tree.Grown after) : tree.SubTree after :=
  ⟨h.home, fun _ held => h.get?_eq_some held⟩

end Grown

/-- What is absent is not the root. -/
theorem ne_nil_of_none {location : List String} (absent : tree.get? location = none) :
    location ≠ [] := @ne_nil_of_get? tree location (by simp [absent])

/-- A tree has grown by a directory where nothing was. -/
theorem grown_put {location : List String} (absent : tree.get? location = none) :
    tree.Grown (tree.put location .directory) := by
  refine ⟨rfl, fun other => ?_⟩
  rw [get?_put (ne_nil_of_none absent)]
  by_cases here : other = location
  · subst here
    exact Or.inr ⟨absent, if_pos rfl⟩
  · exact Or.inl (if_neg here)

/-- What a tree holds at a location, if not at the root, is one of its entries. -/
theorem mem_entries_of_get? {location : List String} {entry : FileEntry}
    (proper : location ≠ []) (held : tree.get? location = some entry) :
    (location, entry) ∈ tree.entries := by
  rw [get?, if_neg proper] at held
  obtain ⟨before, after, split, _⟩ := List.lookup_eq_some_iff.1 held
  exact split ▸ List.mem_append_right _ List.mem_cons_self

/-- An entry of a tree that has been added to is new or was there before. -/
theorem mem_entries_put {location other : List String} {entry found : FileEntry}
    (h : (other, found) ∈ (tree.put location entry).entries) :
    other = location ∨ (other, found) ∈ tree.entries := by
  rcases List.mem_cons.1 h with new | old
  · exact Or.inl (Prod.mk.inj new).1
  · exact Or.inr (List.mem_filter.1 old).1

namespace Rooted

/-- What holds an entry is a directory. -/
theorem get?_of_concat (h : tree.Rooted) {location : List String} {name : String}
    {entry : FileEntry} (held : tree.get? (location ++ [name]) = some entry) :
    tree.get? location = some .directory := by
  have parent := h _ (mem_entries_of_get? (by simp) held)
  rwa [List.dropLast_concat] at parent

/-- Nothing is below a location where nothing is. -/
theorem get?_eq_none (h : tree.Rooted) {location : List String}
    (absent : tree.get? location = none) (names : List String) :
    tree.get? (location ++ names) = none := by
  induction names using List.reverseRecOn with
  | nil => rwa [List.append_nil]
  | append_singleton names name ih =>
    rw [← List.append_assoc]
    cases held : tree.get? (location ++ names ++ [name]) with
    | none => rfl
    | some entry => exact absurd (ih.symm.trans (h.get?_of_concat held)) (by simp)

/-- A directory may be added to a directory. -/
theorem put (h : tree.Rooted) {location : List String} (absent : tree.get? location = none)
    (parent : tree.get? location.dropLast = some .directory) :
    (tree.put location .directory).Rooted := by
  have grown := grown_put absent
  rintro ⟨other, found⟩ held
  rcases mem_entries_put held with rfl | old
  · exact grown.get?_eq_some parent
  · exact grown.get?_eq_some (h _ old)

/-- A directory stands in a directory. -/
theorem get?_dropLast (h : tree.Rooted) {location : List String}
    (held : tree.get? location = some .directory) :
    tree.get? location.dropLast = some .directory := by
  cases location using List.reverseRecOn with
  | nil => exact held
  | append_singleton names name =>
    rw [List.dropLast_concat]
    exact h.get?_of_concat held

/-- A name leads from a directory to an entry of one. -/
theorem get?_dropLast_of_step (h : tree.Rooted) {location next : List String} {name : String}
    (led : tree.step location name = some next) :
    tree.get? next.dropLast = some .directory := by
  have held := get?_of_step led
  unfold FileTree.step at led
  rw [if_neg (by simp [held])] at led
  split at led
  · exact Option.some.inj led ▸ h.get?_dropLast held
  split at led
  · exact Option.some.inj led ▸ h.get?_dropLast (h.get?_dropLast held)
  split at led
  · rw [← Option.some.inj led, List.dropLast_concat]
    exact held
  · cases led

end Rooted

/-- Creating directories, as far as they can be created, adds directories where
nothing was, each in a directory. -/
theorem grown_makeDirectories (rooted : tree.Rooted) (location names : List String) :
    tree.Grown (tree.makeDirectories location names).1 ∧
      (tree.makeDirectories location names).1.Rooted := by
  induction names generalizing tree location with
  | nil => exact ⟨.refl tree, rooted⟩
  | cons name names ih =>
    unfold makeDirectories
    split
    · exact ⟨.refl tree, rooted⟩
    rename_i next led
    split
    · exact ih rooted next
    · exact ⟨.refl tree, rooted⟩
    rename_i absent
    split
    · exact ⟨.refl tree, rooted⟩
    · obtain ⟨grown, still⟩ := ih (rooted.put absent (rooted.get?_dropLast_of_step led)) next
      exact ⟨(grown_put absent).trans grown, still⟩

/-- Creating the directories of a path adds directories where nothing was, each
in a directory. -/
theorem grown_withDirectories (rooted : tree.Rooted) (path : String) :
    tree.Grown (tree.withDirectories path).1 ∧ (tree.withDirectories path).1.Rooted := by
  unfold withDirectories
  split
  · exact ⟨.refl tree, rooted⟩
  split
  · exact grown_makeDirectories rooted _ _
  · exact ⟨.refl tree, rooted⟩

/-- A directory for staging is created in a directory. -/
structure Stages (tree : FileTree) (path : String) (location : List String) (name staging : String)
    (after : FileTree) : Prop where
  /-- The path leads to the location. -/
  led : tree.locate path = some location
  /-- A directory is there. -/
  held : tree.get? location = some .directory
  /-- The name begins with a point. -/
  hidden : name.toList.head? = some '.'
  /-- Nothing had the name. -/
  fresh : tree.get? (location ++ [name]) = none
  /-- The new directory's path leads to the name. -/
  place : after.locate staging = some (location ++ [name])
  /-- Only the new directory is new. -/
  after_eq : after = tree.put (location ++ [name]) .directory

namespace Stages

variable {path name staging : String} {location : List String}

/-- The new directory is there, and all else is as before. -/
theorem get?_eq (h : tree.Stages path location name staging after) (other : List String) :
    after.get? other = if other = location ++ [name] then some .directory else tree.get? other := by
  rw [h.after_eq, get?_put (ne_nil_of_none h.fresh)]

/-- No directory is lost. -/
theorem subTree (h : tree.Stages path location name staging after) : tree.SubTree after :=
  h.after_eq ▸ (grown_put h.fresh).subTree

/-- Nothing was within the new directory. -/
theorem get?_within (h : tree.Stages path location name staging after) (rooted : tree.Rooted)
    {other : List String} (within : location ++ [name] <+: other) : tree.get? other = none := by
  obtain ⟨names, rfl⟩ := within
  exact rooted.get?_eq_none h.fresh names

/-- Nothing is in the new directory. -/
theorem get?_entry (h : tree.Stages path location name staging after) (rooted : tree.Rooted)
    (entry : String) : after.get? (location ++ [name] ++ [entry]) = none := by
  have longer : location ++ [name] ++ [entry] ≠ location ++ [name] :=
    fun same => by simpa using congrArg List.length same
  rw [h.get?_eq, if_neg longer]
  exact h.get?_within rooted (List.prefix_append _ _)

/-- With the new directory and all within it taken away again, nothing has
changed where nothing else has. -/
theorem get?_eraseBelow (h : tree.Stages path location name staging after) (rooted : tree.Rooted)
    {last : FileTree} {other : List String}
    (same : ¬ location ++ [name] <+: other → last.get? other = after.get? other) :
    (last.eraseBelow (location ++ [name])).get? other = tree.get? other := by
  rw [FileTree.get?_eraseBelow (ne_nil_of_none h.fresh)]
  by_cases within : location ++ [name] <+: other
  · rw [if_pos (List.isPrefixOf_iff_prefix.2 within), h.get?_within rooted within]
  · have differs : other ≠ location ++ [name] := fun same => within (same ▸ List.prefix_rfl)
    rw [if_neg (by simpa using within), same within, h.get?_eq, if_neg differs]

end Stages

/-- A directory for staging has a name that begins with a point. -/
theorem head?_stagingName (n : Nat) : (stagingName n).toList.head? = some '.' := by
  rw [stagingName, String.toList_append]
  rfl

/-- The name of a directory for staging has no slash. -/
theorem slash_notMem_stagingName (n : Nat) : '/' ∉ (stagingName n).toList := by
  rw [stagingName, String.toList_append, List.mem_append, Digits.text]
  rintro (front | digit)
  · revert front
    decide
  · rw [String.toList_ofList] at digit
    have digit := Digits.isDigit_of_mem_numeral digit
    revert digit
    decide

/-- The name of a directory for staging is longer than those that stand for a
directory. -/
theorem stagingName_ne {text : String} (short : text.toList.length < 3) (n : Nat) :
    stagingName n ≠ text := by
  rintro rfl
  rw [stagingName, String.toList_append, List.length_append] at short
  have long : (".benchreport-".toList).length = 13 := rfl
  omega

/-- Where the name of a directory for staging leads, if it leads anywhere. -/
theorem step_stagingName {location place : List String} {n : Nat}
    (held : tree.get? location = some .directory)
    (led : tree.step location (stagingName n) = some place) :
    place = location ++ [stagingName n] := by
  have empty := @stagingName_ne "" (by decide) n
  have point := @stagingName_ne "." (by decide) n
  have points := @stagingName_ne ".." (by decide) n
  unfold step at led
  rw [if_neg (by simp [held]), if_neg (by simp [empty, point]), if_neg points] at led
  split at led
  · exact (Option.some.inj led).symm
  · cases led

/-- What a directory for staging is, if one can be created. -/
theorem stages_of_withStaging? {path staging : String}
    (h : tree.withStaging? path = some (after, staging)) :
    ∃ location name, tree.Stages path location name staging after := by
  obtain ⟨location, led, h⟩ := Option.bind_eq_some_iff.1 h
  split at h
  · cases h
  rename_i held
  have held : tree.get? location = some .directory := by simpa using held
  obtain ⟨name, found, h⟩ := Option.bind_eq_some_iff.1 h
  obtain ⟨place, there, h⟩ := Option.bind_eq_some_iff.1 h
  obtain ⟨rfl, rfl⟩ := Prod.mk.inj (Option.some.inj h)
  obtain ⟨n, _, rfl⟩ := List.mem_map.1 (List.mem_of_find?_eq_some found)
  have unused := List.find?_some found
  have fresh : tree.get? (location ++ [stagingName n]) = none := Option.isNone_iff_eq_none.1 unused
  have grown := grown_put fresh
  have joined := locate_join_eq led (slash_notMem_stagingName n) (isUsable_of_locate there)
  obtain rfl := step_stagingName held (joined.symm.trans there)
  exact ⟨location, stagingName n, led, held, head?_stagingName n, fresh,
    grown.subTree.locate there, rfl⟩

@[simp]
theorem run_createDirectories (path : String) (tree : FileTree) :
    (FileStore.createDirectories path : StateM FileTree Bool).run tree =
      ((tree.withDirectories path).2, (tree.withDirectories path).1) := rfl

@[simp]
theorem run_createStaging (path : String) (tree : FileTree) :
    (FileStore.createStaging path : StateM FileTree (Option String)).run tree =
      ((tree.withStaging? path).map (·.2), ((tree.withStaging? path).map (·.1)).getD tree) := by
  simp only [FileStore.createStaging, StateT.run]
  cases tree.withStaging? path <;> rfl

@[simp]
theorem run_removeTree (path : String) (tree : FileTree) :
    (FileStore.removeTree path : StateM FileTree Unit).run tree =
      ((), ((tree.locate path).map tree.eraseBelow).getD tree) :=
  congrArg (fun found : Bool × FileTree => ((), found.2))
    (attempt_apply (fun tree => (tree.locate path).map tree.eraseBelow) tree)

end RunReport.FileTree
