import RunReport.Command.Publication
import RunReport.Proofs.Files.Change

/-!
# Moves that are taken back

Files are moved to their places one after the other, and if one cannot be
moved, those moved before it are removed, as far as they can be. A file that was
replaced is not restored: the place of every file that is removed is empty, a file
that cannot be removed stays where it was moved, and all else is as before. If all of
them can be removed, the directory is therefore left as it was exactly when no file had
been there under one of these names. All of this holds whatever the reason for which a
move or a removal is refused.
-/

namespace RunReport

/-- Moves and removals of a store do to its files what they do to a tree,
except that each of them may be refused for any reason and then changes nothing. -/
structure FileStore.Follows {σ : Type} [FileStore (StateM σ)] (view : σ → FileTree) : Prop where
  /-- A move that succeeds is that of the tree. -/
  move_true : ∀ {source target : String} {state after : σ},
    (FileStore.move source target : StateM σ Bool).run state = (true, after) →
      (view state).move? source target = some (view after)
  /-- A move that is refused changes nothing. -/
  move_false : ∀ {source target : String} {state after : σ},
    (FileStore.move source target : StateM σ Bool).run state = (false, after) →
      view after = view state
  /-- A removal that succeeds is that of the tree. -/
  remove_true : ∀ {path : String} {state after : σ},
    (FileStore.removeFile path : StateM σ Bool).run state = (true, after) →
      (view state).remove? path = some (view after)
  /-- A removal that is refused changes nothing. -/
  remove_false : ∀ {path : String} {state after : σ},
    (FileStore.removeFile path : StateM σ Bool).run state = (false, after) →
      view after = view state

/-- A change that is attempted succeeds as that of the tree or changes nothing. -/
theorem FileTree.attempt_eq {changed : Option FileTree} {tree after : FileTree}
    {success : Bool} (h : (changed.isSome, changed.getD tree) = (success, after)) :
    if success then changed = some after else after = tree := by
  obtain ⟨rfl, rfl⟩ := Prod.mk.inj h
  cases changed <;> simp

/-- Files in memory do what the tree of them does. -/
theorem FileTree.follows_id : FileStore.Follows (id : FileTree → FileTree) where
  move_true {source target state after} moved := by
    rw [run_move] at moved
    exact attempt_eq moved
  move_false {source target state after} refused := by
    rw [run_move] at refused
    exact attempt_eq refused
  remove_true {path state after} removed := by
    rw [run_removeFile] at removed
    exact attempt_eq removed
  remove_false {path state after} refused := by
    rw [run_removeFile] at refused
    exact attempt_eq refused

/-- Where the files of the given names are in a directory. -/
def FileTree.places (tree : FileTree) (directory : String) (names : List String) :
    List (List String) := names.filterMap fun name => tree.locate (Path.join directory name)

/-- One more name has one more place, if it leads to one. -/
theorem FileTree.mem_places_concat {tree : FileTree} {directory name : String}
    {names : List String} {location : List String} :
    location ∈ tree.places directory (names ++ [name]) ↔
      location ∈ tree.places directory names ∨
        tree.locate (Path.join directory name) = some location := by
  simp [places]

namespace Publication

/-- What the tree has become when the files of the given names are moved. -/
structure Progress (start : FileTree) (source directory : String) (moved : List String)
    (now : FileTree) : Prop where
  /-- Nothing else has changed. -/
  outside : ∀ location, location ∉ start.places directory moved →
    location ∉ start.places source moved → now.get? location = start.get? location
  /-- The files are gone from where they were. -/
  taken : ∀ location ∈ start.places source moved, location ∉ start.places directory moved →
    now.get? location = none
  /-- Where a file was moved to, there it is, with the text that waited for it if
  nothing was moved over that. -/
  placed : ∀ location ∈ start.places directory moved, location ∉ start.places source moved →
    ∃ name ∈ moved, ∃ origin text, start.locate (Path.join directory name) = some location ∧
      start.locate (Path.join source name) = some origin ∧
      (origin ∉ start.places directory moved → start.get? origin = some (.file text)) ∧
      now.get? location = some (.file text)
  /-- The directories are the same. -/
  same : start.SameDirectories now

namespace Progress

variable {start now next : FileTree} {source directory name : String} {moved : List String}

/-- Nothing is moved at first. -/
theorem nil (start : FileTree) (source directory : String) :
    Progress start source directory [] start where
  outside _ _ _ := rfl
  taken _ h := absurd h (by simp [FileTree.places])
  placed _ h := absurd h (by simp [FileTree.places])
  same := .refl start

/-- One more file is moved. -/
theorem step (h : Progress start source directory moved now)
    (move : now.move? (Path.join source name) (Path.join directory name) = some next) :
    Progress start source directory (moved ++ [name]) next := by
  obtain ⟨origin, place, text, led, there, held, free, rfl⟩ := FileTree.move?_eq_some_iff.1 move
  have moves := FileTree.moves_put_erase held free
  have led' := (h.same.locate_eq _).trans led
  have there' := (h.same.locate_eq _).trans there
  have places : ∀ location, location ∈ start.places directory (moved ++ [name]) ↔
      location ∈ start.places directory moved ∨ location = place := fun location => by
    rw [FileTree.mem_places_concat, there', Option.some.injEq, @eq_comm _ place]
  have origins : ∀ location, location ∈ start.places source (moved ++ [name]) ↔
      location ∈ start.places source moved ∨ location = origin := fun location => by
    rw [FileTree.mem_places_concat, led', Option.some.injEq, @eq_comm _ origin]
  refine ⟨fun location apart kept => ?_, fun location gone apart => ?_, fun location put kept => ?_,
    h.same.trans moves.sameDirectories⟩
  · rw [places, not_or] at apart
    rw [origins, not_or] at kept
    rw [moves.found, if_neg apart.2, if_neg kept.2]
    exact h.outside location apart.1 kept.1
  · rw [places, not_or] at apart
    rw [moves.found, if_neg apart.2]
    by_cases here : location = origin
    · rw [if_pos here]
    · rw [if_neg here]
      exact h.taken location (((origins location).1 gone).resolve_right here) apart.1
  · rw [origins, not_or] at kept
    by_cases here : location = place
    · subst here
      refine ⟨name, by simp, origin, text, there', led', fun clear => ?_, ?_⟩
      · rw [places, not_or] at clear
        by_cases emptied : origin ∈ start.places source moved
        · exact absurd ((h.taken origin emptied clear.1).symm.trans held) (by simp)
        · exact (h.outside origin clear.1 emptied).symm.trans held
      · rw [moves.found, if_pos rfl]
    · obtain ⟨other, given, from', text', at', led', waited, stands⟩ :=
        h.placed location (((places location).1 put).resolve_right here) kept.1
      refine ⟨other, List.mem_append_left _ given, from', text', at', led', fun clear => ?_, ?_⟩
      · exact waited fun earlier => clear ((places from').2 (Or.inl earlier))
      · rwa [moves.found, if_neg here, if_neg kept.2]

end Progress

section Store

variable {σ : Type} [FileStore (StateM σ)] {view : σ → FileTree}

/-- Files of a directory are removed in turn, as far as they can be: the names, and those
of them whose removal succeeds. -/
inductive Removes (directory : String) : List String → List String → σ → σ → Prop
  /-- There is nothing to remove. -/
  | nil (state : σ) : Removes directory [] [] state state
  /-- A file is removed. -/
  | removed {name : String} {names removed : List String} {state next after : σ}
    (success : (FileStore.removeFile (Path.join directory name) : StateM σ Bool).run state =
      (true, next)) (later : Removes directory names removed next after) :
    Removes directory (name :: names) (name :: removed) state after
  /-- A file cannot be removed. -/
  | refused {name : String} {names removed : List String} {state next after : σ}
    (refusal : (FileStore.removeFile (Path.join directory name) : StateM σ Bool).run state =
      (false, next)) (later : Removes directory names removed next after) :
    Removes directory (name :: names) removed state after

/-- Files are removed in turn. -/
theorem exists_removes (directory : String) (names : List String) (state : σ) :
    ∃ removed, Removes directory names removed state
      ((removeAll (names.map (Path.join directory)) : StateM σ Unit).run state).2 := by
  induction names generalizing state with
  | nil => exact ⟨[], .nil state⟩
  | cons name names ih =>
    have step : ((removeAll ((name :: names).map (Path.join directory)) : StateM σ Unit).run
        state).2 = ((removeAll (names.map (Path.join directory)) : StateM σ Unit).run
          ((FileStore.removeFile (Path.join directory name) : StateM σ Bool).run state).2).2 := rfl
    rw [step]
    cases outcome : (FileStore.removeFile (Path.join directory name) : StateM σ Bool).run state with
    | mk success next =>
      obtain ⟨removed, later⟩ := ih next
      cases success with
      | true => exact ⟨name :: removed, .removed outcome later⟩
      | false => exact ⟨removed, .refused outcome later⟩

namespace Removes

variable {directory : String} {names removed : List String} {state after : σ}

/-- What is removed is among the names. -/
theorem subset (h : Removes directory names removed state after) : removed ⊆ names := by
  induction h with
  | nil => exact List.Subset.refl _
  | removed _ _ ih => exact List.cons_subset_cons _ ih
  | refused _ _ ih => exact List.subset_cons_of_subset _ ih

/-- Removed files are gone, and all else is as before. -/
theorem get?_eq (h : Removes directory names removed state after)
    (follows : FileStore.Follows view) (location : List String) :
    (view after).get? location =
      if location ∈ (view state).places directory removed then none
      else (view state).get? location := by
  induction h with
  | nil => simp [FileTree.places]
  | @removed name names removed state next after success _ ih =>
    have gone := follows.remove_true success
    have same : (view state).SameDirectories (view next) := by
      have kept := @FileTree.sameDirectories_remove? (view state) (Path.join directory name)
      rwa [gone] at kept
    have places : (view next).places directory removed = (view state).places directory removed :=
      List.filterMap_congr fun name _ => (same.locate_eq _).symm
    obtain ⟨place, text, led, held, erased⟩ := FileTree.remove?_eq_some_iff.1 gone
    have first : location ∈ (view state).places directory (name :: removed) ↔
        location ∈ (view state).places directory removed ∨ location = place := by
      simp [FileTree.places, led, eq_comm, or_comm]
    rw [ih, places, erased, FileTree.get?_erase_file held]
    simp only [first]
    by_cases gone : location ∈ (view state).places directory removed
    · simp [gone]
    · by_cases here : location = place <;> simp [gone, here]
  | @refused name names removed state next after refusal _ ih =>
    rw [ih, follows.remove_false refusal]

end Removes

/-- The next file is moved, or what was moved before is removed. -/
theorem run_moveAll_cons (source directory : String) (moved : List String) (name : String)
    (rest : List String) (state : σ) :
    (moveAll source directory moved (name :: rest) : StateM σ (Except Fatal Unit)).run state =
      match (FileStore.move (Path.join source name) (Path.join directory name) :
          StateM σ Bool).run state with
      | (true, next) => (moveAll source directory (moved ++ [Path.join directory name]) rest :
          StateM σ (Except Fatal Unit)).run next
      | (false, next) => (.error (.output (Path.join directory name)),
          ((removeAll moved : StateM σ Unit).run next).2) := by
  rw [moveAll, StateT.run_bind]
  cases (FileStore.move (Path.join source name) (Path.join directory name) :
      StateM σ Bool).run state with
  | mk success next => cases success <;> rfl

/-- Moves go on until one is refused, and what was moved before is removed. -/
theorem progress_of_moveAll (follows : FileStore.Follows view) {start : FileTree}
    {source directory : String} {moved names : List String} {state after : σ}
    {result : Except Fatal Unit} (progress : Progress start source directory moved (view state))
    (h : (moveAll source directory (moved.map (Path.join directory)) names :
      StateM σ (Except Fatal Unit)).run state = (result, after)) :
    (result = .ok () ∧ Progress start source directory (moved ++ names) (view after)) ∨
    ∃ before refused rest now, names = before ++ refused :: rest ∧
      result = .error (.output (Path.join directory refused)) ∧
      Progress start source directory (moved ++ before) (view now) ∧
      after = ((removeAll
        ((moved ++ before).map (Path.join directory)) : StateM σ Unit).run now).2 := by
  induction names generalizing moved state with
  | nil =>
    obtain ⟨rfl, rfl⟩ := Prod.mk.inj h
    exact Or.inl ⟨rfl, by rwa [List.append_nil]⟩
  | cons name names ih =>
    rw [run_moveAll_cons] at h
    split at h
    · rename_i next success
      have later := progress.step (follows.move_true success)
      rw [← List.map_singleton, ← List.map_append] at h
      rcases ih later h with ⟨done, last⟩ | ⟨before, refused, rest, now, split, done, last, back⟩
      · rw [List.append_assoc] at last
        exact Or.inl ⟨done, last⟩
      · rw [List.append_assoc] at last back
        exact Or.inr ⟨name :: before, refused, rest, now, by rw [split, List.cons_append], done,
          last, back⟩
    · rename_i next refusal
      obtain ⟨rfl, rfl⟩ := Prod.mk.inj h
      refine Or.inr ⟨[], name, names, next, rfl, rfl, ?_, by rw [List.append_nil]⟩
      rw [List.append_nil, follows.move_false refusal]
      exact progress

/-- What is left when the files of some names were moved from one directory to another and
some of them were removed again. -/
structure TakenBack (start : FileTree) (source directory : String) (moved removed : List String)
    (after : FileTree) : Prop where
  /-- Where a file was removed, nothing is. -/
  gone : ∀ location ∈ start.places directory removed, after.get? location = none
  /-- Where a file was moved to and not removed, there it still is, with the text that
  waited for it if nothing was moved over that. -/
  stays : ∀ location ∈ start.places directory moved, location ∉ start.places directory removed →
    location ∉ start.places source moved →
    ∃ name ∈ moved, ∃ origin text, start.locate (Path.join directory name) = some location ∧
      start.locate (Path.join source name) = some origin ∧
      (origin ∉ start.places directory moved → start.get? origin = some (.file text)) ∧
      after.get? location = some (.file text)
  /-- Where the files came from, nothing is. -/
  taken : ∀ location ∈ start.places source moved, location ∉ start.places directory moved →
    after.get? location = none
  /-- All else is as before. -/
  others : ∀ location, location ∉ start.places directory moved →
    location ∉ start.places source moved → after.get? location = start.get? location

/-- When moved files are removed again as far as they can be, they are taken back. -/
theorem Progress.takenBack {start : FileTree} {source directory : String}
    {moved removed : List String} {now after : σ}
    (h : Progress start source directory moved (view now))
    (follows : FileStore.Follows view) (removes : Removes directory moved removed now after) :
    TakenBack start source directory moved removed (view after) := by
  have places : (view now).places directory removed = start.places directory removed :=
    List.filterMap_congr fun name _ => (h.same.locate_eq _).symm
  have found := removes.get?_eq follows
  simp only [places] at found
  have fewer : start.places directory removed ⊆ start.places directory moved :=
    fun location given => by
      obtain ⟨name, listed, led⟩ := List.mem_filterMap.1 given
      exact List.mem_filterMap.2 ⟨name, removes.subset listed, led⟩
  refine ⟨fun location given => ?_, fun location given kept apart => ?_,
    fun location given apart => ?_, fun location apart kept => ?_⟩
  · rw [found, if_pos given]
  · obtain ⟨name, listed, origin, text, led, from', waited, stands⟩ := h.placed location given apart
    exact ⟨name, listed, origin, text, led, from', waited, by rw [found, if_neg kept, stands]⟩
  · rw [found, if_neg fun gone => apart (fewer gone), h.taken location given apart]
  · rw [found, if_neg fun gone => apart (fewer gone), h.outside location apart kept]

/-- Where all files that were moved are removed again, what was there is as it was exactly
when no file had been in the places that they were moved to. -/
theorem TakenBack.unchanged_iff {start after : FileTree} {source directory : String}
    {moved removed : List String} (h : TakenBack start source directory moved removed after)
    (all : start.places directory moved ⊆ start.places directory removed) :
    (∀ location, location ∉ start.places source moved →
        after.get? location = start.get? location) ↔
      ∀ location ∈ start.places directory moved,
        location ∉ start.places source moved → start.get? location = none := by
  constructor
  · intro unchanged location here apart
    exact (unchanged location apart).symm.trans (h.gone location (all here))
  · intro fresh location apart
    by_cases here : location ∈ start.places directory moved
    · exact (h.gone location (all here)).trans (fresh location here apart).symm
    · exact h.others location here apart

/-- If a file cannot be moved, whatever the reason, those of the names before it are
removed in turn, as far as they can be: the place of each that is removed is empty, each
that cannot be removed stands where it was moved, where they came from nothing is, and all
else is as before. If all of them are removed, the directory is left as it was exactly when
none of these places held a file before. -/
theorem places_empty_of_refused_move (follows : FileStore.Follows view)
    {source directory : String} {names : List String} {state after : σ} {cause : Fatal}
    (h : (moveAll source directory [] names : StateM σ (Except Fatal Unit)).run state =
      (.error cause, after)) :
    ∃ moved refused rest removed now, names = moved ++ refused :: rest ∧
      cause = .output (Path.join directory refused) ∧
      Removes directory moved removed now after ∧
      TakenBack (view state) source directory moved removed (view after) ∧
      ((view state).places directory moved ⊆ (view state).places directory removed →
        ((∀ location, location ∉ (view state).places source moved →
            (view after).get? location = (view state).get? location) ↔
          ∀ location ∈ (view state).places directory moved,
            location ∉ (view state).places source moved →
              (view state).get? location = none)) := by
  have start := Progress.nil (view state) source directory
  rcases progress_of_moveAll follows start h with ⟨success, _⟩ |
    ⟨moved, refused, rest, now, split, named, progress, rfl⟩
  · cases success
  rw [List.nil_append] at progress ⊢
  obtain ⟨removed, removes⟩ := exists_removes directory moved now
  have back := progress.takenBack follows removes
  exact ⟨moved, refused, rest, removed, now, split, Except.error.inj named, removes, back,
    back.unchanged_iff⟩

end Store

/-- A directory with an older file under the first of two staged names, and a
directory that occupies the second. -/
def occupied : FileTree :=
  { entries := [(["out"], .directory), (["out", "staged"], .directory),
      (["out", "staged", "a"], .file "new"), (["out", "staged", "b"], .file "new"),
      (["out", "a"], .file "old"), (["out", "b"], .directory)] }

/-- Moving both names is refused, and nothing is left of the older file. -/
theorem run_moveAll_occupied : ∃ cause after,
    (moveAll "out/staged" "out" [] ["a", "b"] : StateM FileTree (Except Fatal Unit)).run
      occupied = (.error cause, after) ∧ after.get? ["out", "a"] = none := by
  have fails : ((moveAll "out/staged" "out" [] ["a", "b"] :
      StateM FileTree (Except Fatal Unit)).run occupied).1.isOk = false := by decide +kernel
  have lost : ((moveAll "out/staged" "out" [] ["a", "b"] :
      StateM FileTree (Except Fatal Unit)).run occupied).2.get? ["out", "a"] = none := by
    decide +kernel
  revert fails lost
  generalize (moveAll "out/staged" "out" [] ["a", "b"] :
    StateM FileTree (Except Fatal Unit)).run occupied = outcome
  intro fails lost
  obtain ⟨result, after⟩ := outcome
  cases result with
  | ok done => cases fails
  | error cause => exact ⟨cause, after, rfl, lost⟩

/-- In the occupied directory the name before the refused one is taken back. -/
theorem places_empty_in_occupied : ∃ cause after,
    (moveAll "out/staged" "out" [] ["a", "b"] : StateM FileTree (Except Fatal Unit)).run
        occupied = (.error cause, after) ∧
      ∃ moved refused rest removed, ∃ now : FileTree, ["a", "b"] = moved ++ refused :: rest ∧
        cause = .output (Path.join "out" refused) ∧
        Removes "out" moved removed now after ∧
        TakenBack occupied "out/staged" "out" moved removed after ∧
        (occupied.places "out" moved ⊆ occupied.places "out" removed →
          ((∀ location, location ∉ occupied.places "out/staged" moved →
              after.get? location = occupied.get? location) ↔
            ∀ location ∈ occupied.places "out" moved,
              location ∉ occupied.places "out/staged" moved → occupied.get? location = none)) := by
  obtain ⟨cause, after, run, _⟩ := run_moveAll_occupied
  exact ⟨cause, after, run, places_empty_of_refused_move FileTree.follows_id run⟩

/-- An older file is lost although the call has failed. -/
theorem older_file_lost_in_occupied : ∃ cause after,
    (moveAll "out/staged" "out" [] ["a", "b"] : StateM FileTree (Except Fatal Unit)).run
        occupied = (.error cause, after) ∧
      occupied.get? ["out", "a"] = some (.file "old") ∧ after.get? ["out", "a"] = none := by
  obtain ⟨cause, after, run, lost⟩ := run_moveAll_occupied
  exact ⟨cause, after, run, by decide +kernel, lost⟩

end Publication

end RunReport
