import RunReport.Proofs.Command.Rollback
import RunReport.Proofs.Files.Action
import RunReport.Proofs.Files.Directory

/-!
# Files that are published

A directory that can be created and written, and in which no directory has one
of the names of the files, receives the files exactly when their names are
distinct. Each file then stands there with its text, and nothing else has
changed but that the directory is there: what was written for staging is gone.
If a name occurs twice, the file is moved away the first time, so the second
move finds nothing and the call is given up.
-/

namespace RunReport

/-- Names joined to the path of a directory lead to its entries. -/
def FileTree.Reaches (tree : FileTree) (directory : String) (location names : List String) :
    Prop :=
  ∀ name ∈ names, tree.locate (Path.join directory name) = some (location ++ [name])

namespace FileTree.Reaches

variable {tree after : FileTree} {directory name : String} {location names : List String}

/-- Names lead to the same places while the directories are the same. -/
theorem congr (h : tree.Reaches directory location names) (same : tree.SameDirectories after) :
    after.Reaches directory location names :=
  fun name given => (same.locate_eq _).symm.trans (h name given)

/-- Fewer names lead to their places too. -/
theorem tail (h : tree.Reaches directory location (name :: names)) :
    tree.Reaches directory location names :=
  fun other given => h other (List.mem_cons_of_mem _ given)

/-- The places of some of the names are the entries of these names. -/
theorem mem_places (h : tree.Reaches directory location names) {some : List String}
    (fewer : some ⊆ names) {place : List String} :
    place ∈ tree.places directory some ↔ ∃ name ∈ some, place = location ++ [name] := by
  rw [places, List.mem_filterMap]
  refine exists_congr fun name => and_congr_right fun given => ?_
  rw [h name (fewer given), Option.some.injEq, eq_comm]

end FileTree.Reaches

/-- The files stand in a directory, each with its text. -/
def FileTree.Holds (tree : FileTree) (location : List String) (files : List OutputFile) : Prop :=
  ∀ file ∈ files, tree.get? (location ++ [file.name]) = some (.file file.text)

namespace Publication

variable {tree after : FileTree} {source directory : String} {origin place : List String}
  {files : List OutputFile}

/-- The first file is written, and then the others, or nothing more is. -/
theorem run_stage_cons (directory : String) (file : OutputFile) (rest : List OutputFile)
    (tree : FileTree) :
    (stage directory (file :: rest) : StateM FileTree (Except Fatal Unit)).run tree =
      match tree.write? (Path.join directory file.name) file.text with
      | some next => (stage directory rest : StateM FileTree (Except Fatal Unit)).run next
      | none => (.error (.output (Path.join directory file.name)), tree) := by
  rw [stage, StateT.run_bind, FileTree.run_writeText]
  cases tree.write? (Path.join directory file.name) file.text <;> rfl

/-- All files are written to a directory that has no directory of their names.
Under distinct names each keeps its text, and nothing else changes. -/
theorem run_stage (reaches : tree.Reaches directory place (files.map (·.name)))
    (free : ∀ file ∈ files, tree.get? (place ++ [file.name]) ≠ some .directory) :
    ∃ after, (stage directory files : StateM FileTree (Except Fatal Unit)).run tree =
        (.ok (), after) ∧ tree.SameDirectories after ∧
      (∀ other, (∀ file ∈ files, other ≠ place ++ [file.name]) →
        after.get? other = tree.get? other) ∧
      ((files.map (·.name)).Nodup → after.Holds place files) := by
  induction files generalizing tree with
  | nil => exact ⟨tree, rfl, .refl tree, fun _ _ => rfl, fun _ _ none => absurd none (by simp)⟩
  | cons file rest ih =>
    have empty := free file List.mem_cons_self
    have written : tree.write? (Path.join directory file.name) file.text =
        some (tree.put (place ++ [file.name]) (.file file.text)) :=
      FileTree.write?_eq_some_iff.2 ⟨_, reaches _ List.mem_cons_self, empty, rfl⟩
    have same := FileTree.sameDirectories_put empty file.text
    obtain ⟨after, run, same', outside, holds⟩ := ih (reaches.tail.congr same)
      fun other later held => free other (List.mem_cons_of_mem _ later) ((same.held _).2 held)
    refine ⟨after, ?_, same.trans same', fun other apart => ?_, fun distinct => ?_⟩
    · rw [run_stage_cons, written]
      exact run
    · obtain ⟨first, later⟩ := List.forall_mem_cons.1 apart
      rw [outside other later, FileTree.get?_put_file empty, if_neg first]
    · obtain ⟨new, distinct⟩ := List.nodup_cons.1 distinct
      refine List.forall_mem_cons.2 ⟨?_, holds distinct⟩
      rw [outside _ fun other later same => ?_, FileTree.get?_put_file empty, if_pos rfl]
      exact new (List.mem_map.2 ⟨other, later, (List.append_singleton_inj.1 same).2.symm⟩)

/-- Files wait in one directory to be moved to another. -/
structure Ready (source : String) (origin : List String) (directory : String)
    (place : List String) (files : List OutputFile) (tree : FileTree) : Prop where
  /-- The names lead to where the files are. -/
  reachesSource : tree.Reaches source origin (files.map (·.name))
  /-- The names lead to where the files are to be. -/
  reachesTarget : tree.Reaches directory place (files.map (·.name))
  /-- The files are there. -/
  holds : tree.Holds origin files
  /-- No directory is in the way. -/
  free : ∀ file ∈ files, tree.get? (place ++ [file.name]) ≠ some .directory

/-- The others are ready when the first of files with distinct names is moved. -/
theorem Ready.step {file : OutputFile} {rest : List OutputFile} {next : FileTree}
    (h : Ready source origin directory place (file :: rest) tree) (apart : origin ≠ place)
    (new : file.name ∉ rest.map (·.name))
    (moves : tree.Moves (origin ++ [file.name]) (place ++ [file.name]) file.text next) :
    Ready source origin directory place rest next where
  reachesSource := h.reachesSource.tail.congr moves.sameDirectories
  reachesTarget := h.reachesTarget.tail.congr moves.sameDirectories
  holds other later := by
    have away : origin ++ [other.name] ≠ place ++ [file.name] :=
      fun same => apart (List.append_singleton_inj.1 same).1
    have differs : origin ++ [other.name] ≠ origin ++ [file.name] := fun same =>
      new (List.mem_map.2 ⟨other, later, (List.append_singleton_inj.1 same).2⟩)
    rw [moves.found, if_neg away, if_neg differs]
    exact h.holds other (List.mem_cons_of_mem _ later)
  free other later held :=
    h.free other (List.mem_cons_of_mem _ later) ((moves.sameDirectories.held _).2 held)

/-- Files with distinct names that are ready are all moved, and nothing else
changes. -/
theorem run_moveAll_of_ready (apart : origin ≠ place) (distinct : (files.map (·.name)).Nodup)
    (h : Ready source origin directory place files tree) (moved : List String) :
    ∃ after, (moveAll source directory moved (files.map (·.name)) :
        StateM FileTree (Except Fatal Unit)).run tree = (.ok (), after) ∧
      tree.SameDirectories after ∧
      (∀ other, (∀ file ∈ files, other ≠ place ++ [file.name] ∧ other ≠ origin ++ [file.name]) →
        after.get? other = tree.get? other) ∧
      after.Holds place files := by
  induction files generalizing tree moved with
  | nil => exact ⟨tree, rfl, .refl tree, fun _ _ => rfl, fun _ none => absurd none (by simp)⟩
  | cons file rest ih =>
    obtain ⟨new, distinct⟩ := List.nodup_cons.1 distinct
    have held := h.holds file List.mem_cons_self
    have free := h.free file List.mem_cons_self
    have move : tree.move? (Path.join source file.name) (Path.join directory file.name) =
        some ((tree.erase (origin ++ [file.name])).put (place ++ [file.name]) (.file file.text)) :=
      FileTree.move?_eq_some_iff.2 ⟨_, _, _, h.reachesSource _ List.mem_cons_self,
        h.reachesTarget _ List.mem_cons_self, held, free, rfl⟩
    have moves := FileTree.moves_put_erase held free
    obtain ⟨after, run, same, outside, holds⟩ := ih distinct (h.step apart new moves)
      (moved ++ [Path.join directory file.name])
    refine ⟨after, ?_, moves.sameDirectories.trans same, fun other away => ?_,
      List.forall_mem_cons.2 ⟨?_, holds⟩⟩
    · rw [List.map_cons, run_moveAll_cons, FileTree.run_move, move]
      exact run
    · obtain ⟨first, later⟩ := List.forall_mem_cons.1 away
      rw [outside other later, moves.found, if_neg first.1, if_neg first.2]
    · rw [outside _ fun other later => ⟨fun same => ?_, fun same => ?_⟩, moves.found, if_pos rfl]
      · exact new (List.mem_map.2 ⟨other, later, (List.append_singleton_inj.1 same).2.symm⟩)
      · exact apart (List.append_singleton_inj.1 same).1.symm

/-- Names that are all moved are distinct, and none of them was moved before:
where a moved file was, nothing is. -/
theorem nodup_of_moveAll {start now : FileTree} {moved names : List String}
    (progress : Progress start source directory moved now) (apart : origin ≠ place)
    (reachesSource : start.Reaches source origin (moved ++ names))
    (reachesTarget : start.Reaches directory place (moved ++ names))
    (h : (moveAll source directory (moved.map (Path.join directory)) names :
      StateM FileTree (Except Fatal Unit)).run now = (.ok (), after)) :
    (∀ name ∈ names, name ∉ moved) ∧ names.Nodup := by
  induction names generalizing moved now with
  | nil => exact ⟨by simp, List.nodup_nil⟩
  | cons name names ih =>
    rw [run_moveAll_cons, FileTree.run_move] at h
    cases move : now.move? (Path.join source name) (Path.join directory name) with
    | none =>
      rw [move] at h
      cases congrArg Prod.fst h
    | some next =>
      rw [move, ← List.map_singleton, ← List.map_append] at h
      have split : moved ++ name :: names = (moved ++ [name]) ++ names := by simp
      rw [split] at reachesSource reachesTarget
      obtain ⟨others, distinct⟩ := ih (progress.step move) reachesSource reachesTarget h
      have given : name ∈ moved ++ [name] ++ names := by simp
      have fresh : name ∉ moved := by
        intro earlier
        obtain ⟨_, _, text, led, _, held, _⟩ := FileTree.move?_eq_some_iff.1 move
        rw [← progress.same.locate_eq, reachesSource name given] at led
        obtain rfl := Option.some.inj led
        have fewer : moved ⊆ moved ++ [name] ++ names := fun _ other => by simp [other]
        have gone := progress.taken _ ((reachesSource.mem_places fewer).2 ⟨name, earlier, rfl⟩)
          fun here => by
            obtain ⟨other, _, same⟩ := (reachesTarget.mem_places fewer).1 here
            exact apart (List.append_singleton_inj.1 same).1
        exact absurd (gone.symm.trans held) (by simp)
      refine ⟨List.forall_mem_cons.2 ⟨fresh, fun other later => ?_⟩,
        List.nodup_cons.2 ⟨fun later => others name later (by simp), distinct⟩⟩
      exact fun earlier => others other later (List.mem_append_left _ earlier)

end Publication

/-- A directory can take files of the given names: it is there or can be
created, a directory for staging can be created in it, no path of a file is too
long, and no directory has one of the names. -/
structure FileTree.Receives (tree : FileTree) (directory : String) (names : List String) :
    Prop where
  /-- Every entry stands in a directory. -/
  rooted : tree.Rooted
  /-- The directory is there or can be created. -/
  created : (tree.withDirectories directory).2 = true
  /-- A directory for staging can be created in it, and files in that one. -/
  staged : ∃ after staging,
    (tree.withDirectories directory).1.withStaging? directory = some (after, staging) ∧
      ∀ name ∈ names, Path.isUsable (Path.join staging name) = true
  /-- No path of a file is too long. -/
  usable : ∀ name ∈ names, Path.isUsable (Path.join directory name) = true
  /-- No directory has one of the names. -/
  free : ∀ name ∈ names, ∀ location,
    (tree.withDirectories directory).1.locate (Path.join directory name) = some location →
      (tree.withDirectories directory).1.get? location ≠ some .directory

/-- The files stand in a directory, and otherwise a tree has only got the
directories that lead there. -/
structure FileTree.Published (tree : FileTree) (directory : String) (files : List OutputFile)
    (after : FileTree) : Prop where
  /-- Each file has its text. -/
  texts : ∀ file ∈ files, after.text? (Path.join directory file.name) = some file.text
  /-- Where no file stands, only directories that lead to them are new. -/
  others : ∀ location,
    (∀ file ∈ files, after.locate (Path.join directory file.name) ≠ some location) →
      after.get? location = (tree.withDirectories directory).1.get? location
  /-- Where no file stands, all that was there is unchanged. -/
  kept : ∀ location entry, tree.get? location = some entry →
    (∀ file ∈ files, after.locate (Path.join directory file.name) ≠ some location) →
      after.get? location = some entry

namespace Publication

/-- A name that can be given to a file of a report: it leads to an entry of a
directory and does not begin with a point. -/
def IsFileName (name : String) : Prop :=
  Path.IsPlain name ∧ name.toList.head? ≠ some '.'

instance : DecidablePred IsFileName := fun _ => inferInstanceAs (Decidable (_ ∧ _))

/-- The files are transferred from a directory for staging, which then is
removed. -/
theorem run_publish_of_staged {tree staged : FileTree} {directory staging : String}
    (created : (tree.withDirectories directory).2 = true)
    (stages : (tree.withDirectories directory).1.withStaging? directory = some (staged, staging))
    (files : List OutputFile) {result : Except Fatal Unit} {moved : FileTree}
    (transfers : (transfer staging directory files : StateM FileTree (Except Fatal Unit)).run
      staged = (result, moved)) :
    (publish directory files : StateM FileTree (Except Fatal Unit)).run tree =
      (result, ((moved.locate staging).map moved.eraseBelow).getD moved) := by
  have make : (FileStore.createDirectories directory : StateM FileTree Bool).run tree =
      (true, (tree.withDirectories directory).1) := by rw [FileTree.run_createDirectories, created]
  have stage : (FileStore.createStaging directory : StateM FileTree (Option String)).run
      (tree.withDirectories directory).1 = (some staging, staged) := by
    rw [FileTree.run_createStaging, stages]
    rfl
  have remove := FileTree.run_removeTree staging moved
  refine (Action.run_bind_of_run make).trans ?_
  refine (Action.run_bind_of_run stage).trans ?_
  refine (Action.run_bind_of_run transfers).trans ?_
  exact Action.run_bind_of_run remove

section Staging

variable {staged : FileTree} {directory hidden staging : String} {place : List String}

/-- A file whose name does not begin with a point is not within the directory
for staging. -/
theorem not_within_staging {tree : FileTree}
    (stages : tree.Stages directory place hidden staging staged) {name : String}
    (named : IsFileName name) : ¬ place ++ [hidden] <+: place ++ [name] := by
  intro within
  have same := ((List.prefix_append_right_inj place).1 within).eq_of_length rfl
  obtain rfl := List.singleton_inj.1 same
  exact named.2 stages.hidden

/-- The files wait in the directory for staging when they are staged. -/
theorem run_stage_of_stages {tree : FileTree}
    (stages : tree.Stages directory place hidden staging staged) (rooted : tree.Rooted)
    {files : List OutputFile} (named : ∀ file ∈ files, IsFileName file.name)
    (usable : ∀ file ∈ files, Path.isUsable (Path.join staging file.name) = true)
    (reaches : tree.Reaches directory place (files.map (·.name)))
    (free : ∀ file ∈ files, tree.get? (place ++ [file.name]) ≠ some .directory) :
    ∃ ready, (stage staging files : StateM FileTree (Except Fatal Unit)).run staged =
        (.ok (), ready) ∧
      staged.SameDirectories ready ∧
      (∀ other, ¬ place ++ [hidden] <+: other → ready.get? other = staged.get? other) ∧
      ready.Reaches staging (place ++ [hidden]) (files.map (·.name)) ∧
      ready.Reaches directory place (files.map (·.name)) ∧
      ((files.map (·.name)).Nodup →
        Ready staging (place ++ [hidden]) directory place files ready) := by
  have there : staged.get? (place ++ [hidden]) = some .directory := by
    rw [stages.get?_eq, if_pos rfl]
  have reachesSource : staged.Reaches staging (place ++ [hidden]) (files.map (·.name)) :=
    List.forall_mem_map.2 fun file given =>
      FileTree.locate_join stages.place there (named file given).1 (usable file given)
  have reachesTarget : staged.Reaches directory place (files.map (·.name)) :=
    fun name given => stages.subTree.locate (reaches name given)
  obtain ⟨ready, run, same, outside, holds⟩ := run_stage reachesSource
    fun file _ => by rw [stages.get?_entry rooted]; simp
  refine ⟨ready, run, same, fun other away => outside other fun file _ here => ?_,
    reachesSource.congr same, reachesTarget.congr same, fun distinct =>
      ⟨reachesSource.congr same, reachesTarget.congr same, holds distinct,
        fun file given held => ?_⟩⟩
  · exact away (here ▸ List.prefix_append _ _)
  · have before := (same.held _).2 held
    rw [stages.get?_eq, if_neg fun here => ?_] at before
    · exact free file given before
    · exact not_within_staging stages (named file given) (here ▸ List.prefix_rfl)

/-- When all files are moved and the directory for staging is taken away, the
files are published. -/
theorem published_of_moved {tree moved : FileTree} {files : List OutputFile}
    (rooted : tree.Rooted)
    (stages : (tree.withDirectories directory).1.Stages directory place hidden staging staged)
    (reaches : (tree.withDirectories directory).1.Reaches directory place (files.map (·.name)))
    (free : ∀ file ∈ files,
      (tree.withDirectories directory).1.get? (place ++ [file.name]) ≠ some .directory)
    (named : ∀ file ∈ files, IsFileName file.name)
    (home : (tree.withDirectories directory).1.workingDirectory = moved.workingDirectory)
    (outside : ∀ other, ¬ place ++ [hidden] <+: other →
      (∀ file ∈ files, other ≠ place ++ [file.name]) → moved.get? other = staged.get? other)
    (holds : moved.Holds place files) :
    tree.Published directory files (moved.eraseBelow (place ++ [hidden])) := by
  obtain ⟨grown, rooted⟩ := FileTree.grown_withDirectories rooted directory
  have rest : ∀ other, (∀ file ∈ files, other ≠ place ++ [file.name]) →
      (moved.eraseBelow (place ++ [hidden])).get? other =
        (tree.withDirectories directory).1.get? other :=
    fun other apart => stages.get?_eraseBelow rooted fun away => outside other away apart
  have sub : (tree.withDirectories directory).1.SubTree
      (moved.eraseBelow (place ++ [hidden])) := ⟨home, fun location held => by
    rw [rest location fun file given here => free file given (here ▸ held), held]⟩
  have led : ∀ file ∈ files, (moved.eraseBelow (place ++ [hidden])).locate
      (Path.join directory file.name) = some (place ++ [file.name]) :=
    fun file given => sub.locate (reaches _ (List.mem_map_of_mem given))
  have apart : ∀ other, (∀ file ∈ files, (moved.eraseBelow (place ++ [hidden])).locate
      (Path.join directory file.name) ≠ some other) →
      ∀ file ∈ files, other ≠ place ++ [file.name] :=
    fun other away file given here => away file given (here ▸ led file given)
  refine ⟨fun file given => ?_, fun other away => rest other (apart other away),
    fun other entry held away => ?_⟩
  · refine FileTree.text?_eq_some_iff.2 ⟨_, led file given, ?_⟩
    have away := not_within_staging stages (named file given)
    rw [FileTree.get?_eraseBelow (FileTree.ne_nil_of_none stages.fresh),
      if_neg (by simpa using away), holds file given]
  · rw [rest other (apart other away), grown.get?_eq_some held]

end Staging

/-- A directory that can take the files receives them if their names are
distinct; otherwise one of them cannot be written. -/
theorem run_publish {tree : FileTree} {directory : String} {files : List OutputFile}
    (receives : tree.Receives directory (files.map (·.name)))
    (named : ∀ file ∈ files, IsFileName file.name) :
    ∃ result after, (publish directory files : StateM FileTree (Except Fatal Unit)).run tree =
        (result, after) ∧
      ((files.map (·.name)).Nodup → result = .ok () ∧ tree.Published directory files after) ∧
      (¬ (files.map (·.name)).Nodup →
        ∃ file ∈ files, result = .error (.output (Path.join directory file.name))) := by
  have rooted := (FileTree.grown_withDirectories receives.rooted directory).2
  obtain ⟨staged, staging, made, usable⟩ := receives.staged
  obtain ⟨place, hidden, stages⟩ := FileTree.stages_of_withStaging? made
  have reaches : (tree.withDirectories directory).1.Reaches directory place (files.map (·.name)) :=
    List.forall_mem_map.2 fun file given => FileTree.locate_join stages.led stages.held
      (named file given).1 (receives.usable _ (List.mem_map_of_mem given))
  have free : ∀ file ∈ files,
      (tree.withDirectories directory).1.get? (place ++ [file.name]) ≠ some .directory :=
    fun file given => receives.free _ (List.mem_map_of_mem given) _
      (reaches _ (List.mem_map_of_mem given))
  obtain ⟨ready, run, same, outside, reachesSource, reachesTarget, waiting⟩ :=
    run_stage_of_stages stages rooted named (List.forall_mem_map.1 usable) reaches free
  have apart : place ++ [hidden] ≠ place := fun here => by simpa using congrArg List.length here
  have transfers : (transfer staging directory files : StateM FileTree (Except Fatal Unit)).run
      staged = (moveAll staging directory [] (files.map (·.name)) :
        StateM FileTree (Except Fatal Unit)).run ready := Action.run_bind_of_run run
  by_cases distinct : (files.map (·.name)).Nodup
  · obtain ⟨moved, moves, same', outside', holds⟩ :=
      run_moveAll_of_ready apart distinct (waiting distinct) []
    have led : moved.locate staging = some (place ++ [hidden]) :=
      ((same.trans same').locate_eq staging).symm.trans stages.place
    have published : tree.Published directory files (moved.eraseBelow (place ++ [hidden])) := by
      have home := stages.subTree.home.trans (same.trans same').home
      refine published_of_moved receives.rooted stages reaches free named home
        (fun other away elsewhere => ?_) holds
      rw [outside' other fun file given => ⟨elsewhere file given, fun here => ?_⟩,
        outside other away]
      exact away (here ▸ List.prefix_append _ _)
    refine ⟨.ok (), _, ?_, fun _ => ⟨rfl, published⟩, absurd distinct⟩
    rw [run_publish_of_staged receives.created made files (transfers.trans moves), led]
    rfl
  · have start := Progress.nil ready staging directory
    cases moves : (moveAll staging directory [] (files.map (·.name)) :
        StateM FileTree (Except Fatal Unit)).run ready with
    | mk result moved =>
      refine ⟨result, _, run_publish_of_staged receives.created made files
        (transfers.trans moves), fun distinct' => absurd distinct' distinct, fun _ => ?_⟩
      rcases progress_of_moveAll FileTree.follows_id start moves with
        ⟨rfl, _⟩ | ⟨before, refused, rest, _, split, rfl, _⟩
      · exact absurd (nodup_of_moveAll start apart reachesSource reachesTarget moves).2 distinct
      · have given : refused ∈ files.map (·.name) := by rw [split]; simp
        obtain ⟨file, member, rfl⟩ := List.mem_map.1 given
        exact ⟨file, member, rfl⟩

end Publication

end RunReport
