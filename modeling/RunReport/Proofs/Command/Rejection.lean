import RunReport.Command.Invocation
import RunReport.Proofs.Command.Delivery

/-!
# Rejections

A command refuses its data exactly when all that it reads is in order and the
core refuses it, and it is given up for an argument or a file that it reads
exactly when one of them is not in order. No file has been touched then: the
first change is made when nothing of this can happen any more, and what may fail
from there on is told apart by its cause. It is the same if the core ends the program.
This holds of any files that show what they hold, whatever comes of changing them.
-/

namespace RunReport

open RunReport.Action
open ReportRequest (plainTree plainEnvironment)

/-- A command on some files reads something and has a core that works on it. When
either fails, the command ends by saying so and has touched no file. -/
structure RejectsUntouched {α β σ : Type} (command : StateM σ Outcome) (files : σ)
    (inOrder : Prop) (read : Except Fatal α) (core : α → Except Halt β) : Prop where
  /-- Reading succeeds exactly when all that is read is in order. -/
  read_iff : (∃ input, read = .ok input) ↔ inOrder
  /-- The code of a refusal is that of a core that refuses what was read. -/
  exits_one_iff : (command.run files).1.exitCode = 1 ↔
    ∃ input failure, read = .ok input ∧ core input = .error (.refused failure)
  /-- A refusal touches no file. -/
  untouched_of_exit_one : (command.run files).1.exitCode = 1 → (command.run files).2 = files
  /-- The program ends exactly when the core ends it. -/
  crashed_iff : (command.run files).1 = .crashed ↔
    ∃ input, read = .ok input ∧ core input = .error .crashed
  /-- No file is touched before. -/
  untouched_of_crashed : (command.run files).1 = .crashed → (command.run files).2 = files
  /-- The command is given up for its input exactly when that cannot be read. -/
  abandoned_iff : ∀ cause, ((command.run files).1 = .abandoned cause ∧ cause.isOfInput = true) ↔
    read = .error cause
  /-- Giving up for the input touches no file. -/
  untouched_of_abandoned : ∀ cause, (command.run files).1 = .abandoned cause →
    cause.isOfInput = true → (command.run files).2 = files

/-- An outcome that comes when reading and the core have succeeded: it neither refuses nor
blames the input. -/
structure Outcome.Settles (outcome : Outcome) : Prop where
  /-- It is not that of a refusal. -/
  accepts : outcome.exitCode ≠ 1
  /-- It is not the end of the program. -/
  goesOn : outcome ≠ .crashed
  /-- What it may be given up for is no input. -/
  later : ∀ cause, outcome = .abandoned cause → cause.isOfInput = false

/-- A result settles a command. -/
theorem Outcome.settles_finished (printed : String) (written : List String) :
    (finished printed written).Settles :=
  ⟨by simp [exitCode], by simp, by simp⟩

/-- So does giving up for what is not given. -/
theorem Outcome.settles_abandoned {cause : Fatal} (other : cause.isOfInput = false) :
    (abandoned cause).Settles :=
  ⟨by simp [exitCode], by simp, fun _ same => Outcome.abandoned.inj same ▸ other⟩

namespace RejectsUntouched

variable {α β σ : Type} {command : StateM σ Outcome} {files : σ} {inOrder : Prop}
  {read : Except Fatal α} {core : α → Except Halt β}

/-- A command is as described if it ends where reading or the core fails, and otherwise is
settled. -/
theorem of_cases (name : String) (reads : (∃ input, read = .ok input) ↔ inOrder)
    (blames : ∀ cause, read = .error cause → cause.isOfInput = true)
    (unread : ∀ cause, read = .error cause → command.run files = (.abandoned cause, files))
    (refused : ∀ input failure, read = .ok input → core input = .error (.refused failure) →
      command.run files = (.refused name failure, files))
    (crashed : ∀ input, read = .ok input → core input = .error .crashed →
      command.run files = (.crashed, files))
    (settled : ∀ input result, read = .ok input → core input = .ok result →
      (command.run files).1.Settles) :
    RejectsUntouched command files inOrder read core := by
  cases loaded : read with
  | error cause =>
    have ends := unread cause loaded
    have blamed := blames cause loaded
    rw [loaded] at reads
    refine ⟨reads, ?_, ?_, ?_, ?_, fun other => ?_, ?_⟩
    all_goals simp only [ends]
    · simp [Outcome.exitCode]
    · simp
    · simp
    · simp
    · constructor
      · rintro ⟨same, _⟩
        rw [Outcome.abandoned.inj same]
      · intro same
        obtain rfl := Except.error.inj same
        exact ⟨rfl, blamed⟩
    · simp
  | ok input =>
    rw [loaded] at reads
    cases computed : core input with
    | error halt =>
      cases halt with
      | refused failure =>
        have ends := refused input failure loaded computed
        refine ⟨reads, ?_, ?_, ?_, ?_, fun cause => ?_, ?_⟩
        all_goals simp [ends, Outcome.exitCode, computed]
      | crashed =>
        have ends := crashed input loaded computed
        refine ⟨reads, ?_, ?_, ?_, ?_, fun cause => ?_, ?_⟩
        all_goals simp [ends, Outcome.exitCode, computed]
    | ok result =>
      obtain ⟨accepts, goesOn, later⟩ := settled input result loaded computed
      refine ⟨reads, ?_, fun refuses => absurd refuses accepts, ?_,
        fun ends => absurd ends goesOn, fun cause => ?_, fun cause gives blamed => ?_⟩
      · simp [accepts, computed]
      · simp [goesOn, computed]
      · constructor
        · rintro ⟨gives, blamed⟩
          exact absurd ((later cause gives).symm.trans blamed) (by simp)
        · simp
      · exact absurd ((later cause gives).symm.trans blamed) (by simp)

end RejectsUntouched

section Stores

variable {σ : Type} [FileStore (StateM σ)] {shown : σ → FileView} {state after : σ}

namespace Publication

variable {directory : String} {files : List OutputFile} {cause : Fatal}

/-- Writing files is given up for one that cannot be written. -/
theorem isOfInput_of_stage
    (failed : (stage directory files : StateM σ (Except Fatal Unit)).run state =
      (.error cause, after)) : cause.isOfInput = false := by
  induction files generalizing state with
  | nil => cases failed
  | cons file rest ih =>
    cases written : (FileStore.writeText (Path.join directory file.name) file.text :
        StateM σ Bool).run state with
    | mk success next =>
      rw [stage, run_bind_of_run written] at failed
      cases success with
      | true => exact ih failed
      | false => exact Except.error.inj (Prod.mk.inj failed).1 ▸ rfl

/-- Moving files is given up for one that cannot be moved. -/
theorem isOfInput_of_moveAll {source : String} {moved names : List String}
    (failed : (moveAll source directory moved names : StateM σ (Except Fatal Unit)).run
      state = (.error cause, after)) : cause.isOfInput = false := by
  induction names generalizing state moved with
  | nil => cases failed
  | cons name rest ih =>
    rw [run_moveAll_cons] at failed
    split at failed
    · exact ih failed
    · exact Except.error.inj (Prod.mk.inj failed).1 ▸ rfl

/-- Writing and moving files is given up for one of these files. -/
theorem isOfInput_of_transfer {source : String}
    (failed : (transfer source directory files : StateM σ (Except Fatal Unit)).run state =
      (.error cause, after)) : cause.isOfInput = false := by
  cases staged : (stage source files : StateM σ (Except Fatal Unit)).run state with
  | mk result ready =>
    rw [transfer, run_bind_of_run staged] at failed
    cases result with
    | error first =>
      obtain rfl := Except.error.inj (Prod.mk.inj failed).1
      exact isOfInput_of_stage staged
    | ok _ => exact isOfInput_of_moveAll failed

/-- Publishing files is never given up for what a command is given. -/
theorem isOfInput_of_publish
    (failed : (publish directory files : StateM σ (Except Fatal Unit)).run state =
      (.error cause, after)) : cause.isOfInput = false := by
  cases created : (FileStore.createDirectories directory : StateM σ Bool).run state with
  | mk made ready =>
    rw [publish, run_bind_of_run created] at failed
    cases made with
    | false => exact Except.error.inj (Prod.mk.inj failed).1 ▸ rfl
    | true =>
      cases opened : (FileStore.createStaging directory : StateM σ (Option String)).run ready with
      | mk staging ready =>
        simp only [if_true, run_bind_of_run opened] at failed
        cases staging with
        | none => exact Except.error.inj (Prod.mk.inj failed).1 ▸ rfl
        | some staging =>
          cases moved : (transfer staging directory files :
              StateM σ (Except Fatal Unit)).run ready with
          | mk result ready =>
            simp only [run_bind_of_run moved] at failed
            cases gone : (FileStore.removeTree staging : StateM σ Unit).run ready with
            | mk _ last =>
              rw [run_bind_of_run gone] at failed
              obtain rfl := (Prod.mk.inj failed).1
              exact isOfInput_of_transfer moved

end Publication

namespace ReportRequest

/-- What the command comes to after loading. -/
def conclude {m : Type → Type} [Monad m] [FileStore m] (r : ReportRequest) :
    Except Fatal ReportJob → m Outcome
  | .error cause => return .abandoned cause
  | .ok job => match job.generate with
    | .error (.refused failure) => return .refused "report" failure
    | .error .crashed => return .crashed
    | .ok reports => do
      match ← Publication.publish job.outputDir (reports.flatMap (·.files r.emitContext)) with
      | .error cause => return .abandoned cause
      | .ok () =>
        return .finished "" (reports.map fun report => Path.join job.outputDir report.filename)

/-- The command comes to what follows from what is found. -/
theorem run_eq (shows : FileStore.Shows shown) (r : ReportRequest) (readers : TextReaders)
    (env : Environment) (files : σ) :
    (r.run readers env : StateM σ Outcome).run files =
      (r.conclude ((shown files).found (r.load readers env)) : StateM σ Outcome).run files := by
  have steps : (r.run readers env : StateM σ Outcome) =
      (r.load readers env : ExceptT Fatal (StateM σ) ReportJob).run >>= r.conclude := rfl
  rw [steps]
  exact run_bind_of_run ((reads_load shows r readers env).run_eq files)

/-- A report is rejected without a trace. -/
theorem rejectsUntouched (shows : FileStore.Shows shown) (r : ReportRequest)
    (readers : TextReaders) (env : Environment) (files : σ) :
    RejectsUntouched (r.run readers env) files (r.Loads readers (shown files))
      ((shown files).found (r.load readers env)) ReportJob.generate := by
  have run := r.run_eq shows readers env files
  refine .of_cases "report" exists_found_load_iff
    ((reads_load shows r readers env).kind_of_error (shown files))
    (fun cause unread => ?_) (fun job failure loaded refused => ?_)
    (fun job loaded crashed => ?_) (fun job reports loaded generated => ?_)
  · rw [unread] at run
    exact run
  · rw [loaded, conclude, refused] at run
    exact run
  · rw [loaded, conclude, crashed] at run
    exact run
  · rw [loaded, conclude, generated] at run
    cases published : (Publication.publish job.outputDir (reports.flatMap (·.files r.emitContext)) :
        StateM σ (Except Fatal Unit)).run files with
    | mk result after =>
      replace run := run.trans (run_bind_of_run published)
      rw [run]
      cases result with
      | ok _ => exact Outcome.settles_finished _ _
      | error cause => exact Outcome.settles_abandoned (Publication.isOfInput_of_publish published)

end ReportRequest

namespace MergeRequest

/-- What the command comes to after reading the runs. -/
def conclude {m : Type → Type} [Monad m] [FileStore m] (r : MergeRequest) :
    Except Fatal (List Run) → m Outcome
  | .error cause => return .abandoned cause
  | .ok runs => match merged r.table runs with
    | .error failure => return .refused "merge" failure
    | .ok table => match r.output with
      | none => return .finished (table.pretty ++ "\n") []
      | some path => do
        if ← (FileStore.writeText path table.pretty : m Bool) then return .finished "" [path]
        else return .abandoned (.output path)

/-- Reading the runs leaves all files as they are. -/
theorem reads_inputs (shows : FileStore.Shows shown) (r : MergeRequest) (readers : TextReaders) :
    ReadsInput shown (r.inputs.mapM (SourceFile.run.load readers.run?))
      (r.inputs.mapM (SourceFile.run.load readers.run?)) :=
  Reads.mapM (SourceFile.reads_load shows .run readers.run?) r.inputs

/-- The command comes to what follows from the runs that are found. -/
theorem run_eq (shows : FileStore.Shows shown) (r : MergeRequest) (readers : TextReaders)
    (files : σ) : (r.run readers : StateM σ Outcome).run files =
      (r.conclude ((shown files).found (r.inputs.mapM (SourceFile.run.load readers.run?))) :
        StateM σ Outcome).run files := by
  have steps : (r.run readers : StateM σ Outcome) =
      (r.inputs.mapM (SourceFile.run.load readers.run?) :
        ExceptT Fatal (StateM σ) (List Run)).run >>= r.conclude := rfl
  rw [steps]
  exact run_bind_of_run ((r.reads_inputs shows readers).run_eq files)

/-- The core of a merge, which never ends the program. -/
def core (r : MergeRequest) (runs : List Run) : Except Halt Json :=
  (merged r.table runs).mapError .refused

/-- A merge is rejected without a trace. -/
theorem rejectsUntouched (shows : FileStore.Shows shown) (r : MergeRequest)
    (readers : TextReaders) (files : σ) :
    RejectsUntouched (r.run readers) files
      (∀ path ∈ r.inputs, (shown files).Gives readers.run? path)
      ((shown files).found (r.inputs.mapM (SourceFile.run.load readers.run?))) r.core := by
  have run := r.run_eq shows readers files
  unfold core
  refine .of_cases "merge" ?_ ((r.reads_inputs shows readers).kind_of_error (shown files))
    (fun cause unread => ?_) (fun runs failure loaded refused => ?_)
    (fun runs loaded crashed => ?_) (fun runs table loaded computed => ?_)
  · rw [FileView.found_mapM, Traversal.exists_mapM_iff]
    exact forall₂_congr fun path _ => SourceFile.exists_found_load_iff .run
  · rw [unread] at run
    exact run
  · obtain ⟨_, stopped, same⟩ := Traversal.mapError_eq_error_iff.1 refused
    obtain rfl := Halt.refused.inj same
    rw [loaded, conclude, stopped] at run
    exact run
  · obtain ⟨_, _, same⟩ := Traversal.mapError_eq_error_iff.1 crashed
    cases same
  · rw [loaded, conclude, Traversal.mapError_eq_ok_iff.1 computed] at run
    cases asked : r.output with
    | none =>
      rw [asked] at run
      rw [run]
      exact Outcome.settles_finished _ _
    | some path =>
      rw [asked] at run
      cases written : (FileStore.writeText path table.pretty : StateM σ Bool).run files with
      | mk success after =>
        replace run := run.trans (run_bind_of_run written)
        rw [run]
        cases success with
        | true => exact Outcome.settles_finished _ _
        | false => exact Outcome.settles_abandoned rfl

end MergeRequest

/-- Whatever the files hold and whatever is asked for, a command exits with one
exactly when all that it reads is in order and its core refuses it, and neither
then nor when it is given up for an argument or a file that it reads has it
touched a file. Nor has it when the core ends the program. Arguments that are no request
are not carried out at all. -/
theorem rejections_untouched (shows : FileStore.Shows shown) (readers : TextReaders)
    (env : Environment) (files : σ) :
    (∀ r : ReportRequest, RejectsUntouched (r.run readers env) files
      (r.Loads readers (shown files)) ((shown files).found (r.load readers env))
      ReportJob.generate) ∧
    (∀ r : MergeRequest, RejectsUntouched (r.run readers) files
      (∀ path ∈ r.inputs, (shown files).Gives readers.run? path)
      ((shown files).found (r.inputs.mapM (SourceFile.run.load readers.run?))) r.core) ∧
    ∀ words, Request.ofWords? words = none →
      (invoke readers env words : StateM σ Outcome).run files = (.misused, files) := by
  refine ⟨fun r => r.rejectsUntouched shows readers env files,
    fun r => r.rejectsUntouched shows readers files, fun words misuse => ?_⟩
  rw [invoke, misuse]
  rfl

end Stores

/-- A request for a report on a run compared with nothing. -/
def ReportRequest.lone : ReportRequest := { base := "/run", formats := [.text] }

/-- A request to merge a run that is not there. -/
def MergeRequest.astray : MergeRequest := { inputs := ["run", "astray"] }

/-- With nothing to compare with, the report is refused. -/
theorem ReportRequest.exists_refused_lone : ∃ job failure,
    plainTree.view.found (lone.load .standard plainEnvironment) = .ok job ∧
      job.generate = .error (.refused failure) := by
  obtain ⟨run, _, held, _⟩ := exists_plainRun
  have base := found_plainRun held "/run" (by decide)
  have found : plainTree.view.found (lone.loadFrom .standard plainEnvironment {} []) =
      .ok { plainJob run [.text] with comparisons := [], outputDir := "." } :=
    found_loadFrom_eq_ok_iff.2 ⟨run, [], _, _, base, rfl, rfl, rfl, rfl⟩
  exact ⟨_, .emptyRunSet _, (found_load_of_resolve rfl found_resolve_plain).trans found, rfl⟩

/-- The other run is not there. -/
theorem MergeRequest.exists_unread_astray : ∃ cause, plainTree.view.found
    (astray.inputs.mapM (SourceFile.run.load TextReaders.standard.run?)) = .error cause := by
  cases read : plainTree.view.found
      (astray.inputs.mapM (SourceFile.run.load TextReaders.standard.run?)) with
  | error cause => exact ⟨cause, rfl⟩
  | ok runs =>
    rw [FileView.found_mapM] at read
    obtain ⟨_, loaded⟩ := Traversal.exists_mapM_iff.1 ⟨runs, read⟩ "astray" (by decide)
    obtain ⟨text, held, _⟩ := SourceFile.found_load_eq_ok_iff.1 loaded
    exact absurd (ReportRequest.text?_astray.symm.trans held) (by simp)

/-- In a directory with one run, a report on it alone is refused, and a merge with
a run that is not there is given up. The directory is left as it is. -/
theorem rejections_untouched_plain : FileStore.Shows FileTree.view ∧
    (((ReportRequest.lone.run .standard plainEnvironment : StateM FileTree Outcome).run
        plainTree).1.exitCode = 1 ∧
      ((ReportRequest.lone.run .standard plainEnvironment : StateM FileTree Outcome).run
        plainTree).2 = plainTree) ∧
    ((MergeRequest.astray.run .standard : StateM FileTree Outcome).run plainTree).1.exitCode = 2 ∧
      ((MergeRequest.astray.run .standard : StateM FileTree Outcome).run plainTree).2 =
        plainTree := by
  obtain ⟨reports, merges, _⟩ :=
    rejections_untouched FileTree.shows_view .standard plainEnvironment plainTree
  refine ⟨FileTree.shows_view, ?_, ?_⟩
  · have rejects := reports .lone
    obtain ⟨job, failure, loaded, refused⟩ := ReportRequest.exists_refused_lone
    have exits := rejects.exits_one_iff.2 ⟨job, failure, loaded, refused⟩
    exact ⟨exits, rejects.untouched_of_exit_one exits⟩
  · have rejects := merges .astray
    obtain ⟨cause, unread⟩ := MergeRequest.exists_unread_astray
    obtain ⟨ends, blamed⟩ := (rejects.abandoned_iff cause).2 unread
    exact ⟨by rw [ends]; rfl, rejects.untouched_of_abandoned cause ends blamed⟩

end RunReport
