import RunReport.Command.Outcome
import RunReport.Files.Basic
import RunReport.Report.Rendering

/-!
# Publishing files

The files of a report are written to a directory of their own and moved to
their places only when all are written. If a move fails, what was moved before
is removed. The directory of their own is gone in the end in any case.
-/

namespace RunReport

/-- A file to be published: its name and its text. -/
structure OutputFile where
  /-- Name of the file. -/
  name : String
  /-- Its text. -/
  text : String
  deriving DecidableEq

/-- The files of a rendered report: the report, its tables and, if asked for,
its context and its template. -/
def Rendered.files (r : Rendered) (emitContext : Bool) : List OutputFile :=
  ⟨r.filename, r.text⟩ :: r.tables.map (fun t => ⟨t.filename, t.text⟩) ++
    if emitContext then
      [⟨r.filename ++ ".context.json", r.contextJson⟩,
        ⟨r.filename ++ ".template", r.templateSource⟩]
    else []

namespace Publication

variable {m : Type → Type} [Monad m] [FileStore m]

/-- Writes files to a directory, the first failure being the last write. -/
def stage (directory : String) : List OutputFile → m (Except Fatal Unit)
  | [] => return .ok ()
  | file :: rest => do
    let path := Path.join directory file.name
    if ← FileStore.writeText path file.text then stage directory rest
    else return .error (.output path)

/-- Removes files one after the other, as far as they can be removed. -/
def removeAll : List String → m Unit
  | [] => return
  | path :: rest => do
    let _ ← FileStore.removeFile path
    removeAll rest

/-- Moves files from one directory to another. If one cannot be moved, those
moved before it are removed at their new places; what comes of that is not looked at. -/
def moveAll (source target : String) (moved : List String) :
    List String → m (Except Fatal Unit)
  | [] => return .ok ()
  | name :: rest => do
    let path := Path.join target name
    if ← FileStore.move (Path.join source name) path then
      moveAll source target (moved ++ [path]) rest
    else
      removeAll moved
      return .error (.output path)

/-- Writes files to one directory and moves them to another. -/
def transfer (source target : String) (files : List OutputFile) : m (Except Fatal Unit) := do
  match ← stage source files with
  | .error cause => return .error cause
  | .ok () => moveAll source target [] (files.map (·.name))

/-- Publishes files in a directory, which is created if it is missing. -/
def publish (directory : String) (files : List OutputFile) : m (Except Fatal Unit) := do
  if ← FileStore.createDirectories directory then
    match ← FileStore.createStaging directory with
    | none => return .error (.stagingDirectory directory)
    | some staging =>
      let result ← transfer staging directory files
      FileStore.removeTree staging
      return result
  else return .error (.outputDirectory directory)

end Publication

end RunReport
