import RunReport.Command.Outcome
import RunReport.Command.Request
import RunReport.Files.Basic
import RunReport.Run.Json
import RunReport.Settings.Basic
import RunReport.Template.Standard

/-!
# Reading what a command works on

Runs, dictionaries, settings and templates come from files. A file that cannot
be read and a file that does not hold what it should are told apart. Nothing
here can change a file. How a text is read as JSON or as YAML is left open: a command
does the same with whatever comes of it.
-/

namespace RunReport

namespace SourceFile

variable {m : Type → Type} [Monad m] [FileReader m]

/-- The text of a source file. -/
def read (source : SourceFile) (path : String) : ExceptT Fatal m String := do
  match ← (FileReader.readText path : m (Option String)) with
  | some text => return text
  | none => throw (.unreadable source path)

/-- What a source file holds. -/
def load {α : Type} (source : SourceFile) (parse : String → Option α) (path : String) :
    ExceptT Fatal m α := do
  match parse (← source.read path) with
  | some value => return value
  | none => throw (.unparsable source path)

end SourceFile

/-- How the texts of files are read. -/
structure TextReaders where
  /-- The value of a JSON text. -/
  json : String → Option Json
  /-- The settings that a YAML text holds. -/
  settings : String → Option Settings

namespace TextReaders

variable (readers : TextReaders)

/-- The run that a text holds. -/
def run? (text : String) : Option Run := do (Run.ofJson (← readers.json text)).toOption

/-- The dictionary that a text holds. -/
def dictionary? (text : String) : Option Dictionary := do
  (Dictionary.ofJson (← readers.json text)).toOption

/-- JSON with every number taken for the binary64 number nearest to it, and of YAML what
settings are written in: maps, lists, and plain or quoted scalars. -/
def standard : TextReaders := ⟨Json.parse, Settings.parse⟩

end TextReaders

namespace Settings

/-- The settings file that is read if none is named. -/
def standardFile : String := "benchreport.yaml"

/-- The settings with the files they name seen from a directory. -/
def seenFrom (s : Settings) (directory : String) : Settings :=
  { s with
    templates := ⟨s.templates.org.map (Path.join directory),
      s.templates.latex.map (Path.join directory), s.templates.text.map (Path.join directory)⟩
    dictionary := s.dictionary.map (Path.join directory) }

variable {m : Type → Type} [Monad m] [FileReader m] (readers : TextReaders)

/-- The settings of a file; the files they name are seen from its directory. -/
def load (path : String) : ExceptT Fatal m Settings := do
  let settings ← SourceFile.settings.load readers.settings path
  return settings.seenFrom (Path.directoryOf path)

/-- The settings of the file that is named, else of the standard one if it is
there, else none. -/
def resolve : Option String → ExceptT Fatal m Settings
  | some path => load readers path
  | none => do
    if ← (FileReader.isFile standardFile : m Bool) then load readers standardFile else return {}

/-- The template files that settings name, by format. -/
def templateFiles (s : Settings) : List (OutputFormat × String) :=
  OutputFormat.all.filterMap fun format => (s.templates.get format).map (format, ·)

end Settings

/-- A template as it is asked for: a format, an equals sign and a file. -/
def templateChoice (given : String) : Except Fatal (OutputFormat × String) :=
  match Split.textAtFirst '=' given with
  | none => .error (.templateWithoutPath given)
  | some (format, path) =>
    if path.isEmpty then .error (.templateEmptyPath given)
    else match OutputFormat.asked? format with
      | none => .error (.templateFormat given)
      | some format => .ok (format, path)

/-- The standard templates, each replaced by the last file given for its format. -/
def loadTemplates {m : Type → Type} [Monad m] [FileReader m]
    (files : List (OutputFormat × String)) : ExceptT Fatal m (PerFormat String) :=
  files.foldlM (fun templates (format, path) => do
    return templates.set format (← (SourceFile.template format).read path)) Template.standard

end RunReport
