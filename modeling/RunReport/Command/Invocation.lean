import RunReport.Command.Publication
import RunReport.Command.Sources
import RunReport.Json.Printer
import RunReport.Report.Rendering

/-!
# Invocations

An invocation reads its words as a request and carries the request out.

For a report everything is read first, then the report is generated, then its files
are published. What is asked for on the command line wins over the settings, and the
settings over what is standard; the author may also come from the environment. Until
the report is generated no file is changed.

A merge takes one table of several runs from left to right and shows the result as
JSON, or writes it to a file. Nothing is written before the merge has succeeded.
-/

namespace RunReport

/-- What a command knows besides its arguments and files. -/
structure Environment where
  /-- Author to name if the arguments name none. -/
  author : Option String
  /-- The present time. -/
  now : Timestamp
  deriving DecidableEq

/-- Everything a report is made from. -/
structure ReportJob where
  /-- Who makes the report, with which tool, and when. -/
  identity : Identity
  /-- The run under test. -/
  base : Run
  /-- The runs to compare with. -/
  comparisons : List Run
  /-- Formats to write. -/
  formats : List OutputFormat
  /-- What the report shows. -/
  plan : ReportPlan
  /-- Directory that receives the files. -/
  outputDir : String

namespace ReportJob

/-- The reports in all formats. -/
def generate (job : ReportJob) : Except Halt (List Rendered) :=
  job.plan.generate job.identity job.base job.comparisons job.formats

end ReportJob

namespace ReportRequest

/-- The formats to write. -/
def chosenFormats (r : ReportRequest) (s : Settings) : List OutputFormat :=
  if !r.formats.isEmpty then r.formats
  else if !s.formats.isEmpty then s.formats
  else OutputFormat.all

/-- The directory that receives the files. -/
def chosenDirectory (r : ReportRequest) (s : Settings) : String :=
  (r.outputDir <|> s.outputDir).getD "."

/-- Who makes the report, with which tool, and when. -/
def chosenIdentity (r : ReportRequest) (s : Settings) (env : Environment) : Identity :=
  { author := (r.author <|> env.author <|> s.author).getD "unknown"
    toolVersion := s.toolVersion.getD RunReport.toolVersion
    date := r.date.getD env.now }

variable {m : Type → Type} [Monad m] [FileReader m]

/-- The dictionary that is asked for, else the one that follows from the fields. -/
def loadDictionary (r : ReportRequest) (readers : TextReaders) (s : Settings)
    (registry : Registry) : ExceptT Fatal m Dictionary :=
  match r.dictionary <|> s.dictionary with
  | some path => SourceFile.dictionary.load readers.dictionary? path
  | none => return Dictionary.ofRegistry registry

/-- Reads everything that a report is made from. -/
def load (r : ReportRequest) (readers : TextReaders) (env : Environment) :
    ExceptT Fatal m ReportJob := do
  let choices ← MonadExcept.ofExcept (r.templates.mapM templateChoice)
  let settings ← Settings.resolve readers r.settings
  let base ← SourceFile.run.load readers.run? r.base
  let comparisons ← r.comparisons.mapM (SourceFile.run.load readers.run?)
  let dictionary ← r.loadDictionary readers settings Registry.standard
  let templates ← loadTemplates (settings.templateFiles ++ choices)
  return {
    identity := r.chosenIdentity settings env
    base, comparisons
    formats := r.chosenFormats settings
    plan := { registry := Registry.standard, dictionary, templates
              chartKeys := settings.chartKeys }
    outputDir := r.chosenDirectory settings }

/-- Makes the report. -/
def run {m : Type → Type} [Monad m] [FileStore m] (r : ReportRequest) (readers : TextReaders)
    (env : Environment) : m Outcome := do
  match ← (r.load readers env : ExceptT Fatal m ReportJob).run with
  | .error cause => return .abandoned cause
  | .ok job => match job.generate with
    | .error (.refused failure) => return .refused "report" failure
    | .error .crashed => return .crashed
    | .ok reports =>
      let files := reports.flatMap (·.files r.emitContext)
      match ← Publication.publish job.outputDir files with
      | .error cause => return .abandoned cause
      | .ok () =>
        return .finished "" (reports.map fun report => Path.join job.outputDir report.filename)

end ReportRequest

namespace MergeRequest

/-- The merged table of runs as data. -/
def merged (table : MergeTable) (runs : List Run) : Except Failure Json :=
  match table with
  | .machines => (DistributionTable.mergeAll (runs.map (·.machines))).map (·.toJson)
  | .propagation => (DistributionTable.mergeAll (runs.map (·.propagation))).map (·.toJson)

/-- Merges the runs. -/
def run {m : Type → Type} [Monad m] [FileStore m] (r : MergeRequest) (readers : TextReaders) :
    m Outcome := do
  match ← (r.inputs.mapM (SourceFile.run.load readers.run?) : ExceptT Fatal m (List Run)).run with
  | .error cause => return .abandoned cause
  | .ok runs => match merged r.table runs with
    | .error failure => return .refused "merge" failure
    | .ok table => match r.output with
      | none => return .finished (table.pretty ++ "\n") []
      | some path =>
        if ← (FileStore.writeText path table.pretty : m Bool) then return .finished "" [path]
        else return .abandoned (.output path)

end MergeRequest

/-- Carries out what a command line asks for. -/
def invoke {m : Type → Type} [Monad m] [FileStore m] (readers : TextReaders) (env : Environment)
    (words : List String) : m Outcome :=
  match Request.ofWords? words with
  | none => return .misused
  | some .version => return .version
  | some (.report r) => r.run readers env
  | some (.merge r) => r.run readers

end RunReport
