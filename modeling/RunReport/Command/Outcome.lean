import RunReport.Failure
import RunReport.Report.Format

/-!
# Outcomes of a command

A command ends in one of six ways. What it prints and the code it exits with
follow from the way alone: zero for a result, one for a refusal of the data,
two for arguments or files that cannot be used, and another one if the program just
ends.
-/

namespace RunReport

/-- A file that a command reads. -/
inductive SourceFile where
  /-- Settings. -/
  | settings
  /-- A run. -/
  | run
  /-- A dictionary. -/
  | dictionary
  /-- A template for a format. -/
  | template (format : OutputFormat)
  deriving DecidableEq

/-- A source file in words. -/
def SourceFile.words : SourceFile → String
  | settings => "config"
  | run => "run"
  | dictionary => "dictionary"
  | template format => format.name ++ " template"

/-- Why a command was given up. -/
inductive Fatal where
  /-- A template without an equals sign. -/
  | templateWithoutPath (given : String)
  /-- A template with nothing after the equals sign. -/
  | templateEmptyPath (given : String)
  /-- A template for an unknown format. -/
  | templateFormat (given : String)
  /-- A file that cannot be read. -/
  | unreadable (source : SourceFile) (path : String)
  /-- A file that does not hold what it should. -/
  | unparsable (source : SourceFile) (path : String)
  /-- A directory that cannot be created. -/
  | outputDirectory (path : String)
  /-- A directory in which none can be created. -/
  | stagingDirectory (path : String)
  /-- A file that cannot be written. -/
  | output (path : String)
  deriving DecidableEq

/-- The sentence that tells why a command was given up. -/
def Fatal.message : Fatal → String
  | templateWithoutPath given => "--template expects FORMAT=PATH, got '" ++ given ++ "'"
  | templateEmptyPath given => "--template '" ++ given ++ "' has an empty path"
  | templateFormat given => "in --template '" ++ given ++ "'"
  | unreadable source path => "Failed to read " ++ source.words ++ ": " ++ path
  | unparsable source path => "Failed to parse " ++ source.words ++ ": " ++ path
  | outputDirectory path => "Failed to create output dir: " ++ path
  | stagingDirectory path => "Failed to create staging dir in " ++ path
  | output path => "Failed to write output: " ++ path

/-- How a command ends. -/
inductive Outcome where
  /-- With a result: what is printed, and the files written. -/
  | finished (printed : String) (written : List String)
  /-- With a refusal of the data by the command of the given name. -/
  | refused (command : String) (failure : Failure)
  /-- With an argument or a file that cannot be used. -/
  | abandoned (cause : Fatal)
  /-- Without an answer, in the midst of its work. -/
  | crashed
  /-- With arguments that are no request. -/
  | misused
  /-- With the version of the tool. -/
  | version
  deriving DecidableEq

/-- The version of the tool. -/
def toolVersion : String := "0.4.0"

/-- The name and version of the tool. -/
def versionText : String := "benchreport " ++ toolVersion ++ "\n"

namespace Outcome

/-- The code that a command exits with. -/
def exitCode : Outcome → Nat
  | finished _ _ => 0
  | refused _ _ => 1
  | abandoned _ => 2
  | crashed => 101
  | misused => 2
  | version => 0

/-- What a command prints as its result. -/
def standardOutput : Outcome → String
  | finished printed _ => printed
  | _ => ""

/-- What a command tells about its work. -/
def standardError : Outcome → String
  | finished _ written => "".intercalate (written.map fun path => "wrote " ++ path ++ "\n")
  | refused command failure =>
    command ++ " failed [" ++ failure.kind ++ "]: " ++ failure.message ++ "\n"
  | _ => ""

end Outcome

end RunReport
