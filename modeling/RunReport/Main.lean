import RunReport.Command.Invocation
import Std.Time.DateTime

/-!
# The program

The commands on the files of the machine. All decisions are made elsewhere;
this module reads, writes and prints.
-/

namespace RunReport

/-- What an action on a file comes to, or the given value if it fails or the
path cannot be that of a file. -/
def onPath {α : Type} (path : String) (failed : α) (action : IO α) : IO α := do
  if Path.isUsable path then
    try action catch _ => return failed
  else return failed

/-- Whether an action on a file succeeds. -/
def succeeds (path : String) (action : IO Unit) : IO Bool :=
  onPath path false do
    action
    return true

/-- The first of the numbered directories that can be created, at most `count`
of them tried. -/
def createNumbered (directory : String) : (count : Nat) → IO (Option String)
  | 0 => return none
  | count + 1 => do
    let path := Path.join directory (stagingName count)
    if ← succeeds path (IO.FS.createDir path) then return some path
    else createNumbered directory count

/-- The files of the machine. -/
instance : FileStore IO where
  isFile path := onPath path false do
    return (← (← IO.FS.realPath path).metadata).type == .file
  readText path := onPath path none do return some (← IO.FS.readFile path)
  writeText path text := succeeds path (IO.FS.writeFile path text)
  createDirectories path :=
    if path.isEmpty then return true else succeeds path (IO.FS.createDirAll path)
  createStaging directory := createNumbered directory 1000
  move source target := onPath source false (succeeds target (IO.FS.rename source target))
  removeFile path := succeeds path (IO.FS.removeFile path)
  removeTree path := do let _ ← succeeds path (IO.FS.removeDirAll path)

/-- The present time. -/
def presentTime : IO Timestamp := do
  let now := Std.Time.DateTime.ofTimestamp (← Std.Time.Timestamp.now) .UTC
  let day : CalendarDay := ⟨now.year.toInt, now.month.toNat, now.day.toNat⟩
  let time : TimeOfDay := ⟨now.hour.toNat, now.minute.toNat, now.second.toNat, 0⟩
  match Timestamp.ofLocal day time 0 with
  | some t => return t
  | none => throw (IO.userError "the clock is out of range")

/-- What is told of a wrong use. -/
def usageText : String :=
  "usage: benchreport report --base RUN [--compare RUN]... [-f FORMAT,...] [-o DIR]\n" ++
  "           [-c CONFIG] [--author AUTHOR] [--date DATE] [--dictionary FILE]\n" ++
  "           [--template FORMAT=PATH]... [--emit-context]\n" ++
  "       benchreport merge RUN... [--table machperf|blockprop] [-o FILE]\n" ++
  "       benchreport --version\n"

end RunReport

open RunReport in
/-- Carries out a command line and exits with its code. -/
def main (words : List String) : IO UInt32 := do
  let env := { author := ← IO.getEnv "BENCHREPORT_AUTHOR", now := ← presentTime }
  let outcome ← invoke .standard env words
  IO.print outcome.standardOutput
  IO.eprint outcome.standardError
  match outcome with
  | .abandoned cause => IO.eprintln ("fatal: " ++ cause.message)
  | .crashed => IO.eprintln "fatal: a table is too wide"
  | .misused => IO.eprint usageText
  | .version => IO.print versionText
  | _ => pure ()
  return UInt32.ofNat outcome.exitCode
