import RunReport.Number.Numeral
import RunReport.Text.Split

/-!
# Paths and operations on files

A path is a text whose names are parted by slashes. It is relative unless it begins
with one. Texts are kept as they were given: joining adds no slash that is there
already, and nothing is resolved before the files are looked at.

The operations are what a command may do to files, whatever holds them: a directory
of the machine or a tree in memory. Reading stands apart from all that changes
something. No operation ends the command; each tells whether it succeeded.
-/

namespace RunReport.Path

/-- The names of a path. An empty name and a single point stand for the
directory that they occur in, two points for the one above it. -/
def names (path : String) : List String := Split.textParts '/' path

/-- Whether a path can be looked up at all: it holds no NUL and fewer than 4096
bytes. -/
def isUsable (path : String) : Bool :=
  !path.toList.contains '\x00' && path.utf8ByteSize < 4096

/-- Whether a name is short enough to be that of a file: 255 bytes at most. -/
def isFileName (name : String) : Bool := name.utf8ByteSize ≤ 255

/-- Whether a path begins at the root. -/
def isAbsolute (path : String) : Bool := path.toList.head? = some '/'

/-- A path seen from a directory; an absolute path is its own. -/
def join (directory path : String) : String :=
  if isAbsolute path || directory.isEmpty then path
  else if directory.toList.getLast? = some '/' then directory ++ path
  else directory ++ "/" ++ path

/-- Names without those at the end that stand for their own directory; the
first name stays. -/
def dropIdle (names : List String) : List String :=
  names.take 1 ++
    ((names.drop 1).reverse.dropWhile fun name => name = "" || name = ".").reverse

/-- The directory of the file at a path. -/
def directoryOf (path : String) : String :=
  let kept := dropIdle (names path).dropLast
  if kept = [""] && isAbsolute path then "/" else "/".intercalate kept

end RunReport.Path

namespace RunReport

/-- Files that can be looked at. -/
class FileReader (m : Type → Type) where
  /-- Whether there is a file at the path. -/
  isFile : String → m Bool
  /-- The text of the file at the path. -/
  readText : String → m (Option String)

/-- Files that can be changed. -/
class FileStore (m : Type → Type) extends FileReader m where
  /-- Writes a text to the file at the path, new or not. -/
  writeText : String → String → m Bool
  /-- Creates a directory and those above it that are missing. -/
  createDirectories : String → m Bool
  /-- Creates a directory of an unused name within a directory. -/
  createStaging : String → m (Option String)
  /-- Moves a file; a file at the target is replaced. -/
  move : String → String → m Bool
  /-- Removes a file. -/
  removeFile : String → m Bool
  /-- Removes a directory with all in it, if it can be removed. -/
  removeTree : String → m Unit

/-- The name of the n-th directory for files that are still to be moved. -/
def stagingName (n : Nat) : String := ".benchreport-" ++ Digits.text n

end RunReport
