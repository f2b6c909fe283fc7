import RunReport.Json.Printer
import RunReport.Text.Split

/-!
# Templates

A template is literal text with tags `{{ path }}` in it. A tag begins at the
leftmost double brace and ends at the leftmost closing one after it. Its path
leads through objects by key and through arrays by index to one scalar value,
which takes the tag's place; inserted text is never read again. The text is
first cut into pieces, which are then filled in from left to right, so the
first offending tag is the one reported, by its byte position.
-/

namespace RunReport.Template

/-- A part of a template. -/
inductive Piece where
  /-- Text that stands for itself. -/
  | literal (text : List Char)
  /-- What stands between double braces, and the byte at which the tag begins. -/
  | tag (start : Nat) (body : List Char)
  /-- A tag without end. -/
  | unterminated (start : Nat)
  deriving DecidableEq

/-- Bytes of a list of characters in UTF-8. -/
def byteLength (cs : List Char) : Nat := cs.foldl (fun n c => n + c.utf8Size) 0

/-- What the reader is in the middle of: literal text, or a tag that began at
the given byte. -/
inductive Mode where
  /-- Literal text. -/
  | literal
  /-- A tag. -/
  | tag (start : Nat)

/-- Cuts a text into pieces. The characters of the present piece come in
reverse in `held`; `position` counts the bytes before the text. -/
def cut : Mode → List Char → Nat → List Char → List Piece
  | .literal, held, position, '\x7b' :: '\x7b' :: rest =>
    .literal held.reverse :: cut (.tag position) [] (position + 2) rest
  | .literal, held, position, c :: rest =>
    cut .literal (c :: held) (position + c.utf8Size) rest
  | .literal, held, _, [] => [.literal held.reverse]
  | .tag start, held, position, '\x7d' :: '\x7d' :: rest =>
    .tag start held.reverse :: cut .literal [] (position + 2) rest
  | .tag start, held, position, c :: rest =>
    cut (.tag start) (c :: held) (position + c.utf8Size) rest
  | .tag start, _, _, [] => [.unterminated start]

/-- The pieces of a template. -/
def pieces (source : String) : List Piece := cut .literal [] 0 source.toList

/-- Why a template cannot be filled in. -/
inductive Fault where
  /-- A tag without end, at the given byte. -/
  | unterminated (start : Nat)
  /-- A tag with nothing in it, at the given byte. -/
  | emptyTag (start : Nat)
  /-- A path that leads nowhere. -/
  | missing (path : String)
  /-- A path that leads to an object or an array. -/
  | notScalar (path : String)
  deriving DecidableEq

/-- The fault in words. -/
def Fault.message : Fault → String
  | unterminated start => "unterminated tag at byte " ++ Digits.text start
  | emptyTag start => "empty tag at byte " ++ Digits.text start
  | missing path => "missing variable '" ++ path ++ "'"
  | notScalar path => "variable '" ++ path ++ "' is not a scalar"

/-- The parts of a path between its points. -/
def segments : List Char → List (List Char)
  | [] => [[]]
  | c :: rest =>
    if c = '.' then [] :: segments rest
    else match segments rest with
      | first :: others => (c :: first) :: others
      | [] => [[c]]

/-- The index that a segment denotes: digits, a plus sign being allowed, of a
number below the machine's limit. -/
def index? (segment : List Char) : Option Nat :=
  let digits := match segment with
    | '+' :: rest => rest
    | rest => rest
  if digits.isEmpty || !digits.all Char.isDigit then none
  else if Digits.value digits < 2 ^ 64 then some (Digits.value digits)
  else none

/-- One step of a path. -/
def step (segment : List Char) : Json → Option Json
  | .object members => Json.lookup (String.ofList segment) members
  | .array items => (index? segment).bind fun i => items[i]?
  | _ => none

/-- The value that a path leads to. -/
def resolve (context : Json) (path : List Char) : Option Json :=
  (segments path).foldlM (fun node segment => step segment node) context

/-- The text of a scalar; objects, arrays and what denotes no value have none. -/
def scalarText : Json → Option (List Char)
  | .string s => some s.toList
  | .null => some []
  | .bool b => some (Json.writeValue .compact 0 (.bool b))
  | .integer i => some (Json.writeValue .compact 0 (.integer i))
  | .decimal x => some (Json.writeValue .compact 0 (.decimal x))
  | .array _ => none
  | .object _ => none
  | .unreadable => none

/-- What takes the place of a piece. -/
def fill (context : Json) : Piece → Except Fault (List Char)
  | .literal text => .ok text
  | .unterminated start => .error (.unterminated start)
  | .tag start body =>
    let path := Text.trim body
    if path.isEmpty then .error (.emptyTag start)
    else match resolve context path with
      | none => .error (.missing (String.ofList path))
      | some j => match scalarText j with
        | some text => .ok text
        | none => .error (.notScalar (String.ofList path))

/-- The texts of pieces one after the other, up to the first fault. -/
def fillAll (context : Json) : List Piece → Except Fault (List Char)
  | [] => .ok []
  | piece :: rest => do
    let text ← fill context piece
    let others ← fillAll context rest
    return text ++ others

/-- The template filled in from a context. -/
def render (source : String) (context : Json) : Except Fault String :=
  (fillAll context (pieces source)).map String.ofList

end RunReport.Template
