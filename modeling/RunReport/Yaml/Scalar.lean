import RunReport.Json.Parser
import RunReport.Yaml.Glyph

/-!
# Scalars

A scalar may run over several lines. Blanks at the end of a line and at the
start of the next do not count; a single line break becomes a space, and of
several only those after the first remain. A plain scalar ends before a
comment, before a colon with a blank after it, before a line that is not
indented enough and, within brackets, before a comma or a bracket. A quoted one
ends with its quote.
-/

namespace RunReport.Yaml

/-- What lies between two words of a scalar. -/
inductive Gap where
  /-- Blanks on one line. -/
  | blanks (cs : List Char)
  /-- Line breaks, the first of them apart; an escaped one is `none`. -/
  | breaks (first : Option Char) (others : List Char)

namespace Gap

/-- No gap at all. -/
def none : Gap := .blanks []

/-- Whether there is nothing between the words. -/
def isNone : Gap → Bool
  | .blanks [] => true
  | _ => false

/-- Whether the words stand on different lines. -/
def isBroken : Gap → Bool
  | .blanks _ => false
  | .breaks _ _ => true

/-- A gap with one more blank, which after a line break does not count. -/
def addBlank (c : Char) : Gap → Gap
  | .blanks cs => .blanks (cs ++ [c])
  | .breaks first others => .breaks first others

/-- A gap with one more line break; blanks before the first do not count. -/
def addBreak (c : Char) : Gap → Gap
  | .blanks _ => .breaks (some c) []
  | .breaks first others => .breaks first (others ++ [c])

/-- What a gap adds to the text. A first line break that is a line feed gives
way to the others or, if there are none, to a space. -/
def text : Gap → List Char
  | .blanks cs => cs
  | .breaks (some '\n') [] => [' ']
  | .breaks (some '\n') others => others
  | .breaks first others => first.toList ++ others

end Gap

/-- The characters of a plain scalar from a gap on, whether a line ended after
them, and what follows. A tab may not indent a line to fewer columns than
`least`. -/
def plainChars (inFlow : Bool) (least : Nat) :
    Gap → List Glyph → Option (List Char × Bool × List Glyph)
  | gap, [] => some ([], gap.isBroken, [])
  | gap, g :: rest =>
    if g.isBlank then
      if gap.isBroken && g.char = '\t' && g.column < least then none
      else plainChars inFlow least (gap.addBlank g.char) rest
    else if g.isBreak then plainChars inFlow least (gap.addBreak g.char) rest
    else if atDocumentMark (g :: rest)
        || (!gap.isNone && (g.char = '#' || (!inFlow && g.column < least)))
        || (g.char = ':' && atWordEnd rest)
        || (inFlow && atOneOf ",[]\x7b\x7d" (g :: rest)) then
      some ([], gap.isBroken, g :: rest)
    else if inFlow && g.char = ':' && atOneOf ",?[]\x7b\x7d" rest then none
    else do
      let (more, broken, left) ← plainChars inFlow least .none rest
      some (gap.text ++ g.char :: more, broken, left)

/-- The characters of a text in single quotes up to the closing one, and what
follows; a quote within is written twice. -/
def singleQuoted : Gap → List Glyph → Option (List Char × List Glyph)
  | _, [] => none
  | gap, g :: rest =>
    if g.isBlank then singleQuoted (gap.addBlank g.char) rest
    else if g.isBreak then singleQuoted (gap.addBreak g.char) rest
    else if atDocumentMark (g :: rest) then none
    else if g.char = '\'' then
      match rest with
      | second :: rest =>
        if second.char = '\'' then do
          let (more, left) ← singleQuoted .none rest
          some (gap.text ++ '\'' :: more, left)
        else some (gap.text, second :: rest)
      | [] => some (gap.text, [])
    else do
      let (more, left) ← singleQuoted .none rest
      some (gap.text ++ g.char :: more, left)

/-- The character of a number in hexadecimal digits. -/
def hexChar (digits : List Char) : Option Char := do
  let n := (← digits.mapM Json.hexValue).foldl (fun n d => n * 16 + d) 0
  if n < 0xD800 ∨ (0xE000 ≤ n ∧ n < 0x110000) then some (Char.ofNat n) else none

/-- Characters that have an escape of one letter. -/
def letterEscapes : List (Char × Char) :=
  [('0', '\x00'), ('a', '\x07'), ('b', '\x08'), ('t', '\t'), ('\t', '\t'), ('n', '\n'),
    ('v', '\x0b'), ('f', '\x0c'), ('r', '\r'), ('e', '\x1b'), (' ', ' '), ('"', '"'), ('/', '/'),
    ('\\', '\\'), ('N', '\u0085'), ('_', '\u00a0'), ('L', '\u2028'), ('P', '\u2029')]

/-- How many digits follow the letter of a numeric escape. -/
def escapeWidths : List (Char × Nat) := [('x', 2), ('u', 4), ('U', 8)]

/-- The character that an escape stands for, and how many characters come after
its letter. -/
def escaped (letter : Char) (rest : List Glyph) : Option (Char × Nat) :=
  match letterEscapes.lookup letter, escapeWidths.lookup letter with
  | some c, _ => some (c, 0)
  | none, some width =>
    if rest.length < width then none
    else (hexChar ((rest.take width).map (·.char))).map (·, width)
  | none, none => none

/-- The characters of a text in double quotes up to the closing one, and what
follows. A backslash at the end of a line joins it to the next. -/
def doubleQuoted : Nat → Gap → List Glyph → Option (List Char × List Glyph)
  | 0, _, _ => none
  | _, _, [] => none
  | fuel + 1, gap, g :: rest =>
    if g.isBlank then doubleQuoted fuel (gap.addBlank g.char) rest
    else if g.isBreak then doubleQuoted fuel (gap.addBreak g.char) rest
    else if atDocumentMark (g :: rest) then none
    else if g.char = '"' then some (gap.text, rest)
    else if g.char = '\\' then
      match rest with
      | [] => none
      | letter :: rest =>
        if letter.isBreak then do
          let (more, left) ← doubleQuoted fuel (.breaks none []) rest
          some (gap.text ++ more, left)
        else do
          let (c, width) ← escaped letter.char rest
          let (more, left) ← doubleQuoted fuel .none (rest.drop width)
          some (gap.text ++ c :: more, left)
    else do
      let (more, left) ← doubleQuoted fuel .none rest
      some (gap.text ++ g.char :: more, left)

/-- A text in quotes; the opening one comes first. -/
def quoted : List Glyph → Option (String × List Glyph)
  | [] => none
  | g :: rest => do
    let (cs, left) ←
      if g.char = '"' then doubleQuoted (rest.length + 1) .none rest else singleQuoted .none rest
    some (String.ofList cs, left)

end RunReport.Yaml
