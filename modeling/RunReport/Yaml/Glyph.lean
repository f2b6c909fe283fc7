/-!
# Characters in their places

Indentation gives a YAML text its shape, so every character is kept with its
line and column. A carriage return with a line feed after it is one line break.
It counts as a line feed, as a carriage return alone and the next-line control
do; the line and the paragraph separator end a line too and stay what they are.
-/

namespace RunReport.Yaml

/-- A character and where it stands. -/
structure Glyph where
  /-- The character. -/
  char : Char
  /-- Characters before it in the text. -/
  index : Nat
  /-- Line breaks before it in the text. -/
  line : Nat
  /-- Characters before it on its line. -/
  column : Nat

/-- Whether a character may occur in a text: every one but the two highest of the
first plane and the controls that neither part words nor end lines. -/
def isPrintable (c : Char) : Bool :=
  let n := c.toNat
  n = 0x9 || n = 0xA || n = 0xD || (0x20 ≤ n && n ≤ 0x7E) || n = 0x85 ||
    (0xA0 ≤ n && n ≤ 0xFFFD) || 0x10000 ≤ n

/-- Whether a character ends a line. -/
def isBreak (c : Char) : Bool := "\n\r\u0085\u2028\u2029".toList.contains c

/-- The character that stands for a line break. -/
def breakChar (c : Char) : Char := if c = '\r' || c = '\u0085' then '\n' else c

/-- Characters with their places, from the given place on. -/
def placed (index line column : Nat) : List Char → List Glyph
  | [] => []
  | '\r' :: '\n' :: rest => ⟨'\n', index, line, column⟩ :: placed (index + 2) (line + 1) 0 rest
  | c :: rest =>
    if isBreak c then ⟨breakChar c, index, line, column⟩ :: placed (index + 1) (line + 1) 0 rest
    else ⟨c, index, line, column⟩ :: placed (index + 1) line (column + 1) rest

/-- The characters of a text in their places; nothing if one may not occur. -/
def glyphs (text : String) : Option (List Glyph) :=
  if text.toList.all isPrintable then some (placed 0 0 0 text.toList) else none

namespace Glyph

/-- Whether a character parts words within a line. -/
def isBlank (g : Glyph) : Bool := g.char = ' ' || g.char = '\t'

/-- Whether a character ends a line. -/
def isBreak (g : Glyph) : Bool := Yaml.isBreak g.char

end Glyph

/-- Whether a blank, a line break or the end of the text comes next. -/
def atWordEnd : List Glyph → Bool
  | [] => true
  | g :: _ => g.isBlank || g.isBreak

/-- Whether a line begins here with three hyphens or three points on their own. -/
def atDocumentMark : List Glyph → Bool
  | a :: b :: c :: rest =>
    a.column = 0 && (a.char = '-' || a.char = '.') && b.char = a.char && c.char = a.char &&
      atWordEnd rest
  | _ => false

/-- Whether one of the given characters comes next. -/
def atOneOf (cs : String) : List Glyph → Bool
  | [] => false
  | g :: _ => cs.toList.contains g.char

end RunReport.Yaml
