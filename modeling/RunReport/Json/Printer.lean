import RunReport.Json.Basic
import RunReport.Number.Shortest

/-!
# JSON text

Compact text has no blank at all; indented text puts every item and member on
a line of its own. Characters outside ASCII stand for themselves. A number
that is infinite or undefined has no JSON form and is written `null`, as is
whatever denotes no value.
-/

namespace RunReport.Json

/-- Numbers with a fraction: an exponent below `1e-5` and from `1e16` on, its
sign always shown, and a point in every numeral without exponent. -/
def numberStyle : NumeralStyle := ⟨some (-4, 16), true, true, false⟩

/-- Blanks between the parts of a text. -/
inductive Spacing where
  /-- No blanks. -/
  | compact
  /-- One item a line, indented by two blanks for each level. -/
  | indented

/-- What stands in front of an item at the given depth. -/
def Spacing.lineBreak : Spacing → Nat → List Char
  | .compact, _ => []
  | .indented, depth => '\n' :: List.replicate (2 * depth) ' '

/-- What stands between a key and its value. -/
def Spacing.colon : Spacing → List Char
  | .compact => [':']
  | .indented => [':', ' ']

/-- The character of a hexadecimal digit. -/
def hexDigit (d : Nat) : Char := if d < 10 then Char.ofNat (48 + d) else Char.ofNat (87 + d)

/-- A character as it stands between quotes. -/
def escapeChar (c : Char) : List Char :=
  if c = '"' then ['\\', '"']
  else if c = '\\' then ['\\', '\\']
  else if c = '\x08' then ['\\', 'b']
  else if c = '\x0c' then ['\\', 'f']
  else if c = '\n' then ['\\', 'n']
  else if c = '\r' then ['\\', 'r']
  else if c = '\t' then ['\\', 't']
  else if c.toNat < 32 then
    ['\\', 'u', '0', '0', hexDigit (c.toNat / 16), hexDigit (c.toNat % 16)]
  else [c]

/-- A text in quotes. -/
def writeString (s : String) : List Char := '"' :: s.toList.flatMap escapeChar ++ ['"']

/-- The numeral of a number with a fraction. -/
def writeDecimal (x : Binary64) : List Char :=
  if x.isFinite then (numberStyle.write x).toList else "null".toList

mutual

/-- The text of a value that stands at the given depth. -/
def writeValue (spacing : Spacing) (depth : Nat) : Json → List Char
  | .null => "null".toList
  | .unreadable => "null".toList
  | .bool true => "true".toList
  | .bool false => "false".toList
  | .integer i => (Digits.intText i).toList
  | .decimal x => writeDecimal x
  | .string s => writeString s
  | .array [] => ['[', ']']
  | .array (j :: rest) =>
    '[' :: spacing.lineBreak (depth + 1) ++ writeValue spacing (depth + 1) j ++
      writeItems spacing depth rest
  | .object [] => ['\x7b', '\x7d']
  | .object ((key, j) :: rest) =>
    '\x7b' :: spacing.lineBreak (depth + 1) ++ writeString key ++ spacing.colon ++
      writeValue spacing (depth + 1) j ++ writeMembers spacing depth rest

/-- The items after the first and the end of the list. -/
def writeItems (spacing : Spacing) (depth : Nat) : List Json → List Char
  | [] => spacing.lineBreak depth ++ [']']
  | j :: rest =>
    ',' :: spacing.lineBreak (depth + 1) ++ writeValue spacing (depth + 1) j ++
      writeItems spacing depth rest

/-- The members after the first and the end of the object. -/
def writeMembers (spacing : Spacing) (depth : Nat) : List (String × Json) → List Char
  | [] => spacing.lineBreak depth ++ ['\x7d']
  | (key, j) :: rest =>
    ',' :: spacing.lineBreak (depth + 1) ++ writeString key ++ spacing.colon ++
      writeValue spacing (depth + 1) j ++ writeMembers spacing depth rest

end

/-- The value as text without blanks. -/
def compact (j : Json) : String := String.ofList (writeValue .compact 0 j)

/-- The value as indented text. -/
def pretty (j : Json) : String := String.ofList (writeValue .indented 0 j)

end RunReport.Json
