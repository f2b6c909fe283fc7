import RunReport.Json.Basic
import RunReport.Number.Numeral

/-!
# Reading JSON text

The reader accepts one value with blanks around it and nothing else. Whole
numbers that fit 64 bits, signed or unsigned, are kept exactly; every other
number is rounded to binary64. A number too large for that is well formed all
the same, and so is a text with an escape for half of a character: they become
unreadable values, and only what needs them is refused. Each reading step hands
on the text that it has not used, and the fuel that bounds the nesting is twice
the length of the text, more than any reading can spend.
-/

namespace RunReport.Json

/-- The four characters that may stand between the parts of a text. -/
def isBlank (c : Char) : Bool := c = ' ' || c = '\t' || c = '\n' || c = '\r'

/-- The text after its leading blanks. -/
def skipBlanks (cs : List Char) : List Char := cs.dropWhile isBlank

/-- The value of a hexadecimal digit. -/
def hexValue (c : Char) : Option Nat :=
  let n := c.toNat
  if '0' ≤ c ∧ c ≤ '9' then some (n - 48)
  else if 'a' ≤ c ∧ c ≤ 'f' then some (n - 87)
  else if 'A' ≤ c ∧ c ≤ 'F' then some (n - 55)
  else none

/-- Four hexadecimal digits and the text after them. -/
def readHex : List Char → Option (Nat × List Char)
  | a :: b :: c :: d :: rest => do
    let a ← hexValue a
    let b ← hexValue b
    let c ← hexValue c
    let d ← hexValue d
    some (((a * 16 + b) * 16 + c) * 16 + d, rest)
  | _ => none

/-- The character of a `\u` escape, whose digits come first. One beyond the
first plane is written as two escapes; half of such a pair is no character. -/
def readUnicode (cs : List Char) : Option (Option Char × List Char) := do
  let (first, rest) ← readHex cs
  if 0xD800 ≤ first ∧ first < 0xDC00 then
    match rest with
    | '\\' :: 'u' :: low => match readHex low with
      | some (second, after) =>
        if 0xDC00 ≤ second ∧ second < 0xE000 then
          let n := 0x10000 + (first - 0xD800) * 0x400 + (second - 0xDC00)
          some (some (Char.ofNat n), after)
        else some (none, rest)
      | none => some (none, rest)
    | _ => some (none, rest)
  else if 0xDC00 ≤ first ∧ first < 0xE000 then some (none, rest)
  else some (some (Char.ofNat first), rest)

/-- The character that an escape stands for; the backslash is already read. -/
def readEscape : List Char → Option (Option Char × List Char)
  | '"' :: rest => some (some '"', rest)
  | '\\' :: rest => some (some '\\', rest)
  | '/' :: rest => some (some '/', rest)
  | 'b' :: rest => some (some '\x08', rest)
  | 'f' :: rest => some (some '\x0c', rest)
  | 'n' :: rest => some (some '\n', rest)
  | 'r' :: rest => some (some '\r', rest)
  | 't' :: rest => some (some '\t', rest)
  | 'u' :: rest => readUnicode rest
  | _ => none

/-- The rest of a text in quotes, up to the closing one. -/
def readStringBody : Nat → List Char → Option (List (Option Char) × List Char)
  | 0, _ => none
  | _, [] => none
  | fuel + 1, c :: rest =>
    if c = '"' then some ([], rest)
    else if c = '\\' then do
      let (d, rest) ← readEscape rest
      let (body, rest) ← readStringBody fuel rest
      some (d :: body, rest)
    else if c.toNat < 32 then none
    else do
      let (body, rest) ← readStringBody fuel rest
      some (some c :: body, rest)

/-- The rest of a text in quotes as a text, unless a part of it is no character. -/
def readString (cs : List Char) : Option (Option String × List Char) :=
  (readStringBody (cs.length + 1) cs).map fun (body, rest) =>
    ((body.mapM id).map String.ofList, rest)

/-- Digits after a point, if there is one; a point needs at least one. -/
def readFraction : List Char → Option (List Char × List Char)
  | '.' :: rest =>
    let digits := rest.takeWhile Char.isDigit
    if digits.isEmpty then none else some (digits, rest.dropWhile Char.isDigit)
  | rest => some ([], rest)

/-- An exponent, if there is one; its mark needs at least one digit. -/
def readPower : List Char → Option (Option Int × List Char)
  | mark :: rest =>
    if mark = 'e' || mark = 'E' then
      let (negative, body) := Decimal.readSign rest
      let digits := body.takeWhile Char.isDigit
      if digits.isEmpty then none
      else
        let power : Int := if negative then -(Digits.value digits : Int) else Digits.value digits
        some (some power, body.dropWhile Char.isDigit)
    else some (none, mark :: rest)
  | [] => some (none, [])

/-- A number with a fraction; one that is too large denotes nothing. -/
def ofDecimal (d : Decimal) : Json :=
  let x := d.toBinary64
  if x.isFinite then .decimal x else .unreadable

/-- A number without fraction and exponent. Minus zero and numbers beyond 64
bits are not kept as integers. -/
def ofWhole (negative : Bool) (digits : List Char) : Json :=
  let n := Digits.value digits
  if negative then
    if 0 < n ∧ n ≤ 2 ^ 63 then .integer (-(n : Int)) else ofDecimal ⟨true, n, 0⟩
  else if n < 2 ^ 64 then .integer n
  else ofDecimal ⟨false, n, 0⟩

/-- A number. Its whole part has no superfluous zero in front. -/
def readNumber (cs : List Char) : Option (Json × List Char) := do
  let (negative, body) := match cs with
    | '-' :: rest => (true, rest)
    | rest => (false, rest)
  let whole := body.takeWhile Char.isDigit
  if whole.isEmpty || (whole.head? == some '0' && 1 < whole.length) then none
  else
    let (fraction, rest) ← readFraction (body.dropWhile Char.isDigit)
    let (power, rest) ← readPower rest
    let number :=
      if fraction.isEmpty && power.isNone then ofWhole negative whole
      else ofDecimal (Decimal.ofParts negative whole fraction (power.getD 0))
    some (number, rest)

/-- A text value; nothing that can be read if a part of it is no character. -/
def ofText : Option String → Json
  | some s => .string s
  | none => .unreadable

/-- An object; nothing that can be read if a part of a key is no character. -/
def ofMembers (members : List (Option String × Json)) : Json :=
  match members.mapM fun (key, j) => key.map (·, j) with
  | some members => .object members
  | none => .unreadable

mutual

/-- One value after leading blanks, and the text after it. -/
def readValue : Nat → List Char → Option (Json × List Char)
  | 0, _ => none
  | fuel + 1, cs =>
    match skipBlanks cs with
    | 'n' :: 'u' :: 'l' :: 'l' :: rest => some (.null, rest)
    | 't' :: 'r' :: 'u' :: 'e' :: rest => some (.bool true, rest)
    | 'f' :: 'a' :: 'l' :: 's' :: 'e' :: rest => some (.bool false, rest)
    | '"' :: rest => (readString rest).map fun (s, rest) => (ofText s, rest)
    | '[' :: rest =>
      match skipBlanks rest with
      | ']' :: rest => some (.array [], rest)
      | _ => (readItems fuel rest).map fun (items, rest) => (.array items, rest)
    | '\x7b' :: rest =>
      match skipBlanks rest with
      | '\x7d' :: rest => some (.object [], rest)
      | _ => (readMembers fuel rest).map fun (members, rest) => (ofMembers members, rest)
    | other => readNumber other

/-- At least one item, commas between them, and the closing bracket. -/
def readItems : Nat → List Char → Option (List Json × List Char)
  | 0, _ => none
  | fuel + 1, cs => do
    let (j, rest) ← readValue fuel cs
    match skipBlanks rest with
    | ',' :: rest =>
      let (items, rest) ← readItems fuel rest
      some (j :: items, rest)
    | ']' :: rest => some ([j], rest)
    | _ => none

/-- At least one member, commas between them, and the closing brace. -/
def readMembers : Nat → List Char → Option (List (Option String × Json) × List Char)
  | 0, _ => none
  | fuel + 1, cs =>
    match skipBlanks cs with
    | '"' :: rest => do
      let (key, rest) ← readString rest
      match skipBlanks rest with
      | ':' :: rest =>
        let (j, rest) ← readValue fuel rest
        match skipBlanks rest with
        | ',' :: rest =>
          let (members, rest) ← readMembers fuel rest
          some ((key, j) :: members, rest)
        | '\x7d' :: rest => some ([(key, j)], rest)
        | _ => none
      | _ => none
    | _ => none

end

/-- The value that a text holds, with blanks around it and nothing else. -/
def parse (text : String) : Option Json :=
  let cs := text.toList
  match readValue (2 * cs.length + 1) cs with
  | some (j, rest) => if (skipBlanks rest).isEmpty then some j else none
  | none => none

end RunReport.Json
