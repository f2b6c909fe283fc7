import RunReport.Number.Arithmetic

/-!
# JSON values

A value keeps the order of its object members and tells whole numbers from
fractional ones, because both show in the texts that are written from it.
Reading a text may give an object with a repeated key; `normal` keeps the last
member of each key at the place of the first. It may also give a value that is
unreadable, which does no harm where nobody asks for it.
-/

namespace RunReport

/-- A JSON value. -/
inductive Json where
  /-- The value `null`. -/
  | null
  /-- A truth value. -/
  | bool (b : Bool)
  /-- A number written without fraction and exponent. -/
  | integer (i : Int)
  /-- Any other number. -/
  | decimal (x : Binary64)
  /-- A text. -/
  | string (s : String)
  /-- A list of values. -/
  | array (items : List Json)
  /-- Keyed values in their order. -/
  | object (members : List (String × Json))
  /-- What is well formed and denotes no value: a number beyond the finite ones,
  a text with half of a character in it, an object with such a key. -/
  | unreadable

namespace Json

/-- The member of the given key in a list of keyed values. -/
def lookup (key : String) : List (String × Json) → Option Json
  | [] => none
  | (k, v) :: rest => if k = key then some v else lookup key rest

/-- Sets the member of the given key: in its place if there is one, else at the end. -/
def upsert (key : String) (v : Json) : List (String × Json) → List (String × Json)
  | [] => [(key, v)]
  | (k, w) :: rest => if k = key then (k, v) :: rest else (k, w) :: upsert key v rest

/-- The member of an object; nothing for other values. -/
def get? (key : String) : Json → Option Json
  | .object members => lookup key members
  | _ => none

/-- An object with one more member; other values stay as they are. -/
def set (j : Json) (key : String) (v : Json) : Json :=
  match j with
  | .object members => .object (upsert key v members)
  | _ => j

mutual

/-- The value with every text in it, at any depth, replaced. Keys stay. -/
def mapStrings (f : String → String) : Json → Json
  | .string s => .string (f s)
  | .array items => .array (mapStringsItems f items)
  | .object members => .object (mapStringsMembers f members)
  | j => j

/-- `mapStrings` on each item of a list. -/
def mapStringsItems (f : String → String) : List Json → List Json
  | [] => []
  | j :: rest => mapStrings f j :: mapStringsItems f rest

/-- `mapStrings` on each value of a list of members. -/
def mapStringsMembers (f : String → String) : List (String × Json) → List (String × Json)
  | [] => []
  | (key, j) :: rest => (key, mapStrings f j) :: mapStringsMembers f rest

end

mutual

/-- The value with every object reduced to one member for each key, the last
one given, at the place of the first. -/
def normal : Json → Json
  | .array items => .array (normalItems items)
  | .object members => .object (normalMembers [] members)
  | j => j

/-- `normal` on each item of a list. -/
def normalItems : List Json → List Json
  | [] => []
  | j :: rest => normal j :: normalItems rest

/-- Adds members one by one to those already collected. -/
def normalMembers (collected : List (String × Json)) : List (String × Json) → List (String × Json)
  | [] => collected
  | (key, j) :: rest => normalMembers (upsert key (normal j) collected) rest

end

end Json

end RunReport
