import RunReport.Json.Basic

/-!
# Reading records

A value is taken for what it is and nothing is converted, with one exception: a whole
number may stand where a fraction is expected, never the reverse.

A record is read from an object by name, where unknown keys are passed over
and a repeated known key is refused, or from an array by position. Its members
are read independently and joined; of several refusals the one that stands
first in the text is reported, and an absent member comes after all that are
given.
-/

namespace RunReport.Json

/-- The text of a text value. -/
def asString : Json → Option String
  | .string s => some s
  | _ => none

/-- The natural number below `bound` that an integer denotes. -/
def asNatBelow (bound : Nat) : Json → Option Nat
  | .integer i => if 0 ≤ i ∧ i < bound then some i.toNat else none
  | _ => none

/-- The binary64 number nearest to a number. -/
def asBinary64 : Json → Option Binary64
  | .integer i => some (Binary64.ofInt i)
  | .decimal x => some x
  | _ => none

/-- Why a value cannot be read. -/
inductive Refusal where
  /-- It has not the right form. -/
  | malformed
  /-- It has the right form and breaks a rule of its type. -/
  | rejected (reason : String)
  deriving DecidableEq

/-- A value that lacks the right form is refused as malformed. -/
def required {α : Type} : Option α → Except Refusal α
  | some a => .ok a
  | none => .error .malformed

/-- The outcome of reading members: a value, or the first refusal and its
place among the members. -/
inductive Reading (α : Type) where
  /-- All members were read. -/
  | done (value : α)
  /-- A member at the given place was refused. -/
  | refused (place : Nat) (cause : Refusal)

namespace Reading

/-- A function of what was read. -/
def map {α β : Type} (f : α → β) : Reading α → Reading β
  | done a => done (f a)
  | refused place cause => refused place cause

/-- Joins two readings; of two refusals the one with the lesser place stays. -/
def seq {α β : Type} : Reading (α → β) → Reading α → Reading β
  | done f, done a => done (f a)
  | done _, refused place cause => refused place cause
  | refused place cause, done _ => refused place cause
  | refused p c, refused q d => if p ≤ q then refused p c else refused q d

instance : Applicative Reading where
  pure := done
  map := map
  seq f x := seq f (x ())

end Reading

/-- Members of a record in the order of the text, and whether the text has
values beyond the last member. -/
structure Record where
  /-- Names and values. -/
  members : List (String × Json)
  /-- Whether an array is longer than the record. -/
  surplus : Bool

/-- The members of an object, or of an array whose items have the given names. -/
def asRecord (names : List String) : Json → Option Record
  | .object members => some ⟨members, false⟩
  | .array items => some ⟨names.zip items, names.length < items.length⟩
  | _ => none

namespace Record

/-- Places and values of the members of one name. -/
def occurrences (r : Record) (name : String) : List (Nat × Json) :=
  (r.members.zipIdx.filter fun (m, _) => m.1 = name).map fun (m, place) => (place, m.2)

/-- A member that stands at the given place. -/
def readAt {α : Type} (read : Json → Except Refusal α) (place : Nat) (j : Json) : Reading α :=
  match read j with
  | .ok a => .done a
  | .error cause => .refused place cause

/-- A member, or `absent` when it is not given. -/
def memberOr {α : Type} (r : Record) (name : String) (absent : Reading α)
    (read : Json → Except Refusal α) : Reading α :=
  match r.occurrences name with
  | [] => absent
  | (place, j) :: others => match readAt read place j, others with
    | .done _, (second, _) :: _ => .refused second .malformed
    | reading, _ => reading

/-- A member that must be given. -/
def field {α : Type} (r : Record) (name : String) (read : Json → Except Refusal α) : Reading α :=
  r.memberOr name (.refused r.members.length .malformed) read

/-- A member with a value to stand for it when it is not given. -/
def fieldOr {α : Type} (r : Record) (name : String) (standard : α)
    (read : Json → Except Refusal α) : Reading α :=
  r.memberOr name (.done standard) read

end Record

/-- Reads a record with members of the given names. -/
def readRecord {α : Type} (names : List String) (read : Record → Reading α) (j : Json) :
    Except Refusal α :=
  match j.asRecord names with
  | none => .error .malformed
  | some r => match read r with
    | .refused _ cause => .error cause
    | .done a => if r.surplus then .error .malformed else .ok a

/-- A text. -/
def readText (j : Json) : Except Refusal String := required j.asString

/-- A natural number below `bound`. -/
def readBelow (bound : Nat) (j : Json) : Except Refusal Nat := required (j.asNatBelow bound)

/-- A 64-bit natural number. -/
def readCount (j : Json) : Except Refusal UInt64 := (readBelow (2 ^ 64) j).map UInt64.ofNat

/-- A 32-bit natural number. -/
def readSmallCount (j : Json) : Except Refusal UInt32 := (readBelow (2 ^ 32) j).map UInt32.ofNat

/-- A binary64 number. -/
def readNumeric (j : Json) : Except Refusal Binary64 := required j.asBinary64

/-- A list whose items are read one by one. -/
def readList {α : Type} (read : Json → Except Refusal α) : Json → Except Refusal (List α)
  | .array items => items.mapM read
  | _ => .error .malformed

/-- A value or `null`. -/
def readOptional {α : Type} (read : Json → Except Refusal α) : Json → Except Refusal (Option α)
  | .null => .ok none
  | j => (read j).map some

end RunReport.Json
