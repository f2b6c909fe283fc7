import RunReport.Number.Shortest

/-!
# Why a report is refused

Every refusal is final: it ends the report or the merge it belongs to. A
failure names its kind and carries what a reader needs to find the cause; its
message is one sentence made from those members. What cannot be written at all has
no cause that is told: the program just ends.
-/

namespace RunReport

/-- The cause for which a report or a merge was refused. -/
inductive Failure where
  /-- Two distributions on different probability grids were to be merged. -/
  | incompatibleDistributions (metric : Option String) (left right : List Binary64)
  /-- A distribution breaks a rule of distributions. -/
  | invalidDistribution (reason : String)
  /-- A number of decimal places below zero. -/
  | invalidPrecision (precision : Int)
  /-- A field that the registry or a table does not have. -/
  | unknownField (name : String) (place : Option String)
  /-- Two fields of one registry share a name. -/
  | duplicateField (name : String)
  /-- Two sections claim one name, or a section claims a reserved one. -/
  | sectionCollision (what name other : String)
  /-- Nothing to merge, compare or tabulate. -/
  | emptyRunSet (context : String)
  /-- A key that the dictionary does not define. -/
  | missingMetricDefinition (key referencedBy : String)
  /-- A template that cannot be filled in. -/
  | templateError (format message : String)
  deriving DecidableEq

namespace Failure

/-- Numbers within a sentence: never an exponent, no point in whole numbers. -/
def sentenceStyle : NumeralStyle := ⟨none, false, false, true⟩

/-- Numbers within a list: an exponent below `1e-4` and from `1e16` on, and a
point in every numeral without exponent. -/
def listStyle : NumeralStyle := ⟨some (-3, 16), true, false, true⟩

/-- A list of numbers in brackets. -/
def numberList (xs : List Binary64) : String :=
  "[" ++ ", ".intercalate (xs.map listStyle.write) ++ "]"

/-- The kind of a failure, one stable word for each cause. -/
def kind : Failure → String
  | incompatibleDistributions _ _ _ => "IncompatibleDistributions"
  | invalidDistribution _ => "InvalidDistribution"
  | invalidPrecision _ => "InvalidPrecision"
  | unknownField _ _ => "UnknownField"
  | duplicateField _ => "DuplicateField"
  | sectionCollision _ _ _ => "SectionCollision"
  | emptyRunSet _ => "EmptyRunSet"
  | missingMetricDefinition _ _ => "MissingMetricDefinition"
  | templateError _ _ => "TemplateError"

/-- The sentence that reports a failure. -/
def message : Failure → String
  | incompatibleDistributions metric left right =>
    let named := match metric with
      | some m => " for '" ++ m ++ "'"
      | none => ""
    "incompatible distributions" ++ named ++ ": probability grid " ++ numberList left ++
      " vs " ++ numberList right
  | invalidDistribution reason => "invalid distribution: " ++ reason
  | invalidPrecision precision =>
    "invalid precision " ++ Digits.intText precision ++ ": must be >= 0"
  | unknownField name place =>
    let located := match place with
      | some p => " in " ++ p
      | none => ""
    "unknown field '" ++ name ++ "'" ++ located
  | duplicateField name => "duplicate field '" ++ name ++ "' in registry"
  | sectionCollision what name other =>
    "section " ++ what ++ " '" ++ name ++ "' collides with " ++ other
  | emptyRunSet context => "empty run set: " ++ context
  | missingMetricDefinition key referencedBy =>
    "missing metric definition for '" ++ key ++ "' (referenced by " ++ referencedBy ++ ")"
  | templateError format message => "template error (" ++ format ++ "): " ++ message

end Failure

/-- Why there is no result. -/
inductive Halt where
  /-- It is refused for a cause. -/
  | refused (failure : Failure)
  /-- The program ends without a cause. -/
  | crashed
  deriving DecidableEq

end RunReport
