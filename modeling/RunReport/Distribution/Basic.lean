import RunReport.Failure
import RunReport.Json.Record
import RunReport.Number.Numeral

/-!
# Distributions of one metric

A distribution holds no samples. It has their count, an estimate of the
centre, a spread, the range and the values at the probabilities of a grid.
The number system is a parameter: reports use binary64, and the rules for
merging can also be read over exact numbers. `make` accepts a binary64
distribution that breaks none of the rules and otherwise names the first one
that it breaks.

A report writes numbers with the places of its fields, which are few. Whoever
asks for a single number may name any count of decimal places. A count below
zero is refused with its cause; a count beyond what a numeral can have ends the
program.

In JSON a distribution has all its members under stable names. Reading takes the
members and then applies the rules, so that no broken distribution comes out of a
text.
-/

namespace RunReport

/-- One point of a percentile table. -/
structure Centile (α : Type) where
  /-- A probability, from 0 to 1. -/
  probability : α
  /-- The value below which that share of the samples lies. -/
  value : α
  deriving DecidableEq

/-- The summary of a metric's samples. -/
structure Distribution (α : Type) where
  /-- Number of samples. -/
  sampleCount : UInt64
  /-- Estimate of the centre. -/
  centrality : α
  /-- Standard deviation. -/
  spread : α
  /-- Values on the probability grid. -/
  percentiles : List (Centile α)
  /-- Least value. -/
  rangeLow : α
  /-- Greatest value. -/
  rangeHigh : α
  deriving DecidableEq

/-- A number read off a distribution. -/
inductive Statistic where
  /-- The centre. -/
  | centrality
  /-- The standard deviation. -/
  | spread
  /-- The least value. -/
  | low
  /-- The greatest value. -/
  | high
  /-- The number of samples. -/
  | count
  /-- The value at a probability of the grid. -/
  | percentile (probability : Binary64)
  deriving DecidableEq

namespace Distribution

/-- The probabilities of the percentile table. -/
def grid {α : Type} (d : Distribution α) : List α := d.percentiles.map (·.probability)

/-- Two probabilities that are this close are the same grid point. -/
def gridTolerance : Binary64 := (⟨false, 1, -12⟩ : Decimal).toBinary64

/-- Whether two probabilities are the same grid point. -/
def sameGridPoint (p q : Binary64) : Bool := (p.sub q).abs.le gridTolerance

/-- The rules of distributions, each with what breaks it. -/
inductive Defect where
  /-- A member is infinite or undefined. -/
  | nonFinite
  /-- The spread is below zero. -/
  | negativeSpread (spread : Binary64)
  /-- The centre is not within the range. -/
  | centralityOutside (centrality low high : Binary64)
  /-- The grid has fewer than two points. -/
  | shortGrid (size : Nat)
  /-- A probability is not within 0 and 1. -/
  | probabilityOutside (p : Binary64)
  /-- A probability is not above the one before it. -/
  | notIncreasing (p q : Binary64)
  deriving DecidableEq

/-- A broken rule in words. -/
def Defect.message : Defect → String
  | nonFinite => "non-finite value in summary"
  | negativeSpread spread => "negative spread " ++ Failure.sentenceStyle.write spread
  | centralityOutside centrality low high =>
    "centrality " ++ Failure.sentenceStyle.write centrality ++ " outside range [" ++
      Failure.sentenceStyle.write low ++ ", " ++ Failure.sentenceStyle.write high ++ "]"
  | shortGrid size =>
    "percentile grid needs at least a low and a high point, got " ++ Digits.text size
  | probabilityOutside p => "probability " ++ Failure.sentenceStyle.write p ++ " outside [0, 1]"
  | notIncreasing p q =>
    "probabilities not strictly increasing at " ++ Failure.sentenceStyle.write p ++ " -> " ++
      Failure.sentenceStyle.write q

/-- Every member that has to be finite. -/
def values (d : Distribution Binary64) : List Binary64 :=
  d.centrality :: d.spread :: d.rangeLow :: d.rangeHigh :: d.percentiles.map (·.value)

/-- The first neighbours of a list of probabilities that do not increase. -/
def firstDescent : List Binary64 → Option (Binary64 × Binary64)
  | p :: q :: rest => if q.le p then some (p, q) else firstDescent (q :: rest)
  | _ => none

/-- Whether a probability lies within 0 and 1. -/
def isProbability (p : Binary64) : Bool := (Binary64.zero false).le p && p.le (Binary64.ofNat 1)

/-- The first rule that a distribution breaks. -/
def defect? (d : Distribution Binary64) : Option Defect :=
  if !d.values.all Binary64.isFinite then some .nonFinite
  else if d.spread.lt (Binary64.zero false) then some (.negativeSpread d.spread)
  else if !(d.rangeLow.le d.centrality && d.centrality.le d.rangeHigh) then
    some (.centralityOutside d.centrality d.rangeLow d.rangeHigh)
  else if d.percentiles.length < 2 then some (.shortGrid d.percentiles.length)
  else match d.grid.find? (fun p => !isProbability p) with
    | some p => some (.probabilityOutside p)
    | none => (firstDescent d.grid).map fun (p, q) => .notIncreasing p q

/-- The distribution itself if it breaks no rule. -/
def make (d : Distribution Binary64) : Except Defect (Distribution Binary64) :=
  match d.defect? with
  | some defect => .error defect
  | none => .ok d

/-- Numerical equality member by member. -/
def same (a b : Distribution Binary64) : Bool :=
  a.sampleCount == b.sampleCount && a.centrality.same b.centrality && a.spread.same b.spread &&
    a.percentiles.length == b.percentiles.length &&
    (a.percentiles.zip b.percentiles).all (fun (x, y) =>
      x.probability.same y.probability && x.value.same y.value) &&
    a.rangeLow.same b.rangeLow && a.rangeHigh.same b.rangeHigh

/-- The value at a probability, if that is a point of the grid. -/
def percentile? (d : Distribution Binary64) (p : Binary64) : Option Binary64 :=
  (d.percentiles.find? fun c => sameGridPoint c.probability p).map (·.value)

/-- A number read off the distribution; a percentile may be off the grid. -/
def statistic? (d : Distribution Binary64) : Statistic → Option Binary64
  | .centrality => some d.centrality
  | .spread => some d.spread
  | .low => some d.rangeLow
  | .high => some d.rangeHigh
  | .count => some (Binary64.ofNat d.sampleCount.toNat)
  | .percentile p => d.percentile? p

end Distribution

/-- A statistic by name. -/
def Statistic.text : Statistic → String
  | centrality => "Centrality"
  | spread => "Spread"
  | low => "Low"
  | high => "High"
  | count => "Count"
  | percentile p => "Percentile(" ++ Failure.listStyle.write p ++ ")"

/-- A number with the given count of decimal places, which must not be negative. -/
def Binary64.fixed? (x : Binary64) (precision : Int) : Except Failure String :=
  if precision < 0 then .error (.invalidPrecision precision) else .ok (x.fixed precision.toNat)

namespace Distribution

/-- A number read off the distribution, as fixed-point text. -/
def statisticText (d : Distribution Binary64) (statistic : Statistic) (precision : Int) :
    Except Failure String :=
  match d.statistic? statistic with
  | some x => x.fixed? precision
  | none => .error (.invalidDistribution
      ("no percentile " ++ statistic.text ++ " on grid " ++ Failure.numberList d.grid))

end Distribution

/-- The most decimal places that a numeral can have. -/
def placesLimit : Int := 65535

/-- A number written with the given count of decimal places. -/
def Binary64.writeFixed (x : Binary64) (precision : Int) : Except Halt String :=
  if placesLimit < precision then .error .crashed else (x.fixed? precision).mapError .refused

/-- A number read off a distribution, written with the given count of decimal places.
Whether there is such a number is decided first. -/
def Distribution.writeStatistic (d : Distribution Binary64) (statistic : Statistic)
    (precision : Int) : Except Halt String :=
  if placesLimit < precision ∧ (d.statistic? statistic).isSome then .error .crashed
  else (d.statisticText statistic precision).mapError .refused

/-- A percentile as an object. -/
def Centile.toJson (c : Centile Binary64) : Json :=
  .object [("p", .decimal c.probability), ("value", .decimal c.value)]

/-- A percentile from its record. -/
def Centile.ofJson : Json → Except Json.Refusal (Centile Binary64) :=
  Json.readRecord ["p", "value"] fun r =>
    Centile.mk <$> r.field "p" Json.readNumeric <*> r.field "value" Json.readNumeric

namespace Distribution

/-- Names of the members, in order. -/
def memberNames : List String :=
  ["sample_count", "centrality", "spread", "percentiles", "range_low", "range_high"]

/-- A distribution as an object. -/
def toJson (d : Distribution Binary64) : Json :=
  .object [("sample_count", .integer d.sampleCount.toNat),
    ("centrality", .decimal d.centrality),
    ("spread", .decimal d.spread),
    ("percentiles", .array (d.percentiles.map Centile.toJson)),
    ("range_low", .decimal d.rangeLow),
    ("range_high", .decimal d.rangeHigh)]

/-- The members of a distribution, no rule being applied yet. -/
def ofJsonUnchecked : Json → Except Json.Refusal (Distribution Binary64) :=
  Json.readRecord memberNames fun r =>
    Distribution.mk <$> r.field "sample_count" Json.readCount
      <*> r.field "centrality" Json.readNumeric
      <*> r.field "spread" Json.readNumeric
      <*> r.field "percentiles" (Json.readList Centile.ofJson)
      <*> r.field "range_low" Json.readNumeric
      <*> r.field "range_high" Json.readNumeric

/-- A distribution from its record; one that breaks a rule is rejected. -/
def ofJson (j : Json) : Except Json.Refusal (Distribution Binary64) :=
  match ofJsonUnchecked j with
  | .error cause => .error cause
  | .ok d => d.make.mapError fun defect => .rejected defect.message

end Distribution

end RunReport
