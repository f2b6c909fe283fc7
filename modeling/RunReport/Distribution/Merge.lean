import RunReport.Distribution.Basic

/-!
# Merging distributions

Two distributions on one grid merge into one over both populations. Counts and
range merge exactly. Centre and percentiles are means weighted by the counts,
and the spread is that of the pooled population. A distribution without
samples has no weight; two of them take the greater of each member. The rule
is written once, over any number system that can carry it out, so the same
definition runs on binary64 numbers and reads as exact algebra.
-/

namespace RunReport

/-- A number system in which distributions can be merged. It says how a
spread is squared and found again from its square, so that an exact system
may track the square alone. -/
class Arithmetic (α : Type) where
  /-- The number of a count of samples. -/
  ofCount : Nat → α
  /-- Sum. -/
  add : α → α → α
  /-- Difference. -/
  sub : α → α → α
  /-- Product. -/
  mul : α → α → α
  /-- Quotient. -/
  div : α → α → α
  /-- The greater of two numbers. -/
  max : α → α → α
  /-- The lesser of two numbers. -/
  min : α → α → α
  /-- The nearest number between two bounds. -/
  clamp : α → α → α → α
  /-- The square of a spread. -/
  squareOfSpread : α → α
  /-- The spread with the given square. -/
  spreadOfSquare : α → α
  /-- Whether two probabilities are the same grid point. -/
  sameGridPoint : α → α → Bool

/-- Binary64 arithmetic. The square under the root is kept from below zero. -/
instance : Arithmetic Binary64 where
  ofCount := Binary64.ofNat
  add := Binary64.add
  sub := Binary64.sub
  mul := Binary64.mul
  div := Binary64.div
  max := Binary64.max
  min := Binary64.min
  clamp := Binary64.clamp
  squareOfSpread s := s.mul s
  spreadOfSquare v := (v.max (Binary64.zero false)).sqrt
  sameGridPoint := Distribution.sameGridPoint

/-- Why distributions do not merge. -/
inductive MergeRefusal (α : Type) where
  /-- There is no distribution to start from. -/
  | nothing
  /-- The grids differ. -/
  | gridMismatch (left right : List α)
  /-- The merged count does not fit 64 bits. -/
  | countOverflow (left right : UInt64)

namespace Distribution

variable {α : Type} [Arithmetic α]

/-- Whether two distributions have the same grid, point by point. -/
def sameGrid (a b : Distribution α) : Bool :=
  a.percentiles.length == b.percentiles.length &&
    (a.percentiles.zip b.percentiles).all fun (x, y) =>
      Arithmetic.sameGridPoint x.probability y.probability

/-- The mean of two numbers under the given weights. -/
def weighted (wa wb x y : α) : α := Arithmetic.add (Arithmetic.mul wa x) (Arithmetic.mul wb y)

/-- A weighted part of the pooled square: the part's own square and that of
its distance from the common centre. -/
def pooledPart (w spread centrality centre : α) : α :=
  let distance := Arithmetic.sub centrality centre
  Arithmetic.mul w
    (Arithmetic.add (Arithmetic.squareOfSpread spread) (Arithmetic.mul distance distance))

/-- Percentiles joined point by point, on the grid of the first table. -/
def joinPercentiles (join : α → α → α) (a b : List (Centile α)) : List (Centile α) :=
  a.zipWith (fun x y => ⟨x.probability, join x.value y.value⟩) b

/-- Share of the first of two counts in their sum. -/
def shareOf (a b : UInt64) : α :=
  Arithmetic.div (Arithmetic.ofCount a.toNat) (Arithmetic.ofCount (a.toNat + b.toNat))

/-- The distribution over both populations, grids and counts being accepted. -/
def pool (a b : Distribution α) : Distribution α :=
  let low := Arithmetic.min a.rangeLow b.rangeLow
  let high := Arithmetic.max a.rangeHigh b.rangeHigh
  if a.sampleCount = 0 ∧ b.sampleCount = 0 then
    { sampleCount := 0
      centrality := Arithmetic.clamp (Arithmetic.max a.centrality b.centrality) low high
      spread := Arithmetic.max a.spread b.spread
      percentiles := joinPercentiles Arithmetic.max a.percentiles b.percentiles
      rangeLow := low
      rangeHigh := high }
  else
    let wa := shareOf a.sampleCount b.sampleCount
    let wb := Arithmetic.sub (Arithmetic.ofCount 1) wa
    let centre := weighted wa wb a.centrality b.centrality
    let square := Arithmetic.add (pooledPart wa a.spread a.centrality centre)
      (pooledPart wb b.spread b.centrality centre)
    { sampleCount := a.sampleCount + b.sampleCount
      centrality := Arithmetic.clamp centre low high
      spread := Arithmetic.spreadOfSquare square
      percentiles := joinPercentiles (weighted wa wb) a.percentiles b.percentiles
      rangeLow := low
      rangeHigh := high }

/-- The distribution over both populations. Different grids are reported
before a count that grows too large. -/
def merge (a b : Distribution α) : Except (MergeRefusal α) (Distribution α) :=
  if !a.sameGrid b then .error (.gridMismatch a.grid b.grid)
  else if 2 ^ 64 ≤ a.sampleCount.toNat + b.sampleCount.toNat then
    .error (.countOverflow a.sampleCount b.sampleCount)
  else .ok (a.pool b)

/-- All distributions of a list merged from left to right. -/
def mergeAll : List (Distribution α) → Except (MergeRefusal α) (Distribution α)
  | [] => .error .nothing
  | first :: rest => rest.foldlM merge first

end Distribution

/-- The failure that a refused merge is reported as, naming the metric if known. -/
def MergeRefusal.failure (metric : Option String) : MergeRefusal Binary64 → Failure
  | nothing => .emptyRunSet "no distributions to merge"
  | gridMismatch left right => .incompatibleDistributions metric left right
  | countOverflow left right => .invalidDistribution
      ("sample count overflow merging " ++ Digits.text left.toNat ++ " and " ++
        Digits.text right.toNat)

end RunReport
