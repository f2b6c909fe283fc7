import RunReport.Number.Binary64

/-!
# Arithmetic and order of binary64 numbers

Each operation is exact on counts of quanta and then rounded once, to the
nearest number with halves to the even one. Comparisons read the numbers on
one line of integers, on which the two zeros coincide, the infinities are the
two ends and the undefined number has no place.
-/

namespace RunReport.Binary64

/-- The count with its sign. -/
def signed (negative : Bool) (quanta : Nat) : Int := if negative then -(quanta : Int) else quanta

/-- The place of a number on the line of integers: its signed count of quanta,
or an end of the line. The undefined number is not on it. -/
def place : Binary64 → Option Int
  | .finite negative n _ => some (signed negative n)
  | .infinite negative => some (signed negative limit)
  | .nan => none

/-- Strictly less; false when either side is undefined. -/
def lt (a b : Binary64) : Bool :=
  match a.place, b.place with
  | some x, some y => decide (x < y)
  | _, _ => false

/-- Less or equal; false when either side is undefined. -/
def le (a b : Binary64) : Bool :=
  match a.place, b.place with
  | some x, some y => decide (x ≤ y)
  | _, _ => false

/-- Numerical equality: the two zeros are equal, the undefined number equals
nothing. -/
def same (a b : Binary64) : Bool :=
  match a.place, b.place with
  | some x, some y => decide (x = y)
  | _, _ => false

/-- The number without its sign. -/
def abs : Binary64 → Binary64
  | .finite _ n h => .finite false n h
  | .infinite _ => .infinite false
  | .nan => .nan

/-- The number with its sign reversed. -/
def neg : Binary64 → Binary64
  | .finite negative n h => .finite (!negative) n h
  | .infinite negative => .infinite (!negative)
  | .nan => .nan

/-- Sum. An exact zero is positive unless both terms are negative. -/
def add : Binary64 → Binary64 → Binary64
  | .finite s m _, .finite t n _ =>
    let total := signed s m + signed t n
    if total = 0 then zero (s && t) else ofQuotient (total < 0) total.natAbs 1
  | .nan, _ => .nan
  | _, .nan => .nan
  | .infinite s, .infinite t => if s = t then .infinite s else .nan
  | .infinite s, .finite _ _ _ => .infinite s
  | .finite _ _ _, .infinite t => .infinite t

/-- Difference. -/
def sub (a b : Binary64) : Binary64 := a.add b.neg

/-- Product. -/
def mul : Binary64 → Binary64 → Binary64
  | .finite s m _, .finite t n _ => ofQuotient (s != t) (m * n) unit
  | .nan, _ => .nan
  | _, .nan => .nan
  | .infinite s, .infinite t => .infinite (s != t)
  | .infinite s, .finite t n _ => if n = 0 then .nan else .infinite (s != t)
  | .finite s m _, .infinite t => if m = 0 then .nan else .infinite (s != t)

/-- Quotient. -/
def div : Binary64 → Binary64 → Binary64
  | .finite s m _, .finite t n _ =>
    if n = 0 then (if m = 0 then .nan else .infinite (s != t))
    else ofQuotient (s != t) (m * unit) n
  | .nan, _ => .nan
  | _, .nan => .nan
  | .infinite _, .infinite _ => .nan
  | .infinite s, .finite t _ _ => .infinite (s != t)
  | .finite s _ _, .infinite t => zero (s != t)

/-- Square root; a negative zero is its own root. -/
def sqrt : Binary64 → Binary64
  | .finite s n h =>
    if n = 0 then .finite s n h
    else if s then .nan
    else ofRoot (n * unit)
  | .infinite s => if s then .nan else .infinite false
  | .nan => .nan

/-- The greater of two numbers; an undefined one gives way, and of two equal
ones the second is kept. -/
def max (a b : Binary64) : Binary64 :=
  match a.place, b.place with
  | none, _ => b
  | _, none => a
  | some x, some y => if x ≤ y then b else a

/-- The lesser of two numbers; an undefined one gives way, and of two equal
ones the second is kept. -/
def min (a b : Binary64) : Binary64 :=
  match a.place, b.place with
  | none, _ => b
  | _, none => a
  | some x, some y => if y ≤ x then b else a

/-- The number nearest to `x` between two bounds; an undefined `x` stays. -/
def clamp (x low high : Binary64) : Binary64 :=
  let raised := if x.lt low then low else x
  if high.lt raised then high else raised

end RunReport.Binary64
