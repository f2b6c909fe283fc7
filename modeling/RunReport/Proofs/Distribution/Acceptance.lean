import RunReport.Proofs.Distribution.Exact
import RunReport.Proofs.Distribution.ReadBack
import RunReport.Proofs.Json.Spelling

/-!
# What is accepted as a distribution

The rules of distributions, said of the exact values of the members, and the order
in which they are asked. A distribution is made exactly when it keeps all of them,
and is refused for the first that it breaks. The same holds for what a JSON value
says, in whatever order and form it says it.
-/

namespace RunReport

open Json

/-- A value says a percentile. -/
def Centile.SpelledBy (j : Json) (c : Centile Binary64) : Prop :=
  ∃ members, SpellsRecord ["p", "value"] j members ∧
    Gives members "p" SpellsNumeral c.probability ∧ Gives members "value" SpellsNumeral c.value

/-- A percentile is read exactly from what says it. -/
theorem Centile.ofJson_eq_ok_iff_spelledBy {j : Json} {c : Centile Binary64} :
    Centile.ofJson j = .ok c ↔ c.SpelledBy j := by
  unfold Centile.ofJson SpelledBy
  simp only [readRecord_eq_ok_iff, Reading.seq_eq_done_iff, Reading.map_eq_done_iff,
    field_eq_done_iff_gives readNumeric_eq_ok_iff]
  constructor
  · intro read
    obtain ⟨members, record, _, value, ⟨p, given, rfl⟩, given', rfl⟩ := read
    exact ⟨members, record, given, given'⟩
  · intro spelled
    obtain ⟨members, record, given, given'⟩ := spelled
    exact ⟨members, record, _, _, ⟨_, given, rfl⟩, given', rfl⟩

namespace Distribution

/-- Members say those of a distribution, each under its name. -/
structure SpelledAmong (members : List (String × Json)) (d : Distribution Binary64) : Prop where
  /-- The count of samples. -/
  sampleCount : Gives members "sample_count" SpellsCount d.sampleCount
  /-- The centre. -/
  centrality : Gives members "centrality" SpellsNumeral d.centrality
  /-- The spread. -/
  spread : Gives members "spread" SpellsNumeral d.spread
  /-- The percentiles. -/
  percentiles : Gives members "percentiles"
    (SpellsList fun j c => Centile.SpelledBy j c) d.percentiles
  /-- The least value. -/
  rangeLow : Gives members "range_low" SpellsNumeral d.rangeLow
  /-- The greatest value. -/
  rangeHigh : Gives members "range_high" SpellsNumeral d.rangeHigh

/-- A value says the members of a distribution, which may break rules. -/
def SpelledBy (j : Json) (d : Distribution Binary64) : Prop :=
  ∃ members, SpellsRecord memberNames j members ∧ d.SpelledAmong members

/-- Without its rules a distribution is read exactly from what says its members. -/
theorem ofJsonUnchecked_eq_ok_iff_spelledBy {j : Json} {d : Distribution Binary64} :
    ofJsonUnchecked j = .ok d ↔ d.SpelledBy j := by
  unfold ofJsonUnchecked SpelledBy
  simp only [readRecord_eq_ok_iff, Reading.seq_eq_done_iff, Reading.map_eq_done_iff,
    field_eq_done_iff_gives readNumeric_eq_ok_iff, field_eq_done_iff_gives readCount_eq_ok_iff,
    field_eq_done_iff_gives (readList_eq_ok_iff Centile.ofJson_eq_ok_iff_spelledBy)]
  constructor
  · intro read
    obtain ⟨members, record, _, high, ⟨_, low, ⟨_, percentiles, ⟨_, spread, ⟨_, centrality,
      ⟨n, count, rfl⟩, centre, rfl⟩, spreads, rfl⟩, points, rfl⟩, least, rfl⟩, greatest, rfl⟩ := read
    exact ⟨members, record, count, centre, spreads, points, least, greatest⟩
  · intro spelled
    obtain ⟨members, record, among⟩ := spelled
    exact ⟨members, record, _, _, ⟨_, _, ⟨_, _, ⟨_, _, ⟨_, _, ⟨_, among.sampleCount, rfl⟩,
      among.centrality, rfl⟩, among.spread, rfl⟩, among.percentiles, rfl⟩, among.rangeLow, rfl⟩,
      among.rangeHigh, rfl⟩

/-- The rules of distributions. -/
inductive Rule where
  /-- Every number but the probabilities is finite. -/
  | finite
  /-- The spread is not below zero. -/
  | spread
  /-- The centre is within the range. -/
  | range
  /-- The grid has at least two points. -/
  | size
  /-- Every probability is within 0 and 1. -/
  | probability
  /-- Of any two probabilities the later is the greater. -/
  | order
  deriving DecidableEq

/-- What a rule asks. A rule that compares numbers is asked of finite ones, by the rules
before it, so that it compares their exact values. -/
def Rule.Holds (d : Distribution Binary64) : Rule → Prop
  | finite => d.centrality.isFinite ∧ d.spread.isFinite ∧ d.rangeLow.isFinite ∧
      d.rangeHigh.isFinite ∧ ∀ c ∈ d.percentiles, c.value.isFinite
  | spread => 0 ≤ d.spread.toRat
  | range => d.rangeLow.toRat ≤ d.centrality.toRat ∧ d.centrality.toRat ≤ d.rangeHigh.toRat
  | size => 2 ≤ d.percentiles.length
  | probability => ∀ c ∈ d.percentiles,
      c.probability.isFinite ∧ 0 ≤ c.probability.toRat ∧ c.probability.toRat ≤ 1
  | order => d.percentiles.Pairwise fun c c' => c.probability.toRat < c'.probability.toRat

/-- The rules in the order in which they are asked. -/
def Rule.inOrder : List Rule := [finite, spread, range, size, probability, order]

/-- The rules that are asked before a rule. -/
def Rule.before (rule : Rule) : List Rule := inOrder.takeWhile (· ≠ rule)

/-- The rule that a defect is a breach of. -/
def Defect.rule : Defect → Rule
  | nonFinite => .finite
  | negativeSpread _ => .spread
  | centralityOutside _ _ _ => .range
  | shortGrid _ => .size
  | probabilityOutside _ => .probability
  | notIncreasing _ _ => .order

/-- The numbers in a defect are those of the distribution that break the rule; of the
probabilities they are the first that do. -/
def Defect.Shows (d : Distribution Binary64) : Defect → Prop
  | nonFinite => True
  | negativeSpread spread => d.spread = spread
  | centralityOutside centrality low high =>
    d.centrality = centrality ∧ d.rangeLow = low ∧ d.rangeHigh = high
  | shortGrid size => d.percentiles.length = size
  | probabilityOutside p => ∃ earlier later, d.grid = earlier ++ p :: later ∧
      ¬ (p.isFinite ∧ 0 ≤ p.toRat ∧ p.toRat ≤ 1) ∧
      ∀ q ∈ earlier, q.isFinite ∧ 0 ≤ q.toRat ∧ q.toRat ≤ 1
  | notIncreasing p q => ∃ earlier later, d.grid = earlier ++ p :: q :: later ∧
      q.toRat ≤ p.toRat ∧ (earlier ++ [p]).Pairwise (·.toRat < ·.toRat)

/-- A defect is the first of a distribution: its rule is broken, those asked before
are kept, and it shows how. -/
structure Defect.FirstOf (d : Distribution Binary64) (defect : Defect) : Prop where
  /-- The rule is broken. -/
  broken : ¬ defect.rule.Holds d
  /-- The rules before it are kept. -/
  kept : ∀ rule ∈ defect.rule.before, rule.Holds d
  /-- The defect has the numbers that break the rule. -/
  shows : defect.Shows d

/-- The numbers that the first rule is about are the ones that have to be finite. -/
theorem finite_holds_iff {d : Distribution Binary64} :
    Rule.finite.Holds d ↔ d.values.all Binary64.isFinite = true := by
  simp [Rule.Holds, values]

/-- Of a finite spread the rule is what is checked. -/
theorem spread_holds_iff {d : Distribution Binary64} (finite : Rule.finite.Holds d) :
    Rule.spread.Holds d ↔ ¬ d.spread.lt (Binary64.zero false) = true := by
  obtain ⟨_, spread, _⟩ := finite
  rw [Binary64.lt_iff_toRat_lt spread rfl, Binary64.toRat_zero, not_lt]
  rfl

/-- Of a finite centre and range the rule is what is checked. -/
theorem range_holds_iff {d : Distribution Binary64} (finite : Rule.finite.Holds d) :
    Rule.range.Holds d ↔ (d.rangeLow.le d.centrality && d.centrality.le d.rangeHigh) = true := by
  obtain ⟨centre, _, low, high, _⟩ := finite
  rw [Bool.and_eq_true, Binary64.le_iff_toRat_le low centre, Binary64.le_iff_toRat_le centre high]
  rfl

/-- The rule on probabilities asks what is checked of each. -/
theorem probability_holds_iff {d : Distribution Binary64} :
    Rule.probability.Holds d ↔ ∀ p ∈ d.grid, isProbability p = true := by
  simp [Rule.Holds, grid, isProbability_iff]

/-- The rule on the order asks that the values of the grid increase. -/
theorem order_holds_iff {d : Distribution Binary64} :
    Rule.order.Holds d ↔ d.grid.Pairwise (·.toRat < ·.toRat) := by
  simp [Rule.Holds, grid, List.pairwise_map]

/-- Finite numbers have no descent exactly when each is above all before it. -/
theorem firstDescent_eq_none_iff {ps : List Binary64} (finite : ∀ p ∈ ps, p.isFinite = true) :
    firstDescent ps = none ↔ ps.Pairwise (·.toRat < ·.toRat) := by
  constructor
  · intro rises
    exact List.pairwise_map.1 (pairwise_toRat_of_firstDescent finite rises)
  · intro rises
    induction ps with
    | nil => rfl
    | cons p rest ih =>
      cases rest with
      | nil => rfl
      | cons q rest =>
        rw [List.forall_mem_cons] at finite
        rw [List.pairwise_cons] at rises
        have above : p.toRat < q.toRat := rises.1 q List.mem_cons_self
        have notLe : q.le p = false := (Binary64.le_eq_false_iff_toRat_lt
          (finite.2 q List.mem_cons_self) finite.1).2 above
        rw [firstDescent, notLe, if_neg (by decide)]
        exact ih finite.2 rises.2

/-- The first descent of a list is one before which there is none. -/
theorem firstDescent_eq_some_iff_split {ps : List Binary64} {x y : Binary64} :
    firstDescent ps = some (x, y) ↔ ∃ earlier later, ps = earlier ++ x :: y :: later ∧
      y.le x = true ∧ firstDescent (earlier ++ [x]) = none := by
  constructor
  · intro found
    induction ps with
    | nil => cases found
    | cons p rest ih =>
      cases rest with
      | nil => cases found
      | cons q rest =>
        rw [firstDescent] at found
        by_cases here : q.le p = true
        · rw [if_pos here] at found
          obtain ⟨rfl, rfl⟩ := Prod.mk.inj (Option.some.inj found)
          exact ⟨[], rest, rfl, here, rfl⟩
        · rw [if_neg here] at found
          obtain ⟨earlier, later, split, falls, none⟩ := ih found
          refine ⟨p :: earlier, later, congrArg (p :: ·) split, falls, ?_⟩
          cases earlier with
          | nil =>
            obtain ⟨rfl, _⟩ := List.cons.inj split
            exact (if_neg here).trans none
          | cons e earlier =>
            obtain ⟨rfl, _⟩ := List.cons.inj split
            exact (if_neg here).trans none
  · intro splits
    obtain ⟨earlier, later, rfl, falls, none⟩ := splits
    induction earlier with
    | nil => exact if_pos falls
    | cons p earlier ih =>
      cases earlier with
      | nil =>
        rw [List.cons_append, List.nil_append, firstDescent] at none
        split at none
        · cases none
        · rename_i above
          exact (if_neg above).trans (ih none)
      | cons e earlier =>
        rw [List.cons_append, List.cons_append, firstDescent] at none
        split at none
        · cases none
        · rename_i above
          exact (if_neg above).trans (ih none)

/-- The first descent of finite numbers stands where the numbers before it increase. -/
theorem firstDescent_eq_some_iff {ps : List Binary64} {x y : Binary64}
    (finite : ∀ p ∈ ps, p.isFinite = true) :
    firstDescent ps = some (x, y) ↔ ∃ earlier later, ps = earlier ++ x :: y :: later ∧
      y.toRat ≤ x.toRat ∧ (earlier ++ [x]).Pairwise (·.toRat < ·.toRat) := by
  rw [firstDescent_eq_some_iff_split]
  refine exists_congr fun earlier => exists_congr fun later => and_congr_right fun split => ?_
  have among : ∀ p ∈ earlier ++ [x], p.isFinite = true := by
    intro p listed
    exact finite p (split ▸ by simp at listed ⊢; tauto)
  have hx : x.isFinite = true := finite x (split ▸ by simp)
  have hy : y.isFinite = true := finite y (split ▸ by simp)
  rw [Binary64.le_iff_toRat_le hy hx, firstDescent_eq_none_iff among]

/-- Every rule is asked. -/
theorem Rule.mem_inOrder (rule : Rule) : rule ∈ inOrder := by
  cases rule <;> decide

/-- Of two rules one is asked before the other, unless they are the same. -/
theorem Rule.before_or_eq (rule rule' : Rule) :
    rule ∈ rule'.before ∨ rule = rule' ∨ rule' ∈ rule.before := by
  cases rule <;> cases rule' <;> decide

/-- Where a rule is broken and those before it are kept, the first defect is one of that
rule. -/
theorem Defect.firstOf_iff {d : Distribution Binary64} {rule : Rule} {defect : Defect}
    (broken : ¬ rule.Holds d) (kept : ∀ r ∈ rule.before, r.Holds d) :
    defect.FirstOf d ↔ defect.rule = rule ∧ defect.Shows d := by
  constructor
  · intro first
    have same : defect.rule = rule := by
      obtain earlier | same | later := Rule.before_or_eq defect.rule rule
      · exact absurd (kept _ earlier) first.broken
      · exact same
      · exact absurd (first.kept _ later) broken
    exact ⟨same, first.shows⟩
  · intro shown
    obtain ⟨rfl, shows⟩ := shown
    exact ⟨broken, kept, shows⟩

/-- The probability shown is the first that is not within 0 and 1. -/
theorem Defect.probabilityOutside_shows_iff {d : Distribution Binary64} {p : Binary64} :
    (Defect.probabilityOutside p).Shows d ↔
      d.grid.find? (fun p => !isProbability p) = some p := by
  simp only [Shows, List.find?_eq_some_iff_append, Bool.not_eq_true', Bool.not_not,
    ← isProbability_iff, Bool.not_eq_true]
  constructor
  · intro shown
    obtain ⟨earlier, later, split, outside, inside⟩ := shown
    exact ⟨outside, earlier, later, split, inside⟩
  · intro found
    obtain ⟨outside, earlier, later, split, inside⟩ := found
    exact ⟨earlier, later, split, outside, inside⟩

/-- The neighbours shown are the first of the probabilities that do not increase. -/
theorem Defect.notIncreasing_shows_iff {d : Distribution Binary64} {p q : Binary64}
    (probability : Rule.probability.Holds d) :
    (Defect.notIncreasing p q).Shows d ↔ firstDescent d.grid = some (p, q) := by
  have finite : ∀ p ∈ d.grid, p.isFinite = true := fun p listed =>
    Binary64.isFinite_of_isProbability (probability_holds_iff.1 probability p listed)
  exact (firstDescent_eq_some_iff finite).symm

/-- Where the rules on the numbers and the size are kept, the first defect is what is found
wrong with the grid. -/
theorem gridDefect_eq_some_iff {d : Distribution Binary64} {defect : Defect}
    (kept : ∀ rule ∈ Rule.probability.before, rule.Holds d) :
    (match d.grid.find? (fun p => !isProbability p) with
      | some p => some (.probabilityOutside p)
      | none => (firstDescent d.grid).map fun (p, q) => .notIncreasing p q) = some defect ↔
      defect.FirstOf d := by
  by_cases probability : Rule.probability.Holds d
  · have none : (d.grid.find? fun p => !isProbability p) = none := by
      simpa using probability_holds_iff.1 probability
    have kept' : ∀ rule ∈ Rule.probability.before ++ [.probability], rule.Holds d :=
      List.forall_mem_append.2 ⟨kept, List.forall_mem_singleton.2 probability⟩
    rw [none]
    by_cases order : Rule.order.Holds d
    · have finite : ∀ p ∈ d.grid, p.isFinite = true := fun p listed =>
        Binary64.isFinite_of_isProbability (probability_holds_iff.1 probability p listed)
      have rises := (firstDescent_eq_none_iff finite).2 (order_holds_iff.1 order)
      refine iff_of_false (by simp [rises]) fun first => first.broken ?_
      have all : ∀ rule ∈ Rule.inOrder, rule.Holds d :=
        List.forall_mem_append.2 ⟨kept', List.forall_mem_singleton.2 order⟩
      exact all _ defect.rule.mem_inOrder
    · rw [Defect.firstOf_iff order kept']
      cases defect <;> simp [Defect.rule, Defect.notIncreasing_shows_iff probability]
  · rw [Defect.firstOf_iff probability kept]
    cases found : d.grid.find? fun p => !isProbability p with
    | none =>
      have none : ∀ p ∈ d.grid, isProbability p = true := by simpa using found
      exact absurd (probability_holds_iff.2 none) probability
    | some p =>
      cases defect <;> simp [Defect.rule, Defect.probabilityOutside_shows_iff, found]

/-- What is found wrong with a distribution is the first defect that it has. -/
theorem defect?_eq_some_iff {d : Distribution Binary64} {defect : Defect} :
    d.defect? = some defect ↔ defect.FirstOf d := by
  unfold defect?
  by_cases finite : Rule.finite.Holds d
  swap
  · rw [Defect.firstOf_iff finite (by simp [Rule.before, Rule.inOrder])]
    rw [finite_holds_iff, Bool.not_eq_true] at finite
    cases defect <;> simp [finite, Defect.rule, Defect.Shows]
  have allFinite := finite_holds_iff.1 finite
  by_cases spread : Rule.spread.Holds d
  swap
  · rw [Defect.firstOf_iff spread (by simp [Rule.before, Rule.inOrder, finite])]
    rw [spread_holds_iff finite, not_not] at spread
    cases defect <;> simp [allFinite, spread, Defect.rule, Defect.Shows]
  have notBelow := (spread_holds_iff finite).1 spread
  by_cases range : Rule.range.Holds d
  swap
  · rw [Defect.firstOf_iff range (by simp [Rule.before, Rule.inOrder, finite, spread])]
    rw [range_holds_iff finite, Bool.not_eq_true] at range
    cases defect <;> simp [allFinite, notBelow, range, Defect.rule, Defect.Shows]
  have inside := (range_holds_iff finite).1 range
  by_cases size : Rule.size.Holds d
  swap
  · rw [Defect.firstOf_iff size (by simp [Rule.before, Rule.inOrder, finite, spread, range])]
    have short : d.percentiles.length < 2 := Nat.lt_of_not_le size
    cases defect <;> simp [allFinite, notBelow, inside, short, Defect.rule, Defect.Shows]
  have long : ¬ d.percentiles.length < 2 := Nat.not_lt.2 size
  simp only [allFinite, notBelow, inside, long, Bool.not_true, Bool.false_eq_true, if_false]
  exact gridDefect_eq_some_iff (by simp [Rule.before, Rule.inOrder, finite, spread, range, size])

/-- What is accepted keeps every rule. -/
theorem Accepted.holds {d : Distribution Binary64} (h : d.Accepted) (rule : Rule) :
    rule.Holds d := by
  have finite : Rule.finite.Holds d := finite_holds_iff.2 (List.all_eq_true.2 h.finite)
  cases rule with
  | finite => exact finite
  | spread => exact (spread_holds_iff finite).2 (by simp [h.spread_nonneg])
  | range => exact (range_holds_iff finite).2 ((Bool.and_eq_true _ _).mpr ⟨h.low_le, h.le_high⟩)
  | size => exact h.two_le
  | probability => exact probability_holds_iff.2 h.probabilities
  | order =>
    exact order_holds_iff.2
      ((firstDescent_eq_none_iff fun p hp => h.isFinite_grid hp).1 h.increasing)

/-- A distribution is made exactly when it keeps every rule, and is then left as it is. -/
theorem make_eq_ok_iff_holds {d e : Distribution Binary64} :
    d.make = .ok e ↔ e = d ∧ ∀ rule : Rule, rule.Holds d := by
  rw [make_eq_ok_iff]
  refine and_congr_right fun _ => ⟨fun accepted => accepted.holds, fun holds => ?_⟩
  rw [← defect?_eq_none_iff]
  cases found : d.defect? with
  | none => rfl
  | some defect => exact absurd (holds _) (defect?_eq_some_iff.1 found).broken

/-- A distribution is refused exactly for its first defect. -/
theorem make_eq_error_iff {d : Distribution Binary64} {defect : Defect} :
    d.make = .error defect ↔ defect.FirstOf d := by
  rw [← defect?_eq_some_iff, make]
  cases d.defect? with
  | none => simp
  | some defect => simp

/-- From a value that says the members of a distribution comes what is made of them. -/
theorem ofJson_of_spelledBy {j : Json} {d : Distribution Binary64} (spelled : d.SpelledBy j) :
    Distribution.ofJson j = d.make.mapError fun defect => .rejected defect.message := by
  rw [Distribution.ofJson, ofJsonUnchecked_eq_ok_iff_spelledBy.2 spelled]

/-- For any members, a distribution is made, and made as they are, exactly when every number
but the probabilities is finite, the spread is not negative, the centre is in the range, the
grid has two points, and the probabilities are within 0 and 1 and each above all before it.
Otherwise the first of these that fails is reported, with the numbers that break it. A value
is read as a distribution exactly when it says the members of one that is made; when it says
those of another, it is refused for the same defect. -/
theorem made_and_read_exactly (d : Distribution Binary64) :
    (∀ e, d.make = .ok e ↔ e = d ∧ ∀ rule : Rule, rule.Holds d) ∧
      (∀ defect, d.make = .error defect ↔ defect.FirstOf d) ∧
      (∀ j, Distribution.ofJson j = .ok d ↔ d.SpelledBy j ∧ ∀ rule : Rule, rule.Holds d) ∧
      ∀ j, d.SpelledBy j → ∀ defect : Defect, defect.FirstOf d →
        Distribution.ofJson j = .error (.rejected defect.message) := by
  refine ⟨fun e => make_eq_ok_iff_holds, fun defect => make_eq_error_iff, fun j => ?_, ?_⟩
  · rw [ofJson_eq_ok_iff, ofJsonUnchecked_eq_ok_iff_spelledBy, make_eq_ok_iff_holds]
    simp
  · intro j spelled defect first
    rw [ofJson_of_spelledBy spelled, make_eq_error_iff.2 first]
    rfl

/-- Members with a negative spread and a single percentile. -/
def unruly : Distribution Binary64 :=
  { sampleCount := 3, centrality := Binary64.ofInt 1, spread := Binary64.ofInt (-1)
    percentiles := [⟨Binary64.ofInt 0, Binary64.ofInt 1⟩]
    rangeLow := Binary64.ofInt 1, rangeHigh := Binary64.ofInt 2 }

/-- The same members as an object in another order, with one that is not known and a
percentile by position. -/
def unrulyObject : Json :=
  .object [("range_high", .integer 2), ("note", .null), ("spread", .integer (-1)),
    ("percentiles", .array [.array [.integer 0, .integer 1]]), ("range_low", .integer 1),
    ("centrality", .decimal (Binary64.ofInt 1)), ("sample_count", .integer 3)]

/-- Of the two defects of these members the spread is the one that is reported. -/
theorem unrulyObject_refused :
    unruly.SpelledBy unrulyObject ∧ ¬ Rule.size.Holds unruly ∧
      Distribution.ofJson unrulyObject =
        .error (.rejected (Defect.negativeSpread (Binary64.ofInt (-1))).message) := by
  have spelled : unruly.SpelledBy unrulyObject :=
    ofJsonUnchecked_eq_ok_iff_spelledBy.1 (by decide +kernel)
  have first : (Defect.negativeSpread (Binary64.ofInt (-1))).FirstOf unruly :=
    make_eq_error_iff.1 (by decide +kernel)
  have short : ¬ Rule.size.Holds unruly := by
    change ¬ 2 ≤ 1
    decide
  exact ⟨spelled, short, (made_and_read_exactly unruly).2.2.2 unrulyObject spelled _ first⟩

end Distribution

end RunReport
