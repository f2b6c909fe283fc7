import Mathlib.Algebra.BigOperators.Group.List.Basic
import Mathlib.Algebra.Order.Ring.Nat
import Mathlib.Data.List.Induction
import RunReport.Distribution.Merge
import RunReport.Proofs.Traversal

/-!
# When distributions merge

Two distributions merge exactly when their grids agree point by point and
their counts fit 64 bits together. The result keeps the left grid and has the
sum of the counts, so a merge from left to right compares every distribution
with the first one, and it succeeds exactly when all of these comparisons do
and the total count fits. All of this holds in every number system.
-/

namespace RunReport.Distribution

variable {α : Type} [Arithmetic α]

/-- Number of samples in all distributions of a list together. -/
def totalCount (ds : List (Distribution α)) : Nat := (ds.map fun d => d.sampleCount.toNat).sum

omit [Arithmetic α] in
@[simp]
theorem totalCount_cons (d : Distribution α) (ds : List (Distribution α)) :
    totalCount (d :: ds) = d.sampleCount.toNat + totalCount ds := List.sum_cons

omit [Arithmetic α] in
/-- The total of two lists is the sum of their totals. -/
theorem totalCount_append (ds es : List (Distribution α)) :
    totalCount (ds ++ es) = totalCount ds + totalCount es := by
  simp only [totalCount, List.map_append, List.sum_append]

omit [Arithmetic α] in
/-- The order of a list does not matter for the total. -/
theorem totalCount_perm {ds es : List (Distribution α)} (h : ds.Perm es) :
    totalCount ds = totalCount es := (h.map _).sum_eq

/-- Grids are compared point by point, and only the grids. -/
theorem sameGrid_iff {a b : Distribution α} :
    a.sameGrid b = true ↔
      List.Forall₂ (fun p q => Arithmetic.sameGridPoint p q = true) a.grid b.grid := by
  unfold sameGrid grid
  rw [List.forall₂_map_left_iff, List.forall₂_map_right_iff, Bool.and_eq_true, beq_iff_eq,
    List.all_eq_true, List.forall₂_iff_zip]
  refine and_congr_right fun _ => ⟨fun h x y hxy => h (x, y) hxy, fun h xy hxy => ?_⟩
  exact h hxy

/-- Distributions with the same grid are compared alike. -/
theorem sameGrid_congr_left {a b : Distribution α} (h : a.grid = b.grid) (d : Distribution α) :
    a.sameGrid d = b.sameGrid d := by
  rw [Bool.eq_iff_iff, sameGrid_iff, sameGrid_iff, h]

omit [Arithmetic α] in
/-- On one grid there are as many percentiles. -/
theorem length_percentiles_of_grid_eq {a b : Distribution α} (h : a.grid = b.grid) :
    a.percentiles.length = b.percentiles.length := by
  simpa [grid] using congrArg List.length h

omit [Arithmetic α] in
/-- Joined percentiles stay on the grid of the first table. -/
theorem map_probability_joinPercentiles (join : α → α → α) {a b : List (Centile α)}
    (h : a.length ≤ b.length) :
    (joinPercentiles join a b).map (·.probability) = a.map (·.probability) := by
  induction a generalizing b with
  | nil => rfl
  | cons x a ih =>
    match b, h with
    | y :: b, h =>
      have rest : (joinPercentiles join a b).map (·.probability) = a.map (·.probability) :=
        ih (by simpa using h)
      simp only [joinPercentiles, List.zipWith_cons_cons, List.map_cons] at rest ⊢
      rw [rest]

omit [Arithmetic α] in
/-- A joined percentile has the join of two values. -/
theorem exists_of_mem_joinPercentiles {join : α → α → α} {as bs : List (Centile α)}
    {c : Centile α} (h : c ∈ joinPercentiles join as bs) :
    ∃ x ∈ as, ∃ y ∈ bs, c.value = join x.value y.value := by
  induction as generalizing bs with
  | nil => cases h
  | cons x as ih =>
    cases bs with
    | nil => cases h
    | cons y bs =>
      rcases List.mem_cons.1 h with rfl | later
      · exact ⟨x, List.mem_cons_self, y, List.mem_cons_self, rfl⟩
      · obtain ⟨x', hx, y', hy, value⟩ := ih later
        exact ⟨x', List.mem_cons_of_mem _ hx, y', List.mem_cons_of_mem _ hy, value⟩

/-- The pooled range reaches from the lesser lower end to the greater upper end. -/
theorem range_pool (a b : Distribution α) :
    (a.pool b).rangeLow = Arithmetic.min a.rangeLow b.rangeLow ∧
      (a.pool b).rangeHigh = Arithmetic.max a.rangeHigh b.rangeHigh := by
  unfold pool
  dsimp only
  split <;> exact ⟨rfl, rfl⟩

/-- Distributions on one grid pool on the grid of the left one. -/
theorem grid_pool {a b : Distribution α} (h : a.sameGrid b = true) :
    (a.pool b).grid = a.grid := by
  have size : a.percentiles.length = b.percentiles.length := by
    simpa [grid] using (sameGrid_iff.1 h).length_eq
  unfold pool grid
  split
  · exact map_probability_joinPercentiles _ (Nat.le_of_eq size)
  · exact map_probability_joinPercentiles _ (Nat.le_of_eq size)

/-- Counts that fit together are added. -/
theorem toNat_sampleCount_pool {a b : Distribution α}
    (h : a.sampleCount.toNat + b.sampleCount.toNat < 2 ^ 64) :
    (a.pool b).sampleCount.toNat = a.sampleCount.toNat + b.sampleCount.toNat := by
  unfold pool
  dsimp only
  split
  · rename_i empty
    simp [empty.1, empty.2]
  · rw [UInt64.toNat_add, Nat.mod_eq_of_lt h]

/-- Two distributions merge exactly when their grids agree and their counts
fit together, and then into what they pool to. -/
theorem merge_eq_ok_iff {a b m : Distribution α} :
    a.merge b = .ok m ↔ a.sameGrid b = true ∧
      a.sampleCount.toNat + b.sampleCount.toNat < 2 ^ 64 ∧ m = a.pool b := by
  unfold merge
  by_cases grids : a.sameGrid b = true
  · rw [if_neg (by simp [grids])]
    by_cases fits : 2 ^ 64 ≤ a.sampleCount.toNat + b.sampleCount.toNat
    · rw [if_pos fits]
      exact iff_of_false (by simp) fun h => absurd h.2.1 (Nat.not_lt.2 fits)
    · rw [if_neg fits, Except.ok.injEq]
      exact ⟨fun h => ⟨grids, Nat.not_le.1 fits, h.symm⟩, fun h => h.2.2.symm⟩
  · rw [if_pos (by simp [grids])]
    exact iff_of_false (by simp) fun h => grids h.1

/-- Two distributions are refused for their grids, and else for their counts. -/
theorem merge_eq_error_iff {a b : Distribution α} {refusal : MergeRefusal α} :
    a.merge b = .error refusal ↔
      a.sameGrid b = false ∧ refusal = .gridMismatch a.grid b.grid ∨
      a.sameGrid b = true ∧ 2 ^ 64 ≤ a.sampleCount.toNat + b.sampleCount.toNat ∧
        refusal = .countOverflow a.sampleCount b.sampleCount := by
  unfold merge
  cases grids : a.sameGrid b with
  | false => simp [eq_comm]
  | true =>
    by_cases large : 2 ^ 64 ≤ a.sampleCount.toNat + b.sampleCount.toNat
    · simp [large, eq_comm]
    · simp [large]

/-- A merge of one more distribution goes on from the merge of those before. -/
theorem mergeAll_concat {ds : List (Distribution α)} (present : ds ≠ []) (d : Distribution α) :
    mergeAll (ds ++ [d]) = mergeAll ds >>= fun merged => merged.merge d := by
  cases ds with
  | nil => exact absurd rfl present
  | cons first rest =>
    rw [List.cons_append, mergeAll, mergeAll, List.foldlM_append]
    congr 1
    funext merged
    exact bind_pure _

/-- What holds of each distribution alone, and goes on to hold when one more is merged with
what those before it come to, holds of what all of them come to. -/
theorem mergeAll_induction {motive : List (Distribution α) → Distribution α → Prop}
    {ds : List (Distribution α)} {m : Distribution α} (alone : ∀ d ∈ ds, motive [d] d)
    (onward : ∀ before, ∀ d ∈ ds, ∀ reached m, motive before reached →
      reached.merge d = .ok m → motive (before ++ [d]) m)
    (merged : mergeAll ds = .ok m) : motive ds m := by
  induction ds using List.reverseRecOn generalizing m with
  | nil => cases merged
  | append_singleton ds d ih =>
    by_cases none : ds = []
    · subst none
      obtain rfl := Except.ok.inj merged
      exact alone d (by simp)
    · rw [mergeAll_concat none] at merged
      obtain ⟨reached, soFar, step⟩ := Traversal.bind_eq_ok_iff.1 merged
      have kept := ih (fun e he => alone e (List.mem_append_left _ he))
        (fun before e he => onward before e (List.mem_append_left _ he)) soFar
      exact onward ds d (by simp) reached m kept step

/-- Merging from left to right succeeds exactly when the first distribution
agrees with every later one and the total count fits. -/
theorem mergeAll_succeeds_iff {first : Distribution α} {rest : List (Distribution α)} :
    (∃ m, mergeAll (first :: rest) = .ok m) ↔
      (∀ d ∈ rest, first.sameGrid d = true) ∧ totalCount (first :: rest) < 2 ^ 64 := by
  induction rest generalizing first with
  | nil =>
    have fits : first.sampleCount.toNat < 2 ^ 64 := first.sampleCount.toNat_lt
    exact iff_of_true ⟨first, rfl⟩ ⟨by simp, by simpa [totalCount] using fits⟩
  | cons d rest ih =>
    have step : ∀ m, mergeAll (first :: d :: rest) = .ok m ↔
        ∃ merged, first.merge d = .ok merged ∧ mergeAll (merged :: rest) = .ok m :=
      fun m => Traversal.bind_eq_ok_iff
    have pooled : first.sameGrid d = true →
        first.sampleCount.toNat + d.sampleCount.toNat < 2 ^ 64 →
        ((∃ m, mergeAll (first.pool d :: rest) = .ok m) ↔
          (∀ e ∈ rest, first.sameGrid e = true) ∧ totalCount (first :: d :: rest) < 2 ^ 64) := by
      intro grids fits
      simp only [ih, sameGrid_congr_left (grid_pool grids), totalCount_cons,
        toNat_sampleCount_pool fits, Nat.add_assoc]
    simp only [step, merge_eq_ok_iff, List.forall_mem_cons]
    constructor
    · rintro ⟨m, merged, ⟨grids, fits, rfl⟩, rest⟩
      obtain ⟨later, total⟩ := (pooled grids fits).1 ⟨m, rest⟩
      exact ⟨⟨grids, later⟩, total⟩
    · rintro ⟨⟨grids, later⟩, total⟩
      have fits : first.sampleCount.toNat + d.sampleCount.toNat < 2 ^ 64 := by
        simp only [totalCount_cons] at total
        omega
      obtain ⟨m, rest⟩ := (pooled grids fits).2 ⟨later, total⟩
      exact ⟨m, _, ⟨grids, fits, rfl⟩, rest⟩

end RunReport.Distribution
