import Mathlib.Data.List.Perm.Basic
import RunReport.Proofs.Distribution.Merging
import RunReport.Proofs.Distribution.Rules
import RunReport.Proofs.Number.Neutral

/-!
# The order of a merge

Grid points within a tolerance of each other are the same, which is not a
transitive relation, and a merge keeps the grid of its first distribution.
Whether a list merges therefore depends on which of its distributions comes
first, and on nothing else of the order. The order does not matter exactly when
the total count is too large anyway, when every two grids of the list agree, or
when no grid agrees with all the others.
-/

namespace RunReport

/-- A finite number less itself is zero. -/
theorem Binary64.sub_self_of_isFinite {p : Binary64} (h : p.isFinite = true) :
    p.sub p = zero false := by
  cases p with
  | finite negative n onGrid =>
    have total : signed negative n + signed (!negative) n = 0 := by
      cases negative <;> simp [signed]
    simp only [sub, neg, add, total, if_pos, Bool.and_not_self]
  | infinite negative => exact absurd h (by simp [isFinite])
  | nan => exact absurd h (by simp [isFinite])

namespace Distribution

/-- A finite probability is the same grid point as itself. -/
theorem sameGridPoint_self {p : Binary64} (h : p.isFinite = true) :
    sameGridPoint p p = true := by
  rw [sameGridPoint, Binary64.sub_self_of_isFinite h]
  decide +kernel

/-- Two probabilities are the same grid point in either order. -/
theorem sameGridPoint_comm (p q : Binary64) : sameGridPoint p q = sameGridPoint q p := by
  rw [sameGridPoint, sameGridPoint, Binary64.abs_sub_swap]

/-- Grids agree in either order. -/
theorem sameGrid_comm (a b : Distribution Binary64) : a.sameGrid b = b.sameGrid a := by
  have turned {x y : Distribution Binary64} (h : x.sameGrid y = true) : y.sameGrid x = true :=
    sameGrid_iff.2 ((sameGrid_iff.1 h).flip.imp fun p q same => (sameGridPoint_comm p q).trans same)
  exact Bool.eq_iff_iff.2 ⟨turned, turned⟩

/-- An accepted distribution has the same grid as itself. -/
theorem Accepted.sameGrid_self {d : Distribution Binary64} (h : d.Accepted) :
    d.sameGrid d = true :=
  sameGrid_iff.2 (List.forall₂_same.2 fun _ hp => sameGridPoint_self (h.isFinite_grid hp))

/-- Whether a list merges from left to right at all. -/
def Mergeable (ds : List (Distribution Binary64)) : Prop := ∃ m, mergeAll ds = .ok m

instance : DecidablePred Mergeable := fun ds =>
  decidable_of_iff ((mergeAll ds).isOk = true) <| by
    unfold Mergeable
    cases mergeAll ds <;> simp [Except.isOk, Except.toBool]

/-- A list of accepted distributions merges exactly when its first one agrees
with all of them and the total count fits. -/
theorem mergeable_cons_iff {first : Distribution Binary64} {rest : List (Distribution Binary64)}
    (accepted : first.Accepted) :
    Mergeable (first :: rest) ↔
      (∀ d ∈ first :: rest, first.sameGrid d = true) ∧ totalCount (first :: rest) < 2 ^ 64 := by
  rw [Mergeable, mergeAll_succeeds_iff, List.forall_mem_cons, and_iff_right accepted.sameGrid_self]

/-- The distribution at the head of some order decides whether that order merges. -/
theorem mergeable_cons_of_perm {first : Distribution Binary64}
    {ds rest : List (Distribution Binary64)} (accepted : first.Accepted)
    (order : ds.Perm (first :: rest)) :
    Mergeable (first :: rest) ↔
      (∀ d ∈ ds, first.sameGrid d = true) ∧ totalCount ds < 2 ^ 64 := by
  rw [mergeable_cons_iff accepted, totalCount_perm order]
  refine and_congr_left fun _ => forall_congr' fun d => ?_
  rw [order.mem_iff]

/-- Every distribution of a list is the head of some order of it. -/
theorem exists_order_with_head {ds : List (Distribution Binary64)} {d : Distribution Binary64}
    (h : d ∈ ds) : ∃ rest, ds.Perm (d :: rest) := ⟨ds.erase d, List.perm_cons_erase h⟩

/-- Every order of the list merges, or none does. -/
def OrderIndifferent (ds : List (Distribution Binary64)) : Prop :=
  ∀ es, ds.Perm es → (Mergeable es ↔ Mergeable ds)

/-- The order of accepted distributions does not matter for whether they merge
exactly when their total count is too large, when every two of their grids
agree, or when none of their grids agrees with all the others. -/
theorem orderIndifferent_iff {ds : List (Distribution Binary64)}
    (accepted : ∀ d ∈ ds, d.make = .ok d) :
    OrderIndifferent ds ↔
      2 ^ 64 ≤ totalCount ds ∨ (∀ a ∈ ds, ∀ b ∈ ds, a.sameGrid b = true) ∨
        ∀ a ∈ ds, ∃ b ∈ ds, a.sameGrid b = false := by
  have lawful : ∀ d ∈ ds, d.Accepted := fun d hd => (make_eq_ok_iff.1 (accepted d hd)).2
  constructor
  · intro indifferent
    by_contra fails
    simp only [not_or, not_forall, not_exists, not_and, Nat.not_le, Bool.not_eq_true,
      Bool.not_eq_false] at fails
    obtain ⟨fits, ⟨a, ha, b, hb, apart⟩, centre, hc, agrees⟩ := fails
    obtain ⟨others, toCentre⟩ := exists_order_with_head hc
    obtain ⟨rest, toA⟩ := exists_order_with_head ha
    have merges := (mergeable_cons_of_perm (lawful centre hc) toCentre).2 ⟨agrees, fits⟩
    have both := (indifferent _ toA).2 ((indifferent _ toCentre).1 merges)
    have same := ((mergeable_cons_of_perm (lawful a ha) toA).1 both).1 b hb
    exact absurd same (by simp [apart])
  · intro condition
    have decided : ∀ first rest, ds.Perm (first :: rest) →
        (Mergeable (first :: rest) ↔
          (∀ a ∈ ds, ∀ b ∈ ds, a.sameGrid b = true) ∧ totalCount ds < 2 ^ 64) := by
      intro first rest order
      have member : first ∈ ds := order.mem_iff.2 List.mem_cons_self
      rw [mergeable_cons_of_perm (lawful first member) order]
      refine ⟨fun h => ⟨?_, h.2⟩, fun h => ⟨h.1 first member, h.2⟩⟩
      rcases condition with large | all | apart
      · exact absurd h.2 (Nat.not_lt.2 large)
      · exact all
      · obtain ⟨b, hb, different⟩ := apart first member
        exact absurd (h.1 b hb) (by simp [different])
    intro es order
    cases es with
    | nil => rw [order.eq_nil]
    | cons other others =>
      cases ds with
      | nil => exact absurd order.symm.eq_nil (List.cons_ne_nil _ _)
      | cons first rest => rw [decided _ _ order, decided _ _ (List.Perm.refl _)]

/-- One sample at 1 on a grid of the given probability and 1. -/
def onePoint (p : Decimal) : Distribution Binary64 :=
  { sampleCount := 1, centrality := Binary64.ofNat 1, spread := Binary64.zero false
    percentiles := [⟨p.toBinary64, Binary64.ofNat 1⟩, ⟨Binary64.ofNat 1, Binary64.ofNat 1⟩]
    rangeLow := Binary64.ofNat 1, rangeHigh := Binary64.ofNat 1 }

/-- Three grids, each within the tolerance of the next, the first and the last
being farther apart than that. -/
def drifting : List (Distribution Binary64) :=
  [onePoint ⟨false, 5, -1⟩, onePoint ⟨false, 5000000000008, -13⟩,
    onePoint ⟨false, 5000000000016, -13⟩]

/-- Drifting grids: the condition is what decides about their order. -/
theorem orderIndifferent_iff_drifting :
    (∀ d ∈ drifting, d.make = .ok d) ∧
      (OrderIndifferent drifting ↔
        2 ^ 64 ≤ totalCount drifting ∨ (∀ a ∈ drifting, ∀ b ∈ drifting, a.sameGrid b = true) ∨
          ∀ a ∈ drifting, ∃ b ∈ drifting, a.sameGrid b = false) := by
  have accepted : ∀ d ∈ drifting, d.make = .ok d := by decide +kernel
  exact ⟨accepted, orderIndifferent_iff accepted⟩

/-- Accepted distributions may merge in one order and be refused in another. -/
theorem order_matters_drifting :
    (∀ d ∈ drifting, d.make = .ok d) ∧ ¬ Mergeable drifting ∧
      ∃ es, drifting.Perm es ∧ Mergeable es := by
  refine ⟨by decide +kernel, by decide +kernel, _, List.Perm.swap _ _ _, ?_⟩
  decide +kernel

end Distribution

end RunReport
