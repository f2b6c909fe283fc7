import Mathlib.Data.List.Induction
import RunReport.Proofs.Distribution.Exact
import RunReport.Proofs.Distribution.FoldOutcome

/-!
# Percentiles looked up by their own probabilities

A table increases strictly, but a look-up takes the first entry within a tolerance
of what is asked for. Entries closer than the tolerance are accepted, and then the
look-up of the later one may end at the earlier one. So every entry is found by
its own probability exactly when entries that close have the same value, and it is
if the neighbours of the table are farther apart.
-/

namespace RunReport

namespace Distribution

open Binary64

/-- What lies between two probabilities of one grid point is the same grid point. -/
theorem sameGridPoint_of_between {p q r : Binary64} (hp : p.isFinite = true)
    (hq : q.isFinite = true) (hr : r.isFinite = true) (above : p.toRat ≤ q.toRat)
    (below : q.toRat ≤ r.toRat) (near : sameGridPoint p r = true) :
    sameGridPoint p q = true := by
  obtain ⟨i, placeP, valueP⟩ := exists_place_of_isFinite hp
  obtain ⟨j, placeQ, valueQ⟩ := exists_place_of_isFinite hq
  obtain ⟨k, placeR, valueR⟩ := exists_place_of_isFinite hr
  rw [valueP, valueQ, div_le_div_iff_of_pos_right unit_pos, Int.cast_le] at above
  rw [valueQ, valueR, div_le_div_iff_of_pos_right unit_pos, Int.cast_le] at below
  refine (sameGridPoint_iff hp hq placeP placeQ).2 (le_trans ?_
    ((sameGridPoint_iff hp hr placeP placeR).1 near))
  exact rounded_mono Nat.one_pos Nat.one_pos (by omega)

/-- The first entry within the tolerance of a probability. -/
def lookup? (table : List (Centile Binary64)) (p : Binary64) : Option (Centile Binary64) :=
  table.find? fun c => sameGridPoint c.probability p

/-- Two entries have the same value if they are the same grid point. -/
def Agree (c e : Centile Binary64) : Prop :=
  sameGridPoint c.probability e.probability = true → c.value = e.value

instance : Std.Symm Agree :=
  ⟨fun _ _ agree near => (agree (sameGridPoint_comm _ _ ▸ near)).symm⟩

/-- A look-up finds an entry that is the same grid point, if there is one. -/
theorem exists_lookup_eq {table : List (Centile Binary64)} {c : Centile Binary64} {p : Binary64}
    (given : c ∈ table) (near : sameGridPoint c.probability p = true) :
    ∃ first ∈ table, sameGridPoint first.probability p = true ∧ lookup? table p = some first := by
  have present : (lookup? table p).isSome = true := List.find?_isSome.2 ⟨c, given, near⟩
  obtain ⟨first, hit⟩ := Option.isSome_iff_exists.1 present
  exact ⟨first, List.mem_of_find?_eq_some hit, (List.find?_eq_some_iff_append.1 hit).1, hit⟩

/-- What is found is found when the table goes on. -/
theorem lookup_append {table : List (Centile Binary64)} {c : Centile Binary64} {p : Binary64}
    (hit : lookup? table p = some c) (more : List (Centile Binary64)) :
    lookup? (table ++ more) p = some c := by
  rw [lookup?, List.find?_append, ← lookup?, hit]
  rfl

/-- The entries of a strictly increasing table agree if each of them is found at its
own probability. -/
theorem pairwise_agree_of_lookup {table : List (Centile Binary64)}
    (finite : ∀ c ∈ table, c.probability.isFinite = true)
    (increasing : table.Pairwise fun c e => c.probability.toRat < e.probability.toRat)
    (found : ∀ c ∈ table, (lookup? table c.probability).map (·.value) = some c.value) :
    table.Pairwise Agree := by
  induction table using List.reverseRecOn with
  | nil => exact .nil
  | append_singleton table last ih =>
    have finite' : ∀ c ∈ table, c.probability.isFinite = true := fun c given =>
      finite c (List.mem_append_left _ given)
    obtain ⟨increasing', _, below⟩ := List.pairwise_append.1 increasing
    have earlier := ih finite' increasing' fun c given => by
      obtain ⟨first, _, _, hit⟩ := exists_lookup_eq given (sameGridPoint_self (finite' c given))
      have value := found c (List.mem_append_left _ given)
      rw [lookup_append hit] at value
      rw [hit]
      exact value
    refine List.pairwise_append.2 ⟨earlier, List.pairwise_singleton _ _, ?_⟩
    intro c given e only near
    obtain rfl := List.mem_singleton.1 only
    obtain ⟨first, among, close, hit⟩ := exists_lookup_eq given near
    have value := found e (List.mem_append_right _ List.mem_cons_self)
    rw [lookup_append hit] at value
    obtain ⟨_, as, bs, rfl, apart⟩ := List.find?_eq_some_iff_append.1 hit
    suffices same : first.value = c.value from same.symm.trans (Option.some.inj value)
    rcases List.mem_append.1 given with outside | behind
    · exact absurd near (by simpa using apart c outside)
    rcases List.mem_cons.1 behind with rfl | behind
    · rfl
    · have later := (List.pairwise_cons.1 (List.pairwise_append.1 increasing').2.1).1 c behind
      have between := sameGridPoint_of_between (finite' first among) (finite' c given)
        (finite e (List.mem_append_right _ List.mem_cons_self)) later.le (below c given e only).le
        close
      exact (List.pairwise_cons.1 (List.pairwise_append.1 earlier).2.1).1 c behind between

variable {d : Distribution Binary64}

/-- Every entry of the percentile table is found at its own probability, and its
value is what is written for the percentile at that probability. -/
def Addressable (d : Distribution Binary64) : Prop :=
  ∀ c ∈ d.percentiles, d.percentile? c.probability = some c.value ∧
    ∀ precision, d.statisticText (.percentile c.probability) precision = c.value.fixed? precision

/-- What is found is what is written. -/
theorem addressable_iff_percentile? :
    d.Addressable ↔ ∀ c ∈ d.percentiles, d.percentile? c.probability = some c.value := by
  refine forall₂_congr fun c _ => and_iff_left_of_imp fun found precision => ?_
  simp only [statisticText, statistic?, found]

/-- A look-up at a probability of the table finds an entry within the tolerance. -/
theorem exists_percentile?_eq (finite : ∀ c ∈ d.percentiles, c.probability.isFinite = true)
    {c : Centile Binary64} (given : c ∈ d.percentiles) :
    ∃ e ∈ d.percentiles, sameGridPoint e.probability c.probability = true ∧
      d.percentile? c.probability = some e.value := by
  obtain ⟨e, among, near, hit⟩ := exists_lookup_eq given (sameGridPoint_self (finite c given))
  have found : d.percentile? c.probability = (lookup? d.percentiles c.probability).map (·.value) :=
    rfl
  rw [hit] at found
  exact ⟨e, among, near, found⟩

/-- Probabilities that increase by more than the tolerance are different grid points. -/
theorem sameGridPoint_eq_false_of_lt {p q : Binary64} (hp : p.isFinite = true)
    (hq : q.isFinite = true) (apart : p.toRat + (1 / 10 ^ 12 + 1 / 10 ^ 28) < q.toRat) :
    sameGridPoint p q = false := by
  refine Bool.eq_false_iff.2 fun near => ?_
  have close := (sameGridPoint_between hp hq).2 near
  rw [abs_sub_comm] at close
  have distance := (le_abs_self _).trans close
  linarith

/-- Entries agree if neighbours are farther apart than the tolerance. -/
theorem agree_of_apart {table : List (Centile Binary64)}
    (finite : ∀ c ∈ table, c.probability.isFinite = true)
    (apart : table.IsChain fun c e =>
      c.probability.toRat + (1 / 10 ^ 12 + 1 / 10 ^ 28) < e.probability.toRat) :
    table.Pairwise Agree := by
  let Apart (c e : Centile Binary64) : Prop :=
    c.probability.toRat + (1 / 10 ^ 12 + 1 / 10 ^ 28) < e.probability.toRat
  have transitive : Trans Apart Apart Apart :=
    ⟨fun {_ _ _} first second => by
      dsimp only [Apart] at first second ⊢
      linarith⟩
  have chain : table.IsChain Apart := apart
  refine (List.isChain_iff_pairwise.1 chain).imp_of_mem fun {c e} hc he far near => ?_
  have different := sameGridPoint_eq_false_of_lt (finite c hc) (finite e he) far
  exact absurd near (by simp [different])

/-- Every entry of an accepted table is found at its own probability exactly when
entries that are the same grid point have the same value. In any case a look-up
there finds some entry that is the same grid point. Neighbours that are more than
`10^-12 + 10^-28` apart are different ones. -/
theorem addressable_iff (made : d.make = .ok d) :
    (d.Addressable ↔ ∀ c ∈ d.percentiles, ∀ e ∈ d.percentiles, Agree c e) ∧
    (∀ c ∈ d.percentiles, ∃ e ∈ d.percentiles,
      sameGridPoint e.probability c.probability = true ∧
        d.percentile? c.probability = some e.value) ∧
    (d.grid.IsChain (fun p q => p.toRat + (1 / 10 ^ 12 + 1 / 10 ^ 28) < q.toRat) →
      d.Addressable) := by
  obtain ⟨_, accepted⟩ := make_eq_ok_iff.1 made
  have finite : ∀ c ∈ d.percentiles, c.probability.isFinite = true := fun c given =>
    accepted.isFinite_grid (List.mem_map_of_mem given)
  have increasing :
      d.percentiles.Pairwise fun c e => c.probability.toRat < e.probability.toRat := by
    have rises := pairwise_toRat_of_firstDescent (fun p => accepted.isFinite_grid) accepted.increasing
    simpa only [grid, List.pairwise_map] using rises
  have everywhere : d.percentiles.Pairwise Agree →
      ∀ c ∈ d.percentiles, ∀ e ∈ d.percentiles, Agree c e := fun agree c hc e he =>
    agree.forall_of_forall (fun _ _ _ => rfl) hc he
  have iff : d.Addressable ↔ ∀ c ∈ d.percentiles, ∀ e ∈ d.percentiles, Agree c e := by
    rw [addressable_iff_percentile?]
    constructor
    · intro found
      exact everywhere (pairwise_agree_of_lookup finite increasing found)
    · intro agree c given
      obtain ⟨e, among, near, found⟩ := exists_percentile?_eq finite given
      rw [found, agree e among c given near]
  refine ⟨iff, fun c given => exists_percentile?_eq finite given, fun apart => iff.2 ?_⟩
  exact everywhere (agree_of_apart finite ((List.isChain_map _).1 apart))

/-- One sample whose percentile table has two entries a tenth of the tolerance apart. -/
def crowded (first second : Nat) : Distribution Binary64 :=
  { sampleCount := 1, centrality := Binary64.ofNat 1, spread := Binary64.zero false
    percentiles := [⟨(⟨false, 5, -1⟩ : Decimal).toBinary64, Binary64.ofNat first⟩,
      ⟨(⟨false, 5000000000001, -13⟩ : Decimal).toBinary64, Binary64.ofNat second⟩]
    rangeLow := Binary64.ofNat 1, rangeHigh := Binary64.ofNat 2 }

/-- Crowded entries with one value are both found. -/
theorem addressable_crowded : (crowded 1 1).make = .ok (crowded 1 1) ∧ (crowded 1 1).Addressable := by
  have made : (crowded 1 1).make = .ok (crowded 1 1) := by decide +kernel
  refine ⟨made, (addressable_iff made).1.2 fun c hc e he _ => ?_⟩
  have value : ∀ c ∈ (crowded 1 1).percentiles, c.value = Binary64.ofNat 1 := by
    simp [crowded]
  rw [value c hc, value e he]

/-- Of crowded entries with different values the second is not found. -/
theorem not_addressable_crowded :
    (crowded 1 2).make = .ok (crowded 1 2) ∧ ¬ (crowded 1 2).Addressable ∧
      ∃ c ∈ (crowded 1 2).percentiles, c.value = Binary64.ofNat 2 ∧
        (crowded 1 2).percentile? c.probability = some (Binary64.ofNat 1) := by
  have shadowed : ∃ c ∈ (crowded 1 2).percentiles, c.value = Binary64.ofNat 2 ∧
      (crowded 1 2).percentile? c.probability = some (Binary64.ofNat 1) := by
    refine ⟨⟨(⟨false, 5000000000001, -13⟩ : Decimal).toBinary64, Binary64.ofNat 2⟩, ?_, ?_, ?_⟩
    · simp [crowded]
    · simp only
    · decide +kernel
  refine ⟨by decide +kernel, fun all => ?_, shadowed⟩
  obtain ⟨c, given, value, found⟩ := shadowed
  have same := found.symm.trans (all c given).1
  rw [value] at same
  revert same
  decide +kernel

end Distribution

end RunReport
