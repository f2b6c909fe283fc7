import RunReport.Distribution.Basic
import RunReport.Proofs.Distribution.Rules
import RunReport.Proofs.Json.Record
import RunReport.Proofs.Json.RoundTrip
import RunReport.Run.Table

/-!
# Distributions that are written and read back

The JSON of a distribution is read back as that distribution exactly when it
obeys the rules, and otherwise not at all: a member without JSON form comes back
as `null`, which is no number. The same holds for each distribution of a table.
-/

namespace RunReport

open Json

/-- What is written for a number is read back exactly when the number is finite. -/
theorem readNumeric_asWritten_iff {x y : Binary64} :
    readNumeric (Json.decimal x).asWritten = .ok y ↔ y = x ∧ x.isFinite = true := by
  rw [asWritten]
  by_cases finite : x.isFinite = true
  · rw [if_pos finite]
    simp [readNumeric, required, asBinary64, finite, eq_comm]
  · rw [if_neg finite]
    simp [readNumeric, required, asBinary64, finite]

/-- What is written for a percentile is read back exactly when both of its
numbers are finite. -/
theorem Centile.ofJson_asWritten_iff {c e : Centile Binary64} :
    Centile.ofJson c.toJson.asWritten = .ok e ↔
      e = c ∧ c.probability.isFinite = true ∧ c.value.isFinite = true := by
  have names : ["p", "value"].Nodup := by decide
  rw [Centile.ofJson, Centile.toJson, asWritten_object, readRecord_object_eq_ok_iff,
    Reading.seq_eq_done_iff]
  constructor
  · rintro ⟨_, value, step, readsValue, rfl⟩
    obtain ⟨p, readsP, rfl⟩ := Reading.map_eq_done_iff.1 step
    have hp := (field_eq_done_iff (i := 0) (by exact names) rfl).1 readsP
    have hvalue := (field_eq_done_iff (i := 1) (by exact names) rfl).1 readsValue
    obtain ⟨rfl, finite⟩ := readNumeric_asWritten_iff.1 hp
    obtain ⟨rfl, finite'⟩ := readNumeric_asWritten_iff.1 hvalue
    exact ⟨rfl, finite, finite'⟩
  · rintro ⟨rfl, finite, finite'⟩
    refine ⟨_, _, Reading.map_eq_done_iff.2 ⟨_, ?_, rfl⟩, ?_, rfl⟩
    · exact (field_eq_done_iff (i := 0) (by exact names) rfl).2
        (readNumeric_asWritten_iff.2 ⟨rfl, finite⟩)
    · exact (field_eq_done_iff (i := 1) (by exact names) rfl).2
        (readNumeric_asWritten_iff.2 ⟨rfl, finite'⟩)

namespace Distribution

/-- A count of samples is read back. -/
theorem readCount_asWritten_iff {n m : UInt64} :
    readCount (Json.integer n.toNat).asWritten = .ok m ↔ m = n := by
  rw [asWritten_natCast n.toNat_lt, readCount_toNat, Except.ok.injEq, eq_comm]

/-- What is written for percentiles is read back exactly when all their numbers
are finite. -/
theorem readList_asWritten_iff {cs es : List (Centile Binary64)} :
    readList Centile.ofJson (Json.array (cs.map Centile.toJson)).asWritten = .ok es ↔
      es = cs ∧ ∀ c ∈ cs, c.probability.isFinite = true ∧ c.value.isFinite = true := by
  rw [asWritten_array, readList, Traversal.mapM_eq_ok_iff, List.map_map,
    List.forall₂_map_left_iff]
  simp only [Function.comp_apply, Centile.ofJson_asWritten_iff]
  constructor
  · intro read
    induction read with
    | nil => simp
    | cons first _ ih =>
      obtain ⟨rfl, finite⟩ := first
      obtain ⟨rfl, rest⟩ := ih
      exact ⟨rfl, List.forall_mem_cons.2 ⟨finite, rest⟩⟩
  · rintro ⟨rfl, finite⟩
    exact List.forall₂_same.2 fun c hc => ⟨rfl, finite c hc⟩

/-- What is written for a distribution is read, without its rules, exactly when
all its numbers are finite. -/
theorem ofJsonUnchecked_asWritten_iff {d e : Distribution Binary64} :
    ofJsonUnchecked d.toJson.asWritten = .ok e ↔
      e = d ∧ (∀ x ∈ d.values, x.isFinite = true) ∧ ∀ p ∈ d.grid, p.isFinite = true := by
  have names : memberNames.Nodup := by decide
  rw [ofJsonUnchecked, toJson, asWritten_object, readRecord_object_eq_ok_iff]
  simp only [Reading.seq_eq_done_iff]
  constructor
  · rintro ⟨_, high, ⟨_, low, ⟨_, percentiles, ⟨_, spread, ⟨_, centrality, step, hc, rfl⟩, hs, rfl⟩,
      hp, rfl⟩, hl, rfl⟩, hh, rfl⟩
    obtain ⟨count, hn, rfl⟩ := Reading.map_eq_done_iff.1 step
    have hn := (field_eq_done_iff (i := 0) (by exact names) rfl).1 hn
    have hc := (field_eq_done_iff (i := 1) (by exact names) rfl).1 hc
    have hs := (field_eq_done_iff (i := 2) (by exact names) rfl).1 hs
    have hp := (field_eq_done_iff (i := 3) (by exact names) rfl).1 hp
    have hl := (field_eq_done_iff (i := 4) (by exact names) rfl).1 hl
    have hh := (field_eq_done_iff (i := 5) (by exact names) rfl).1 hh
    obtain rfl := readCount_asWritten_iff.1 hn
    obtain ⟨rfl, centre⟩ := readNumeric_asWritten_iff.1 hc
    obtain ⟨rfl, spread⟩ := readNumeric_asWritten_iff.1 hs
    obtain ⟨rfl, points⟩ := readList_asWritten_iff.1 hp
    obtain ⟨rfl, low⟩ := readNumeric_asWritten_iff.1 hl
    obtain ⟨rfl, high⟩ := readNumeric_asWritten_iff.1 hh
    refine ⟨rfl, ?_, ?_⟩
    · simp only [values, List.forall_mem_cons, List.forall_mem_map]
      exact ⟨centre, spread, low, high, fun c hc => (points c hc).2⟩
    · simp only [grid, List.forall_mem_map]
      exact fun c hc => (points c hc).1
  · rintro ⟨rfl, finite, finiteGrid⟩
    simp only [values, List.forall_mem_cons, List.forall_mem_map] at finite
    simp only [grid, List.forall_mem_map] at finiteGrid
    obtain ⟨centre, spread, low, high, points⟩ := finite
    refine ⟨_, _, ⟨_, _, ⟨_, _, ⟨_, _, ⟨_, _, Reading.map_eq_done_iff.2 ⟨_, ?_, rfl⟩,
      ?_, rfl⟩, ?_, rfl⟩, ?_, rfl⟩, ?_, rfl⟩, ?_, rfl⟩
    · exact (field_eq_done_iff (i := 0) (by exact names) rfl).2 (readCount_asWritten_iff.2 rfl)
    · exact (field_eq_done_iff (i := 1) (by exact names) rfl).2
        (readNumeric_asWritten_iff.2 ⟨rfl, centre⟩)
    · exact (field_eq_done_iff (i := 2) (by exact names) rfl).2
        (readNumeric_asWritten_iff.2 ⟨rfl, spread⟩)
    · exact (field_eq_done_iff (i := 3) (by exact names) rfl).2
        (readList_asWritten_iff.2 ⟨rfl, fun c hc => ⟨finiteGrid c hc, points c hc⟩⟩)
    · exact (field_eq_done_iff (i := 4) (by exact names) rfl).2
        (readNumeric_asWritten_iff.2 ⟨rfl, low⟩)
    · exact (field_eq_done_iff (i := 5) (by exact names) rfl).2
        (readNumeric_asWritten_iff.2 ⟨rfl, high⟩)

/-- A distribution is read exactly when its members are and it obeys the rules. -/
theorem ofJson_eq_ok_iff {j : Json} {d : Distribution Binary64} :
    Distribution.ofJson j = .ok d ↔ ofJsonUnchecked j = .ok d ∧ d.make = .ok d := by
  unfold ofJson
  cases ofJsonUnchecked j with
  | error cause => simp
  | ok u =>
    dsimp only
    constructor
    · intro read
      cases made : u.make with
      | error defect =>
        rw [made] at read
        cases read
      | ok e =>
        rw [made] at read
        obtain rfl := Except.ok.inj read
        obtain ⟨rfl, _⟩ := make_eq_ok_iff.1 made
        exact ⟨rfl, made⟩
    · rintro ⟨unchecked, made⟩
      obtain rfl := Except.ok.inj unchecked
      rw [made]
      rfl

/-- What is written for a distribution is read back as that distribution exactly
when it obeys the rules, and else not at all. -/
theorem ofJson_asWritten_iff {d e : Distribution Binary64} :
    Distribution.ofJson d.toJson.asWritten = .ok e ↔ d.make = .ok e := by
  rw [ofJson_eq_ok_iff]
  constructor
  · rintro ⟨unchecked, made⟩
    obtain ⟨rfl, _⟩ := ofJsonUnchecked_asWritten_iff.1 unchecked
    exact made
  · intro made
    obtain ⟨rfl, accepted⟩ := make_eq_ok_iff.1 made
    exact ⟨ofJsonUnchecked_asWritten_iff.2
      ⟨rfl, accepted.finite, fun p hp => accepted.isFinite_grid hp⟩, made⟩

end Distribution

/-- What is written for a table has each of its distributions under its name. -/
theorem DistributionTable.get?_asWritten {names : List String} (t : DistributionTable names)
    (name : String) :
    t.toJson.asWritten.get? name = (t.find? name).map fun d => d.toJson.asWritten := by
  have members : t.toJson.asWritten =
      .object (t.named.map fun entry => (entry.1, entry.2.toJson.asWritten)) := by
    rw [toJson, asWritten_object, List.map_map]
    rfl
  rw [members]
  exact lookup_map (fun d : Distribution Binary64 => d.toJson.asWritten) name t.named

end RunReport
