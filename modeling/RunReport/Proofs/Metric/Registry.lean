import Mathlib.Data.List.Nodup
import RunReport.Metric.Registry

/-!
# Registries and the names of their fields

A list of fields makes a registry exactly when their names are distinct, and otherwise it is
refused for the first field whose name occurred before it. In a registry each field is found by
its name, and nothing by another name. The fields of a category are those that apply to it, in
the order of their declaration.
-/

namespace RunReport

variable {earlier names : List String} {name : String} {fields : List Field} {f : Field}

/-- The first repeat is the first name that is among those passed before it, which are distinct
up to there. What has been passed stands last name first. -/
theorem firstRepeat_eq_some_iff (fresh : earlier.Nodup) :
    firstRepeat earlier names = some name ↔ ∃ before after, names = before ++ name :: after ∧
      (before.reverse ++ earlier).Nodup ∧ name ∈ before.reverse ++ earlier := by
  induction names generalizing earlier with
  | nil => simp [firstRepeat]
  | cons first rest ih =>
    rw [firstRepeat]
    by_cases seen : first ∈ earlier
    · rw [if_pos seen, Option.some.injEq]
      constructor
      · rintro rfl
        exact ⟨[], rest, rfl, fresh, seen⟩
      · rintro ⟨before, after, split, distinct, _⟩
        cases before with
        | nil => exact (List.cons.inj split).1
        | cons other before =>
          obtain ⟨rfl, _⟩ := List.cons.inj split
          have apart := (List.nodup_append.1 distinct).2.2 first (by simp) first seen
          exact absurd rfl apart
    · rw [if_neg seen, ih (List.nodup_cons.2 ⟨seen, fresh⟩)]
      constructor
      · rintro ⟨before, after, rfl, distinct, again⟩
        exact ⟨first :: before, after, rfl, by simpa using distinct, by simpa using again⟩
      · rintro ⟨before, after, split, distinct, again⟩
        cases before with
        | nil =>
          obtain ⟨rfl, _⟩ := List.cons.inj split
          exact absurd again seen
        | cons other before =>
          obtain ⟨rfl, rfl⟩ := List.cons.inj split
          exact ⟨before, after, rfl, by simpa using distinct, by simpa using again⟩

/-- Without repeats the names are distinct, and conversely. -/
theorem firstRepeat_nil_eq_none_iff : firstRepeat [] names = none ↔ names.Nodup := by
  refine ⟨fun none => (nodup_of_firstRepeat none).1, fun distinct => ?_⟩
  cases found : firstRepeat [] names with
  | none => rfl
  | some name =>
    obtain ⟨before, after, rfl, _, again⟩ := (firstRepeat_eq_some_iff List.nodup_nil).1 found
    rw [List.append_nil, List.mem_reverse] at again
    exact absurd rfl ((List.nodup_append.1 distinct).2.2 name again name List.mem_cons_self)

namespace Registry

/-- Fields make a registry exactly when their names are distinct, and it holds just these. -/
theorem ofFields_eq_ok_iff {r : Registry} :
    ofFields fields = .ok r ↔ (fields.map (·.name)).Nodup ∧ r.fields = fields := by
  rw [← firstRepeat_nil_eq_none_iff]
  unfold ofFields
  split
  · rename_i name found
    simp [found]
  · rename_i none
    rw [Except.ok.injEq]
    constructor
    · rintro rfl
      exact ⟨none, rfl⟩
    · rintro ⟨_, rfl⟩
      rfl

/-- Fields are refused exactly for the first one whose name occurred before it. -/
theorem ofFields_eq_error_iff {failure : Failure} :
    ofFields fields = .error failure ↔ ∃ before f after, fields = before ++ f :: after ∧
      (before.map (·.name)).Nodup ∧ f.name ∈ before.map (·.name) ∧
      failure = .duplicateField f.name := by
  have repeated : ofFields fields = .error failure ↔
      ∃ name, firstRepeat [] (fields.map (·.name)) = some name ∧
        failure = .duplicateField name := by
    unfold ofFields
    split
    · rename_i name found
      simp [found, eq_comm]
    · rename_i none
      simp [none]
  rw [repeated]
  constructor
  · rintro ⟨name, found, rfl⟩
    obtain ⟨before, after, split, distinct, again⟩ :=
      (firstRepeat_eq_some_iff List.nodup_nil).1 found
    obtain ⟨passed, others, rfl, rfl, rest⟩ := List.map_eq_append_iff.1 split
    obtain ⟨f, later, rfl, rfl, rfl⟩ := List.map_eq_cons_iff.1 rest
    rw [List.append_nil] at distinct again
    exact ⟨passed, f, later, rfl, List.nodup_reverse.1 distinct, List.mem_reverse.1 again, rfl⟩
  · rintro ⟨before, f, after, rfl, distinct, again, rfl⟩
    refine ⟨f.name, (firstRepeat_eq_some_iff List.nodup_nil).2
      ⟨before.map (·.name), after.map (·.name), by simp, ?_, ?_⟩, rfl⟩
    · rw [List.append_nil]
      exact List.nodup_reverse.2 distinct
    · rw [List.append_nil]
      exact List.mem_reverse.2 again

variable {r : Registry}

/-- A field of a registry is found by its name. -/
theorem get_of_mem (declared : f ∈ r.fields) : r.get f.name = .ok f := by
  have found : r.field? f.name = some f := by
    obtain ⟨before, after, split⟩ := List.append_of_mem declared
    have distinct := r.distinct
    rw [split, List.map_append, List.map_cons] at distinct
    rw [field?, split, List.find?_eq_some_iff_append]
    refine ⟨decide_eq_true rfl, before, after, rfl, fun other sooner => ?_⟩
    have apart := (List.nodup_append.1 distinct).2.2 other.name (List.mem_map_of_mem sooner)
      f.name List.mem_cons_self
    simpa using apart
  rw [get, found]

/-- Another name is unknown. -/
theorem get_of_notMem (unknown : name ∉ r.fields.map (·.name)) :
    r.get name = .error (.unknownField name "field registry") := by
  have missing : r.field? name = none := by
    rw [field?, List.find?_eq_none]
    intro f declared same
    exact unknown (List.mem_map.2 ⟨f, declared, of_decide_eq_true same⟩)
  rw [get, missing]

/-- The fields of a category are those that apply to it, and in declaration order. -/
theorem fieldsFor_spec (category : Category) :
    (r.fieldsFor category).Sublist r.fields ∧ (r.fieldsFor category).Nodup ∧
      ∀ f, f ∈ r.fieldsFor category ↔ f ∈ r.fields ∧ category ∈ f.categories := by
  refine ⟨List.filter_sublist, (List.Nodup.of_map _ r.distinct).filter _, fun f => ?_⟩
  rw [fieldsFor, List.mem_filter, Field.appliesTo, List.contains_iff_mem]

/-- Fields make a registry exactly when any two of them have different names, and otherwise
they are refused for the first one whose name occurred before it. The registry holds just these
fields. Each is found by its name, and any other name is unknown. Those of a category are the
fields that apply to it, in declaration order and without repeats. -/
theorem ofFields_outcome (fields : List Field) :
    ((∃ r, ofFields fields = .ok r) ↔ fields.Pairwise fun f g => f.name ≠ g.name) ∧
    (∀ failure, ofFields fields = .error failure ↔ ∃ before f after,
      fields = before ++ f :: after ∧ (before.Pairwise fun f g => f.name ≠ g.name) ∧
      (∃ earlier ∈ before, earlier.name = f.name) ∧ failure = .duplicateField f.name) ∧
    ∀ r, ofFields fields = .ok r → r.fields = fields ∧
      (∀ f ∈ fields, r.get f.name = .ok f) ∧
      (∀ name, (∀ f ∈ fields, f.name ≠ name) →
        r.get name = .error (.unknownField name "field registry")) ∧
      ∀ category, (r.fieldsFor category).Sublist fields ∧ (r.fieldsFor category).Nodup ∧
        ∀ f, f ∈ r.fieldsFor category ↔ f ∈ fields ∧ category ∈ f.categories := by
  have apart : ∀ gs : List Field,
      (gs.map (·.name)).Nodup ↔ gs.Pairwise fun f g => f.name ≠ g.name :=
    fun _ => List.pairwise_map
  refine ⟨?_, fun failure => ?_, fun r made => ?_⟩
  · rw [← apart]
    constructor
    · rintro ⟨r, made⟩
      exact (ofFields_eq_ok_iff.1 made).1
    · intro distinct
      exact ⟨⟨fields, distinct⟩, ofFields_eq_ok_iff.2 ⟨distinct, rfl⟩⟩
  · simp only [ofFields_eq_error_iff, apart, List.mem_map]
  · obtain ⟨_, rfl⟩ := ofFields_eq_ok_iff.1 made
    refine ⟨rfl, fun f declared => get_of_mem declared, fun name unknown => get_of_notMem ?_,
      fieldsFor_spec⟩
    simpa using unknown

example : (ofFields [{ name := "rss" }, { name := "heap" }, { name := "heap" },
    { name := "rss" }]).map (·.fields) = .error (.duplicateField "heap") := by decide

end Registry

end RunReport
