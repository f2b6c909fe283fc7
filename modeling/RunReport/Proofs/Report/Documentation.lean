import RunReport.Proofs.Report.Assembly

/-!
# What a registry tells of its fields

A registry tells of its fields twice: by the dictionary that follows from it, and by the
descriptions of sections. The dictionary has one entry for each field and no other. The
entries of the fields that a section shows agree with the section's description, place by
place. So a context that is assembled with this dictionary can lack nothing but a run to
compare with and what is charted.
-/

namespace RunReport

/-- An entry is what a field says about itself. -/
structure DictionaryEntry.TellsOf (entry : DictionaryEntry) (f : Field) : Prop where
  /-- The key is the name of the field. -/
  key : entry.key = f.name
  /-- The short name is the label of its row. -/
  shortDescription : entry.definition.shortDescription = f.label
  /-- What the field measures. -/
  description : entry.definition.description = f.description
  /-- The unit of its values. -/
  unit : entry.definition.unit = f.unit
  /-- The decimal places that are shown. -/
  precision : entry.definition.precision = f.precision
  /-- The word for its kind. -/
  kind : entry.definition.kind = f.kind.name

/-- An entry tells the same of a metric as the description of a field. -/
structure DictionaryEntry.Agrees (entry : DictionaryEntry) (described : FieldDescription) :
    Prop where
  /-- The key is the name in the description. -/
  key : entry.key = described.name
  /-- The short names are the same. -/
  shortDescription : entry.definition.shortDescription = described.definition.shortDescription
  /-- They measure the same. -/
  description : entry.definition.description = described.definition.description
  /-- The units are the same. -/
  unit : entry.definition.unit = described.definition.unit
  /-- The decimal places are the same. -/
  precision : entry.definition.precision = described.definition.precision
  /-- The kinds are the same. -/
  kind : entry.definition.kind = described.definition.kind

namespace Dictionary

variable {r : Registry} {key : String}

/-- The dictionary of a registry defines exactly the names of its fields. -/
theorem defines_ofRegistry_iff :
    (ofRegistry r).Defines key ↔ key ∈ r.fields.map (·.name) := by
  rw [defines_iff_mem_keys, ((entries_ofRegistry_perm r).map (·.1)).mem_iff, List.map_map]
  rfl

/-- The entries of declared fields are there, each being what the field says. -/
theorem onlyKeys_ofRegistry {fields : List Field} (declared : ∀ f ∈ fields, f ∈ r.fields)
    (referrer : String) :
    (ofRegistry r).onlyKeys (fields.map (·.name)) referrer =
      .ok (fields.map fun f => ⟨f.name, Definition.ofField f⟩) := by
  rw [onlyKeys_eq_mapM, Traversal.mapM_eq_ok_iff, List.map_map, List.forall₂_map_left_iff,
    List.forall₂_map_right_iff]
  refine List.forall₂_same.2 fun f given => ?_
  simp only [resolve, Function.comp_apply, get?_ofRegistry (declared f given)]

end Dictionary

namespace Context

/-- What the charts of a context refer to. -/
def chartReferences (keys : ChartKeys) : List Dictionary.Reference :=
  keys.clusterPerformance.map (⟨·, "charts.cluster_perf"⟩) ++
    keys.blockPropagation.map (⟨·, "charts.block_prop"⟩)

/-- The dictionary of a registry documents whatever sections show its fields. -/
theorem documented_ofRegistry (r : Registry) (plans : List SectionPlan) :
    Documented r (Dictionary.ofRegistry r) plans := by
  intro part _ f shown
  have declared : f ∈ r.fields := SectionPlan.mem_fields_of_shown shown
  exact Dictionary.defines_ofRegistry_iff.2 (List.mem_map_of_mem declared)

/-- With the dictionary of the registry, the first undefined key is one of the charts. -/
theorem firstUndefined_ofRegistry_iff {r : Registry} {keys : ChartKeys}
    {plans : List SectionPlan} {failure : Failure} :
    (Dictionary.ofRegistry r).FirstUndefined (references r keys plans) failure ↔
      ∃ before missing after, chartReferences keys = before ++ missing :: after ∧
        (∀ earlier ∈ before, earlier.key ∈ r.fields.map (·.name)) ∧
        missing.key ∉ r.fields.map (·.name) ∧
        failure = .missingMetricDefinition missing.key missing.referrer := by
  have documented := documented_iff.1 (documented_ofRegistry r plans)
  have none : ¬ (Dictionary.ofRegistry r).FirstUndefined
      (plans.flatMap (sectionReferences r)) failure := by
    rintro ⟨before, missing, after, split, _, undefined, _⟩
    exact undefined (documented missing (by simp [split]))
  rw [references, Dictionary.firstUndefined_append, or_iff_right none, and_iff_right documented]
  simp only [Dictionary.FirstUndefined, Dictionary.defines_ofRegistry_iff]
  rfl

end Context

/-- The dictionary that follows from a registry has one entry for each field. The entries
of the fields that a section shows are there, whoever asks for them, and agree place by
place with the description of the section. A context that is assembled with the
dictionary therefore fails only for want of a run to compare with, or for the first
charted key that is the name of no field. -/
theorem Registry.tells_alike (r : Registry) :
    (Dictionary.ofRegistry r).entries.length = r.fields.length ∧
    (∀ (plan : SectionPlan) (referrer : String), ∃ entries,
      (Dictionary.ofRegistry r).onlyKeys ((plan.fields r).map (·.name)) referrer = .ok entries ∧
      List.Forall₂ DictionaryEntry.TellsOf entries (plan.fields r) ∧
      List.Forall₂ DictionaryEntry.Agrees entries (SectionDescription.ofPlan plan r).fields) ∧
    ∀ (keys : ChartKeys) (identity : Identity) (base : Run) (comparisons : List Run)
      (summary : SectionPlan) (analyses : List SectionPlan) (failure : Failure),
      Context.assemble r (Dictionary.ofRegistry r) keys identity base comparisons summary
          analyses = .error failure ↔
        comparisons = [] ∧ failure =
          .emptyRunSet ("no comparison runs supplied for base run '" ++ base.tag ++ "'") ∨
        comparisons ≠ [] ∧ ∃ before missing after,
          Context.chartReferences keys = before ++ missing :: after ∧
          (∀ earlier ∈ before, earlier.key ∈ r.fields.map (·.name)) ∧
          missing.key ∉ r.fields.map (·.name) ∧
          failure = .missingMetricDefinition missing.key missing.referrer := by
  refine ⟨?_, fun plan referrer => ?_, ?_⟩
  · rw [(Dictionary.entries_ofRegistry_perm r).length_eq, List.length_map]
  · have declared : ∀ f ∈ plan.fields r, f ∈ r.fields :=
      fun f shown => SectionPlan.mem_fields_of_shown shown
    refine ⟨_, Dictionary.onlyKeys_ofRegistry declared referrer, ?_, ?_⟩
    · refine List.forall₂_map_left_iff.2 (List.forall₂_same.2 fun f _ => ?_)
      exact ⟨rfl, rfl, rfl, rfl, rfl, rfl⟩
    · refine List.forall₂_map_left_iff.2 (List.forall₂_map_right_iff.2 ?_)
      exact List.forall₂_same.2 fun f _ => ⟨rfl, rfl, rfl, rfl, rfl, rfl⟩
  · intro keys identity base comparisons summary analyses failure
    by_cases missing : comparisons = []
    · subst missing
      have refused : Context.assemble r (Dictionary.ofRegistry r) keys identity base [] summary
        analyses = .error (.emptyRunSet
          ("no comparison runs supplied for base run '" ++ base.tag ++ "'")) := rfl
      simp [refused, eq_comm]
    · rw [Context.assemble_eq_error_iff missing, Context.firstUndefined_ofRegistry_iff]
      simp only [missing, false_and, false_or, ne_eq, not_false_eq_true, true_and]

end RunReport
