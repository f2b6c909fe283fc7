import RunReport.Proofs.Metric.Dictionary
import RunReport.Proofs.Section.Rows
import RunReport.Report.Context

/-!
# What a context refers to

A context refers to the dictionary by the names of the fields that its sections show
and by the keys that are charted, each on behalf of its section or its chart. It is
assembled exactly when there is a run to compare with and the dictionary has all of
these keys. Nothing that is referred to is left out: the charts hold one entry for each
key asked for, in order. Otherwise the first key that is missing is reported with the
section or the chart that refers to it.
-/

namespace RunReport

namespace Dictionary

/-- The dictionary has a definition of the key. -/
def Defines (dictionary : Dictionary) (key : String) : Prop :=
  ∃ definition, dictionary.get? key = some definition

/-- A key and the part of a report that refers to it. -/
structure Reference where
  /-- The key. -/
  key : String
  /-- What refers to it. -/
  referrer : String

/-- The failure is that of the first reference to a key without definition. -/
def FirstUndefined (dictionary : Dictionary) (references : List Reference) (failure : Failure) :
    Prop :=
  ∃ before missing after, references = before ++ missing :: after ∧
    (∀ earlier ∈ before, dictionary.Defines earlier.key) ∧ ¬ dictionary.Defines missing.key ∧
    failure = .missingMetricDefinition missing.key missing.referrer

/-- The entry that a reference leads to. -/
def resolve (dictionary : Dictionary) (reference : Reference) : Except Failure DictionaryEntry :=
  match dictionary.get? reference.key with
  | some d => .ok ⟨reference.key, d⟩
  | none => .error (.missingMetricDefinition reference.key reference.referrer)

variable {dictionary : Dictionary} {references : List Reference} {reference : Reference}
  {keys : List String} {referrer : String} {failure : Failure}

/-- The keys that are defined are those of the entries. -/
theorem defines_iff_mem_keys {key : String} :
    dictionary.Defines key ↔ key ∈ dictionary.entries.map (·.1) := by
  simp [Defines, get?_eq_some_iff]

/-- A reference leads to an entry when its key is defined. -/
theorem exists_resolve_iff :
    (∃ entry, dictionary.resolve reference = .ok entry) ↔ dictionary.Defines reference.key := by
  unfold resolve Defines
  cases dictionary.get? reference.key with
  | none => simp
  | some d => simp

/-- A reference is refused when its key is not defined. -/
theorem resolve_eq_error_iff :
    dictionary.resolve reference = .error failure ↔ ¬ dictionary.Defines reference.key ∧
      failure = .missingMetricDefinition reference.key reference.referrer := by
  unfold resolve Defines
  cases dictionary.get? reference.key with
  | none => simp [eq_comm]
  | some d => simp

/-- References that are followed in order are refused for the first one that is undefined. -/
theorem firstUndefined_iff :
    dictionary.FirstUndefined references failure ↔
      references.mapM dictionary.resolve = .error failure := by
  simp only [FirstUndefined, Traversal.mapM_eq_error_iff, exists_resolve_iff, resolve_eq_error_iff]

/-- Without references there is none that is undefined. -/
theorem not_firstUndefined_nil : ¬ dictionary.FirstUndefined [] failure := by
  rintro ⟨before, missing, after, split, _⟩
  exact absurd split (by simp)

/-- The first undefined reference of two lists is in the first one, or in the second one
after all of the first one are defined. -/
theorem firstUndefined_append {others : List Reference} :
    dictionary.FirstUndefined (references ++ others) failure ↔
      dictionary.FirstUndefined references failure ∨
        (∀ reference ∈ references, dictionary.Defines reference.key) ∧
          dictionary.FirstUndefined others failure := by
  have followed : (∃ entries, references.mapM dictionary.resolve = .ok entries) ↔ _ :=
    Traversal.exists_mapM_iff
  simp only [exists_resolve_iff] at followed
  rw [← followed]
  simp only [firstUndefined_iff, List.mapM_append, Traversal.bind_eq_error_iff]
  refine or_congr_right ⟨?_, ?_⟩
  · rintro ⟨entries, here, later | ⟨_, _, wrong⟩⟩
    · exact ⟨⟨entries, here⟩, later⟩
    · cases wrong
  · rintro ⟨⟨entries, here⟩, later⟩
    exact ⟨entries, here, Or.inl later⟩

/-- Entries of keys are those that the references to the keys lead to. -/
theorem onlyKeys_eq_mapM (dictionary : Dictionary) (keys : List String) (referrer : String) :
    dictionary.onlyKeys keys referrer =
      (keys.map fun key => ⟨key, referrer⟩).mapM dictionary.resolve := by
  rw [List.mapM_map]
  rfl

/-- Entries of given keys exist exactly when all of the keys are defined. -/
theorem exists_onlyKeys_iff (dictionary : Dictionary) (keys : List String)
    (referencedBy : String) :
    (∃ entries, dictionary.onlyKeys keys referencedBy = .ok entries) ↔
      ∀ key ∈ keys, dictionary.Defines key := by
  simp only [onlyKeys_eq_mapM, Traversal.exists_mapM_iff, exists_resolve_iff, List.forall_mem_map]

/-- Entries of keys are refused for the first key that is not defined. -/
theorem onlyKeys_eq_error_iff :
    dictionary.onlyKeys keys referrer = .error failure ↔
      dictionary.FirstUndefined (keys.map fun key => ⟨key, referrer⟩) failure := by
  rw [onlyKeys_eq_mapM, firstUndefined_iff]

/-- The entries are those of the keys: one for each key, in order, with the definition that
the dictionary has of it. -/
def EntriesOf (dictionary : Dictionary) : List String → List DictionaryEntry → Prop :=
  List.Forall₂ fun key entry => entry.key = key ∧ (key, entry.definition) ∈ dictionary.entries

/-- Entries of keys are one for each key. -/
theorem entriesOf_of_onlyKeys {entries : List DictionaryEntry}
    (found : dictionary.onlyKeys keys referrer = .ok entries) :
    dictionary.EntriesOf keys entries := by
  refine (Traversal.mapM_eq_ok_iff.1 found).imp fun key entry here => ?_
  cases held : dictionary.get? key with
  | none => simp [held] at here
  | some d =>
    rw [held] at here
    obtain rfl := Except.ok.inj here
    exact ⟨rfl, get?_eq_some_iff.1 held⟩

end Dictionary

namespace Context

open Dictionary

variable {r : Registry} {dictionary : Dictionary} {keys : ChartKeys} {identity : Identity}
  {base : Run} {comparisons : List Run} {summary : SectionPlan} {analyses : List SectionPlan}
  {failure : Failure}

/-- Every name of a field that the plans show is defined. -/
def Documented (r : Registry) (dictionary : Dictionary) (plans : List SectionPlan) : Prop :=
  ∀ part ∈ plans, ∀ f ∈ part.fields r, dictionary.Defines f.name

/-- Documentation is required of exactly the names that are shown. -/
theorem requireDocumented_eq_ok_iff {plans : List SectionPlan} :
    requireDocumented r dictionary plans = .ok () ↔ Documented r dictionary plans := by
  induction plans with
  | nil => simp [requireDocumented, Documented]
  | cons part rest ih =>
    unfold requireDocumented
    rw [Traversal.bind_eq_ok_iff, Documented, List.forall_mem_cons]
    have named := Dictionary.exists_onlyKeys_iff dictionary ((part.fields r).map (·.name))
      ("section '" ++ part.dataRef ++ "'")
    rw [List.forall_mem_map] at named
    rw [← named]
    constructor
    · rintro ⟨entries, here, later⟩
      exact ⟨⟨entries, here⟩, ih.1 later⟩
    · rintro ⟨⟨entries, here⟩, later⟩
      exact ⟨entries, here, ih.2 later⟩

/-- A section refers to the names of the fields that it shows, in the order of their
declaration. -/
def sectionReferences (r : Registry) (plan : SectionPlan) : List Reference :=
  (r.fields.filter fun f => f.appliesTo plan.category && plan.selector.selects f).map fun f =>
    ⟨f.name, "section '" ++ plan.dataRef ++ "'"⟩

/-- What a context refers to: the fields of its sections in turn, then what is charted. -/
def references (r : Registry) (keys : ChartKeys) (plans : List SectionPlan) : List Reference :=
  plans.flatMap (sectionReferences r) ++
    (keys.clusterPerformance.map (⟨·, "charts.cluster_perf"⟩) ++
      keys.blockPropagation.map (⟨·, "charts.block_prop"⟩))

/-- The names that a section refers to are those of its fields. -/
theorem sectionReferences_eq (r : Registry) (plan : SectionPlan) :
    sectionReferences r plan = ((plan.fields r).map (·.name)).map fun name =>
      ⟨name, "section '" ++ plan.dataRef ++ "'"⟩ := by
  rw [sectionReferences, SectionPlan.fields_eq_filter, List.map_map]
  rfl

/-- Fields are documented when all that their sections refer to is defined. -/
theorem documented_iff {plans : List SectionPlan} :
    Documented r dictionary plans ↔
      ∀ reference ∈ plans.flatMap (sectionReferences r), dictionary.Defines reference.key := by
  simp only [Documented, sectionReferences_eq, List.forall_mem_flatMap, List.forall_mem_map]

/-- Documentation is refused for the first field that is not defined. -/
theorem requireDocumented_eq_error_iff {plans : List SectionPlan} :
    requireDocumented r dictionary plans = .error failure ↔
      dictionary.FirstUndefined (plans.flatMap (sectionReferences r)) failure := by
  induction plans with
  | nil => simp [requireDocumented, not_firstUndefined_nil]
  | cons part rest ih =>
    have here := exists_onlyKeys_iff dictionary ((part.fields r).map (·.name))
      ("section '" ++ part.dataRef ++ "'")
    rw [requireDocumented, Traversal.bind_eq_error_iff, List.flatMap_cons, firstUndefined_append,
      onlyKeys_eq_error_iff, ← ih, sectionReferences_eq, List.forall_mem_map, ← here]
    simp only [exists_and_right]

/-- Without a run to compare with nothing is assembled. -/
theorem assemble_of_nil (r : Registry) (dictionary : Dictionary) (keys : ChartKeys)
    (identity : Identity) (base : Run) (summary : SectionPlan) (analyses : List SectionPlan) :
    ∃ context, assemble r dictionary keys identity base [] summary analyses =
      .error (.emptyRunSet context) := ⟨_, rfl⟩

/-- With a run to compare with, the dictionary decides. -/
theorem exists_assemble_iff (present : comparisons ≠ []) :
    (∃ c, assemble r dictionary keys identity base comparisons summary analyses = .ok c) ↔
      Documented r dictionary (summary :: analyses) ∧
        ∀ key ∈ keys.clusterPerformance ++ keys.blockPropagation, dictionary.Defines key := by
  have nonempty : comparisons.isEmpty = false := by simpa using present
  simp only [assemble, nonempty, Bool.false_eq_true, if_false, Traversal.bind_eq_ok_iff,
    List.forall_mem_append]
  rw [← requireDocumented_eq_ok_iff,
    ← Dictionary.exists_onlyKeys_iff dictionary keys.clusterPerformance "charts.cluster_perf",
    ← Dictionary.exists_onlyKeys_iff dictionary keys.blockPropagation "charts.block_prop"]
  constructor
  · rintro ⟨_, _, documented, cluster, hcluster, blocks, hblocks, _⟩
    exact ⟨documented, ⟨cluster, hcluster⟩, blocks, hblocks⟩
  · rintro ⟨documented, ⟨cluster, hcluster⟩, blocks, hblocks⟩
    exact ⟨_, (), documented, cluster, hcluster, blocks, hblocks, rfl⟩

/-- With a run to compare with, the context is refused for the first undefined key that it
refers to. -/
theorem assemble_eq_error_iff (present : comparisons ≠ []) :
    assemble r dictionary keys identity base comparisons summary analyses = .error failure ↔
      dictionary.FirstUndefined (references r keys (summary :: analyses)) failure := by
  have nonempty : comparisons.isEmpty = false := by simpa using present
  have cluster := exists_onlyKeys_iff dictionary keys.clusterPerformance "charts.cluster_perf"
  rw [references, firstUndefined_append, firstUndefined_append, List.forall_mem_map, ← cluster,
    ← documented_iff, ← requireDocumented_eq_ok_iff, ← requireDocumented_eq_error_iff,
    ← onlyKeys_eq_error_iff, ← onlyKeys_eq_error_iff]
  simp only [assemble, nonempty, Bool.false_eq_true, if_false, Traversal.bind_eq_error_iff]
  refine or_congr_right ⟨?_, ?_⟩
  · rintro ⟨_, documented, first | ⟨entries, found, second | ⟨_, _, wrong⟩⟩⟩
    · exact ⟨documented, Or.inl first⟩
    · exact ⟨documented, Or.inr ⟨⟨entries, found⟩, second⟩⟩
    · cases wrong
  · rintro ⟨documented, first | ⟨⟨entries, found⟩, second⟩⟩
    · exact ⟨(), documented, Or.inl first⟩
    · exact ⟨(), documented, Or.inr ⟨entries, found, Or.inl second⟩⟩

/-- What a context shows of the runs and of the dictionary. -/
structure Follows (c : Context) (dictionary : Dictionary) (keys : ChartKeys) (base : Run)
    (comparisons : List Run) : Prop where
  /-- The runs are those that the base run is compared with, in their order. -/
  runs : c.runs = comparisons.map RunIdentity.ofRun
  /-- The tag of the report joins the tags of all runs, that of the base run first. -/
  tag : c.report.tag = "-vs-".intercalate (base.tag :: comparisons.map (·.tag))
  /-- The first chart has one entry for each of its keys. -/
  clusterPerformance : dictionary.EntriesOf keys.clusterPerformance c.charts.clusterPerformance
  /-- So has the second chart. -/
  blockPropagation : dictionary.EntriesOf keys.blockPropagation c.charts.blockPropagation
  /-- The dictionary is the given one. -/
  dictionary_eq : c.dictionary = dictionary

/-- A context that is assembled follows the runs and the dictionary. -/
theorem follows_of_assemble {c : Context}
    (assembled : assemble r dictionary keys identity base comparisons summary analyses = .ok c) :
    c.Follows dictionary keys base comparisons := by
  unfold assemble at assembled
  split at assembled
  · cases assembled
  · obtain ⟨_, _, assembled⟩ := Traversal.bind_eq_ok_iff.1 assembled
    obtain ⟨cluster, clusterFound, assembled⟩ := Traversal.bind_eq_ok_iff.1 assembled
    obtain ⟨blocks, blocksFound, assembled⟩ := Traversal.bind_eq_ok_iff.1 assembled
    obtain rfl := Except.ok.inj assembled
    exact ⟨rfl, rfl, entriesOf_of_onlyKeys clusterFound, entriesOf_of_onlyKeys blocksFound, rfl⟩

/-- A context is assembled exactly when there is a run to compare with and every key that the
context refers to is one of the dictionary. It then follows the runs and the dictionary.
Otherwise the lack of runs is reported first, and after it the first key that is missing,
with the section or the chart that refers to it. -/
theorem assemble_outcome (r : Registry) (dictionary : Dictionary) (keys : ChartKeys)
    (identity : Identity) (base : Run) (comparisons : List Run) (summary : SectionPlan)
    (analyses : List SectionPlan) :
    ((∃ c, assemble r dictionary keys identity base comparisons summary analyses = .ok c) ↔
      comparisons ≠ [] ∧ ∀ reference ∈ references r keys (summary :: analyses),
        reference.key ∈ dictionary.entries.map (·.1)) ∧
    (∀ c, assemble r dictionary keys identity base comparisons summary analyses = .ok c →
      c.Follows dictionary keys base comparisons) ∧
    ∀ failure,
      assemble r dictionary keys identity base comparisons summary analyses = .error failure ↔
        comparisons = [] ∧ failure =
          .emptyRunSet ("no comparison runs supplied for base run '" ++ base.tag ++ "'") ∨
        comparisons ≠ [] ∧
          dictionary.FirstUndefined (references r keys (summary :: analyses)) failure := by
  by_cases missing : comparisons = []
  · subst missing
    have refused : assemble r dictionary keys identity base [] summary analyses = .error
      (.emptyRunSet ("no comparison runs supplied for base run '" ++ base.tag ++ "'")) := rfl
    simp [refused, eq_comm]
  · refine ⟨?_, fun _ => follows_of_assemble, fun failure => ?_⟩
    · simp only [← defines_iff_mem_keys, references, List.forall_mem_append, List.forall_mem_map]
      rw [exists_assemble_iff missing, documented_iff, List.forall_mem_append]
      simp only [ne_eq, missing, not_false_eq_true, true_and]
    · simp only [assemble_eq_error_iff missing, ne_eq, missing, not_false_eq_true, false_and,
        true_and, false_or]

end Context

end RunReport
