import Mathlib.Data.List.Induction
import RunReport.Command.Invocation
import RunReport.Proofs.Distribution.Merging
import RunReport.Proofs.Run.Fields

/-!
# Tables that are merged name by name

A merge of tables from left to right is, for each name, the merge of its
distributions from left to right: it succeeds exactly when all of these do, and
the table then holds what they come to. If it is refused, then at the first
table at which the distributions of some name are, and on behalf of the first
such name in the order of the names.
-/

namespace RunReport

/-- What is paired with distinct names is found under its own. -/
theorem find?_of_mem {α : Type} {members : List (String × α)} {name : String} {a : α}
    (distinct : (members.map (·.1)).Nodup) (given : (name, a) ∈ members) :
    (members.find? (·.1 = name)).map (·.2) = some a := by
  induction members with
  | nil => cases given
  | cons member rest ih =>
    obtain ⟨fresh, distinct⟩ := List.nodup_cons.1 distinct
    rcases List.mem_cons.1 given with rfl | later
    · rw [List.find?_cons_of_pos (by simp)]
      rfl
    · have differs : member.1 ≠ name := fun same => fresh (List.mem_map.2 ⟨_, later, same.symm⟩)
      rw [List.find?_cons_of_neg (by simpa using differs)]
      exact ih distinct later

/-- Merging what a list of items has under some names stops at an item on behalf
of a name: what the items before it have merges, and so does with it what they
have under the names before that name. -/
structure StopsAt {ρ : Type} (names : List String)
    (column : List ρ → String → List (Distribution Binary64)) (items before : List ρ) (item : ρ)
    (earlier : List String) (name : String) (refusal : MergeRefusal Binary64) : Prop where
  /-- The item comes right after those before it. -/
  split : ∃ after, items = before ++ item :: after
  /-- What the items before it have merges under every name. -/
  merged : ∀ other ∈ names, ∃ d, Distribution.mergeAll (column before other) = .ok d
  /-- The name comes right after those before it. -/
  listed : ∃ later, names = earlier ++ name :: later
  /-- Under the names before it what the item has merges as well. -/
  fine : ∀ other ∈ earlier, ∃ d, Distribution.mergeAll (column (before ++ [item]) other) = .ok d
  /-- Under the name it does not. -/
  refused : Distribution.mergeAll (column (before ++ [item]) name) = .error refusal

namespace DistributionTable

variable {names : List String} {tables : List (DistributionTable names)}

/-- A merge of more tables goes on from the merge of those before. -/
theorem mergeAll_append (present : tables ≠ []) (more : List (DistributionTable names)) :
    mergeAll (tables ++ more) = mergeAll tables >>= fun merged => more.foldlM merge merged := by
  cases tables with
  | nil => exact absurd rfl present
  | cons first rest => rw [List.cons_append, mergeAll, mergeAll, List.foldlM_append]

/-- A merge of one more table goes on from the merge of those before. -/
theorem mergeAll_concat (present : tables ≠ []) (t : DistributionTable names) :
    mergeAll (tables ++ [t]) = mergeAll tables >>= fun merged => merged.merge t := by
  rw [mergeAll_append present]
  congr 1
  funext merged
  exact bind_pure _

/-- A table on distinct names holds the distributions of the names in their order. -/
theorem forall₂_find? (distinct : names.Nodup) (t : DistributionTable names) :
    List.Forall₂ (fun name d => t.find? name = some d) names t.entries := by
  refine List.forall₂_iff_zip.2 ⟨t.complete.symm, fun given => find?_of_mem ?_ given⟩
  rwa [named, List.map_fst_zip (Nat.le_of_eq t.complete.symm)]

/-- What a table holds under a name stands beside it. -/
theorem mem_named_of_find? {t : DistributionTable names} {name : String}
    {d : Distribution Binary64} (found : t.find? name = some d) : (name, d) ∈ t.named := by
  obtain ⟨member, first, rfl⟩ := Option.map_eq_some_iff.1 found
  obtain rfl : member.1 = name := by simpa using List.find?_some first
  exact List.mem_of_find?_eq_some first

/-- A table holds nothing under other names. -/
theorem find?_of_notMem {name : String} (absent : name ∉ names) (t : DistributionTable names) :
    t.find? name = none := by
  rw [find?, List.find?_eq_none.2, Option.map_none]
  intro member given same
  exact absent (of_decide_eq_true same ▸ (List.of_mem_zip given).1)

/-- The distributions of a name, table by table. -/
def column (tables : List (DistributionTable names)) (name : String) :
    List (Distribution Binary64) := tables.filterMap (·.find? name)

/-- Every table has a distribution of each name. -/
theorem map_some_column {name : String} (listed : name ∈ names)
    (tables : List (DistributionTable names)) :
    (column tables name).map some = tables.map (·.find? name) := by
  induction tables with
  | nil => rfl
  | cons t rest ih =>
    obtain ⟨d, found⟩ := t.exists_find?_iff.2 listed
    simp only [column, List.filterMap_cons, found, List.map_cons] at ih ⊢
    rw [ih]

/-- Another table has one more distribution of each name. -/
theorem column_concat {name : String} {t : DistributionTable names} {d : Distribution Binary64}
    (found : t.find? name = some d) (tables : List (DistributionTable names)) :
    column (tables ++ [t]) name = column tables name ++ [d] := by
  simp only [column, List.filterMap_append, List.filterMap_cons, found, List.filterMap_nil]

/-- Tables have distributions of each name if there are any tables. -/
theorem column_ne_nil {name : String} (listed : name ∈ names) (present : tables ≠ []) :
    column tables name ≠ [] := by
  intro none
  have sizes := congrArg List.length (map_some_column listed tables)
  rw [none, List.map_nil, List.length_map] at sizes
  exact present (List.length_eq_zero_iff.1 sizes.symm)

/-- The distributions of a name merged from left to right. A refusal is reported
on behalf of the name. -/
def mergeColumn (tables : List (DistributionTable names)) (name : String) :
    Except Failure (Distribution Binary64) :=
  (Distribution.mergeAll (column tables name)).mapError fun refusal => refusal.failure (some name)

theorem mergeColumn_eq_ok_iff {name : String} {d : Distribution Binary64} :
    mergeColumn tables name = .ok d ↔ Distribution.mergeAll (column tables name) = .ok d := by
  unfold mergeColumn
  cases Distribution.mergeAll (column tables name) <;> simp [Except.mapError]

theorem mergeColumn_eq_error_iff {name : String} {failure : Failure} :
    mergeColumn tables name = .error failure ↔
      ∃ refusal, Distribution.mergeAll (column tables name) = .error refusal ∧
        failure = refusal.failure (some name) := by
  unfold mergeColumn
  cases Distribution.mergeAll (column tables name) <;> simp [Except.mapError, eq_comm]

/-- Distributions are merged one after the other in the order of their names. -/
theorem mergeEntries_eq_mapM {P Q : String → Distribution Binary64 → Prop}
    {step : String → Except Failure (Distribution Binary64)} {names : List String}
    {as bs : List (Distribution Binary64)} (left : List.Forall₂ P names as)
    (right : List.Forall₂ Q names bs) (steps : ∀ name a b, P name a → Q name b →
      step name = (a.merge b).mapError fun refusal => refusal.failure (some name)) :
    mergeEntries names as bs = names.mapM step := by
  induction left generalizing bs with
  | nil => rfl
  | cons here _ ih =>
    cases right with
    | cons there right =>
      rw [mergeEntries, List.mapM_cons, steps _ _ _ here there, ih right]
      rename_i name a names as _ b bs
      cases a.merge b with
      | error refusal => rfl
      | ok d => cases names.mapM step <;> rfl

/-- A merge of two tables is the merge of their entries. -/
theorem merge_eq_ok_iff {a b c : DistributionTable names} :
    a.merge b = .ok c ↔ mergeEntries names a.entries b.entries = .ok c.entries := by
  unfold merge
  split
  · rename_i failure refused
    simp [refused]
  · rename_i ds merged
    constructor
    · intro same
      exact Except.ok.inj same ▸ merged
    · intro same
      obtain rfl : ds = c.entries := Except.ok.inj (merged.symm.trans same)
      rfl

/-- A merge of two tables is refused when that of their entries is. -/
theorem merge_eq_error_iff {a b : DistributionTable names} {failure : Failure} :
    a.merge b = .error failure ↔ mergeEntries names a.entries b.entries = .error failure := by
  unfold merge
  split
  · rename_i failure refused
    simp [refused]
  · rename_i ds merged
    simp [merged]

/-- When a table holds what the distributions of each name come to so far, merging
one more table merges one more distribution of each name. -/
theorem mergeEntries_concat (distinct : names.Nodup) {merged : DistributionTable names}
    (soFar : names.mapM (mergeColumn tables) = .ok merged.entries) (t : DistributionTable names) :
    mergeEntries names merged.entries t.entries = names.mapM (mergeColumn (tables ++ [t])) := by
  refine mergeEntries_eq_mapM (Traversal.mapM_eq_ok_iff.1 soFar) (forall₂_find? distinct t)
    fun name d e before found => ?_
  have before := mergeColumn_eq_ok_iff.1 before
  have present : column tables name ≠ [] := by
    rintro none
    rw [none] at before
    cases before
  rw [mergeColumn, column_concat found, Distribution.mergeAll_concat present, before]
  rfl

/-- One table merges into itself. -/
theorem mapM_mergeColumn_singleton (distinct : names.Nodup) (t : DistributionTable names) :
    names.mapM (mergeColumn [t]) = .ok t.entries := by
  refine Traversal.mapM_eq_ok_iff.2 ((forall₂_find? distinct t).imp fun name d found => ?_)
  have alone : column [t] name = [d] := column_concat found []
  rw [mergeColumn_eq_ok_iff, alone]
  rfl

/-- What merges for more tables merges for the first of them. -/
theorem exists_mergeColumn_of_concat {name : String} {t : DistributionTable names}
    (listed : name ∈ names) (present : tables ≠ [])
    (h : ∃ d, mergeColumn (tables ++ [t]) name = .ok d) : ∃ d, mergeColumn tables name = .ok d := by
  obtain ⟨d, h⟩ := h
  obtain ⟨e, found⟩ := t.exists_find?_iff.2 listed
  rw [mergeColumn_eq_ok_iff, column_concat found,
    Distribution.mergeAll_concat (column_ne_nil listed present)] at h
  obtain ⟨m, before, _⟩ := Traversal.bind_eq_ok_iff.1 h
  exact ⟨m, mergeColumn_eq_ok_iff.2 before⟩

/-- Tables merge into the table that holds what the distributions of each name
come to. -/
theorem mergeAll_eq_ok_iff (distinct : names.Nodup) (present : tables ≠ [])
    {merged : DistributionTable names} :
    mergeAll tables = .ok merged ↔ names.mapM (mergeColumn tables) = .ok merged.entries := by
  induction tables using List.reverseRecOn generalizing merged with
  | nil => exact absurd rfl present
  | append_singleton tables t ih =>
    by_cases none : tables = []
    · subst none
      rw [List.nil_append, mapM_mergeColumn_singleton distinct, Except.ok.injEq]
      constructor
      · intro same
        rw [Except.ok.inj same]
      · intro same
        cases t
        cases merged
        cases same
        rfl
    · rw [mergeAll_concat none, Traversal.bind_eq_ok_iff]
      constructor
      · rintro ⟨before, hbefore, h⟩
        rw [← mergeEntries_concat distinct ((ih none).1 hbefore)]
        exact merge_eq_ok_iff.1 h
      · intro h
        obtain ⟨ds, hds⟩ := Traversal.exists_mapM_iff.2 fun name listed =>
          exists_mergeColumn_of_concat listed none (Traversal.exists_mapM_iff.1 ⟨_, h⟩ name listed)
        have sizes := (Traversal.mapM_eq_ok_iff.1 hds).length_eq.symm
        refine ⟨⟨ds, sizes⟩, (ih none).2 hds, merge_eq_ok_iff.2 ?_⟩
        rw [mergeEntries_concat distinct hds]
        exact h

/-- Tables merge exactly when the distributions of each name do. -/
theorem exists_mergeAll_iff (distinct : names.Nodup) (present : tables ≠ []) :
    (∃ merged, mergeAll tables = .ok merged) ↔
      ∀ name ∈ names, ∃ d, Distribution.mergeAll (column tables name) = .ok d := by
  simp only [mergeAll_eq_ok_iff distinct present, ← mergeColumn_eq_ok_iff,
    ← Traversal.exists_mapM_iff]
  constructor
  · rintro ⟨merged, h⟩
    exact ⟨_, h⟩
  · rintro ⟨ds, h⟩
    exact ⟨⟨ds, (Traversal.mapM_eq_ok_iff.1 h).length_eq.symm⟩, h⟩

/-- A merged table holds under each name what its distributions come to, and
nothing under other names. -/
theorem find?_of_mergeAll (distinct : names.Nodup) (present : tables ≠ [])
    {merged : DistributionTable names} (h : mergeAll tables = .ok merged) (name : String) :
    merged.find? name =
      if name ∈ names then (Distribution.mergeAll (column tables name)).toOption else none := by
  by_cases listed : name ∈ names
  · have each := Traversal.mapM_eq_ok_iff.1 ((mergeAll_eq_ok_iff distinct present).1 h)
    obtain ⟨d, found⟩ := merged.exists_find?_iff.2 listed
    have result := (List.forall₂_iff_zip.1 each).2 (mem_named_of_find? found)
    rw [if_pos listed, found, mergeColumn_eq_ok_iff.1 result]
    rfl
  · rw [if_neg listed, merged.find?_of_notMem listed]

/-- One more table is refused on behalf of the first name whose distributions do
not merge with those of the table. -/
theorem stopsAt_concat (distinct : names.Nodup) (present : tables ≠ [])
    {merged t : DistributionTable names} (soFar : mergeAll tables = .ok merged)
    {failure : Failure} : merged.merge t = .error failure ↔ ∃ earlier name refusal,
      StopsAt names column (tables ++ [t]) tables t earlier name refusal ∧
        failure = refusal.failure (some name) := by
  have each := (mergeAll_eq_ok_iff distinct present).1 soFar
  rw [merge_eq_error_iff, mergeEntries_concat distinct each, Traversal.mapM_eq_error_iff]
  simp only [mergeColumn_eq_ok_iff, mergeColumn_eq_error_iff]
  constructor
  · rintro ⟨earlier, name, later, split, fine, refusal, refused, rfl⟩
    exact ⟨earlier, name, refusal, ⟨⟨[], rfl⟩, (exists_mergeAll_iff distinct present).1 ⟨_, soFar⟩,
      ⟨later, split⟩, fine, refused⟩, rfl⟩
  · rintro ⟨earlier, name, refusal, ⟨_, _, ⟨later, split⟩, fine, refused⟩, rfl⟩
    exact ⟨earlier, name, later, split, fine, refusal, refused, rfl⟩

/-- Before a merge is refused there are tables that merge. -/
theorem before_ne_nil_of_stopsAt {before : List (DistributionTable names)}
    {t : DistributionTable names} {earlier : List String} {name : String}
    {refusal : MergeRefusal Binary64}
    (h : StopsAt names column tables before t earlier name refusal) : before ≠ [] := by
  rintro rfl
  obtain ⟨later, split⟩ := h.listed
  obtain ⟨_, wrong⟩ := h.merged name (by simp [split])
  cases wrong

/-- A merge is refused at the first table at which the distributions of some name
are, and on behalf of the first such name. -/
theorem mergeAll_eq_error_iff (distinct : names.Nodup) {failure : Failure} (present : tables ≠ []) :
    mergeAll tables = .error failure ↔ ∃ before t earlier name refusal,
      StopsAt names column tables before t earlier name refusal ∧
        failure = refusal.failure (some name) := by
  constructor
  · intro stopped
    induction tables using List.reverseRecOn with
    | nil => exact absurd rfl present
    | append_singleton tables t ih =>
      by_cases none : tables = []
      · subst none
        cases stopped
      rw [mergeAll_concat none] at stopped
      rcases Traversal.bind_eq_error_iff.1 stopped with sooner | ⟨merged, soFar, here⟩
      · obtain ⟨before, s, earlier, name, refusal, h, rfl⟩ := ih none sooner
        obtain ⟨after, split⟩ := h.split
        exact ⟨before, s, earlier, name, refusal,
          { h with split := ⟨after ++ [t], by rw [split]; simp⟩ }, rfl⟩
      · obtain ⟨earlier, name, refusal, h, rfl⟩ := (stopsAt_concat distinct none soFar).1 here
        exact ⟨tables, t, earlier, name, refusal, h, rfl⟩
  · rintro ⟨before, t, earlier, name, refusal, h, rfl⟩
    have begun := before_ne_nil_of_stopsAt h
    obtain ⟨merged, soFar⟩ := (exists_mergeAll_iff distinct begun).2 h.merged
    have here := (stopsAt_concat distinct begun soFar).2
      ⟨earlier, name, refusal, { h with split := ⟨[], rfl⟩ }, rfl⟩
    obtain ⟨after, rfl⟩ := h.split
    rw [mergeAll_append begun, soFar]
    exact Traversal.bind_eq_error_iff.2
      (Or.inr ⟨merged, rfl, Traversal.bind_eq_error_iff.2 (Or.inl here)⟩)

end DistributionTable

namespace MergeTable

/-- The category of the fields that are read from a table. -/
def category : MergeTable → Category
  | machines => .machinePerformance
  | propagation => .blockPropagation

/-- The table of a run. -/
def ofRun : (table : MergeTable) → Run → DistributionTable table.category.distributions
  | machines, run => run.machines
  | propagation, run => run.propagation

/-- The distributions of a metric, run by run. -/
def column (table : MergeTable) (runs : List Run) (name : String) : List (Distribution Binary64) :=
  runs.filterMap (·.distribution? table.category name)

/-- The metrics of a table have distinct names. -/
theorem nodup_distributions (table : MergeTable) : table.category.distributions.Nodup := by
  cases table <;> decide

/-- A table holds what its run has under the names of its category. -/
theorem find?_ofRun (table : MergeTable) (run : Run) (name : String) :
    (table.ofRun run).find? name = run.distribution? table.category name := by
  cases table <;> rfl

/-- The distributions of a metric in the tables are those of the runs. -/
theorem column_ofRun (table : MergeTable) (runs : List Run) (name : String) :
    DistributionTable.column (runs.map table.ofRun) name = table.column runs name := by
  rw [DistributionTable.column, List.filterMap_map, column]
  exact congrArg (List.filterMap · runs) (funext fun run => table.find?_ofRun run name)

/-- What the command merges is the table of its runs. -/
theorem merged_eq (table : MergeTable) (runs : List Run) :
    MergeRequest.merged table runs =
      (DistributionTable.mergeAll (runs.map table.ofRun)).map (·.toJson) := by
  cases table <;> rfl

/-- A merge of tables stops where the merge of what the runs have does. -/
theorem exists_stopsAt_iff (table : MergeTable) (runs : List Run) (failure : Failure) :
    (∃ before t earlier name refusal, StopsAt table.category.distributions DistributionTable.column
        (runs.map table.ofRun) before t earlier name refusal ∧
          failure = refusal.failure (some name)) ↔
      ∃ before run earlier name refusal, StopsAt table.category.distributions table.column
        runs before run earlier name refusal ∧ failure = refusal.failure (some name) := by
  have reached (before : List Run) (run : Run) (name : String) :
      DistributionTable.column (before.map table.ofRun ++ [table.ofRun run]) name =
        table.column (before ++ [run]) name := by
    rw [← table.column_ofRun, List.map_append, List.map_singleton]
  constructor
  · rintro ⟨_, _, earlier, name, refusal, h, rfl⟩
    obtain ⟨_, split⟩ := h.split
    obtain ⟨before, others, rfl, rfl, rest⟩ := List.map_eq_append_iff.1 split
    obtain ⟨run, after, rfl, rfl, rfl⟩ := List.map_eq_cons_iff.1 rest
    refine ⟨before, run, earlier, name, refusal, ⟨⟨after, rfl⟩, ?_, h.listed, ?_, ?_⟩, rfl⟩
    · simpa only [table.column_ofRun] using h.merged
    · simpa only [reached] using h.fine
    · simpa only [reached] using h.refused
  · rintro ⟨before, run, earlier, name, refusal, h, rfl⟩
    obtain ⟨after, rfl⟩ := h.split
    refine ⟨before.map table.ofRun, table.ofRun run, earlier, name, refusal,
      ⟨⟨after.map table.ofRun, by simp⟩, ?_, h.listed, ?_, ?_⟩, rfl⟩
    · simpa only [table.column_ofRun] using h.merged
    · simpa only [reached] using h.fine
    · simpa only [reached] using h.refused

/-- The merge command merges metric by metric. For some runs it succeeds exactly
when the distributions of each metric, run by run, merge. The merged table then
has under the name of a metric what that metric's distributions come to, and
nothing under other names. If the merge is refused, then at the first run at which
some metric's distributions are, for the first such metric, and on behalf of it. -/
theorem merges_each_metric (table : MergeTable) (first : Run) (rest : List Run) :
    let runs := first :: rest
    let merged := DistributionTable.mergeAll (runs.map table.ofRun)
    MergeRequest.merged table runs = merged.map (·.toJson) ∧
    (∀ name ∈ table.category.distributions, (table.column runs name).map some =
      runs.map (·.distribution? table.category name)) ∧
    ((∃ t, merged = .ok t) ↔ ∀ name ∈ table.category.distributions,
      ∃ d, Distribution.mergeAll (table.column runs name) = .ok d) ∧
    (∀ t, merged = .ok t → ∀ name, t.find? name =
      if name ∈ table.category.distributions then
        (Distribution.mergeAll (table.column runs name)).toOption
      else none) ∧
    ∀ failure, merged = .error failure ↔ ∃ before run earlier name refusal,
      StopsAt table.category.distributions table.column runs before run earlier name refusal ∧
        failure = refusal.failure (some name) := by
  intro runs merged
  have distinct := table.nodup_distributions
  have present : runs.map table.ofRun ≠ [] := by simp [runs]
  have held := DistributionTable.exists_mergeAll_iff distinct present
  simp only [table.column_ofRun] at held
  refine ⟨table.merged_eq runs, fun name listed => ?_, held, fun t h name => ?_, fun failure => ?_⟩
  · have all := DistributionTable.map_some_column listed (runs.map table.ofRun)
    rw [table.column_ofRun, List.map_map] at all
    exact all.trans (List.map_congr_left fun run _ => table.find?_ofRun run name)
  · rw [DistributionTable.find?_of_mergeAll distinct present h, table.column_ofRun]
  · exact (DistributionTable.mergeAll_eq_error_iff distinct present).trans
      (table.exists_stopsAt_iff runs failure)

end MergeTable

end RunReport
