import Mathlib.Data.List.Nodup
import RunReport.Report.Format
import RunReport.Run.Basic
import RunReport.Section.Basic

/-!
# The names of files

The last character of a file's name tells the report and the tables of a format
from those of another one, and both from the files that a report was made from.
So two names can be the same only within a format, or in a format that is asked
for twice. Within a format they differ as the names of the report and of the
tables do.
-/

namespace RunReport

/-- The names of the files of a report in a format, given the names of the
tables' files without extension. -/
def OutputFormat.fileNames (format : OutputFormat) (stems : List String) (workload : Workload)
    (emitContext : Bool) : List String :=
  let report := "report-" ++ workload.fileToken ++ "." ++ format.extension
  report :: stems.map (fun stem => stem ++ "." ++ format.extension) ++
    if emitContext then [report ++ ".context.json", report ++ ".template"] else []

/-- The names of the files that hold the standard sections, without extension. -/
def Layout.standardStems : List String :=
  (standardSummary :: standardAnalyses).map (·.targetFile)

/-- The name of the file of a report on a workload, without extension. -/
def Workload.reportStem (workload : Workload) : String := "report-" ++ workload.fileToken

/-- The last character of a name. -/
def lastChar (name : String) : Option Char := name.toList.getLast?

/-- A name ends as the text at its end does. -/
theorem lastChar_append (name : String) {ending : String} (nonempty : ending.toList ≠ []) :
    lastChar (name ++ ending) = lastChar ending := by
  rw [lastChar, String.toList_append, List.getLast?_append_of_ne_nil _ nonempty, lastChar]

namespace OutputFormat

/-- A name with the extension of a format, and a suffix after it. -/
def named (format : OutputFormat) (stem suffix : String) : String :=
  stem ++ "." ++ format.extension ++ suffix

/-- What follows the name of a report in the names of what it was made from. -/
def sourceSuffixes (emitContext : Bool) : List String :=
  if emitContext then [".context.json", ".template"] else []

/-- What follows the extension of a format in a name: nothing, or a suffix. -/
def suffixes : List String := "" :: sourceSuffixes true

variable {format other : OutputFormat} {stems : List String} {workload : Workload}
  {emitContext : Bool} {suffix : String}

/-- The suffixes of the files that a report was made from are among all suffixes. -/
theorem mem_suffixes_of_mem_sourceSuffixes (given : suffix ∈ sourceSuffixes emitContext) :
    suffix ∈ suffixes ∧ "" ≠ suffix := by
  revert suffix
  cases emitContext <;> decide

/-- A format's names are those of the report and of the tables, and those of what
the report was made from. -/
theorem fileNames_eq (format : OutputFormat) (stems : List String) (workload : Workload)
    (emitContext : Bool) :
    format.fileNames stems workload emitContext =
      (workload.reportStem :: stems).map (format.named · "") ++
        (sourceSuffixes emitContext).map (format.named workload.reportStem) := by
  simp only [named, String.append_empty]
  cases emitContext <;> rfl

/-- A name ends as its extension and its suffix do. -/
theorem lastChar_named (format : OutputFormat) (stem suffix : String) :
    lastChar (format.named stem suffix) = lastChar (format.extension ++ suffix) := by
  have nonempty : (format.extension ++ suffix).toList ≠ [] := by
    cases format <;> simp [extension]
  rw [named, String.append_assoc, lastChar_append _ nonempty]

/-- The last character of a name tells its suffix. -/
theorem suffix_eq_of_lastChar_eq (format other : OutputFormat) :
    ∀ suffix ∈ suffixes, ∀ also ∈ suffixes,
      lastChar (format.extension ++ suffix) = lastChar (other.extension ++ also) →
        suffix = also := by
  cases format <;> cases other <;> decide

/-- The last character of an extension tells its format. -/
theorem lastChar_extension_inj :
    lastChar format.extension = lastChar other.extension ↔ format = other := by
  cases format <;> cases other <;> decide

/-- A name tells its format, its suffix and what comes before. -/
theorem eq_of_named_eq {stem another also : String} (given : suffix ∈ suffixes)
    (further : also ∈ suffixes) (same : format.named stem suffix = other.named another also) :
    format = other ∧ suffix = also ∧ stem = another := by
  have ending := congrArg lastChar same
  rw [lastChar_named, lastChar_named] at ending
  obtain rfl := suffix_eq_of_lastChar_eq format other suffix given also further ending
  rw [named, named, String.append_left_inj] at same
  have ending := congrArg lastChar same
  rw [lastChar_append _ (by cases format <;> decide),
    lastChar_append _ (by cases other <;> decide)] at ending
  obtain rfl := lastChar_extension_inj.1 ending
  rw [String.append_left_inj, String.append_left_inj] at same
  exact ⟨rfl, rfl, same⟩

/-- Every name of a format has one of the suffixes. -/
theorem exists_named_of_mem_fileNames {name : String}
    (listed : name ∈ format.fileNames stems workload emitContext) :
    ∃ stem, ∃ suffix ∈ suffixes, format.named stem suffix = name := by
  rw [fileNames_eq] at listed
  rcases List.mem_append.1 listed with plain | source
  · obtain ⟨stem, _, rfl⟩ := List.mem_map.1 plain
    exact ⟨stem, "", List.mem_cons_self, rfl⟩
  · obtain ⟨suffix, given, rfl⟩ := List.mem_map.1 source
    exact ⟨_, suffix, (mem_suffixes_of_mem_sourceSuffixes given).1, rfl⟩

/-- Different formats share no name. -/
theorem disjoint_fileNames_of_ne (differ : format ≠ other) :
    (format.fileNames stems workload emitContext).Disjoint
      (other.fileNames stems workload emitContext) := by
  refine List.disjoint_left.2 fun name here there => ?_
  obtain ⟨stem, suffix, given, rfl⟩ := exists_named_of_mem_fileNames here
  obtain ⟨another, also, further, same⟩ := exists_named_of_mem_fileNames there
  exact differ (eq_of_named_eq further given same).1.symm

/-- A format's names are distinct exactly when those of the report and of the
tables are. -/
theorem nodup_fileNames_iff :
    (format.fileNames stems workload emitContext).Nodup ↔
      (workload.reportStem :: stems).Nodup := by
  have plain : Function.Injective (format.named · "") := fun one another same =>
    (eq_of_named_eq List.mem_cons_self List.mem_cons_self same).2.2
  have source : Function.Injective (format.named workload.reportStem) := fun one another same =>
    (String.append_right_inj _).1 same
  have sources : (sourceSuffixes emitContext).Nodup := by cases emitContext <;> decide
  rw [fileNames_eq, List.nodup_append, List.nodup_map_iff plain, List.nodup_map_iff source]
  refine ⟨And.left, fun distinct => ⟨distinct, sources, ?_⟩⟩
  refine List.forall_mem_map.2 fun stem _ => List.forall_mem_map.2 fun suffix given same => ?_
  obtain ⟨among, nonempty⟩ := mem_suffixes_of_mem_sourceSuffixes given
  exact nonempty (eq_of_named_eq List.mem_cons_self among same).2.1

/-- The names of all formats are distinct exactly when no format occurs twice
and, if there are any, the report and the tables have different names. -/
theorem nodup_flatMap_fileNames_iff_stems {formats : List OutputFormat} :
    (formats.flatMap (·.fileNames stems workload emitContext)).Nodup ↔
      formats.Nodup ∧ (formats = [] ∨ (workload.reportStem :: stems).Nodup) := by
  rw [List.nodup_flatMap]
  constructor
  · rintro ⟨within, between⟩
    refine ⟨between.imp fun {one another} disjoint same => ?_, ?_⟩
    · subst same
      exact disjoint List.mem_cons_self List.mem_cons_self
    · cases formats with
      | nil => exact .inl rfl
      | cons format rest => exact .inr (nodup_fileNames_iff.1 (within format List.mem_cons_self))
  · rintro ⟨distinct, stems⟩
    refine ⟨fun format listed => ?_, distinct.imp disjoint_fileNames_of_ne⟩
    exact nodup_fileNames_iff.2 (stems.resolve_left (List.ne_nil_of_mem listed))

/-- With the standard sections the names of all formats are distinct exactly when
no format occurs twice. -/
theorem nodup_flatMap_fileNames_iff (workload : Workload) (emitContext : Bool)
    {formats : List OutputFormat} :
    (formats.flatMap (·.fileNames Layout.standardStems workload emitContext)).Nodup ↔
      formats.Nodup := by
  have stems : (workload.reportStem :: Layout.standardStems).Nodup := by
    cases workload <;> decide
  rw [nodup_flatMap_fileNames_iff_stems]
  exact ⟨And.left, fun distinct => ⟨distinct, .inr stems⟩⟩

end OutputFormat

end RunReport
