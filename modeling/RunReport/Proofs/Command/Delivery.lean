import RunReport.Proofs.Command.Loading
import RunReport.Proofs.Report.Outputs
import RunReport.Proofs.Report.Standard

/-!
# Reports that are delivered

When everything that a report is made from can be read, the report can be
generated, and the directory can take its files, the command delivers the report
exactly when no format is asked for twice. Then each file stands in the
directory with the text that was generated, nothing is left of what was written
on the way, and all other files are as before. If a format is asked for twice,
the command is given up although the report is generated.
-/

namespace RunReport

open RunReport.Action

namespace ReportRequest

/-- The files of generated reports. -/
def filesOf (r : ReportRequest) (reports : List Rendered) : List OutputFile :=
  reports.flatMap (·.files r.emitContext)

variable {r : ReportRequest} {readers : TextReaders} {env : Environment}
  {tree after : FileTree} {job : ReportJob} {reports : List Rendered}

/-- The names of the files, format by format. -/
theorem map_name_filesOf
    (standard : job.plan.layout = Layout.standardSummary :: Layout.standardAnalyses)
    (generated : job.generate = .ok reports) :
    (r.filesOf reports).map (·.name) = job.formats.flatMap
      (·.fileNames Layout.standardStems job.base.metadata.workload r.emitContext) := by
  have names := ReportPlan.map_name_files r.emitContext generated
  rwa [standard] at names

/-- The names of the files are distinct exactly when no format occurs twice. -/
theorem nodup_names_iff
    (standard : job.plan.layout = Layout.standardSummary :: Layout.standardAnalyses)
    (generated : job.generate = .ok reports) :
    ((r.filesOf reports).map (·.name)).Nodup ↔ job.formats.Nodup := by
  rw [map_name_filesOf standard generated]
  exact OutputFormat.nodup_flatMap_fileNames_iff job.base.metadata.workload r.emitContext

/-- The names of the files can be given to files. -/
theorem isFileName_of_mem_filesOf
    (standard : job.plan.layout = Layout.standardSummary :: Layout.standardAnalyses)
    (generated : job.generate = .ok reports) :
    ∀ file ∈ r.filesOf reports, Publication.IsFileName file.name := by
  have each : ∀ name ∈ (r.filesOf reports).map (·.name), Publication.IsFileName name := by
    rw [map_name_filesOf standard generated]
    intro name given
    obtain ⟨format, _, given⟩ := List.mem_flatMap.1 given
    exact format.isFileName_of_mem_fileNames job.base.metadata.workload r.emitContext name given
  exact List.forall_mem_map.1 each

/-- A report that is loaded and generated is published, and then its files are
named. -/
theorem run_of_generate (loaded :
    (r.load readers env : ExceptT Fatal (StateM FileTree) ReportJob).run.run tree = (.ok job, tree))
    (generated : job.generate = .ok reports) {result : Except Fatal Unit}
    (published : (Publication.publish job.outputDir (r.filesOf reports) :
      StateM FileTree (Except Fatal Unit)).run tree = (result, after)) :
    (r.run readers env : StateM FileTree Outcome).run tree = ((match result with
      | .ok () => .finished "" (reports.map fun report => Path.join job.outputDir report.filename)
      | .error cause => .abandoned cause), after) := by
  refine (run_bind_of_run loaded).trans ?_
  simp only [generated]
  refine (run_bind_of_run published).trans ?_
  cases result <;> rfl

/-- What the command comes to follows from whether a format is asked for twice. -/
theorem exists_run_of_receives
    (loaded : (r.load readers env : ExceptT Fatal (StateM FileTree) ReportJob).run.run tree =
      (.ok job, after))
    (generated : job.generate = .ok reports)
    (receives : tree.Receives job.outputDir ((r.filesOf reports).map (·.name))) :
    ∃ outcome last, (r.run readers env : StateM FileTree Outcome).run tree = (outcome, last) ∧
      (job.formats.Nodup → tree.Published job.outputDir (r.filesOf reports) last ∧
        outcome = .finished ""
          (reports.map fun report => Path.join job.outputDir report.filename)) ∧
      (¬ job.formats.Nodup → ∃ file ∈ r.filesOf reports,
        outcome = .abandoned (.output (Path.join job.outputDir file.name))) := by
  obtain ⟨found, rfl⟩ :=
    Prod.mk.inj (((reads_load FileTree.shows_view r readers env).run_eq tree).symm.trans loaded)
  have standard := layout_of_found found
  obtain ⟨result, last, run, delivers, refuses⟩ := Publication.run_publish receives
    (isFileName_of_mem_filesOf standard generated)
  rw [nodup_names_iff standard generated] at delivers refuses
  refine ⟨_, last, run_of_generate loaded generated run, fun once => ?_, fun twice => ?_⟩
  · obtain ⟨rfl, published⟩ := delivers once
    exact ⟨published, rfl⟩
  · obtain ⟨file, given, rfl⟩ := refuses twice
    exact ⟨file, given, rfl⟩

/-- A report that can be read for, generated and taken by its directory is
delivered exactly when no format is asked for twice. Its files then stand in
the directory with the texts that were generated, and all else is as before. -/
theorem delivers_iff_nodup
    (loaded : (r.load readers env : ExceptT Fatal (StateM FileTree) ReportJob).run.run tree =
      (.ok job, after))
    (generated : job.generate = .ok reports)
    (receives : tree.Receives job.outputDir ((r.filesOf reports).map (·.name))) :
    ∃ outcome last, (r.run readers env : StateM FileTree Outcome).run tree = (outcome, last) ∧
      (outcome.exitCode = 0 ↔ job.formats.Nodup) ∧
      (job.formats.Nodup → tree.Published job.outputDir (r.filesOf reports) last ∧
        outcome = .finished ""
          (reports.map fun report => Path.join job.outputDir report.filename)) ∧
      (¬ job.formats.Nodup → ∃ file ∈ r.filesOf reports,
        outcome = .abandoned (.output (Path.join job.outputDir file.name))) := by
  obtain ⟨outcome, last, run, delivers, refuses⟩ :=
    exists_run_of_receives loaded generated receives
  refine ⟨outcome, last, run, ⟨fun done => ?_, fun once => ?_⟩, delivers, refuses⟩
  · by_contra twice
    obtain ⟨_, _, rfl⟩ := refuses twice
    cases done
  · rw [(delivers once).2]
    rfl

/-- A list of texts as the text of an array. -/
def arrayText (items : List (List Char)) : List Char :=
  '[' :: List.intercalate [','] items ++ [']']

/-- The text of a run with one distribution for everything. -/
def plainRunText : List Char :=
  let distribution := "[1,1,0,[[0.5,1],[0.9,1]],1,1]".toList
  arrayText [
    "[\"a\",\"b\",\"c\",\"d\",\"2024-01-01T00:00:00Z\",[\"e\",\"f\",\"g\",\"h\"],[1,1,1,1]]".toList,
    "[1,1,1,1,1,1,1]".toList,
    arrayText (List.replicate machineMetrics.length distribution),
    arrayText (List.replicate propagationMetrics.length distribution)]

/-- A directory with nothing but a run. -/
def plainTree : FileTree := { entries := [(["run"], .file (String.ofList plainRunText))] }

/-- A request for a report on a run compared with itself, in a directory below the root. -/
def plainRequest (formats : List OutputFormat) : ReportRequest :=
  { base := "/run", comparisons := ["run"], formats, outputDir := some "/out" }

/-- A moment to make a report. -/
def plainEnvironment : Environment :=
  ⟨none, ⟨⟨2024, 1, 1⟩, ⟨0, 0, 0, 0⟩, by decide, by decide⟩⟩

/-- What the report on a run compared with itself is made from. -/
def plainJob (run : Run) (formats : List OutputFormat) : ReportJob where
  identity := (plainRequest formats).chosenIdentity {} plainEnvironment
  base := run
  comparisons := [run]
  formats := formats
  plan := ReportPlan.standard
  outputDir := "/out"

/-- The value that a list of characters holds. -/
theorem parse_ofList (cs : List Char) : Json.parse (String.ofList cs) =
    (Json.readValue (2 * cs.length + 1) cs).bind fun (j, rest) =>
      if (Json.skipBlanks rest).isEmpty then some j else none := by
  rw [Json.parse, String.toList_ofList]
  dsimp only
  cases Json.readValue (2 * cs.length + 1) cs <;> rfl

/-- The run that a list of characters holds. -/
theorem run?_ofList (cs : List Char) : TextReaders.standard.run? (String.ofList cs) =
    ((Json.readValue (2 * cs.length + 1) cs).bind fun (j, rest) =>
      if (Json.skipBlanks rest).isEmpty then some j else none).bind fun j =>
        (Run.ofJson j).toOption := by
  rw [← parse_ofList]
  rfl

/-- A text holds a run on which a report can be generated as plain text. -/
theorem exists_plainRun : ∃ run report,
    TextReaders.standard.run? (String.ofList plainRunText) = some run ∧
      (plainJob run [.text]).generate = .ok [report] := by
  have short : (TextReaders.standard.run? (String.ofList plainRunText)).any
      (fun run => ReportPlan.standard.HasRoom .text run) = true := by
    rw [run?_ofList]
    decide +kernel
  cases held : TextReaders.standard.run? (String.ofList plainRunText) with
  | none =>
    rw [held] at short
    cases short
  | some run =>
    rw [held, Option.any_some, decide_eq_true_eq] at short
    have room : ∀ format ∈ [OutputFormat.text], ∀ other ∈ [run, run],
        ReportPlan.standard.HasRoom format other := by
      simpa using short
    obtain ⟨reports, made⟩ := ReportPlan.standard_suitsEveryRun.exists_generate
      (plainJob run [.text]).identity (List.cons_ne_nil run []) room
    obtain ⟨c, sets, h⟩ := ReportPlan.exists_prepared_of_generate made
    obtain ⟨report, _, _, none, rfl⟩ := List.forall₂_cons_left_iff.1
      (Traversal.mapM_eq_ok_iff.1 ((h.generate_eq _).symm.trans made))
    obtain rfl := List.forall₂_nil_left_iff.1 none
    exact ⟨run, report, rfl, made⟩

/-- The file of the run is there. -/
theorem text?_plainTree {path : String} (named : path ∈ ["run", "/run"]) :
    plainTree.view.text? path = some (String.ofList plainRunText) := by
  have led : plainTree.locate path = some ["run"] := by
    revert path
    decide +kernel
  exact FileTree.text?_eq_some_iff.2 ⟨["run"], led, rfl⟩

/-- The run is found. -/
theorem found_plainRun {run : Run}
    (held : TextReaders.standard.run? (String.ofList plainRunText) = some run) :
    ∀ path ∈ ["run", "/run"],
      plainTree.view.found (SourceFile.run.load TextReaders.standard.run? path) = .ok run :=
  fun _ named => SourceFile.found_load_eq_ok_iff.2 ⟨_, text?_plainTree named, held⟩

/-- Another file is not there. -/
theorem text?_astray : plainTree.text? "astray" = none := by
  have led : plainTree.locate "astray" = some ["astray"] := by decide +kernel
  exact FileTree.text?_eq_none led rfl

/-- What the report is made from is found, with the templates that are asked for. -/
theorem found_loadFrom_plain {run : Run}
    (held : TextReaders.standard.run? (String.ofList plainRunText) = some run)
    {formats : List OutputFormat} (asked : formats.isEmpty = false) (given : List String)
    {choices : List (OutputFormat × String)} {templates : PerFormat String}
    (read : plainTree.view.found (loadTemplates choices) = .ok templates) :
    plainTree.view.found (({ plainRequest formats with
      templates := given } : ReportRequest).loadFrom .standard plainEnvironment {} choices) =
        .ok { plainJob run formats with plan := { ReportPlan.standard with templates } } := by
  have base := found_plainRun held "/run" (by decide)
  have others : (["run"].mapM fun path =>
      plainTree.view.found (SourceFile.run.load TextReaders.standard.run? path)) = .ok [run] :=
    Traversal.mapM_eq_ok_iff.2 (.cons (found_plainRun held "run" (by decide)) .nil)
  have shown : ({ plainRequest formats with templates := given } : ReportRequest).chosenFormats {} =
      formats := by
    simp [chosenFormats, plainRequest, asked]
  refine found_loadFrom_eq_ok_iff.2 ⟨run, [run], _, templates, base, others, rfl, read, ?_⟩
  rw [shown]
  rfl

/-- No settings are found. -/
theorem found_resolve_plain : plainTree.view.found (Settings.resolve .standard none) = .ok {} := by
  have led : plainTree.locate Settings.standardFile = some [Settings.standardFile] := by
    decide +kernel
  have absent : plainTree.view.isFile Settings.standardFile = false :=
    congrArg Option.isSome (FileTree.text?_eq_none led rfl)
  rw [Settings.found_resolve_none, absent]
  rfl

/-- What the report is made from is loaded. -/
theorem run_load_plain {run : Run}
    (held : TextReaders.standard.run? (String.ofList plainRunText) = some run)
    {formats : List OutputFormat} (asked : formats.isEmpty = false) :
    ((plainRequest formats).load .standard plainEnvironment :
      ExceptT Fatal (StateM FileTree) ReportJob).run.run plainTree =
        (.ok (plainJob run formats), plainTree) := by
  have standard : plainTree.view.found (loadTemplates []) = .ok Template.standard := rfl
  have loaded := found_loadFrom_plain held asked [] standard
  rw [(reads_load FileTree.shows_view (plainRequest formats) .standard
      plainEnvironment).run_eq plainTree, found_load_of_resolve rfl found_resolve_plain]
  exact congrArg (·, plainTree) loaded

/-- The directory takes the files of a report in plain text. -/
theorem receives_plain (workload : Workload) {names : List String}
    (named : names ⊆ OutputFormat.text.fileNames Layout.standardStems workload false) :
    plainTree.Receives "/out" names := by
  have staging : ((plainTree.withDirectories "/out").1.withStaging? "/out").map (·.2) =
      some "/out/.benchreport-0" := by decide +kernel
  obtain ⟨⟨staged, path⟩, made, rfl⟩ := Option.map_eq_some_iff.1 staging
  have each : ∀ name ∈ OutputFormat.text.fileNames Layout.standardStems workload false,
      Path.isUsable (Path.join "/out/.benchreport-0" name) = true ∧
        Path.isUsable (Path.join "/out" name) = true ∧
        ((plainTree.withDirectories "/out").1.locate (Path.join "/out" name)).bind
          (plainTree.withDirectories "/out").1.get? ≠ some .directory := by
    cases workload <;> decide +kernel
  refine ⟨by decide +kernel, by decide +kernel,
    ⟨staged, _, made, fun name given => (each name (named given)).1⟩,
    fun name given => (each name (named given)).2.1, fun name given location led held => ?_⟩
  exact (each name (named given)).2.2 (by rw [led]; exact held)

/-- A report in plain text on a run compared with itself is delivered. -/
theorem delivers_plain : ∃ run report,
    ((plainRequest [.text]).load .standard plainEnvironment :
      ExceptT Fatal (StateM FileTree) ReportJob).run.run plainTree =
        (.ok (plainJob run [.text]), plainTree) ∧
    (plainJob run [.text]).generate = .ok [report] ∧
    plainTree.Receives "/out" (((plainRequest [.text]).filesOf [report]).map (·.name)) ∧
    ∃ outcome last,
      ((plainRequest [.text]).run .standard plainEnvironment : StateM FileTree Outcome).run
        plainTree = (outcome, last) ∧ outcome.exitCode = 0 ∧
      plainTree.Published "/out" ((plainRequest [.text]).filesOf [report]) last := by
  obtain ⟨run, report, held, generated⟩ := exists_plainRun
  have loaded := run_load_plain held (by decide : [OutputFormat.text].isEmpty = false)
  have receives : plainTree.Receives "/out"
      (((plainRequest [.text]).filesOf [report]).map (·.name)) := by
    refine receives_plain run.metadata.workload ?_
    rw [map_name_filesOf rfl generated, plainJob, List.flatMap_singleton]
    exact List.Subset.refl _
  obtain ⟨outcome, last, ran, exits, published, _⟩ :=
    delivers_iff_nodup loaded generated receives
  exact ⟨run, report, loaded, generated, receives, outcome, last, ran,
    exits.2 (List.nodup_singleton _), (published (List.nodup_singleton _)).1⟩

/-- If plain text is asked for twice, the command is given up although the
report is generated and the directory can take its files. -/
theorem gives_up_plain_twice : ∃ job reports,
    ((plainRequest [.text, .text]).load .standard plainEnvironment :
      ExceptT Fatal (StateM FileTree) ReportJob).run.run plainTree = (.ok job, plainTree) ∧
    job.generate = .ok reports ∧
    plainTree.Receives job.outputDir
      (((plainRequest [.text, .text]).filesOf reports).map (·.name)) ∧
    (((plainRequest [.text, .text]).run .standard plainEnvironment :
      StateM FileTree Outcome).run plainTree).1.exitCode = 2 := by
  obtain ⟨run, report, held, generated⟩ := exists_plainRun
  have loaded := run_load_plain held (by decide : [OutputFormat.text, .text].isEmpty = false)
  obtain ⟨c, sets, h⟩ := ReportPlan.exists_prepared_of_generate generated
  have twice : (plainJob run [.text, .text]).generate = .ok [report, report] := by
    have once := Traversal.mapM_eq_ok_iff.1 ((h.generate_eq _).symm.trans generated)
    obtain ⟨rendered, _⟩ := List.forall₂_cons.1 once
    exact (h.generate_eq _).trans
      (Traversal.mapM_eq_ok_iff.2 (.cons rendered (.cons rendered .nil)))
  have receives : plainTree.Receives "/out"
      (((plainRequest [.text, .text]).filesOf [report, report]).map (·.name)) := by
    refine receives_plain run.metadata.workload ?_
    rw [map_name_filesOf rfl twice, plainJob]
    intro name given
    obtain ⟨format, asked, given⟩ := List.mem_flatMap.1 given
    obtain rfl : format = .text := by simpa using asked
    exact given
  obtain ⟨outcome, last, ran, _, refuses⟩ := exists_run_of_receives loaded twice receives
  have repeated : ¬ [OutputFormat.text, .text].Nodup := by decide
  obtain ⟨file, _, rfl⟩ := refuses repeated
  refine ⟨_, _, loaded, twice, receives, ?_⟩
  rw [ran]
  rfl

end ReportRequest

end RunReport
