import RunReport.Command.Invocation
import RunReport.Proofs.Files.Action
import RunReport.Proofs.Traversal

/-!
# What a report is made from

Reading what a report is made from leaves all files as they are. It succeeds
exactly when every argument and every file that is asked for is in order, those
that the settings ask for included, and it is given up only for one of them. The
report that is read for has the standard sections. All of this depends on nothing but
what the files show, and holds however their texts are read as JSON and as YAML.
-/

namespace RunReport

open RunReport.Action

/-- Whether a cause lies in what a command is given: in an argument or in a file
that it reads. -/
def Fatal.isOfInput : Fatal → Bool
  | templateWithoutPath _ | templateEmptyPath _ | templateFormat _ => true
  | unreadable _ _ | unparsable _ _ => true
  | outputDirectory _ | stagingDirectory _ | output _ => false

variable {σ : Type} [FileStore (StateM σ)] {shown : σ → FileView}

/-- An action reads what a command is given. -/
abbrev ReadsInput {α : Type} (shown : σ → FileView) : ExceptT Fatal (StateM σ) α →
    ExceptT Fatal (ReaderM FileView) α → Prop := Reads shown fun cause => cause.isOfInput = true

/-- The file at a path holds something that is read in a given way. -/
def FileView.Gives {α : Type} (view : FileView) (parse : String → Option α) (path : String) :
    Prop := ∃ text value, view.text? path = some text ∧ parse text = some value

namespace SourceFile

variable {α : Type} {source : SourceFile} {parse : String → Option α} {path : String}
  {view : FileView}

/-- Reading a source file leaves all files as they are. -/
theorem reads_read (shows : FileStore.Shows shown) (source : SourceFile) (path : String) :
    ReadsInput shown (source.read path) (source.read path) := by
  refine (Reads.lift (shows.readText path)).bind fun text => ?_
  cases text with
  | some text => exact .pure text
  | none => exact .throw rfl

/-- Loading a source file leaves all files as they are. -/
theorem reads_load (shows : FileStore.Shows shown) (source : SourceFile)
    (parse : String → Option α) (path : String) :
    ReadsInput shown (source.load parse path) (source.load parse path) := by
  refine (reads_read shows source path).bind fun text => ?_
  cases parse text with
  | some value => exact .pure value
  | none => exact .throw rfl

/-- A source file is read if there is one. -/
theorem found_read (source : SourceFile) (path : String) (view : FileView) :
    view.found (source.read path) = match view.text? path with
      | some text => .ok text
      | none => .error (.unreadable source path) := by
  have looked : view.found (monadLift (FileReader.readText path :
      ReaderM FileView (Option String)) : ExceptT Fatal (ReaderM FileView) (Option String)) =
        .ok (view.text? path) := rfl
  unfold read
  rw [FileView.found_bind, looked]
  cases view.text? path <;> rfl

/-- A source file is loaded exactly when its text holds a value. -/
theorem found_load_eq_ok_iff {value : α} : view.found (source.load parse path) = .ok value ↔
    ∃ text, view.text? path = some text ∧ parse text = some value := by
  unfold load
  rw [FileView.found_bind, found_read]
  cases view.text? path with
  | none => simp [Traversal.error_bind]
  | some text =>
    simp only [Traversal.ok_bind, Option.some.injEq, exists_eq_left']
    cases parse text <;> simp

/-- Some value is loaded exactly when the file gives one. -/
theorem exists_found_load_iff (source : SourceFile) :
    (∃ value, view.found (source.load parse path) = .ok value) ↔ view.Gives parse path := by
  simp only [found_load_eq_ok_iff]
  exact exists_comm

end SourceFile

/-- The settings of the file at a path, seen from its directory. -/
def FileView.settingsAt? (view : FileView) (readers : TextReaders) (path : String) :
    Option Settings := do
  let settings ← readers.settings (← view.text? path)
  return settings.seenFrom (Path.directoryOf path)

/-- The settings of the file that is named, else of the standard one if it is
there, else none. -/
def FileView.settings? (view : FileView) (readers : TextReaders) :
    Option String → Option Settings
  | some path => view.settingsAt? readers path
  | none =>
    if view.isFile Settings.standardFile then view.settingsAt? readers Settings.standardFile
    else some {}

namespace Settings

variable {view : FileView} {readers : TextReaders} {s : Settings}

/-- Loading settings leaves all files as they are. -/
theorem reads_load (shows : FileStore.Shows shown) (readers : TextReaders) (path : String) :
    ReadsInput shown (Settings.load readers path) (Settings.load readers path) :=
  (SourceFile.reads_load shows .settings readers.settings path).bind fun s => .pure (s.seenFrom _)

/-- Looking for settings leaves all files as they are. -/
theorem reads_resolve (shows : FileStore.Shows shown) (readers : TextReaders)
    (named : Option String) :
    ReadsInput shown (resolve readers named) (resolve readers named) := by
  cases named with
  | some path => exact reads_load shows readers path
  | none =>
    refine (Reads.lift (shows.isFile standardFile)).bind fun there => ?_
    cases there with
    | true => exact reads_load shows readers standardFile
    | false => exact .pure ({} : Settings)

/-- Settings are loaded exactly when there is a file of them. -/
theorem found_load_eq_ok_iff {path : String} :
    view.found (Settings.load readers path) = .ok s ↔ view.settingsAt? readers path = some s := by
  unfold Settings.load FileView.settingsAt?
  rw [FileView.found_bind, Traversal.bind_eq_ok_iff]
  simp only [SourceFile.found_load_eq_ok_iff, FileView.found_pure, Except.ok.injEq,
    Option.bind_eq_bind, Option.bind_eq_some_iff, Option.pure_def, Option.some.injEq]
  constructor
  · rintro ⟨given, ⟨text, there, held⟩, seen⟩
    exact ⟨text, there, given, held, seen⟩
  · rintro ⟨text, there, given, held, seen⟩
    exact ⟨given, ⟨text, there, held⟩, seen⟩

/-- Whether the standard file is there decides what is looked for. -/
theorem found_resolve_none (view : FileView) (readers : TextReaders) :
    view.found (resolve readers none) =
      if view.isFile standardFile then view.found (Settings.load readers standardFile)
      else .ok {} := by
  have looked : view.found (monadLift (FileReader.isFile standardFile : ReaderM FileView Bool) :
      ExceptT Fatal (ReaderM FileView) Bool) = .ok (view.isFile standardFile) := rfl
  unfold resolve
  rw [FileView.found_bind, looked]
  cases view.isFile standardFile <;> rfl

/-- The settings that are found are those of the file that is looked for. -/
theorem found_resolve_eq_ok_iff {named : Option String} :
    view.found (resolve readers named) = .ok s ↔ view.settings? readers named = some s := by
  cases named with
  | some path => exact found_load_eq_ok_iff
  | none =>
    rw [found_resolve_none, FileView.settings?]
    split
    · exact found_load_eq_ok_iff
    · simp

/-- The template files of settings are those of each format. -/
theorem mem_templateFiles_iff {format : OutputFormat} {path : String} :
    (format, path) ∈ s.templateFiles ↔ s.templates.get format = some path := by
  unfold templateFiles
  rw [List.mem_filterMap]
  constructor
  · rintro ⟨other, _, named⟩
    obtain ⟨file, held, same⟩ := Option.map_eq_some_iff.1 named
    obtain ⟨rfl, rfl⟩ := Prod.mk.inj same
    exact held
  · intro held
    exact ⟨format, format.mem_all, by rw [held]; rfl⟩

end Settings

/-- A template is asked for in vain only for the way in which it is. -/
theorem isOfInput_of_templateChoice {given : String} {cause : Fatal}
    (failed : templateChoice given = .error cause) : cause.isOfInput = true := by
  unfold templateChoice at failed
  split at failed
  · exact Except.error.inj failed ▸ rfl
  · split at failed
    · exact Except.error.inj failed ▸ rfl
    · split at failed
      · exact Except.error.inj failed ▸ rfl
      · cases failed

section Templates

variable {view : FileView}

/-- Looking for templates leaves all files as they are. -/
theorem reads_loadTemplates (shows : FileStore.Shows shown)
    (files : List (OutputFormat × String)) :
    ReadsInput shown (loadTemplates files) (loadTemplates files) := by
  unfold loadTemplates
  generalize Template.standard = standard
  refine Reads.foldlM (fun templates file => ?_) files standard
  exact (SourceFile.reads_read shows (.template file.1) file.2).bind fun text => .pure _

/-- Templates with another one read for a format. -/
def withTemplate {m : Type → Type} [Monad m] [FileReader m] (templates : PerFormat String)
    (file : OutputFormat × String) : ExceptT Fatal m (PerFormat String) := do
  return templates.set file.1 (← (SourceFile.template file.1).read file.2)

/-- Templates are read one after the other. -/
theorem loadTemplates_eq {m : Type → Type} [Monad m] [FileReader m]
    (files : List (OutputFormat × String)) :
    (loadTemplates files : ExceptT Fatal m (PerFormat String)) =
      files.foldlM withTemplate Template.standard := rfl

/-- A template is read if there is a file of it. -/
theorem found_withTemplate (templates : PerFormat String) (file : OutputFormat × String)
    (view : FileView) : view.found (withTemplate templates file) = match view.text? file.2 with
      | some text => .ok (templates.set file.1 text)
      | none => .error (.unreadable (.template file.1) file.2) := by
  unfold withTemplate
  rw [FileView.found_bind, SourceFile.found_read]
  cases view.text? file.2 <;> rfl

/-- Templates are found exactly when all of their files are there. -/
theorem exists_found_foldlM_iff {files : List (OutputFormat × String)}
    {templates : PerFormat String} :
    (∃ read, view.found (files.foldlM withTemplate templates) = .ok read) ↔
      ∀ file ∈ files, ∃ text, view.text? file.2 = some text := by
  induction files generalizing templates with
  | nil => simp
  | cons file rest ih =>
    rw [List.foldlM_cons, FileView.found_bind, found_withTemplate, List.forall_mem_cons]
    cases view.text? file.2 with
    | none => simp [Traversal.error_bind]
    | some text => simpa [Traversal.ok_bind] using ih

/-- The templates to use are found exactly when all of their files are there. -/
theorem exists_found_loadTemplates_iff {files : List (OutputFormat × String)} :
    (∃ templates, view.found (loadTemplates files) = .ok templates) ↔
      ∀ file ∈ files, ∃ text, view.text? file.2 = some text := by
  rw [loadTemplates_eq]
  exact exists_found_foldlM_iff

end Templates

namespace ReportRequest

variable {r : ReportRequest} {readers : TextReaders} {env : Environment} {view : FileView}
  {s : Settings}

/-- Looking for a dictionary leaves all files as they are. -/
theorem reads_loadDictionary (shows : FileStore.Shows shown) (r : ReportRequest)
    (readers : TextReaders) (s : Settings) (registry : Registry) :
    ReadsInput shown (r.loadDictionary readers s registry)
      (r.loadDictionary readers s registry) := by
  unfold loadDictionary
  cases r.dictionary <|> s.dictionary with
  | some path => exact SourceFile.reads_load shows .dictionary readers.dictionary? path
  | none => exact .pure _

/-- A dictionary is found exactly when the file that is asked for gives one. -/
theorem exists_found_loadDictionary_iff {registry : Registry} :
    (∃ dictionary, view.found (r.loadDictionary readers s registry) = .ok dictionary) ↔
      ∀ path, (r.dictionary <|> s.dictionary) = some path →
        view.Gives readers.dictionary? path := by
  unfold loadDictionary
  cases r.dictionary <|> s.dictionary with
  | some path => simpa using SourceFile.exists_found_load_iff .dictionary
  | none => simp

/-- Reads everything that a report is made from but the settings. -/
def loadFrom {m : Type → Type} [Monad m] [FileReader m] (r : ReportRequest)
    (readers : TextReaders) (env : Environment) (s : Settings)
    (choices : List (OutputFormat × String)) : ExceptT Fatal m ReportJob := do
  let base ← SourceFile.run.load readers.run? r.base
  let comparisons ← r.comparisons.mapM (SourceFile.run.load readers.run?)
  let dictionary ← r.loadDictionary readers s Registry.standard
  let templates ← loadTemplates (s.templateFiles ++ choices)
  return {
    identity := r.chosenIdentity s env
    base, comparisons
    formats := r.chosenFormats s
    plan := { registry := Registry.standard, dictionary, templates, chartKeys := s.chartKeys }
    outputDir := r.chosenDirectory s }

/-- The templates asked for come first, then the settings, then all else. -/
theorem load_eq {m : Type → Type} [Monad m] [FileReader m] (r : ReportRequest)
    (readers : TextReaders) (env : Environment) :
    (r.load readers env : ExceptT Fatal m ReportJob) =
      MonadExcept.ofExcept (r.templates.mapM templateChoice) >>= fun choices =>
        Settings.resolve readers r.settings >>= fun settings =>
          r.loadFrom readers env settings choices := rfl

/-- With the templates asked for and the settings found, all else is looked for. -/
theorem found_load_of_resolve {choices : List (OutputFormat × String)}
    (chosen : r.templates.mapM templateChoice = .ok choices)
    (resolved : view.found (Settings.resolve readers r.settings) = .ok s) :
    view.found (r.load readers env) = view.found (r.loadFrom readers env s choices) := by
  rw [load_eq, FileView.found_bind, FileView.found_ofExcept, chosen]
  refine (view.found_bind (Settings.resolve readers r.settings) _).trans ?_
  rw [resolved]
  rfl

/-- Loading with given settings leaves all files as they are. -/
theorem reads_loadFrom (shows : FileStore.Shows shown) (r : ReportRequest)
    (readers : TextReaders) (env : Environment) (s : Settings)
    (choices : List (OutputFormat × String)) :
    ReadsInput shown (r.loadFrom readers env s choices) (r.loadFrom readers env s choices) := by
  have run := SourceFile.reads_load shows .run readers.run?
  refine (run r.base).bind fun base => ?_
  refine (Reads.mapM run r.comparisons).bind fun comparisons => ?_
  refine (reads_loadDictionary shows r readers s Registry.standard).bind fun dictionary => ?_
  exact (reads_loadTemplates shows (s.templateFiles ++ choices)).bind fun templates => .pure _

omit [FileStore (StateM σ)] in
/-- Arguments that ask for templates are read without looking. -/
theorem reads_choices (shown : σ → FileView) (r : ReportRequest) :
    ReadsInput shown (MonadExcept.ofExcept (r.templates.mapM templateChoice))
      (MonadExcept.ofExcept (r.templates.mapM templateChoice)) := by
  refine Reads.ofExcept fun cause failed => ?_
  obtain ⟨_, given, _, _, _, refused⟩ := Traversal.mapM_eq_error_iff.1 failed
  exact isOfInput_of_templateChoice refused

/-- Loading leaves all files as they are. -/
theorem reads_load (shows : FileStore.Shows shown) (r : ReportRequest) (readers : TextReaders)
    (env : Environment) : ReadsInput shown (r.load readers env) (r.load readers env) :=
  (reads_choices shown r).bind fun choices =>
    (Settings.reads_resolve shows readers r.settings).bind fun s =>
      reads_loadFrom shows r readers env s choices

/-- What is loaded with given settings. -/
theorem found_loadFrom_eq_ok_iff {choices : List (OutputFormat × String)} {job : ReportJob} :
    view.found (r.loadFrom readers env s choices) = .ok job ↔
      ∃ base comparisons dictionary templates,
        view.found (SourceFile.run.load readers.run? r.base) = .ok base ∧
        (r.comparisons.mapM fun path => view.found (SourceFile.run.load readers.run? path)) =
          .ok comparisons ∧
        view.found (r.loadDictionary readers s Registry.standard) = .ok dictionary ∧
        view.found (loadTemplates (s.templateFiles ++ choices)) = .ok templates ∧
        job = {
          identity := r.chosenIdentity s env
          base, comparisons
          formats := r.chosenFormats s
          plan := { registry := Registry.standard, dictionary, templates
                    chartKeys := s.chartKeys }
          outputDir := r.chosenDirectory s } := by
  unfold loadFrom
  simp only [FileView.found_bind, FileView.found_mapM, FileView.found_pure,
    Traversal.bind_eq_ok_iff, Except.ok.injEq, exists_and_left, @eq_comm _ _ job]

/-- Everything that a report is made from besides the settings is in order: the
arguments, the runs, the dictionary, and every template file that the settings or
the arguments name. -/
structure LoadsWith (r : ReportRequest) (readers : TextReaders) (view : FileView) (s : Settings) :
    Prop where
  /-- Every template is asked for as it should be, and its file is there. -/
  templates : ∀ given ∈ r.templates, ∃ format path text,
    templateChoice given = .ok (format, path) ∧ view.text? path = some text
  /-- The runs are there. -/
  runs : ∀ path ∈ r.base :: r.comparisons, view.Gives readers.run? path
  /-- The dictionary is there, if one is asked for. -/
  dictionary : ∀ path, (r.dictionary <|> s.dictionary) = some path →
    view.Gives readers.dictionary? path
  /-- The template files of the settings are there. -/
  settingsTemplates : ∀ format path, s.templates.get format = some path →
    ∃ text, view.text? path = some text

/-- Everything that a report is made from is in order. -/
def Loads (r : ReportRequest) (readers : TextReaders) (view : FileView) : Prop :=
  ∃ s, view.settings? readers r.settings = some s ∧ r.LoadsWith readers view s

/-- Templates are found exactly when each is asked for as it should be and the files are
there, those that the settings name included. -/
theorem exists_found_templates_iff :
    (∃ choices templates, r.templates.mapM templateChoice = .ok choices ∧
      view.found (loadTemplates (s.templateFiles ++ choices)) = .ok templates) ↔
    (∀ given ∈ r.templates, ∃ format path text,
      templateChoice given = .ok (format, path) ∧ view.text? path = some text) ∧
    ∀ format path, s.templates.get format = some path → ∃ text, view.text? path = some text := by
  constructor
  · rintro ⟨choices, templates, chosen, found⟩
    have there := exists_found_loadTemplates_iff.1 ⟨templates, found⟩
    rw [List.forall_mem_append] at there
    refine ⟨fun given asked => ?_, fun format path named => ?_⟩
    · obtain ⟨⟨format, path⟩, choice⟩ := Traversal.exists_mapM_iff.1 ⟨choices, chosen⟩ given asked
      obtain ⟨text, held⟩ := there.2 _ ((Traversal.mem_iff_of_mapM chosen).2 ⟨given, asked, choice⟩)
      exact ⟨format, path, text, choice, held⟩
    · exact there.1 (format, path) (Settings.mem_templateFiles_iff.2 named)
  · rintro ⟨asks, settings⟩
    obtain ⟨choices, chosen⟩ : ∃ choices, r.templates.mapM templateChoice = .ok choices := by
      refine Traversal.exists_mapM_iff.2 fun given asked => ?_
      obtain ⟨format, path, _, choice, _⟩ := asks given asked
      exact ⟨_, choice⟩
    have there : ∀ file ∈ s.templateFiles ++ choices, ∃ text, view.text? file.2 = some text := by
      refine List.forall_mem_append.2 ⟨fun file named => ?_, fun file chose => ?_⟩
      · exact settings file.1 file.2 (Settings.mem_templateFiles_iff.1 named)
      · obtain ⟨given, asked, choice⟩ := (Traversal.mem_iff_of_mapM chosen).1 chose
        obtain ⟨format, path, text, same, held⟩ := asks given asked
        obtain rfl := Except.ok.inj (choice.symm.trans same)
        exact ⟨text, held⟩
    obtain ⟨templates, found⟩ := exists_found_loadTemplates_iff.2 there
    exact ⟨choices, templates, chosen, found⟩

/-- Loading with given settings succeeds exactly when everything is in order. -/
theorem exists_found_loadFrom_iff (env : Environment) :
    (∃ choices job, r.templates.mapM templateChoice = .ok choices ∧
      view.found (r.loadFrom readers env s choices) = .ok job) ↔ r.LoadsWith readers view s := by
  constructor
  · rintro ⟨choices, job, chosen, found⟩
    obtain ⟨base, comparisons, dictionary, templates, hbase, hcomparisons, hdictionary, htemplates,
      _⟩ := found_loadFrom_eq_ok_iff.1 found
    obtain ⟨asks, settings⟩ := exists_found_templates_iff.1 ⟨choices, templates, chosen, htemplates⟩
    refine ⟨asks, List.forall_mem_cons.2 ⟨?_, fun path compared => ?_⟩,
      exists_found_loadDictionary_iff.1 ⟨dictionary, hdictionary⟩, settings⟩
    · exact (SourceFile.exists_found_load_iff .run).1 ⟨base, hbase⟩
    · exact (SourceFile.exists_found_load_iff .run).1
        (Traversal.exists_mapM_iff.1 ⟨comparisons, hcomparisons⟩ path compared)
  · intro h
    obtain ⟨base, others⟩ := List.forall_mem_cons.1 h.runs
    obtain ⟨base, hbase⟩ := (SourceFile.exists_found_load_iff .run).2 base
    obtain ⟨comparisons, hcomparisons⟩ := Traversal.exists_mapM_iff.2 fun path compared =>
      (SourceFile.exists_found_load_iff .run).2 (others path compared)
    obtain ⟨dictionary, hdictionary⟩ := exists_found_loadDictionary_iff.2 h.dictionary
    obtain ⟨choices, templates, chosen, htemplates⟩ :=
      exists_found_templates_iff.2 ⟨h.templates, h.settingsTemplates⟩
    exact ⟨choices, _, chosen, found_loadFrom_eq_ok_iff.2 ⟨base, comparisons, dictionary, templates,
      hbase, hcomparisons, hdictionary, htemplates, rfl⟩⟩

/-- What is loaded is loaded with the templates that are asked for and with the settings
that are found. -/
theorem found_load_eq_ok_iff {job : ReportJob} : view.found (r.load readers env) = .ok job ↔
    ∃ choices s, r.templates.mapM templateChoice = .ok choices ∧
      view.settings? readers r.settings = some s ∧
        view.found (r.loadFrom readers env s choices) = .ok job := by
  simp only [load_eq, FileView.found_bind, FileView.found_ofExcept, Traversal.bind_eq_ok_iff,
    Settings.found_resolve_eq_ok_iff, exists_and_left]

/-- Loading succeeds exactly when everything is in order. -/
theorem exists_found_load_iff :
    (∃ job, view.found (r.load readers env) = .ok job) ↔ r.Loads readers view := by
  unfold Loads
  simp only [found_load_eq_ok_iff]
  constructor
  · rintro ⟨job, choices, s, chosen, settings, found⟩
    exact ⟨s, settings, (exists_found_loadFrom_iff env).1 ⟨choices, job, chosen, found⟩⟩
  · rintro ⟨s, settings, h⟩
    obtain ⟨choices, job, chosen, found⟩ := (exists_found_loadFrom_iff env).2 h
    exact ⟨job, choices, s, chosen, settings, found⟩

/-- What is loaded is for a report with the standard sections. -/
theorem layout_of_found {job : ReportJob} (found : view.found (r.load readers env) = .ok job) :
    job.plan.layout = Layout.standardSummary :: Layout.standardAnalyses := by
  obtain ⟨_, _, _, _, found⟩ := found_load_eq_ok_iff.1 found
  obtain ⟨_, _, _, _, _, _, _, _, rfl⟩ := found_loadFrom_eq_ok_iff.1 found
  rfl

end ReportRequest

end RunReport
