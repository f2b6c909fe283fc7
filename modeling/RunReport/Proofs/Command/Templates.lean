import Mathlib
import RunReport.Proofs.Command.Delivery

/-!
# The template of each format

A template is asked for with a word for its format, an equals sign and the path of a
file. The words are the name and the extension of the format, in any case of their
letters, and only the path can hold further equals signs. What is asked for in another
way is refused before any file is looked at. Otherwise the templates are there exactly
when all of the files are that are asked for or that the settings name. The template
of a format is then the text of the last file that is asked for it, else of the file
that the settings name for it, else the standard one. All of this depends on nothing but
what the files show.
-/

namespace RunReport

namespace OutputFormat

/-- The words for a format. -/
def words : OutputFormat → List String
  | org => ["org"]
  | latex => ["latex", "tex"]
  | text => ["text", "txt"]

/-- A text spells a word of small letters: any of the letters may be large. -/
def Spells (text word : String) : Prop :=
  List.Forall₂ (fun c d => c = d ∨ c = d.toUpper) text.toList word.toList

/-- A format goes by a text that spells one of its words. -/
def GoesBy (format : OutputFormat) (text : String) : Prop := ∃ word ∈ format.words, Spells text word

variable {text word : String} {format : OutputFormat}

/-- A character becomes a given small letter exactly when it is that letter, small or large. -/
theorem toLower_eq_iff {c d : Char} (small : d.isLower = true) :
    c.toLower = d ↔ c = d ∨ c = d.toUpper := by
  have lower : d.toLower = d := Char.toLower_eq_of_not_isUpper (Char.not_isUpper_of_isLower small)
  constructor
  · rintro rfl
    by_cases upper : c.isUpper
    · rw [Char.toUpper_toLower_eq_toUpper,
        Char.toUpper_eq_of_not_isLower (Char.not_isLower_of_isUpper upper)]
      exact Or.inr rfl
    · exact Or.inl (Char.toLower_eq_of_not_isUpper upper).symm
  · rintro (rfl | rfl)
    · exact lower
    · rw [Char.toLower_toUpper_eq_toLower, lower]

/-- In lower case a text is a word of small letters exactly when it spells it. -/
theorem lowerCase_eq_iff (small : ∀ d ∈ word.toList, d.isLower = true) :
    lowerCase text = word ↔ Spells text word := by
  unfold lowerCase Spells
  rw [← String.toList_inj, String.toList_ofList]
  generalize text.toList = cs at *
  generalize word.toList = ds at *
  induction cs generalizing ds with
  | nil => rw [List.map_nil, List.forall₂_nil_left_iff, eq_comm]
  | cons c cs ih =>
    cases ds with
    | nil => simp
    | cons d ds =>
      obtain ⟨here, later⟩ := List.forall_mem_cons.1 small
      rw [List.map_cons, List.cons.injEq, List.forall₂_cons, toLower_eq_iff here, ih ds later]

/-- The words for all formats are of small letters. -/
theorem isLower_of_mem_words (given : word ∈ format.words) :
    ∀ d ∈ word.toList, d.isLower = true := by
  have each : ∀ word ∈ format.words, word.toList.all Char.isLower = true := by
    cases format <;> decide
  exact List.all_eq_true.1 (each word given)

/-- The words for a format are its name and its extension. -/
theorem mem_words_iff : word ∈ format.words ↔ format.name = word ∨ format.extension = word := by
  cases format <;> simp [words, name, extension, eq_comm]

/-- No word is for two formats. -/
theorem eq_of_mem_words {other : OutputFormat} (given : word ∈ format.words)
    (also : word ∈ other.words) : format = other := by
  have apart : ∀ f g : OutputFormat, f ≠ g → ∀ w ∈ f.words, w ∉ g.words := by
    intro f g
    cases f <;> cases g <;> decide
  by_contra differs
  exact apart format other differs word given also

/-- What is asked for is the format that has the text among its words, in lower case. -/
theorem asked?_eq_some_iff_lowerCase :
    asked? text = some format ↔ lowerCase text ∈ format.words := by
  have test (f : OutputFormat) : (f.name = lowerCase text || f.extension = lowerCase text) = true ↔
      lowerCase text ∈ f.words := by
    rw [mem_words_iff, Bool.or_eq_true, decide_eq_true_eq, decide_eq_true_eq]
  constructor
  · intro asked
    have goes := List.find?_some asked
    exact (test format).1 goes
  · intro given
    have goes := (test format).2 given
    obtain ⟨other, asked⟩ : ∃ other, asked? text = some other :=
      Option.isSome_iff_exists.1 (List.find?_isSome.2 ⟨format, mem_all format, goes⟩)
    have also := List.find?_some asked
    rwa [eq_of_mem_words given ((test other).1 also)]

/-- A text asks for exactly the format that goes by it. -/
theorem asked?_eq_some_iff : asked? text = some format ↔ format.GoesBy text := by
  rw [asked?_eq_some_iff_lowerCase]
  constructor
  · intro given
    exact ⟨_, given, (lowerCase_eq_iff (isLower_of_mem_words given)).1 rfl⟩
  · rintro ⟨word, given, spelled⟩
    rwa [(lowerCase_eq_iff (isLower_of_mem_words given)).2 spelled]

/-- A text asks for no format exactly when none goes by it. -/
theorem asked?_eq_none_iff :
    asked? text = none ↔ ∀ format : OutputFormat, ¬ format.GoesBy text := by
  simp only [← asked?_eq_some_iff, Option.eq_none_iff_forall_ne_some, ne_eq]

end OutputFormat

/-- A value asks for the template of a format in a file: it is a word for the format, an
equals sign and the path of the file. Only the path may hold further equals signs. -/
def AsksTemplate (given : String) (format : OutputFormat) (path : String) : Prop :=
  ∃ word, given = word ++ "=" ++ path ∧ '=' ∉ word.toList ∧ format.GoesBy word ∧ path ≠ ""

/-- What is wrong with a value that does not ask for a template. -/
inductive MalformedTemplate (given : String) : Fatal → Prop where
  /-- There is no equals sign. -/
  | withoutPath (none : '=' ∉ given.toList) :
    MalformedTemplate given (.templateWithoutPath given)
  /-- There is nothing behind the first equals sign. -/
  | emptyPath {word : String} (whole : given = word ++ "=") (first : '=' ∉ word.toList) :
    MalformedTemplate given (.templateEmptyPath given)
  /-- No format goes by what stands before the first equals sign. -/
  | format {word path : String} (whole : given = word ++ "=" ++ path)
    (first : '=' ∉ word.toList) (named : path ≠ "")
    (unknown : ∀ format : OutputFormat, ¬ format.GoesBy word) :
    MalformedTemplate given (.templateFormat given)

section Values

variable {given word path : String} {format : OutputFormat} {cause : Fatal}

/-- A value is cut at its first equals sign. -/
theorem textAtFirst_equals_iff : Split.textAtFirst '=' given = some (word, path) ↔
    given = word ++ "=" ++ path ∧ '=' ∉ word.toList :=
  Split.textAtFirst_eq_some_iff

/-- A value that asks for a template is read as such. -/
theorem templateChoice_of_asks (asks : AsksTemplate given format path) :
    templateChoice given = .ok (format, path) := by
  obtain ⟨word, whole, first, goes, named⟩ := asks
  rw [templateChoice, textAtFirst_equals_iff.2 ⟨whole, first⟩]
  simp [named, OutputFormat.asked?_eq_some_iff.2 goes]

/-- A value is refused for what is wrong with it. -/
theorem templateChoice_of_malformed (malformed : MalformedTemplate given cause) :
    templateChoice given = .error cause := by
  rw [templateChoice]
  cases malformed with
  | withoutPath none => rw [Split.textAtFirst_eq_none_iff.2 none]
  | emptyPath whole first =>
    rw [textAtFirst_equals_iff.2 ⟨whole.trans String.append_empty.symm, first⟩]
    rfl
  | format whole first named unknown =>
    rw [textAtFirst_equals_iff.2 ⟨whole, first⟩]
    simp [named, OutputFormat.asked?_eq_none_iff.2 unknown]

/-- A value asks for a template, or something is wrong with it. -/
theorem asks_or_malformed (given : String) :
    (∃ format path, AsksTemplate given format path) ∨ ∃ cause, MalformedTemplate given cause := by
  cases cut : Split.textAtFirst '=' given with
  | none => exact .inr ⟨_, .withoutPath (Split.textAtFirst_eq_none_iff.1 cut)⟩
  | some parts =>
    obtain ⟨word, path⟩ := parts
    obtain ⟨whole, first⟩ := textAtFirst_equals_iff.1 cut
    by_cases named : path = ""
    · subst named
      exact .inr ⟨_, .emptyPath (whole.trans String.append_empty) first⟩
    · cases known : OutputFormat.asked? word with
      | none => exact .inr ⟨_, .format whole first named (OutputFormat.asked?_eq_none_iff.1 known)⟩
      | some format =>
        have goes := OutputFormat.asked?_eq_some_iff.1 known
        exact .inl ⟨format, path, word, whole, first, goes, named⟩

/-- A template is chosen exactly as a value asks for it. -/
theorem templateChoice_eq_ok_iff :
    templateChoice given = .ok (format, path) ↔ AsksTemplate given format path := by
  refine ⟨fun chosen => ?_, templateChoice_of_asks⟩
  rcases asks_or_malformed given with ⟨_, _, asks⟩ | ⟨_, malformed⟩
  · have same := Except.ok.inj (chosen.symm.trans (templateChoice_of_asks asks))
    obtain ⟨rfl, rfl⟩ := Prod.mk.inj same
    exact asks
  · exact absurd (chosen.symm.trans (templateChoice_of_malformed malformed)) (by simp)

/-- A choice is refused exactly for what is wrong with the value. -/
theorem templateChoice_eq_error_iff :
    templateChoice given = .error cause ↔ MalformedTemplate given cause := by
  refine ⟨fun refused => ?_, templateChoice_of_malformed⟩
  rcases asks_or_malformed given with ⟨_, _, asks⟩ | ⟨_, malformed⟩
  · exact absurd (refused.symm.trans (templateChoice_of_asks asks)) (by simp)
  · obtain rfl := Except.error.inj (refused.symm.trans (templateChoice_of_malformed malformed))
    exact malformed

example : ["TeX=a=b", "txt=", "org", "pdf=a"].map templateChoice =
    [.ok (.latex, "a=b"), .error (.templateEmptyPath "txt="), .error (.templateWithoutPath "org"),
      .error (.templateFormat "pdf=a")] := by
  decide +kernel

/-- If no choice is for a format, no value asks for its template. -/
theorem not_asksTemplate_of_choices {values : List String}
    {choices : List (OutputFormat × String)} (chosen : values.mapM templateChoice = .ok choices)
    (none : ∀ choice ∈ choices, choice.1 ≠ format) :
    ∀ given ∈ values, ∀ path, ¬ AsksTemplate given format path := by
  intro given asked path asks
  have chose : (format, path) ∈ choices :=
    (Traversal.mem_iff_of_mapM chosen).2 ⟨given, asked, templateChoice_of_asks asks⟩
  exact none _ chose rfl

end Values

/-- The last file that a list has for a format. -/
def LastFor (files : List (OutputFormat × String)) (format : OutputFormat) (path : String) : Prop :=
  ∃ before after, files = before ++ (format, path) :: after ∧ ∀ file ∈ after, file.1 ≠ format

/-- Each template that is read replaces the one before it: in the end the template of a
format is the text of the last file for it, or what it was in the beginning. -/
theorem get_of_found_foldlM {view : FileView} {files : List (OutputFormat × String)}
    {templates read : PerFormat String}
    (found : view.found (files.foldlM withTemplate templates) = .ok read)
    (format : OutputFormat) :
    (∃ path, LastFor files format path ∧ view.text? path = some (read.get format)) ∨
      (∀ file ∈ files, file.1 ≠ format) ∧ read.get format = templates.get format := by
  induction files generalizing templates with
  | nil =>
    obtain rfl := Except.ok.inj found
    exact .inr ⟨by simp, rfl⟩
  | cons file rest ih =>
    rw [List.foldlM_cons, FileView.found_bind, found_withTemplate] at found
    cases held : view.text? file.2 with
    | none =>
      rw [held, Traversal.error_bind] at found
      cases found
    | some text =>
      rw [held, Traversal.ok_bind] at found
      rcases ih found with ⟨path, ⟨before, after, rfl, last⟩, there⟩ | ⟨others, kept⟩
      · exact .inl ⟨path, ⟨file :: before, after, rfl, last⟩, there⟩
      · rw [PerFormat.get_set] at kept
        split at kept
        · rename_i here
          subst here
          exact .inl ⟨file.2, ⟨[], rest, rfl, others⟩, held.trans (congrArg some kept.symm)⟩
        · rename_i apart
          exact .inr ⟨List.forall_mem_cons.2 ⟨Ne.symm apart, others⟩, kept⟩

/-- A report that is generated is the template of its format filled in. -/
theorem ReportJob.filled_of_generate {job : ReportJob} {reports : List Rendered}
    (generated : job.generate = .ok reports) : ∀ report ∈ reports,
      report.templateSource = job.plan.templates.get report.format ∧
      ∃ tree, job.plan.TreeIn job.identity job.base job.comparisons report.format tree ∧
        Template.render report.templateSource tree = .ok report.text := by
  intro report given
  obtain ⟨c, sets, h⟩ := ReportPlan.exists_prepared_of_generate generated
  obtain ⟨format, _, rendered⟩ :=
    (Traversal.mem_iff_of_mapM ((h.generate_eq _).symm.trans generated)).1 given
  obtain ⟨source, filled⟩ := h.filled_of_render rendered
  rw [h.format_of_render rendered, source]
  exact ⟨rfl, filled⟩

namespace ReportRequest

variable {r : ReportRequest} {readers : TextReaders} {s : Settings} {view : FileView}
  {format : OutputFormat} {path : String} {choices : List (OutputFormat × String)} {templates : PerFormat String}
  {cause : Fatal}

/-- The templates to use with settings given. -/
def templatesWith {m : Type → Type} [Monad m] [FileReader m] (r : ReportRequest) (s : Settings) :
    ExceptT Fatal m (PerFormat String) :=
  MonadExcept.ofExcept (r.templates.mapM templateChoice) >>= fun choices =>
    loadTemplates (s.templateFiles ++ choices)

/-- What is wrong with the first value that does not ask for a template. -/
def FirstMalformed (r : ReportRequest) (cause : Fatal) : Prop :=
  ∃ before given after, r.templates = before ++ given :: after ∧
    (∀ other ∈ before, ∃ format path, AsksTemplate other format path) ∧
    MalformedTemplate given cause

/-- The template that is used for a format, given settings and what the files show. -/
inductive UsesTemplate (r : ReportRequest) (s : Settings) (view : FileView)
    (format : OutputFormat) : String → Prop where
  /-- The file that is asked for last has the template. -/
  | asked {before after : List String} {given path text : String}
    (values : r.templates = before ++ given :: after) (asks : AsksTemplate given format path)
    (last : ∀ later ∈ after, ∀ path, ¬ AsksTemplate later format path)
    (held : view.text? path = some text) : UsesTemplate r s view format text
  /-- None is asked for, and the file that the settings name has the template. -/
  | settings {path text : String}
    (unasked : ∀ given ∈ r.templates, ∀ path, ¬ AsksTemplate given format path)
    (named : s.templates.get format = some path) (held : view.text? path = some text) :
    UsesTemplate r s view format text
  /-- None is asked for, and the settings name none either. -/
  | standard (unasked : ∀ given ∈ r.templates, ∀ path, ¬ AsksTemplate given format path)
    (unnamed : s.templates.get format = none) :
    UsesTemplate r s view format (Template.standard.get format)

/-- The choices are refused for the first value that is malformed. -/
theorem mapM_templateChoice_eq_error_iff :
    r.templates.mapM templateChoice = .error cause ↔ r.FirstMalformed cause := by
  unfold FirstMalformed
  simp only [Traversal.mapM_eq_error_iff, templateChoice_eq_error_iff, Prod.exists,
    templateChoice_eq_ok_iff]

/-- If a value is malformed, there is a first one. -/
theorem exists_firstMalformed
    (malformed : ∃ given ∈ r.templates, ∃ cause, MalformedTemplate given cause) :
    ∃ cause, r.FirstMalformed cause := by
  simp only [← mapM_templateChoice_eq_error_iff]
  obtain ⟨given, asked, cause, malformed⟩ := malformed
  cases chosen : r.templates.mapM templateChoice with
  | error first => exact ⟨first, rfl⟩
  | ok choices =>
    obtain ⟨choice, read⟩ := Traversal.exists_mapM_iff.1 ⟨choices, chosen⟩ given asked
    exact absurd (read.symm.trans (templateChoice_of_malformed malformed)) (by simp)

/-- A malformed value is refused without a look at any file. -/
theorem load_of_firstMalformed {m : Type → Type} [Monad m] [LawfulMonad m] [FileReader m]
    (first : r.FirstMalformed cause) (readers : TextReaders) (env : Environment) :
    (∀ s, (r.templatesWith s : ExceptT Fatal m (PerFormat String)) = throw cause) ∧
      (r.load readers env : ExceptT Fatal m ReportJob) = throw cause := by
  have refused := mapM_templateChoice_eq_error_iff.2 first
  have thrown : (MonadExcept.ofExcept (r.templates.mapM templateChoice) :
      ExceptT Fatal m (List (OutputFormat × String))) = throw cause := by
    rw [refused]
    rfl
  refine ⟨fun s => ?_, ?_⟩
  · rw [templatesWith, thrown, ExceptT.bind_throw]
  · rw [load_eq, thrown, ExceptT.bind_throw]

/-- The templates are found with settings for the choices that the values make. -/
theorem found_templatesWith_eq_ok_iff : view.found (r.templatesWith s) = .ok templates ↔
    ∃ choices, r.templates.mapM templateChoice = .ok choices ∧
      view.found (loadTemplates (s.templateFiles ++ choices)) = .ok templates := by
  rw [templatesWith, FileView.found_bind, FileView.found_ofExcept, Traversal.bind_eq_ok_iff]

/-- Templates are found with settings exactly when every value asks for one in a file that
is there, and the files that the settings name are there. -/
theorem exists_found_templatesWith_iff :
    (∃ templates, view.found (r.templatesWith s) = .ok templates) ↔
    (∀ given ∈ r.templates, ∃ format path text,
      AsksTemplate given format path ∧ view.text? path = some text) ∧
    ∀ format path, s.templates.get format = some path → ∃ text, view.text? path = some text := by
  simp only [found_templatesWith_eq_ok_iff, ← templateChoice_eq_ok_iff]
  rw [exists_comm]
  exact exists_found_templates_iff

/-- The template of a format is that of the last value that asks for one, else that of the
settings, else the standard one. -/
theorem usesTemplate_of_found (found : view.found (r.templatesWith s) = .ok templates)
    (format : OutputFormat) : r.UsesTemplate s view format (templates.get format) := by
  obtain ⟨choices, chosen, found⟩ := found_templatesWith_eq_ok_iff.1 found
  rw [loadTemplates_eq, List.foldlM_append, FileView.found_bind] at found
  obtain ⟨between, settings, found⟩ := Traversal.bind_eq_ok_iff.1 found
  rcases get_of_found_foldlM found format with ⟨path, last, held⟩ | ⟨none, kept⟩
  · obtain ⟨before, after, rfl, last⟩ := last
    obtain ⟨_, given, _, values, choice, rest⟩ := Traversal.exists_split_of_mapM chosen
    exact .asked values (templateChoice_eq_ok_iff.1 choice) (not_asksTemplate_of_choices rest last)
      held
  · have unasked := not_asksTemplate_of_choices chosen none
    rcases get_of_found_foldlM settings format with ⟨path, last, held⟩ | ⟨unnamed, standard⟩
    · obtain ⟨before, after, files, _⟩ := last
      have given : (format, path) ∈ s.templateFiles := files ▸ List.mem_append_cons_self
      exact .settings unasked (Settings.mem_templateFiles_iff.1 given) (held.trans (by rw [kept]))
    · rw [kept, standard]
      refine .standard unasked (Option.eq_none_iff_forall_ne_some.2 fun path named => ?_)
      exact unnamed _ (Settings.mem_templateFiles_iff.2 named) rfl

/-- The report has the templates that are found with the settings. -/
theorem found_templatesWith_of_load {env : Environment} {job : ReportJob}
    (found : view.found (r.load readers env) = .ok job) :
    ∃ s, view.settings? readers r.settings = some s ∧
      view.found (r.templatesWith s) = .ok job.plan.templates := by
  obtain ⟨choices, s, chosen, settings, found⟩ := found_load_eq_ok_iff.1 found
  obtain ⟨_, _, _, templates, _, _, _, read, rfl⟩ := found_loadFrom_eq_ok_iff.1 found
  exact ⟨s, settings, found_templatesWith_eq_ok_iff.2 ⟨choices, chosen, read⟩⟩

section Files

variable {σ : Type} [FileStore (StateM σ)] {shown : σ → FileView}

/-- Looking for the templates leaves all files as they are. -/
theorem reads_templatesWith (shows : FileStore.Shows shown) (r : ReportRequest) (s : Settings) :
    ReadsInput shown (r.templatesWith s) (r.templatesWith s) :=
  (reads_choices shown r).bind fun choices => reads_loadTemplates shows (s.templateFiles ++ choices)

/-- If a value does not ask for a template as it should, the command is given up for the
first one that does not, before any file is looked at. Otherwise, with given settings,
the templates are read exactly when the files can be read that are asked for and that the
settings name, and then each format has the template of the last value for it, else that
of the settings, else the standard one. A report that is made is filled in from these. -/
theorem templates_chosen (shows : FileStore.Shows shown) (r : ReportRequest)
    (readers : TextReaders) (env : Environment) (files : σ) :
    ((∃ given ∈ r.templates, ∃ cause, MalformedTemplate given cause) →
      ∃ cause, r.FirstMalformed cause ∧
        ∀ (m : Type → Type) [Monad m] [LawfulMonad m] [FileReader m],
          (∀ s, (r.templatesWith s : ExceptT Fatal m (PerFormat String)) = throw cause) ∧
            (r.load readers env : ExceptT Fatal m ReportJob) = throw cause) ∧
    (∀ s, ((∃ templates,
        (r.templatesWith s : ExceptT Fatal (StateM σ) (PerFormat String)).run.run files =
          (.ok templates, files)) ↔
        (∀ given ∈ r.templates, ∃ format path text,
          AsksTemplate given format path ∧ (shown files).text? path = some text) ∧
        ∀ format path, s.templates.get format = some path →
          ∃ text, (shown files).text? path = some text) ∧
      ∀ templates, (r.templatesWith s : ExceptT Fatal (StateM σ) (PerFormat String)).run.run files =
          (.ok templates, files) →
        ∀ format, r.UsesTemplate s (shown files) format (templates.get format)) ∧
    ∀ job, (r.load readers env : ExceptT Fatal (StateM σ) ReportJob).run.run files =
        (.ok job, files) →
      ∃ s, (shown files).settings? readers r.settings = some s ∧
        (r.templatesWith s : ExceptT Fatal (StateM σ) (PerFormat String)).run.run files =
          (.ok job.plan.templates, files) ∧
        ∀ reports, job.generate = .ok reports → ∀ report ∈ reports,
          r.UsesTemplate s (shown files) report.format report.templateSource ∧
          ∃ filled, job.plan.TreeIn job.identity job.base job.comparisons report.format filled ∧
            Template.render report.templateSource filled = .ok report.text := by
  simp only [(reads_templatesWith shows r _).run_eq_ok_iff,
    (reads_load shows r readers env).run_eq_ok_iff]
  refine ⟨fun malformed => ?_, fun s => ⟨exists_found_templatesWith_iff, fun templates found =>
    usesTemplate_of_found found⟩, fun job found => ?_⟩
  · obtain ⟨cause, first⟩ := exists_firstMalformed malformed
    exact ⟨cause, first, fun m _ _ _ => load_of_firstMalformed first readers env⟩
  · obtain ⟨s, settings, templates⟩ := found_templatesWith_of_load found
    refine ⟨s, settings, templates, fun reports generated report given => ?_⟩
    obtain ⟨source, filled⟩ := ReportJob.filled_of_generate generated report given
    exact ⟨source ▸ usesTemplate_of_found templates report.format, filled⟩

end Files

/-- A request with a template for a format that is not asked for. -/
def flagged : ReportRequest := { plainRequest [.text] with templates := ["org=/run"] }

/-- What the report of that request is made from. -/
def flaggedJob (run : Run) : ReportJob :=
  { plainJob run [.text] with plan := { ReportPlan.standard with
      templates := Template.standard.set .org (String.ofList plainRunText) } }

/-- The report of that request is made. -/
theorem exists_flaggedJob : ∃ run report,
    plainTree.view.found (flagged.load .standard plainEnvironment) = .ok (flaggedJob run) ∧
      (flaggedJob run).generate = .ok [report] := by
  obtain ⟨run, report, held, generated⟩ := exists_plainRun
  have there : plainTree.view.text? "/run" = some (String.ofList plainRunText) :=
    text?_plainTree (by decide)
  have read : plainTree.view.found (loadTemplates [(.org, "/run")]) =
      .ok (Template.standard.set .org (String.ofList plainRunText)) := by
    rw [loadTemplates_eq, List.foldlM_cons, FileView.found_bind, found_withTemplate, there]
    rfl
  have chosen : flagged.templates.mapM templateChoice = .ok [(.org, "/run")] := by decide +kernel
  have found := (found_load_of_resolve chosen found_resolve_plain).trans
    (found_loadFrom_plain held (by decide) ["org=/run"] read)
  refine ⟨run, report, found, (ReportPlan.generate_withTemplates fun format asked => ?_).trans
    generated⟩
  rw [List.mem_singleton.1 asked, PerFormat.get_set, if_neg (by decide)]
  rfl

/-- What the report of that request is made from is loaded. -/
theorem run_load_flagged : ∃ run report,
    (flagged.load .standard plainEnvironment :
      ExceptT Fatal (StateM FileTree) ReportJob).run.run plainTree =
        (.ok (flaggedJob run), plainTree) ∧ (flaggedJob run).generate = .ok [report] := by
  obtain ⟨run, report, found, generated⟩ := exists_flaggedJob
  exact ⟨run, report, (reads_load FileTree.shows_view _ _ _).run_eq_ok_iff.2 found, generated⟩

/-- A request with a template for no format, after one that is in order. -/
def misdirected : ReportRequest := { plainRequest [.text] with templates := ["org=run", "pdf=run"] }

/-- The request with a template for no format is given up. The report of the other one is
made: the template that is asked for is that of its format, and the report is filled in
from the template of its own. -/
theorem templates_chosen_flagged : FileStore.Shows FileTree.view ∧
    (∃ cause, misdirected.FirstMalformed cause ∧
      (misdirected.load .standard plainEnvironment : ExceptT Fatal (StateM FileTree) ReportJob) =
        throw cause) ∧
    ∃ job report s, (flagged.load .standard plainEnvironment :
        ExceptT Fatal (StateM FileTree) ReportJob).run.run plainTree = (.ok job, plainTree) ∧
      job.generate = .ok [report] ∧
      flagged.UsesTemplate s plainTree.view .org (String.ofList plainRunText) ∧
      flagged.UsesTemplate s plainTree.view report.format report.templateSource := by
  obtain ⟨refused, _⟩ :=
    templates_chosen FileTree.shows_view misdirected .standard plainEnvironment plainTree
  obtain ⟨_, chosen, made⟩ :=
    templates_chosen FileTree.shows_view flagged .standard plainEnvironment plainTree
  have malformed : MalformedTemplate "pdf=run" (.templateFormat "pdf=run") :=
    templateChoice_eq_error_iff.1 (by decide +kernel)
  obtain ⟨cause, first, thrown⟩ := refused ⟨_, by decide, _, malformed⟩
  obtain ⟨run, report, loaded, generated⟩ := run_load_flagged
  obtain ⟨s, _, templates, reports⟩ := made _ loaded
  exact ⟨FileTree.shows_view, ⟨cause, first, (thrown (StateM FileTree)).2⟩, _, report, s, loaded,
    generated, (chosen s).2 _ templates .org,
    (reports _ generated report (List.mem_singleton_self _)).1⟩

end ReportRequest

end RunReport
