import RunReport.Proofs.Command.Rejection
import RunReport.Proofs.Command.Templates

/-!
# What wins over the settings

What is asked for overrides the settings: an author, formats, a directory, a
dictionary, and a template for a format. Settings that differ in nothing but what
is overridden lead to the same end, with one exception. The template files of the
settings are read even if they are overridden, so such a file must be there
although its text is not used. The ends differ exactly when one of the settings
names such a file that is not there, the other one does not, and the command would
not have been given up anyway. This holds of any files that show what they hold, whatever
comes of changing them.
-/

namespace RunReport

open RunReport.Action

section Templates

variable {view : FileView}

/-- Templates that differ only where others are read are the same in the end. -/
theorem found_foldlM_congr {files : List (OutputFormat × String)}
    {templates others : PerFormat String}
    (same : ∀ format, (∀ file ∈ files, file.1 ≠ format) →
      templates.get format = others.get format) :
    view.found (files.foldlM withTemplate templates) =
      view.found (files.foldlM withTemplate others) := by
  induction files generalizing templates others with
  | nil => rw [PerFormat.ext_get fun format => same format (by simp)]
  | cons file rest ih =>
    rw [List.foldlM_cons, List.foldlM_cons, FileView.found_bind, FileView.found_bind,
      found_withTemplate, found_withTemplate]
    cases view.text? file.2 with
    | none => rfl
    | some text =>
      refine ih fun format apart => ?_
      rw [PerFormat.get_set, PerFormat.get_set]
      split
      · rfl
      · rename_i other
        exact same format (List.forall_mem_cons.2 ⟨Ne.symm other, apart⟩)

/-- A template file that is there has no influence if another one is read for its
format afterwards. -/
theorem found_foldlM_filter {overridden : OutputFormat → Bool}
    {files choices : List (OutputFormat × String)} {templates others : PerFormat String}
    (chosen : ∀ format, overridden format = true → ∃ choice ∈ choices, choice.1 = format)
    (there : ∀ file ∈ files, overridden file.1 = true → ∃ text, view.text? file.2 = some text)
    (same : ∀ format, overridden format = false → templates.get format = others.get format) :
    view.found ((files ++ choices).foldlM withTemplate templates) =
      view.found ((files.filter (fun file => !overridden file.1) ++ choices).foldlM withTemplate
        others) := by
  induction files generalizing templates others with
  | nil =>
    refine found_foldlM_congr fun format apart => same format ?_
    by_contra named
    obtain ⟨choice, given, is⟩ := chosen format (by simpa using named)
    exact apart choice given is
  | cons file rest ih =>
    obtain ⟨here, later⟩ := List.forall_mem_cons.1 there
    rw [List.cons_append, List.foldlM_cons, FileView.found_bind, found_withTemplate]
    cases named : overridden file.1 with
    | true =>
      obtain ⟨text, held⟩ := here named
      rw [List.filter_cons_of_neg (by simp [named]), held]
      refine ih later fun format wins => ?_
      have other : format ≠ file.1 := by
        rintro rfl
        exact absurd (named.symm.trans wins) (by simp)
      rw [PerFormat.get_set, if_neg other]
      exact same format wins
    | false =>
      rw [List.filter_cons_of_pos (by simp [named]), List.cons_append, List.foldlM_cons,
        FileView.found_bind, found_withTemplate]
      cases view.text? file.2 with
      | none => rfl
      | some text =>
        refine ih later fun format wins => ?_
        rw [PerFormat.get_set, PerFormat.get_set, same format wins]

end Templates

namespace ReportRequest

variable {r : ReportRequest} {readers : TextReaders} {env : Environment} {view : FileView}
  {s s' : Settings}

/-- Whether a template is asked for a format. -/
def namesTemplate (r : ReportRequest) (format : OutputFormat) : Bool :=
  r.templates.any fun given => match templateChoice given with
    | .ok choice => choice.1 = format
    | .error _ => false

/-- Two settings differ at most where the arguments or the environment win. -/
structure Overrides (r : ReportRequest) (env : Environment) (s s' : Settings) : Prop where
  /-- The author, unless one is given. -/
  author : r.author = none → env.author = none → s.author = s'.author
  /-- The version, in any case. -/
  toolVersion : s.toolVersion = s'.toolVersion
  /-- The formats, unless some are given. -/
  formats : r.formats = [] → s.formats = s'.formats
  /-- The directory, unless one is given. -/
  outputDir : r.outputDir = none → s.outputDir = s'.outputDir
  /-- The dictionary, unless one is given. -/
  dictionary : r.dictionary = none → s.dictionary = s'.dictionary
  /-- The template of each format for which none is given. -/
  templates : ∀ format, r.namesTemplate format = false →
    s.templates.get format = s'.templates.get format
  /-- The charted metrics of the cluster, in any case. -/
  clusterPerformance : s.clusterPerformance = s'.clusterPerformance
  /-- The charted metrics of the propagation, in any case. -/
  blockPropagation : s.blockPropagation = s'.blockPropagation

/-- The template files of the settings that are overridden are there. -/
def OverriddenThere (r : ReportRequest) (view : FileView) (s : Settings) : Prop :=
  ∀ format path, r.namesTemplate format = true → s.templates.get format = some path →
    ∃ text, view.text? path = some text

/-- The settings without the template files that are overridden. -/
def withoutOverridden (r : ReportRequest) (s : Settings) : Settings :=
  let kept (format : OutputFormat) : Option String :=
    if r.namesTemplate format then none else s.templates.get format
  { s with templates := ⟨kept .org, kept .latex, kept .text⟩ }

/-- Loads everything that a report is made from, with settings given. -/
def loadWith {m : Type → Type} [Monad m] [FileReader m] (r : ReportRequest)
    (readers : TextReaders) (env : Environment) (s : Settings) : ExceptT Fatal m ReportJob :=
  MonadExcept.ofExcept (r.templates.mapM templateChoice) >>= r.loadFrom readers env s

/-- Makes the report with settings given. -/
def runWith {m : Type → Type} [Monad m] [FileStore m] (r : ReportRequest)
    (readers : TextReaders) (env : Environment) (s : Settings) : m Outcome :=
  (r.loadWith readers env s : ExceptT Fatal m ReportJob).run >>= r.conclude

/-- What is asked for decides which templates are overridden. -/
theorem namesTemplate_iff {choices : List (OutputFormat × String)}
    (chosen : r.templates.mapM templateChoice = .ok choices) {format : OutputFormat} :
    r.namesTemplate format = true ↔ ∃ choice ∈ choices, choice.1 = format := by
  unfold namesTemplate
  rw [List.any_eq_true]
  constructor
  · rintro ⟨given, asked, named⟩
    split at named
    · rename_i choice held
      have chose := (Traversal.mem_iff_of_mapM chosen).2 ⟨given, asked, held⟩
      exact ⟨choice, chose, by simpa using named⟩
    · cases named
  · rintro ⟨choice, chose, rfl⟩
    obtain ⟨given, asked, held⟩ := (Traversal.mem_iff_of_mapM chosen).1 chose
    exact ⟨given, asked, by simp [held]⟩

/-- A template file is kept if its format is not asked for with one. -/
theorem get_withoutOverridden (r : ReportRequest) (s : Settings) (format : OutputFormat) :
    (r.withoutOverridden s).templates.get format =
      if r.namesTemplate format then none else s.templates.get format := by
  cases format <;> rfl

/-- The template files that are kept are those that are not overridden. -/
theorem templateFiles_withoutOverridden (r : ReportRequest) (s : Settings) :
    (r.withoutOverridden s).templateFiles =
      s.templateFiles.filter fun file => !r.namesTemplate file.1 := by
  unfold Settings.templateFiles
  rw [List.filter_filterMap]
  refine List.filterMap_congr fun format _ => ?_
  rw [get_withoutOverridden]
  cases named : r.namesTemplate format <;> cases s.templates.get format <;>
    simp [named, Option.filter]

/-- What is found depends on the settings only by what wins and by what comes of
the template files. -/
theorem found_loadFrom_congr {choices : List (OutputFormat × String)}
    (identity : r.chosenIdentity s env = r.chosenIdentity s' env)
    (formats : r.chosenFormats s = r.chosenFormats s')
    (directory : r.chosenDirectory s = r.chosenDirectory s')
    (dictionary : (r.dictionary <|> s.dictionary) = (r.dictionary <|> s'.dictionary))
    (charts : s.chartKeys = s'.chartKeys)
    (templates : view.found (loadTemplates (s.templateFiles ++ choices)) =
      view.found (loadTemplates (s'.templateFiles ++ choices))) :
    view.found (r.loadFrom readers env s choices) =
      view.found (r.loadFrom readers env s' choices) := by
  unfold loadFrom loadDictionary
  rw [dictionary]
  simp only [FileView.found_bind, identity, formats, directory, charts, templates]

/-- A template file that is overridden and is there makes no difference. -/
theorem found_loadWith_withoutOverridden (there : r.OverriddenThere view s) :
    view.found (r.loadWith readers env s) =
      view.found (r.loadWith readers env (r.withoutOverridden s)) := by
  unfold loadWith
  rw [FileView.found_bind, FileView.found_bind, FileView.found_ofExcept]
  cases chosen : r.templates.mapM templateChoice with
  | error cause => rw [Traversal.error_bind, Traversal.error_bind]
  | ok choices =>
    rw [Traversal.ok_bind, Traversal.ok_bind]
    refine found_loadFrom_congr rfl rfl rfl rfl rfl ?_
    rw [templateFiles_withoutOverridden, loadTemplates_eq, loadTemplates_eq]
    refine found_foldlM_filter (fun format => (namesTemplate_iff chosen).1)
      (fun file given named => ?_) fun _ _ => rfl
    exact there file.1 file.2 named (Settings.mem_templateFiles_iff.1 given)

namespace Overrides

/-- The identity in a report does not depend on an author that is overridden. -/
theorem chosenIdentity (same : r.Overrides env s s') :
    r.chosenIdentity s env = r.chosenIdentity s' env := by
  have author : (r.author <|> env.author <|> s.author) =
      (r.author <|> env.author <|> s'.author) := by
    cases given : r.author with
    | some author => rfl
    | none => cases known : env.author with
      | some author => rfl
      | none => exact same.author given known
  rw [ReportRequest.chosenIdentity, ReportRequest.chosenIdentity, author, same.toolVersion]

/-- The formats of a report do not depend on formats that are overridden. -/
theorem chosenFormats (same : r.Overrides env s s') : r.chosenFormats s = r.chosenFormats s' := by
  unfold ReportRequest.chosenFormats
  cases given : r.formats with
  | cons _ _ => rfl
  | nil => rw [same.formats given]

/-- The directory of a report does not depend on one that is overridden. -/
theorem chosenDirectory (same : r.Overrides env s s') :
    r.chosenDirectory s = r.chosenDirectory s' := by
  unfold ReportRequest.chosenDirectory
  cases given : r.outputDir with
  | some _ => rfl
  | none => rw [same.outputDir given]

/-- The dictionary that is asked for does not depend on one that is overridden. -/
theorem chosenDictionary (same : r.Overrides env s s') :
    (r.dictionary <|> s.dictionary) = (r.dictionary <|> s'.dictionary) := by
  cases given : r.dictionary with
  | some _ => rfl
  | none => rw [same.dictionary given]

/-- What is charted cannot be overridden. -/
theorem chartKeys (same : r.Overrides env s s') : s.chartKeys = s'.chartKeys := by
  rw [Settings.chartKeys, Settings.chartKeys, same.clusterPerformance, same.blockPropagation]

/-- Without the template files that are overridden the template files are the same. -/
theorem templates_withoutOverridden (same : r.Overrides env s s') :
    (r.withoutOverridden s).templates = (r.withoutOverridden s').templates := by
  refine PerFormat.ext_get fun format => ?_
  rw [get_withoutOverridden, get_withoutOverridden]
  cases named : r.namesTemplate format with
  | true => rfl
  | false => exact same.templates format named

/-- Without the template files that are overridden the settings differ no more than
before. -/
theorem withoutOverridden (same : r.Overrides env s s') :
    r.Overrides env (r.withoutOverridden s) (r.withoutOverridden s') :=
  { same with templates := fun _ _ => by rw [same.templates_withoutOverridden] }

end Overrides

/-- Settings that differ only in what is overridden are the same without the template
files that are. -/
theorem found_loadWith_of_overrides (same : r.Overrides env s s') :
    view.found (r.loadWith readers env (r.withoutOverridden s)) =
      view.found (r.loadWith readers env (r.withoutOverridden s')) := by
  have kept := same.withoutOverridden
  have files : (r.withoutOverridden s).templateFiles = (r.withoutOverridden s').templateFiles := by
    rw [Settings.templateFiles, Settings.templateFiles, same.templates_withoutOverridden]
  unfold loadWith
  rw [FileView.found_bind, FileView.found_bind, FileView.found_ofExcept]
  cases r.templates.mapM templateChoice with
  | error cause => rw [Traversal.error_bind, Traversal.error_bind]
  | ok choices =>
    rw [Traversal.ok_bind, Traversal.ok_bind]
    exact found_loadFrom_congr kept.chosenIdentity kept.chosenFormats kept.chosenDirectory
      kept.chosenDictionary kept.chartKeys (by rw [files])

/-- Two runs end alike: with the same code and the same files. -/
def EndsAlike {σ : Type} (run other : Outcome × σ) : Prop :=
  run.1.exitCode = other.1.exitCode ∧ run.2 = other.2

section Files

variable {σ : Type} [FileStore (StateM σ)] {shown : σ → FileView} {files : σ}
  (shows : FileStore.Shows shown)

include shows

/-- The command comes to what follows from what is found with the settings. -/
theorem runWith_eq (r : ReportRequest) (readers : TextReaders) (env : Environment) (s : Settings)
    (files : σ) : (r.runWith readers env s : StateM σ Outcome).run files =
      (r.conclude ((shown files).found (r.loadWith readers env s)) : StateM σ Outcome).run files :=
  run_bind_of_run (((reads_choices shown r).bind
    (reads_loadFrom shows r readers env s)).run_eq files)

/-- The command makes the report with the settings that it finds. -/
theorem run_eq_runWith (resolved : (shown files).settings? readers r.settings = some s) :
    (r.run readers env : StateM σ Outcome).run files =
      (r.runWith readers env s : StateM σ Outcome).run files := by
  have found := Settings.found_resolve_eq_ok_iff.2 resolved
  rw [r.run_eq shows, runWith_eq shows, load_eq, loadWith]
  simp only [FileView.found_bind, found]
  rfl

/-- If a template file that is overridden is not there, the command is given up, and
the files are left as they are. -/
theorem run_of_not_overriddenThere (readers : TextReaders) (env : Environment)
    (missing : ¬ r.OverriddenThere (shown files) s) :
    ∃ cause, (r.runWith readers env s : StateM σ Outcome).run files =
      (.abandoned cause, files) := by
  rw [runWith_eq shows]
  cases found : (shown files).found (r.loadWith readers env s) with
  | error cause => exact ⟨cause, rfl⟩
  | ok job =>
    rw [loadWith, FileView.found_bind, FileView.found_ofExcept] at found
    obtain ⟨choices, chosen, found⟩ := Traversal.bind_eq_ok_iff.1 found
    have all := (exists_found_loadFrom_iff env).1 ⟨choices, job, chosen, found⟩
    exact absurd (fun format path _ => all.settingsTemplates format path) missing

/-- If the template files that are overridden are there, they make no difference. -/
theorem runWith_withoutOverridden (there : r.OverriddenThere (shown files) s) :
    (r.runWith readers env s : StateM σ Outcome).run files =
      (r.runWith readers env (r.withoutOverridden s) : StateM σ Outcome).run files := by
  rw [runWith_eq shows, runWith_eq shows, found_loadWith_withoutOverridden there]

/-- Settings that differ only in what is overridden lead to the same end without the
template files that are. -/
theorem runWith_of_overrides (files : σ) (same : r.Overrides env s s') :
    (r.runWith readers env (r.withoutOverridden s) : StateM σ Outcome).run files =
      (r.runWith readers env (r.withoutOverridden s') : StateM σ Outcome).run files := by
  rw [runWith_eq shows, runWith_eq shows, found_loadWith_of_overrides same]

/-- The command makes the report with the settings that it finds. Two settings that
differ only in what is overridden lead to the same end exactly when for both or for
neither the template files that are overridden are there, or when without these
files the command is given up and changes nothing. If they are there for both, it
also prints the same. -/
theorem endsAlike_iff (r : ReportRequest) (readers : TextReaders) (env : Environment) (files : σ)
    (s s' : Settings) (same : r.Overrides env s s') :
    ((shown files).settings? readers r.settings = some s →
      (r.run readers env : StateM σ Outcome).run files =
        (r.runWith readers env s : StateM σ Outcome).run files) ∧
    (EndsAlike ((r.runWith readers env s : StateM σ Outcome).run files)
        ((r.runWith readers env s' : StateM σ Outcome).run files) ↔
      ((r.OverriddenThere (shown files) s ↔ r.OverriddenThere (shown files) s') ∨
        let kept := (r.runWith readers env (r.withoutOverridden s) : StateM σ Outcome).run files
        kept.1.exitCode = 2 ∧ kept.2 = files)) ∧
    (r.OverriddenThere (shown files) s → r.OverriddenThere (shown files) s' →
      (r.runWith readers env s : StateM σ Outcome).run files =
        (r.runWith readers env s' : StateM σ Outcome).run files) := by
  have without : (r.runWith readers env (r.withoutOverridden s) : StateM σ Outcome).run files =
      (r.runWith readers env (r.withoutOverridden s') : StateM σ Outcome).run files :=
    runWith_of_overrides shows files same
  refine ⟨run_eq_runWith shows, ?_, fun here there => ?_⟩
  · by_cases here : r.OverriddenThere (shown files) s
    · by_cases there : r.OverriddenThere (shown files) s'
      · rw [runWith_withoutOverridden shows here, runWith_withoutOverridden shows there, without]
        simp [EndsAlike, here, there]
      · obtain ⟨cause, gives⟩ := run_of_not_overriddenThere shows readers env there
        rw [runWith_withoutOverridden shows here, gives]
        simp [EndsAlike, here, there, Outcome.exitCode]
    · obtain ⟨cause, gives⟩ := run_of_not_overriddenThere shows readers env here
      by_cases there : r.OverriddenThere (shown files) s'
      · rw [runWith_withoutOverridden shows there, gives, ← without]
        simp [EndsAlike, here, there, Outcome.exitCode, eq_comm]
      · obtain ⟨cause', gives'⟩ := run_of_not_overriddenThere shows readers env there
        rw [gives, gives']
        simp [EndsAlike, here, there, Outcome.exitCode]
  · rw [runWith_withoutOverridden shows here, runWith_withoutOverridden shows there, without]

end Files

/-- Settings that name another one, which is not there. -/
def misleading : Settings := { templates := ⟨some "astray", none, none⟩ }

/-- Settings of which nothing is used, although the template file is there. -/
def outvoted : Settings :=
  { formats := [.latex], outputDir := some "elsewhere", templates := ⟨some "/run", none, none⟩ }

/-- The request wins over formats, a directory and a template for the same format. -/
theorem overrides_flagged (formats : List OutputFormat) (outputDir org : Option String) :
    flagged.Overrides plainEnvironment
      { formats, outputDir, templates := ⟨org, none, none⟩ } {} where
  author _ _ := rfl
  toolVersion := rfl
  formats none := by cases none
  outputDir none := by cases none
  dictionary _ := rfl
  templates format unnamed := by
    have named : flagged.namesTemplate .org = true := by decide +kernel
    cases format with
    | org => exact absurd (unnamed.symm.trans named) (by decide)
    | latex | text => rfl
  clusterPerformance := rfl
  blockPropagation := rfl

/-- Without settings the report is delivered. -/
theorem exitCode_flagged :
    ((flagged.runWith .standard plainEnvironment {} : StateM FileTree Outcome).run
      plainTree).1.exitCode = 0 := by
  obtain ⟨run, report, loaded, generated⟩ := run_load_flagged
  have resolved : plainTree.view.settings? .standard flagged.settings = some {} :=
    Settings.found_resolve_eq_ok_iff.1 found_resolve_plain
  have receives : plainTree.Receives "/out" ((flagged.filesOf [report]).map (·.name)) := by
    refine receives_plain run.metadata.workload ?_
    rw [map_name_filesOf rfl generated, flaggedJob, plainJob, List.flatMap_singleton]
    exact List.Subset.refl _
  obtain ⟨outcome, last, ran, delivers, _⟩ := exists_run_of_receives loaded generated receives
  rw [← run_eq_runWith FileTree.shows_view resolved, ran, (delivers (List.nodup_singleton _)).2]
  rfl

/-- The settings of which nothing is used make no difference. -/
theorem endsAlike_outvoted : FileStore.Shows FileTree.view ∧
    flagged.Overrides plainEnvironment outvoted {} ∧
    EndsAlike
      ((flagged.runWith .standard plainEnvironment outvoted : StateM FileTree Outcome).run plainTree)
      ((flagged.runWith .standard plainEnvironment {} : StateM FileTree Outcome).run plainTree) ∧
    ((flagged.runWith .standard plainEnvironment outvoted : StateM FileTree Outcome).run
      plainTree).1.exitCode = 0 := by
  have overrides : flagged.Overrides plainEnvironment outvoted {} := overrides_flagged _ _ _
  have here : flagged.OverriddenThere plainTree.view outvoted := by
    intro format path _ named
    cases format with
    | org =>
      obtain rfl := Option.some.inj named
      exact ⟨_, text?_plainTree (by decide)⟩
    | latex | text => cases named
  have there : flagged.OverriddenThere plainTree.view {} := by
    intro format path _ named
    cases format <;> cases named
  obtain ⟨_, alike, _⟩ := endsAlike_iff FileTree.shows_view flagged .standard plainEnvironment
    plainTree outvoted {} overrides
  have ends := alike.2 (Or.inl (iff_of_true here there))
  exact ⟨FileTree.shows_view, overrides, ends, ends.1.trans exitCode_flagged⟩

/-- The settings that name a file that is not there make the command give up,
although another template is asked for, which is there. -/
theorem ends_differ_misleading : Settings.parse "templates:\n  org: astray\n" = some misleading ∧
    flagged.Overrides plainEnvironment misleading {} ∧
    ((flagged.runWith .standard plainEnvironment misleading : StateM FileTree Outcome).run
      plainTree).1.exitCode = 2 ∧
    ((flagged.runWith .standard plainEnvironment {} : StateM FileTree Outcome).run
      plainTree).1.exitCode = 0 := by
  refine ⟨by decide +kernel, overrides_flagged _ _ _, ?_, exitCode_flagged⟩
  have missing : ¬ flagged.OverriddenThere plainTree.view misleading := by
    intro there
    obtain ⟨text, held⟩ := there .org "astray" (by decide +kernel) rfl
    exact absurd (text?_astray.symm.trans held) (by simp)
  obtain ⟨cause, gives⟩ :=
    run_of_not_overriddenThere FileTree.shows_view .standard plainEnvironment missing
  rw [gives]
  rfl

end ReportRequest

end RunReport
