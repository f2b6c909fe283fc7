import RunReport.Proofs.Text.Stretches
import RunReport.Run.Basic

/-!
# What the class of a workload depends on

The name of a script is a path of directories that is closed by a slash, then the stem, and
then extensions that a point opens. Every text is such a name in one way only: it is cut at
its last slash, and what comes behind at its first point. The class of the workload depends
on the stem alone.
-/

namespace RunReport

namespace Split

variable {mark : Char} {front back cs : List Char}

/-- A list is cut before its first mark exactly if no mark stands before the cut and one
behind it, unless nothing is left. -/
theorem atFirstMark_iff :
    front ++ back = cs ∧ mark ∉ front ∧ (back = [] ∨ back.head? = some mark) ↔
      front = cs.takeWhile (· ≠ mark) ∧ back = cs.dropWhile (· ≠ mark) := by
  rw [← eq_takeWhile_iff]
  refine and_congr_right fun _ => and_congr ?_ ?_
  · simp [List.forall_mem_ne']
  · cases back with
    | nil => simp
    | cons c back => simp

/-- A list is cut behind its last mark exactly if no mark stands behind the cut and one before
it, unless there is nothing. -/
theorem atLastMark_iff :
    front ++ back = cs ∧ mark ∉ back ∧ (front = [] ∨ front.getLast? = some mark) ↔
      back = (cs.reverse.takeWhile (· ≠ mark)).reverse ∧
        front = (cs.reverse.dropWhile (· ≠ mark)).reverse := by
  rw [← List.reverse_eq_iff, ← List.reverse_eq_iff, ← atFirstMark_iff, ← List.reverse_append,
    List.reverse_inj, List.mem_reverse, List.reverse_eq_nil_iff, List.head?_reverse]

end Split

/-- The name of a script, taken apart. -/
@[ext]
structure ScriptName where
  /-- The directories: none, or closed by a slash. -/
  directories : String
  /-- What stands between the last slash and the first point behind it. -/
  stem : String
  /-- The extensions: none, or opened by a point. -/
  extensions : String
  /-- The directories are closed. -/
  closed : directories = "" ∨ directories.toList.getLast? = some '/'
  /-- The stem has no slash. -/
  stem_slash : '/' ∉ stem.toList
  /-- It has no point. -/
  stem_point : '.' ∉ stem.toList
  /-- The extensions are open. -/
  opened : extensions = "" ∨ extensions.toList.head? = some '.'
  /-- They have no slash. -/
  extensions_slash : '/' ∉ extensions.toList

namespace ScriptName

/-- The name as it is given. -/
def text (name : ScriptName) : String := name.directories ++ name.stem ++ name.extensions

/-- The characters up to the last slash. -/
def upToSlash (script : List Char) : List Char := (script.reverse.dropWhile (· ≠ '/')).reverse

/-- The characters behind the last slash. -/
def fileName (script : List Char) : List Char := (script.reverse.takeWhile (· ≠ '/')).reverse

/-- The characters behind the stem. -/
def behindStem (script : List Char) : List Char := (fileName script).dropWhile (· ≠ '.')

/-- A list is cut at its last slash. -/
theorem cut_at_slash (script : List Char) :
    upToSlash script ++ fileName script = script ∧ '/' ∉ fileName script ∧
      (upToSlash script = [] ∨ (upToSlash script).getLast? = some '/') :=
  Split.atLastMark_iff.2 ⟨rfl, rfl⟩

/-- What stands behind the last slash is cut at its first point. -/
theorem cut_at_point (script : List Char) :
    Workload.stem script ++ behindStem script = fileName script ∧
      '.' ∉ Workload.stem script ∧
      (behindStem script = [] ∨ (behindStem script).head? = some '.') :=
  Split.atFirstMark_iff.2 ⟨rfl, rfl⟩

/-- A text taken apart at its last slash and the first point behind it. -/
def ofText (script : String) : ScriptName where
  directories := String.ofList (upToSlash script.toList)
  stem := String.ofList (Workload.stem script.toList)
  extensions := String.ofList (behindStem script.toList)
  closed := by
    rw [String.toList_ofList, String.ofList_eq_empty_iff]
    exact (cut_at_slash script.toList).2.2
  stem_slash := by
    rw [String.toList_ofList]
    have whole := (cut_at_point script.toList).1
    exact fun slash => (cut_at_slash script.toList).2.1 (whole ▸ List.mem_append_left _ slash)
  stem_point := by
    rw [String.toList_ofList]
    exact (cut_at_point script.toList).2.1
  opened := by
    rw [String.toList_ofList, String.ofList_eq_empty_iff]
    exact (cut_at_point script.toList).2.2
  extensions_slash := by
    rw [String.toList_ofList]
    have whole := (cut_at_point script.toList).1
    exact fun slash => (cut_at_slash script.toList).2.1 (whole ▸ List.mem_append_right _ slash)

/-- The parts of a text give it again. -/
theorem text_ofText (script : String) : (ofText script).text = script := by
  rw [text, ofText, ← String.toList_inj, String.toList_append, String.toList_append,
    String.toList_ofList, String.toList_ofList, String.toList_ofList, List.append_assoc,
    (cut_at_point script.toList).1, (cut_at_slash script.toList).1]

/-- The parts of a name are those of its text. -/
theorem parts_eq (name : ScriptName) :
    name.directories.toList = upToSlash name.text.toList ∧
      name.stem.toList = Workload.stem name.text.toList ∧
      name.extensions.toList = behindStem name.text.toList := by
  have whole : name.directories.toList ++ (name.stem.toList ++ name.extensions.toList) =
      name.text.toList := by
    rw [text, String.toList_append, String.toList_append, List.append_assoc]
  have plain : '/' ∉ name.stem.toList ++ name.extensions.toList := fun slash =>
    (List.mem_append.1 slash).elim name.stem_slash name.extensions_slash
  obtain ⟨behind, before⟩ := Split.atLastMark_iff.1
    ⟨whole, plain, name.closed.imp_left (congrArg String.toList)⟩
  exact ⟨before, Split.atFirstMark_iff.1
    ⟨behind, name.stem_point, name.opened.imp_left (congrArg String.toList)⟩⟩

/-- A name is that of its text. -/
theorem ofText_text (name : ScriptName) : ofText name.text = name := by
  obtain ⟨before, stem, behind⟩ := name.parts_eq
  exact ScriptName.ext ((congrArg String.ofList before.symm).trans String.ofList_toList)
    ((congrArg String.ofList stem.symm).trans String.ofList_toList)
    ((congrArg String.ofList behind.symm).trans String.ofList_toList)

/-- Every text is a name in one way only. -/
theorem existsUnique_text_eq (script : String) : ∃! name : ScriptName, name.text = script :=
  ⟨ofText script, text_ofText script, fun name same => same ▸ (ofText_text name).symm⟩

/-- The name that is the stem alone. -/
def bare (name : ScriptName) : ScriptName :=
  { name with
    directories := ""
    extensions := ""
    closed := Or.inl rfl
    opened := Or.inl rfl
    extensions_slash := List.not_mem_nil }

/-- Its text is the stem. -/
theorem text_bare (name : ScriptName) : name.bare.text = name.stem := by
  rw [text, bare, String.empty_append, String.append_empty]

end ScriptName

namespace Workload

/-- A list of characters is found in another exactly when it stands somewhere in it. -/
theorem occursIn_iff {pattern cs : List Char} : occursIn pattern cs = true ↔ pattern <:+: cs := by
  induction cs with
  | nil => simp [occursIn]
  | cons c cs ih =>
    rw [occursIn, Bool.or_eq_true, List.isPrefixOf_iff_prefix, ih, List.infix_cons_iff]

/-- Names with the same stem have the same class. -/
theorem classify_congr (name other : ScriptName) (same : other.stem = name.stem) :
    classify (some other.text) = classify (some name.text) := by
  simp only [classify, ← ScriptName.parts_eq, same]

/-- Each class with a script goes by the stem, and there are no others. -/
theorem classify_iff (name : ScriptName) :
    (classify (some name.text) = secpLoop ↔ "Secp256k1".toList <:+: name.stem.toList) ∧
    (classify (some name.text) = countdownLoop ↔ name.stem = "Loop") ∧
    (classify (some name.text) = otherScript ↔
      ¬ "Secp256k1".toList <:+: name.stem.toList ∧ name.stem ≠ "Loop") ∧
    classify (some name.text) ≠ valueOnly := by
  rw [classify, ← name.parts_eq.2.1]
  by_cases secp : "Secp256k1".toList <:+: name.stem.toList
  · have apart : ¬ "Secp256k1".toList <:+: "Loop".toList := by decide
    rw [if_pos (occursIn_iff.2 secp)]
    exact ⟨iff_of_true rfl secp, iff_of_false nofun fun loop => apart (loop ▸ secp),
      iff_of_false nofun fun other => other.1 secp, nofun⟩
  · rw [if_neg (occursIn_iff.not.2 secp)]
    by_cases loop : name.stem = "Loop"
    · rw [if_pos (congrArg String.toList loop)]
      exact ⟨iff_of_false nofun secp, iff_of_true rfl loop,
        iff_of_false nofun fun other => other.2 loop, nofun⟩
    · rw [if_neg (String.toList_inj.not.2 loop)]
      exact ⟨iff_of_false nofun secp, iff_of_false nofun loop, iff_of_true rfl ⟨secp, loop⟩, nofun⟩

/-- Only without a script does nothing but value move. -/
theorem classify_eq_valueOnly_iff {script : Option String} :
    classify script = valueOnly ↔ script = none := by
  cases script with
  | none => exact iff_of_true rfl rfl
  | some script =>
    refine iff_of_false ?_ (Option.some_ne_none script)
    rw [← ScriptName.text_ofText script]
    exact (classify_iff _).2.2.2

/-- No script is given exactly when only value moves. Every script has a name of directories,
stem and extensions in one way only, and its class is that of the stem: of a SECP check if
the stem has that word in it, of the loop that counts down if it is the word `Loop`, and else
another one. So names with the same stem have the same class. -/
theorem classify_by_stem :
    (∀ script, classify script = valueOnly ↔ script = none) ∧
    (∀ script : String, ∃! name : ScriptName, name.text = script) ∧
    ∀ name : ScriptName,
      classify (some name.text) = classify (some name.stem) ∧
      (classify (some name.text) = secpLoop ↔ "Secp256k1".toList <:+: name.stem.toList) ∧
      (classify (some name.text) = countdownLoop ↔ name.stem = "Loop") ∧
      (classify (some name.text) = otherScript ↔
        ¬ "Secp256k1".toList <:+: name.stem.toList ∧ name.stem ≠ "Loop") ∧
      ∀ other : ScriptName, other.stem = name.stem →
        classify (some other.text) = classify (some name.text) := by
  refine ⟨fun script => classify_eq_valueOnly_iff, ScriptName.existsUnique_text_eq,
    fun name => ?_⟩
  obtain ⟨secp, loop, other, _⟩ := classify_iff name
  refine ⟨?_, secp, loop, other, classify_congr name⟩
  rw [← name.text_bare]
  exact (classify_congr name name.bare rfl).symm

example : classify (some "v1.2/Secp256k1/Loop.plutus.Secp256k1") = countdownLoop := by decide

end Workload

end RunReport
