import Mathlib.Data.List.Forall2
import RunReport.Report.Format

/-!
# Tables whose columns are filled

Two formats fill the cells of a table up to the widths of its columns. Of a table whose
rows have a value under each heading they read every text, so that what can be filled
depends on the texts. Such a table is written if all of them can be filled, and if one
cannot the program ends.
-/

namespace RunReport

namespace OutputFormat

variable {format : OutputFormat} {t : Table} {text : String}

/-- A table is written exactly when it can be filled. -/
theorem write_eq_ok_iff :
    format.write t = .ok text ↔ format.overruns t = false ∧ text = format.table t := by
  unfold write
  cases format.overruns t <;> simp [eq_comm]

/-- A table that cannot be filled ends the program. -/
theorem write_of_overruns (wide : format.overruns t = true) : format.write t = .error .crashed :=
  if_pos wide

end OutputFormat

namespace Table

/-- All texts of a table but its title and key. -/
def texts (t : Table) : List String :=
  t.nameColumn :: t.headers ++ t.rows.flatMap fun row => row.label :: row.values

/-- Each row has a value under each heading. -/
def Complete (t : Table) : Prop := ∀ row ∈ t.rows, row.values.length = t.headers.length

instance : DecidablePred Complete := fun t =>
  inferInstanceAs (Decidable (∀ row ∈ t.rows, row.values.length = t.headers.length))

/-- Each cell fits its column. -/
def Fits (cells : List (List Char)) (widths : List ℕ) : Prop :=
  List.Forall₂ (fun cell w => cell.length ≤ w) cells widths

/-- If a format can fill the columns of a table exactly when its texts are short enough, it
writes the table when they are, and the program ends when one of them is not. -/
theorem write_of_overruns_iff {t : Table} {format : OutputFormat} {size : String → ℕ}
    (fillable : format.overruns t = false ↔ ∀ s ∈ t.texts, size s ≤ fillLimit) :
    ((∀ s ∈ t.texts, size s ≤ fillLimit) → format.write t = .ok (format.table t)) ∧
      ((∃ s ∈ t.texts, fillLimit < size s) → format.write t = .error .crashed) := by
  constructor
  · intro short
    exact OutputFormat.write_eq_ok_iff.2 ⟨fillable.2 short, rfl⟩
  · rintro ⟨s, given, beyond⟩
    have wide : format.overruns t = true := by
      rw [← Bool.not_eq_false, fillable]
      exact fun short => absurd (short s given) (Nat.not_le.2 beyond)
    exact OutputFormat.write_of_overruns wide

/-- A text of the given number of letters. -/
def letters (n : ℕ) : String := String.ofList (List.replicate n 'a')

/-- It has as many characters. -/
theorem length_letters (n : ℕ) : (letters n).length = n := by
  rw [letters, String.length_ofList, List.length_replicate]

/-- A table without rows whose first heading has the given number of characters. -/
def stretched (n : ℕ) : Table := ⟨"Wide", "wide", letters n, ["V (a)"], []⟩

/-- The rows of such a table have a value under each heading, for want of rows. -/
theorem stretched_complete (n : ℕ) : (stretched n).Complete := fun _ none => by cases none

end Table

end RunReport
