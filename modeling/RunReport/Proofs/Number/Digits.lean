import Mathlib.Data.List.TakeWhile
import Mathlib.Tactic.Ring
import RunReport.Number.Shortest

/-!
# Numerals and what they denote

A numeral is made of digits alone, without a zero in front unless it is zero,
and it denotes the number that it was written for. Zeros taken off its end
leave a factor of ten each.
-/

namespace RunReport.Digits

/-- The characters of the ten digits. -/
def IsDigit (c : Char) : Prop := '0' ≤ c ∧ c ≤ '9'

instance : DecidablePred IsDigit := fun _ => inferInstanceAs (Decidable (_ ∧ _))

/-- The character of a digit below ten is a digit. -/
theorem isDigit_digitChar {d : Nat} (h : d < 10) : IsDigit (digitChar d) := by
  revert d
  decide

/-- A numeral holds digits only. -/
theorem isDigit_of_mem_numeral {n : Nat} {c : Char} (h : c ∈ numeral n) : IsDigit c := by
  induction n using Nat.strongRecOn generalizing c with
  | ind n ih =>
    rw [numeral] at h
    split at h
    · rename_i small
      rw [List.mem_singleton.1 h]
      exact isDigit_digitChar small
    · rename_i large
      rcases List.mem_append.1 h with front | last
      · exact ih (n / 10) (by omega) front
      · rw [List.mem_singleton.1 last]
        exact isDigit_digitChar (Nat.mod_lt n (by decide))

/-- A digit is what the character test accepts. -/
theorem isDigit_iff {c : Char} : c.isDigit = true ↔ IsDigit c := by
  unfold Char.isDigit IsDigit
  rw [Bool.and_eq_true, decide_eq_true_eq, decide_eq_true_eq]
  rfl

/-- Digits read one after the other after a number that is already read. -/
theorem foldl_digits (n : Nat) (cs : List Char) :
    cs.foldl (fun n c => n * 10 + digitValue c) n = n * 10 ^ cs.length + value cs := by
  unfold value
  induction cs generalizing n with
  | nil => simp
  | cons c cs ih =>
    rw [List.foldl_cons, List.foldl_cons, ih, ih (0 * 10 + digitValue c), List.length_cons]
    ring

/-- Digits in front count for as many powers of ten as digits follow. -/
theorem value_append (cs ds : List Char) :
    value (cs ++ ds) = value cs * 10 ^ ds.length + value ds := by
  rw [value, List.foldl_append, foldl_digits]
  rfl

/-- Zeros denote zero. -/
theorem value_zeros (k : Nat) : value (List.replicate k '0') = 0 := by
  induction k with
  | zero => rfl
  | succ k ih => rw [List.replicate_succ', value_append, ih]; rfl

/-- A numeral denotes its number. -/
@[simp]
theorem value_numeral (n : Nat) : value (numeral n) = n := by
  induction n using Nat.strongRecOn with
  | ind n ih =>
    have single : ∀ d < 10, value [digitChar d] = d := by decide
    rw [numeral]
    split
    · rename_i small
      exact single n small
    · rename_i large
      rw [value_append, ih (n / 10) (by omega), single _ (Nat.mod_lt n (by decide)),
        List.length_singleton, Nat.pow_one]
      exact Nat.div_add_mod' n 10

/-- The first digit of a numeral is a zero only for zero itself. -/
theorem exists_numeral_eq_cons (n : Nat) :
    ∃ c rest, numeral n = c :: rest ∧ (0 < n → c ≠ '0') ∧ (n = 0 → rest = []) := by
  induction n using Nat.strongRecOn with
  | ind n ih =>
    have notZero : ∀ d < 10, 0 < d → digitChar d ≠ '0' := by decide
    rw [numeral]
    split
    · rename_i small
      exact ⟨_, [], rfl, notZero n small, fun _ => rfl⟩
    · rename_i large
      obtain ⟨c, rest, front, first, _⟩ := ih (n / 10) (by omega)
      rw [front]
      exact ⟨c, rest ++ [digitChar (n % 10)], rfl, fun _ => first (by omega), fun zero => by omega⟩

/-- A number below a power of ten has at most as many digits. -/
theorem length_numeral_le {width n : Nat} (positive : 0 < width) (fits : n < 10 ^ width) :
    (numeral n).length ≤ width := by
  induction width generalizing n with
  | zero => exact absurd positive (Nat.lt_irrefl 0)
  | succ width ih =>
    rw [numeral]
    split
    · rw [List.length_singleton]
      exact positive
    · rename_i large
      have more : 0 < width := by
        by_contra none
        obtain rfl : width = 0 := by omega
        omega
      have front := ih more (Nat.div_lt_of_lt_mul (by rwa [← Nat.pow_succ']))
      rw [List.length_append, List.length_singleton]
      omega

/-- With zeros in front it has exactly as many. -/
theorem length_padded {width n : Nat} (positive : 0 < width) (fits : n < 10 ^ width) :
    (padded width (numeral n)).length = width := by
  rw [padded, List.length_append, List.length_replicate]
  exact Nat.sub_add_cancel (length_numeral_le positive fits)

/-- Zeros in front of a numeral make no difference to what it denotes. -/
theorem value_padded (width n : Nat) : value (padded width (numeral n)) = n := by
  rw [padded, value_append, value_zeros, value_numeral, Nat.zero_mul, Nat.zero_add]

/-- A numeral with zeros in front holds digits only. -/
theorem isDigit_of_mem_padded {width n : Nat} {c : Char} (h : c ∈ padded width (numeral n)) :
    c.isDigit = true := by
  rcases List.mem_append.1 h with zero | digit
  · rw [List.eq_of_mem_replicate zero]
    rfl
  · exact isDigit_iff.2 (isDigit_of_mem_numeral digit)

/-- A numeral with zeros in front begins with a digit. -/
theorem exists_padded_eq_cons (width n : Nat) : ∃ c rest,
    padded width (numeral n) = c :: rest ∧ c.isDigit = true := by
  have some : padded width (numeral n) ≠ [] := by
    obtain ⟨c, rest, split, _, _⟩ := exists_numeral_eq_cons n
    rw [padded, split]
    exact List.append_ne_nil_of_right_ne_nil _ (List.cons_ne_nil c rest)
  obtain ⟨c, rest, split⟩ := List.exists_cons_of_ne_nil some
  exact ⟨c, rest, split, isDigit_of_mem_padded (split ▸ List.mem_cons_self)⟩

end RunReport.Digits

namespace RunReport.NumeralStyle

/-- The zeros that are taken off the end of digits are all that is missing. -/
theorem exists_append_zeros (digits : List Char) :
    ∃ k, digits = stripZeros digits ++ List.replicate k '0' := by
  have split := List.takeWhile_append_dropWhile (p := (· == '0')) (l := digits.reverse)
  have zeros : digits.reverse.takeWhile (· == '0') =
      List.replicate (digits.reverse.takeWhile (· == '0')).length '0' := by
    refine List.eq_replicate_iff.2 ⟨rfl, fun c hc => ?_⟩
    simpa using List.mem_takeWhile_imp hc
  refine ⟨(digits.reverse.takeWhile (· == '0')).length, ?_⟩
  have turned := congrArg List.reverse split
  rw [List.reverse_append, List.reverse_reverse, zeros, List.reverse_replicate] at turned
  exact turned.symm

end RunReport.NumeralStyle
