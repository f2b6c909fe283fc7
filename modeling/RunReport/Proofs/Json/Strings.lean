import RunReport.Json.Parser
import RunReport.Json.Printer

/-!
# Texts in JSON text

A text in quotes is read back as it was. Every character stands for itself or
is written as an escape that is read as the character, so the reader takes one
written character at a time and finds the closing quote where it was written.
-/

namespace RunReport.Json

/-- A traversal that takes back what was done to each item succeeds with the items. -/
theorem mapM_map_some {α β : Type} {f : α → β} {g : β → Option α} (inverse : ∀ a, g (f a) = some a)
    (xs : List α) : (xs.map f).mapM g = some xs := by
  induction xs with
  | nil => rfl
  | cons x xs ih =>
    rw [List.map_cons, List.mapM_cons, inverse, ih]
    rfl

/-- A hexadecimal digit is read as its value. -/
theorem hexValue_hexDigit {d : Nat} (h : d < 16) : hexValue (hexDigit d) = some d := by
  revert d
  decide

/-- The escape of a control character by its number is read as the character. -/
theorem readUnicode_control {c : Char} (control : c.toNat < 32) (rest : List Char) :
    readUnicode ('0' :: '0' :: hexDigit (c.toNat / 16) :: hexDigit (c.toNat % 16) :: rest) =
      some (some c, rest) := by
  have zero : hexValue '0' = some 0 := rfl
  have high := hexValue_hexDigit (show c.toNat / 16 < 16 by omega)
  have low := hexValue_hexDigit (show c.toNat % 16 < 16 by omega)
  have digits : ((0 * 16 + 0) * 16 + c.toNat / 16) * 16 + c.toNat % 16 = c.toNat := by omega
  unfold readUnicode readHex
  simp only [zero, high, low, Option.bind_eq_bind, Option.bind_some, digits]
  rw [if_neg (by omega), if_neg (by omega), Char.ofNat_toNat]

/-- A character between quotes stands for itself, or its escape is read as the character. -/
theorem escapeChar_cases (c : Char) :
    escapeChar c = [c] ∧ c ≠ '"' ∧ c ≠ '\\' ∧ ¬ c.toNat < 32 ∨
      ∃ mark, escapeChar c = '\\' :: mark ∧
        ∀ rest, readEscape (mark ++ rest) = some (some c, rest) := by
  by_cases quote : c = '"'
  · subst quote
    exact Or.inr ⟨['"'], rfl, fun _ => rfl⟩
  by_cases slash : c = '\\'
  · subst slash
    exact Or.inr ⟨['\\'], rfl, fun _ => rfl⟩
  by_cases backspace : c = '\x08'
  · subst backspace
    exact Or.inr ⟨['b'], rfl, fun _ => rfl⟩
  by_cases feed : c = '\x0c'
  · subst feed
    exact Or.inr ⟨['f'], rfl, fun _ => rfl⟩
  by_cases line : c = '\n'
  · subst line
    exact Or.inr ⟨['n'], rfl, fun _ => rfl⟩
  by_cases carriage : c = '\r'
  · subst carriage
    exact Or.inr ⟨['r'], rfl, fun _ => rfl⟩
  by_cases tab : c = '\t'
  · subst tab
    exact Or.inr ⟨['t'], rfl, fun _ => rfl⟩
  simp only [escapeChar, quote, slash, backspace, feed, line, carriage, tab, if_false]
  by_cases control : c.toNat < 32
  · rw [if_pos control]
    exact Or.inr ⟨_, rfl, readUnicode_control control⟩
  · rw [if_neg control]
    exact Or.inl ⟨rfl, quote, slash, control⟩

/-- One written character is read before the rest of a text in quotes. -/
theorem readStringBody_escapeChar (fuel : Nat) (c : Char) (rest : List Char) :
    readStringBody (fuel + 1) (escapeChar c ++ rest) =
      (readStringBody fuel rest).map fun (body, rest) => (some c :: body, rest) := by
  rcases escapeChar_cases c with ⟨plain, quote, slash, control⟩ | ⟨mark, escaped, read⟩
  · rw [plain, List.singleton_append, readStringBody, if_neg quote, if_neg slash, if_neg control]
    cases readStringBody fuel rest <;> rfl
  · rw [escaped, List.cons_append, readStringBody, if_neg (by decide), if_pos rfl, read]
    simp only [Option.bind_eq_bind, Option.bind_some]
    cases readStringBody fuel rest <;> rfl

/-- A written text is read up to its closing quote. -/
theorem readStringBody_escaped (cs : List Char) {fuel : Nat} (enough : cs.length < fuel)
    (rest : List Char) :
    readStringBody fuel (cs.flatMap escapeChar ++ '"' :: rest) = some (cs.map some, rest) := by
  induction cs generalizing fuel with
  | nil =>
    obtain ⟨fuel, rfl⟩ := Nat.exists_eq_add_one.2 enough
    rfl
  | cons c cs ih =>
    obtain ⟨fuel, rfl⟩ := Nat.exists_eq_add_one.2 (Nat.zero_lt_of_lt enough)
    rw [List.flatMap_cons, List.append_assoc, readStringBody_escapeChar,
      ih (by simpa using enough)]
    rfl

/-- No character gets lost when it is escaped. -/
theorem length_le_escaped (cs : List Char) : cs.length ≤ (cs.flatMap escapeChar).length := by
  have one : ∀ c, 1 ≤ (escapeChar c).length := by
    intro c
    rcases escapeChar_cases c with ⟨plain, _⟩ | ⟨mark, escaped, _⟩
    · exact Nat.le_of_eq (congrArg List.length plain).symm
    · rw [escaped, List.length_cons]
      omega
  induction cs with
  | nil => exact Nat.zero_le _
  | cons c cs ih =>
    have := one c
    rw [List.flatMap_cons, List.length_append, List.length_cons]
    omega

/-- A written text is read back as it was. -/
theorem readString_writeString (s : String) (rest : List Char) :
    readString (s.toList.flatMap escapeChar ++ '"' :: rest) = some (some s, rest) := by
  have enough : s.toList.length < (s.toList.flatMap escapeChar ++ '"' :: rest).length + 1 := by
    have := length_le_escaped s.toList
    rw [List.length_append]
    omega
  have whole := @mapM_map_some Char (Option Char) some id (fun _ => rfl) s.toList
  rw [readString, readStringBody_escaped _ enough, Option.map_some]
  simp only [whole, Option.map_some, String.ofList_toList]

end RunReport.Json
