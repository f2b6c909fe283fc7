import Mathlib.Data.List.Basic
import RunReport.Proofs.Text.Latex

/-!
# What a printed text can do in LaTeX

Every character of a text that LaTeX prints belongs to the code word of one character
of the text, which can be told from where it stands. In the code words the special
characters stand in three ways only: behind a backslash, as the backslash that a code
word begins with, or as the pair of braces that ends one of three macros. So nothing in
a printed text is acted on but the code words, and the text is read back from it.
-/

namespace RunReport.Latex

/-- The characters besides the braces that stand behind a backslash. -/
def signs : List Char := ['&', '%', '$', '#', '_']

/-- The characters that are printed by macros, and the macros without their braces. -/
def macros : List (Char × List Char) :=
  [('\\', "\\textbackslash".toList), ('~', "\\textasciitilde".toList),
    ('^', "\\textasciicircum".toList)]

/-- The special characters are those of the macros and those behind a backslash. -/
theorem specials_eq :
    specials = macros.map (·.1) ++ (signs ++ ['\x7b', '\x7d']) := rfl

/-- A code word is a character behind a backslash, a macro with a pair of braces, or a
character that is not special and stands for itself. -/
theorem codeWord_cases (d : Char) :
    codeWord d = ['\\', d] ∨
      (∃ word, (d, word) ∈ macros ∧ codeWord d = word ++ ['\x7b', '\x7d']) ∨
      d ∉ specials ∧ codeWord d = [d] := by
  by_cases special : d ∈ specials
  · rw [specials_eq, List.mem_append] at special
    rcases special with printed | behind
    · have each : ∀ entry ∈ macros, codeWord entry.1 = entry.2 ++ ['\x7b', '\x7d'] := by decide
      obtain ⟨⟨d, word⟩, listed, rfl⟩ := List.mem_map.1 printed
      exact Or.inr (Or.inl ⟨word, listed, each _ listed⟩)
    · have each : ∀ c ∈ signs ++ ['\x7b', '\x7d'], codeWord c = ['\\', c] :=
        List.map_inj_left.1 rfl
      exact Or.inl (each d behind)
  · exact Or.inr (Or.inr ⟨special, codeWord_of_notMem special⟩)

/-- A macro has no special character but its backslash. -/
theorem notMem_of_mem_macros {c d : Char} {word : List Char} (listed : (d, word) ∈ macros)
    (special : c ∈ specials) (other : c ≠ '\\') : c ∉ word := by
  have each : ∀ entry ∈ macros, specials.tail.all (· ∉ entry.2) = true := by decide
  have later : c ∈ specials.tail := (List.mem_cons.1 special).resolve_left other
  simpa using List.all_eq_true.1 (each _ listed) c later

variable {c d : Char} {front back : List Char}

/-- A single character has nothing around it. -/
theorem eq_of_single (split : [d] = front ++ c :: back) : d = c ∧ front = [] ∧ back = [] := by
  cases front with
  | nil =>
    obtain ⟨rfl, rfl⟩ := List.cons.inj split
    exact ⟨rfl, rfl, rfl⟩
  | cons head front => simp at split

/-- A special character that is no backslash is in the code word of itself behind a
backslash, or in that of a macro. -/
theorem codeWord_eq_append_cons (special : c ∈ specials) (other : c ≠ '\\')
    (split : codeWord d = front ++ c :: back) :
    d = c ∧ front = ['\\'] ∧ back = [] ∨
      ∃ word, (d, word) ∈ macros ∧ word ++ ['\x7b', '\x7d'] = front ++ c :: back := by
  rcases codeWord_cases d with behind | ⟨word, listed, printed⟩ | ⟨plain, itself⟩
  · rw [behind] at split
    cases front with
    | nil => exact absurd (List.cons.inj split).1.symm other
    | cons head front =>
      obtain ⟨rfl, later⟩ := List.cons.inj split
      obtain ⟨rfl, rfl, rfl⟩ := eq_of_single later
      exact Or.inl ⟨rfl, rfl, rfl⟩
  · exact Or.inr ⟨word, listed, printed.symm.trans split⟩
  · obtain ⟨rfl, _, _⟩ := eq_of_single (itself.symm.trans split)
    exact absurd special plain

/-- A sign stands behind the backslash of its own code word. -/
theorem codeWord_eq_sign (sign : c ∈ signs) (split : codeWord d = front ++ c :: back) :
    d = c ∧ front = ['\\'] ∧ back = [] := by
  obtain ⟨special, other, noBrace⟩ : c ∈ specials ∧ c ≠ '\\' ∧ c ∉ ['\x7b', '\x7d'] := by
    simp only [signs, List.mem_cons, List.not_mem_nil, or_false] at sign
    rcases sign with rfl | rfl | rfl | rfl | rfl <;> decide
  rcases codeWord_eq_append_cons special other split with alone | ⟨word, listed, same⟩
  · exact alone
  · have inside : c ∈ word ++ ['\x7b', '\x7d'] := same ▸ by simp
    exact absurd inside (by simp [notMem_of_mem_macros listed special other, noBrace])

/-- A character besides the backslash that a macro prints is in no code word. -/
theorem notMem_codeWord (printed : c = '~' ∨ c = '^') (d : Char) : c ∉ codeWord d := by
  intro inside
  have special : c ∈ specials ∧ c ≠ '\\' ∧ c ∉ ['\x7b', '\x7d'] := by
    rcases printed with rfl | rfl <;> decide
  obtain ⟨front, back, split⟩ := List.append_of_mem inside
  rcases codeWord_eq_append_cons special.1 special.2.1 split with ⟨rfl, rfl, rfl⟩ |
    ⟨word, listed, same⟩
  · rcases printed with rfl | rfl <;> exact absurd split (by decide)
  · have within : c ∈ word ++ ['\x7b', '\x7d'] := same ▸ by simp
    exact absurd within (by simp [notMem_of_mem_macros listed special.1 special.2.1, special.2.2])

/-- An opening brace stands behind its own backslash or between a macro and the closing
brace. -/
theorem codeWord_eq_opening (split : codeWord d = front ++ '\x7b' :: back) :
    d = '\x7b' ∧ front = ['\\'] ∧ back = [] ∨ (d, front) ∈ macros ∧ back = ['\x7d'] := by
  have special : '\x7b' ∈ specials ∧ '\x7b' ≠ '\\' := by decide
  refine (codeWord_eq_append_cons special.1 special.2 split).imp_right ?_
  rintro ⟨word, listed, same⟩
  obtain ⟨rfl, _, rfl⟩ := (List.append_cons_inj_of_notMem
    (notMem_of_mem_macros listed special.1 special.2) (by decide)).1 same
  exact ⟨listed, rfl⟩

/-- A closing brace stands behind its own backslash or behind a macro and the opening
brace. -/
theorem codeWord_eq_closing (split : codeWord d = front ++ '\x7d' :: back) :
    d = '\x7d' ∧ front = ['\\'] ∧ back = [] ∨
      (∃ word, (d, word) ∈ macros ∧ front = word ++ ['\x7b']) ∧ back = [] := by
  have special : '\x7d' ∈ specials ∧ '\x7d' ≠ '\\' := by decide
  refine (codeWord_eq_append_cons special.1 special.2 split).imp_right ?_
  rintro ⟨word, listed, same⟩
  have before : '\x7d' ∉ word ++ ['\x7b'] := by
    simp [notMem_of_mem_macros listed special.1 special.2]
  rw [List.append_cons] at same
  obtain ⟨rfl, _, rfl⟩ := (List.append_cons_inj_of_notMem before List.not_mem_nil).1 same
  exact ⟨⟨word, listed, rfl⟩, rfl⟩

/-- In what LaTeX prints for a text, the character between `x` and `y` belongs to the code
word of the character `d` of the text, which has `front` before it and `back` after it. -/
def StandsIn (cs x : List Char) (c : Char) (y : List Char) (d : Char) (front back : List Char) :
    Prop :=
  ∃ u v, cs = u ++ d :: v ∧ codeWord d = front ++ c :: back ∧
    x = escapeChars u ++ front ∧ y = back ++ escapeChars v

/-- A character of two texts in a row is in the second one or in the first one. -/
theorem append_eq_append_cons {word rest x y : List Char} (whole : word ++ rest = x ++ c :: y) :
    (∃ later, x = word ++ later ∧ rest = later ++ c :: y) ∨
      ∃ back, word = x ++ c :: back ∧ y = back ++ rest := by
  rcases List.append_eq_append_iff.1 whole with ⟨later, here, there⟩ | ⟨inner, here, there⟩
  · exact Or.inl ⟨later, here, there⟩
  · cases inner with
    | nil => exact Or.inl ⟨[], by simp [here], there.symm⟩
    | cons first back =>
      obtain ⟨rfl, rfl⟩ := List.cons.inj there
      exact Or.inr ⟨back, here, rfl⟩

/-- Every character that LaTeX prints belongs to the code word of one character. -/
theorem exists_standsIn {cs x y : List Char} (printed : escapeChars cs = x ++ c :: y) :
    ∃ d front back, StandsIn cs x c y d front back := by
  induction cs generalizing x with
  | nil => simp [escapeChars] at printed
  | cons d rest ih =>
    rw [escapeChars_cons] at printed
    rcases append_eq_append_cons printed with ⟨later, rfl, split⟩ | ⟨back, split, rfl⟩
    · obtain ⟨e, front, back, u, v, rfl, word, rfl, rfl⟩ := ih split
      refine ⟨e, front, back, d :: u, v, rfl, word, ?_, rfl⟩
      rw [escapeChars_cons, List.append_assoc]
    · exact ⟨d, x, back, [], rest, rfl, split, rfl, rfl⟩

/-- The characters of a printed text are the printed characters. -/
theorem toList_escape (t : String) : (escape t).toList = escapeChars t.toList :=
  String.toList_ofList

/-- The text whose code words make up a printed text. -/
def unescape (s : String) : String := String.ofList (unescapeChars s.toList)

/-- Nothing that LaTeX would act on stands free in the printed form of a text. -/
structure Inert (t : String) : Prop where
  /-- A sign stands behind the backslash that its code word begins with. -/
  sign : ∀ c ∈ signs, ∀ x y, (escape t).toList = x ++ c :: y →
    StandsIn t.toList x c y c ['\\'] []
  /-- There is no tilde. -/
  tilde : '~' ∉ (escape t).toList
  /-- There is no circumflex. -/
  circumflex : '^' ∉ (escape t).toList
  /-- An opening brace stands behind its backslash, or between a macro and the closing
  brace of an empty pair. -/
  opening : ∀ x y, (escape t).toList = x ++ '\x7b' :: y →
    StandsIn t.toList x '\x7b' y '\x7b' ['\\'] [] ∨
      ∃ d word, (d, word) ∈ macros ∧ StandsIn t.toList x '\x7b' y d word ['\x7d']
  /-- A closing brace stands behind its backslash, or behind a macro and the opening brace
  of an empty pair. -/
  closing : ∀ x y, (escape t).toList = x ++ '\x7d' :: y →
    StandsIn t.toList x '\x7d' y '\x7d' ['\\'] [] ∨
      ∃ d word, (d, word) ∈ macros ∧ StandsIn t.toList x '\x7d' y d (word ++ ['\x7b']) []
  /-- No backslash follows another one. -/
  backslashes : ¬ ['\\', '\\'] <:+: (escape t).toList

/-- No backslash follows another one in what LaTeX prints. -/
theorem not_infix_backslashes (cs : List Char) : ¬ ['\\', '\\'] <:+: escapeChars cs := by
  rintro ⟨x, y, whole⟩
  have chain := isChain_escapeChars (a := '\\') (b := '\\') (by decide) cs
  rw [← whole] at chain
  have pair := (List.isChain_append.1 (List.isChain_append.1 chain).1).2.1
  exact (List.isChain_cons_cons.1 pair).1 rfl rfl

/-- Nothing stands free in a printed text: each special character is where the code word of
the character it comes from has it. -/
theorem inert (t : String) : Inert t where
  sign c given x y printed := by
    rw [toList_escape] at printed
    obtain ⟨d, front, back, u, v, split, word, before, after⟩ := exists_standsIn printed
    obtain ⟨rfl, rfl, rfl⟩ := codeWord_eq_sign given word
    exact ⟨u, v, split, word, before, after⟩
  tilde := by
    rw [toList_escape, escapeChars, List.mem_flatMap]
    rintro ⟨d, _, inside⟩
    exact notMem_codeWord (Or.inl rfl) d inside
  circumflex := by
    rw [toList_escape, escapeChars, List.mem_flatMap]
    rintro ⟨d, _, inside⟩
    exact notMem_codeWord (Or.inr rfl) d inside
  opening x y printed := by
    rw [toList_escape] at printed
    obtain ⟨d, front, back, u, v, split, word, before, after⟩ := exists_standsIn printed
    rcases codeWord_eq_opening word with ⟨rfl, rfl, rfl⟩ | ⟨listed, rfl⟩
    · exact Or.inl ⟨u, v, split, word, before, after⟩
    · exact Or.inr ⟨d, front, listed, u, v, split, word, before, after⟩
  closing x y printed := by
    rw [toList_escape] at printed
    obtain ⟨d, front, back, u, v, split, word, before, after⟩ := exists_standsIn printed
    rcases codeWord_eq_closing word with ⟨rfl, rfl, rfl⟩ | ⟨⟨name, listed, rfl⟩, rfl⟩
    · exact Or.inl ⟨u, v, split, word, before, after⟩
    · exact Or.inr ⟨d, name, listed, u, v, split, word, before, after⟩
  backslashes := by
    rw [toList_escape]
    exact not_infix_backslashes t.toList

/-- A text is read back from what LaTeX prints for it, texts that are joined are printed one
after the other, and nothing in what is printed stands free. -/
theorem escape_inert (t : String) :
    unescape (escape t) = t ∧ (∀ s, escape (s ++ t) = escape s ++ escape t) ∧ Inert t := by
  refine ⟨?_, fun s => ?_, inert t⟩
  · rw [unescape, toList_escape, unescapeChars_escapeChars, String.ofList_toList]
  · rw [escape, String.toList_append, escapeChars_append, String.ofList_append, ← escape, ← escape]

example : escape "\\\x7b&~" =
    "\\textbackslash\x7b\x7d\\\x7b\\&\\textasciitilde\x7b\x7d" := by decide

end RunReport.Latex
