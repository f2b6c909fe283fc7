/-!
# Texts taken apart

A list of characters is cut at every occurrence of a separator, or at the
first one only, and freed of the blanks at its ends.
-/

namespace RunReport.Split

/-- The parts of a list between the occurrences of a separator; there is
always one part more than there are separators. -/
def parts (separator : Char) : List Char → List (List Char)
  | [] => [[]]
  | c :: rest =>
    if c = separator then [] :: parts separator rest
    else match parts separator rest with
      | part :: others => (c :: part) :: others
      | [] => [[c]]

/-- What stands before the first occurrence of a separator, and what after it. -/
def atFirst (separator : Char) : List Char → Option (List Char × List Char)
  | [] => none
  | c :: rest =>
    if c = separator then some ([], rest)
    else (atFirst separator rest).map fun (before, after) => (c :: before, after)

/-- A list is cut exactly where the separator stands for the first time. -/
theorem atFirst_eq_some_iff {separator : Char} {cs before after : List Char} :
    atFirst separator cs = some (before, after) ↔
      cs = before ++ separator :: after ∧ separator ∉ before := by
  induction cs generalizing before with
  | nil => simp [atFirst]
  | cons c rest ih =>
    rw [atFirst]
    by_cases here : c = separator
    · subst here
      rw [if_pos rfl, Option.some.injEq, Prod.mk.injEq]
      cases before with
      | nil => simp [eq_comm]
      | cons d before =>
        refine iff_of_false (fun same => by cases same.1) fun ⟨whole, later⟩ => later ?_
        exact List.mem_cons.2 (Or.inl (List.cons.inj whole).1)
    · rw [if_neg here, Option.map_eq_some_iff]
      constructor
      · rintro ⟨⟨x, y⟩, found, same⟩
        obtain ⟨rfl, rfl⟩ := Prod.mk.inj same
        obtain ⟨rfl, later⟩ := ih.1 found
        exact ⟨rfl, List.not_mem_cons_of_ne_of_not_mem (Ne.symm here) later⟩
      · rintro ⟨whole, later⟩
        cases before with
        | nil => exact absurd (List.cons.inj whole).1 here
        | cons d before =>
          obtain ⟨rfl, split⟩ := List.cons.inj whole
          exact ⟨(before, after), ih.2 ⟨split, List.not_mem_of_not_mem_cons later⟩, rfl⟩

/-- A list is not cut exactly when the separator is not in it. -/
theorem atFirst_eq_none_iff {separator : Char} {cs : List Char} :
    atFirst separator cs = none ↔ separator ∉ cs := by
  induction cs with
  | nil => simp [atFirst]
  | cons c rest ih =>
    rw [atFirst, List.mem_cons, not_or]
    split
    · rename_i here
      simp [here]
    · rename_i apart
      rw [Option.map_eq_none_iff, ih]
      exact ⟨fun later => ⟨Ne.symm apart, later⟩, And.right⟩

/-- A text cut at its first separator. -/
def textAtFirst (separator : Char) (s : String) : Option (String × String) :=
  (atFirst separator s.toList).map fun (before, after) =>
    (String.ofList before, String.ofList after)

/-- A text is cut exactly where the separator stands for the first time. -/
theorem textAtFirst_eq_some_iff {separator : Char} {s before after : String} :
    textAtFirst separator s = some (before, after) ↔
      s = before ++ String.singleton separator ++ after ∧ separator ∉ before.toList := by
  unfold textAtFirst
  rw [Option.map_eq_some_iff]
  constructor
  · rintro ⟨⟨x, y⟩, found, same⟩
    obtain ⟨rfl, rfl⟩ := Prod.mk.inj same
    obtain ⟨whole, later⟩ := atFirst_eq_some_iff.1 found
    refine ⟨String.toList_inj.1 ?_, by rwa [String.toList_ofList]⟩
    simp [whole]
  · rintro ⟨rfl, later⟩
    refine ⟨(before.toList, after.toList), atFirst_eq_some_iff.2 ⟨?_, later⟩, ?_⟩
    · simp
    · exact Prod.ext String.ofList_toList String.ofList_toList

/-- A text is not cut exactly when the separator is not in it. -/
theorem textAtFirst_eq_none_iff {separator : Char} {s : String} :
    textAtFirst separator s = none ↔ separator ∉ s.toList := by
  rw [textAtFirst, Option.map_eq_none_iff, atFirst_eq_none_iff]

/-- The parts of a text between its separators. -/
def textParts (separator : Char) (s : String) : List String :=
  (parts separator s.toList).map String.ofList

end RunReport.Split

namespace RunReport.Text

/-- Whether a character has the property `White_Space`. -/
def isBlank (c : Char) : Bool :=
  let n := c.toNat
  (9 ≤ n && n ≤ 13) || n == 0x20 || n == 0x85 || n == 0xA0 || n == 0x1680 ||
    (0x2000 ≤ n && n ≤ 0x200A) || n == 0x2028 || n == 0x2029 || n == 0x202F ||
    n == 0x205F || n == 0x3000

/-- The characters after the leading blanks. -/
def trimStart (cs : List Char) : List Char := cs.dropWhile isBlank

/-- The characters before the trailing blanks. -/
def trimEnd (cs : List Char) : List Char := (cs.reverse.dropWhile isBlank).reverse

/-- The characters between the leading and the trailing blanks. -/
def trim (cs : List Char) : List Char := trimEnd (trimStart cs)

end RunReport.Text
