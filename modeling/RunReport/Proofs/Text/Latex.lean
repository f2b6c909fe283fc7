import Mathlib.Data.List.Chain
import RunReport.Table.Writing

/-!
# Reading LaTeX text back

No code word begins with another one, so the character that a text begins with
can be told from the text alone. A text that LaTeX prints is therefore read back
character by character, whatever stands after it, as long as that does not begin
with a code word itself.
-/

namespace RunReport.Latex

/-- The characters that LaTeX would act on. -/
def specials : List Char := ['\\', '~', '^', '&', '%', '$', '#', '_', '\x7b', '\x7d']

/-- What holds for each of the special characters, one by one. -/
theorem forall_mem_specials {p : Char → Prop} :
    (∀ c ∈ specials, p c) ↔ p '\\' ∧ p '~' ∧ p '^' ∧ p '&' ∧ p '%' ∧ p '$' ∧ p '#' ∧ p '_' ∧
      p '\x7b' ∧ p '\x7d' := by
  simp only [specials, List.forall_mem_cons, List.not_mem_nil, false_imp_iff, implies_true,
    and_true]

/-- Every other character is its own code word. -/
theorem codeWord_of_notMem {c : Char} (plain : c ∉ specials) : codeWord c = [c] := by
  simp only [specials, List.mem_cons, List.not_mem_nil, not_or] at plain
  simp [codeWord, plain]

/-- The code word of a special character begins with a backslash. -/
theorem exists_codeWord_eq_cons {c : Char} (special : c ∈ specials) :
    ∃ word, codeWord c = '\\' :: word := by
  have each : ∀ d ∈ specials, (codeWord d).head? = some '\\' :=
    forall_mem_specials.2 (by decide)
  exact List.head?_eq_some_iff.1 (each c special)

/-- The character whose code word a text begins with, and what stands after it. -/
def readWord (cs : List Char) : Option (Char × List Char) :=
  match specials.find? fun c => (codeWord c).isPrefixOf cs with
  | some c => some (c, cs.drop (codeWord c).length)
  | none => match cs with
    | [] => none
    | c :: rest => if c ∈ specials then none else some (c, rest)

/-- A code word is read whatever stands after it. -/
theorem readWord_codeWord_append (c : Char) (rest : List Char) :
    readWord (codeWord c ++ rest) = some (c, rest) := by
  by_cases special : c ∈ specials
  · have each : ∀ d ∈ specials, readWord (codeWord d ++ rest) = some (d, rest) :=
      forall_mem_specials.2 ⟨rfl, rfl, rfl, rfl, rfl, rfl, rfl, rfl, rfl, rfl⟩
    exact each c special
  · have differs : c ≠ '\\' := fun same => special (same ▸ by decide)
    have begins : (specials.find? fun d => (codeWord d).isPrefixOf (c :: rest)) = none := by
      refine List.find?_eq_none.2 fun d hd => ?_
      obtain ⟨word, hword⟩ := exists_codeWord_eq_cons hd
      simp [hword, Ne.symm differs]
    rw [codeWord_of_notMem special, List.singleton_append, readWord, begins]
    exact if_neg special

/-- What is left after a code word is shorter. -/
theorem length_lt_of_readWord {cs rest : List Char} {c : Char}
    (h : readWord cs = some (c, rest)) : rest.length < cs.length := by
  unfold readWord at h
  split at h
  · rename_i d found
    obtain ⟨rfl, rfl⟩ := Prod.mk.inj (Option.some.inj h)
    have begins : codeWord d <+: cs := List.isPrefixOf_iff_prefix.1
      (List.find?_some (p := fun c => (codeWord c).isPrefixOf cs) found)
    obtain ⟨word, hword⟩ := exists_codeWord_eq_cons (List.mem_of_find?_eq_some found)
    have nonempty : 0 < (codeWord d).length := by simp [hword]
    have bound := begins.length_le
    rw [List.length_drop]
    omega
  · split at h
    · cases h
    · split at h
      · cases h
      · obtain ⟨rfl, rfl⟩ := Prod.mk.inj (Option.some.inj h)
        exact Nat.lt_succ_self _

/-- The text whose characters have the code words of a text, up to the first
place where no code word begins. -/
def unescapeChars (cs : List Char) : List Char :=
  match found : readWord cs with
  | some (c, rest) =>
    have _shorter : rest.length < cs.length := length_lt_of_readWord found
    c :: unescapeChars rest
  | none => []
termination_by cs.length

/-- The code words of two texts, one after the other. -/
theorem escapeChars_append (cs ds : List Char) :
    escapeChars (cs ++ ds) = escapeChars cs ++ escapeChars ds := List.flatMap_append

/-- A text begins with the code word of its first character. -/
theorem escapeChars_cons (c : Char) (cs : List Char) :
    escapeChars (c :: cs) = codeWord c ++ escapeChars cs := List.flatMap_cons

/-- What LaTeX prints is read back. -/
theorem unescapeChars_escapeChars (cs : List Char) : unescapeChars (escapeChars cs) = cs := by
  induction cs with
  | nil =>
    rw [unescapeChars]
    rfl
  | cons c cs ih =>
    have first := readWord_codeWord_append c (escapeChars cs)
    rw [escapeChars_cons, unescapeChars]
    split
    · rename_i d rest found
      obtain ⟨rfl, rfl⟩ := Prod.mk.inj (Option.some.inj (first.symm.trans found))
      rw [ih]
    · rename_i none
      exact absurd (first.symm.trans none) (by simp)

/-- Where no code word begins after them, two texts that LaTeX prints end at
the same place and are the same. -/
theorem escapeChars_append_inj {cs ds x y : List Char} (hx : readWord x = none)
    (hy : readWord y = none) (h : escapeChars cs ++ x = escapeChars ds ++ y) :
    cs = ds ∧ x = y := by
  induction cs generalizing ds with
  | nil =>
    cases ds with
    | nil => exact ⟨rfl, h⟩
    | cons d ds =>
      rw [escapeChars_cons, List.append_assoc] at h
      have begins := readWord_codeWord_append d (escapeChars ds ++ y)
      rw [← h, escapeChars, List.flatMap_nil, List.nil_append, hx] at begins
      cases begins
  | cons c cs ih =>
    rw [escapeChars_cons, List.append_assoc] at h
    have first := readWord_codeWord_append c (escapeChars cs ++ x)
    cases ds with
    | nil =>
      rw [h, escapeChars, List.flatMap_nil, List.nil_append, hy] at first
      cases first
    | cons d ds =>
      rw [escapeChars_cons, List.append_assoc] at h
      have second := readWord_codeWord_append d (escapeChars ds ++ y)
      rw [← h, first] at second
      obtain ⟨rfl, rest⟩ := Prod.mk.inj (Option.some.inj second)
      obtain ⟨rfl, after⟩ := ih rest
      exact ⟨rfl, after⟩

/-- A code word has a first character, which is no ampersand, and its last one
is no backslash. -/
theorem codeWord_ends (c : Char) :
    codeWord c ≠ [] ∧ (codeWord c).head? ≠ some '&' ∧ (codeWord c).getLast? ≠ some '\\' := by
  by_cases special : c ∈ specials
  · have each : ∀ d ∈ specials, codeWord d ≠ [] ∧ (codeWord d).head? ≠ some '&' ∧
        (codeWord d).getLast? ≠ some '\\' := forall_mem_specials.2 (by decide)
    exact each c special
  · have plain : c ≠ '&' ∧ c ≠ '\\' := by
      constructor <;> exact fun same => special (same ▸ by decide)
    simpa [codeWord_of_notMem special] using plain

/-- Pairs of characters that LaTeX never prints one after the other within a
text: those that begin a rule, the end of a row and the end of a cell. -/
def forbidden : List (Char × Char) := [('\\', 'h'), ('\\', '\\'), (' ', '&')]

/-- No forbidden pair of characters is within a text that LaTeX prints. -/
theorem isChain_escapeChars {a b : Char} (pair : (a, b) ∈ forbidden) (cs : List Char) :
    (escapeChars cs).IsChain fun c d => c = a → d ≠ b := by
  have within : ∀ c, (codeWord c).IsChain fun c d => c = a → d ≠ b := by
    intro c
    by_cases special : c ∈ specials
    · have each : ∀ d ∈ specials, ∀ pair ∈ forbidden,
          (codeWord d).IsChain fun c d => c = pair.1 → d ≠ pair.2 :=
        forall_mem_specials.2 (by decide)
      exact each c special _ pair
    · rw [codeWord_of_notMem special]
      exact List.isChain_singleton c
  have between : ∀ c d, ∀ last ∈ (codeWord c).getLast?, ∀ first ∈ (codeWord d).head?,
      last = a → first ≠ b := by
    rintro c d last hlast first hfirst rfl rfl
    simp only [forbidden, List.mem_cons, Prod.mk.injEq, List.not_mem_nil, or_false] at pair
    rcases pair with ⟨rfl, _⟩ | ⟨rfl, _⟩ | ⟨_, rfl⟩
    · exact (codeWord_ends c).2.2 hlast
    · exact (codeWord_ends c).2.2 hlast
    · exact (codeWord_ends d).2.1 hfirst
  induction cs with
  | nil => exact List.isChain_nil
  | cons c cs ih =>
    rw [escapeChars_cons]
    refine List.isChain_append.2 ⟨within c, ih, fun last hlast first hfirst => ?_⟩
    cases cs with
    | nil => cases hfirst
    | cons d cs =>
      refine between c d last hlast first ?_
      rwa [escapeChars_cons, List.head?_append_of_ne_nil _ (codeWord_ends d).1] at hfirst

/-- No text that LaTeX prints ends in a backslash. -/
theorem getLast?_escapeChars (cs : List Char) : (escapeChars cs).getLast? ≠ some '\\' := by
  induction cs with
  | nil => simp [escapeChars]
  | cons c cs ih =>
    rw [escapeChars_cons, List.getLast?_append]
    cases last : (escapeChars cs).getLast? with
    | none => exact (codeWord_ends c).2.2
    | some d => exact fun same => ih (last.trans same)

end RunReport.Latex
