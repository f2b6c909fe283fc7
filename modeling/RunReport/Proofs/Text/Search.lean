import Mathlib.Data.List.Chain

/-!
# Marks in a text

A text is taken apart at each occurrence of a mark of two or more characters. A
mark can begin only where its first character is followed by its second one. So
a text in which it never is stands whole before the mark that follows it.
-/

namespace RunReport.Search

/-- What stands before the first occurrence of a mark, and what after it. -/
def cut? (mark : List Char) : List Char → Option (List Char × List Char)
  | [] => none
  | c :: rest =>
    if mark.isPrefixOf (c :: rest) then some ([], rest.drop (mark.length - 1))
    else (cut? mark rest).map fun (before, after) => (c :: before, after)

/-- What stands after a mark is shorter than the text. -/
theorem length_lt_of_cut? {mark cs before after : List Char}
    (found : cut? mark cs = some (before, after)) : after.length < cs.length := by
  induction cs generalizing before with
  | nil => cases found
  | cons c rest ih =>
    rw [cut?] at found
    split at found
    · obtain ⟨_, rfl⟩ := Prod.mk.inj (Option.some.inj found)
      rw [List.length_drop, List.length_cons]
      omega
    · obtain ⟨⟨_, _⟩, later, same⟩ := Option.map_eq_some_iff.1 found
      obtain ⟨_, rfl⟩ := Prod.mk.inj same
      exact Nat.lt_succ_of_lt (ih later)

/-- What stands between the occurrences of a mark, from the left. -/
def chunks (mark cs : List Char) : List (List Char) :=
  match found : cut? mark cs with
  | some (before, after) =>
    have _shorter : after.length < cs.length := length_lt_of_cut? found
    before :: chunks mark after
  | none => [cs]
termination_by cs.length

/-- What stands before the first occurrence of a mark, all of the text if there is none. -/
def upTo (mark cs : List Char) : List Char :=
  match cut? mark cs with
  | some (before, _) => before
  | none => cs

variable {a b : Char} {mark x : List Char}

/-- A mark is found after a text in which it cannot begin. -/
theorem cut?_append (apart : (x ++ [a]).IsChain fun c d => c = a → d ≠ b) (y : List Char) :
    cut? (a :: b :: mark) (x ++ (a :: b :: mark ++ y)) = some (x, y) := by
  induction x with
  | nil => simp [cut?]
  | cons c x ih =>
    have later : (x ++ [a]).IsChain fun c d => c = a → d ≠ b := apart.tail
    obtain ⟨d, first⟩ : ∃ d, (x ++ [a]).head? = some d :=
      Option.isSome_iff_exists.1 (by cases x <;> rfl)
    obtain ⟨rest, whole⟩ : ∃ rest, x ++ (a :: b :: mark ++ y) = d :: rest := by
      cases x <;> simp_all
    have differs : c = a → d ≠ b := (List.isChain_cons.1 apart).1 d first
    have begins : (a :: b :: mark).isPrefixOf (c :: d :: rest) = false := by
      by_cases same : c = a
      · simp [List.isPrefixOf, Ne.symm (differs same)]
      · simp [List.isPrefixOf, Ne.symm same]
    rw [List.cons_append, cut?, whole, begins, ← whole, ih later]
    rfl

/-- A text in which a mark cannot begin is a chunk before the mark. -/
theorem chunks_append (apart : (x ++ [a]).IsChain fun c d => c = a → d ≠ b) (y : List Char) :
    chunks (a :: b :: mark) (x ++ (a :: b :: mark ++ y)) = x :: chunks (a :: b :: mark) y := by
  have first : cut? (a :: b :: mark) (x ++ (a :: b :: mark ++ y)) = some (x, y) :=
    cut?_append apart y
  rw [chunks]
  split
  · rename_i found
    obtain ⟨rfl, rfl⟩ := Prod.mk.inj (Option.some.inj (first.symm.trans found))
    rfl
  · rename_i none
    exact absurd (first.symm.trans none) (by simp)

/-- A mark is not found in a text that lacks one of its characters. -/
theorem cut?_of_notMem {mark cs : List Char} {c : Char} (needed : c ∈ mark) (absent : c ∉ cs) :
    cut? mark cs = none := by
  induction cs with
  | nil => rfl
  | cons d cs ih =>
    have begins : ¬ mark.isPrefixOf (d :: cs) = true := fun found =>
      absent ((List.isPrefixOf_iff_prefix.1 found).subset needed)
    rw [cut?, if_neg begins, ih fun later => absent (List.mem_cons_of_mem d later)]
    rfl

/-- A text without the mark is its only chunk. -/
theorem chunks_of_none {mark cs : List Char} (absent : cut? mark cs = none) :
    chunks mark cs = [cs] := by
  rw [chunks]
  split
  · rename_i found
    exact absurd (absent.symm.trans found) (by simp)
  · rfl

/-- A text in which a mark cannot begin stands before the mark. -/
theorem upTo_append (apart : (x ++ [a]).IsChain fun c d => c = a → d ≠ b) (y : List Char) :
    upTo (a :: b :: mark) (x ++ (a :: b :: mark ++ y)) = x := by
  rw [upTo, cut?_append apart y]

/-- A text in which one character is never followed by another one, nor stands at
the end. -/
structure Clear (a b : Char) (cs : List Char) : Prop where
  /-- Within the text the second character never follows the first one. -/
  chain : cs.IsChain fun c d => c = a → d ≠ b
  /-- The text does not end in the first one. -/
  last : cs.getLast? ≠ some a

/-- A text without the first character is clear. -/
theorem Clear.of_notMem {cs : List Char} (absent : a ∉ cs) : Clear a b cs := by
  refine ⟨?_, fun same => absent (List.mem_of_getLast? same)⟩
  induction cs with
  | nil => exact List.isChain_nil
  | cons c cs ih =>
    obtain ⟨differs, later⟩ := not_or.1 (List.mem_cons.not.1 absent)
    exact List.isChain_cons.2 ⟨fun d _ same => absurd same.symm differs, ih later⟩

/-- Clear texts are clear one after the other. -/
theorem Clear.append {x y : List Char} (hx : Clear a b x) (hy : Clear a b y) :
    Clear a b (x ++ y) := by
  constructor
  · refine List.isChain_append.2 ⟨hx.chain, hy.chain, fun c hc d _ same => ?_⟩
    exact absurd (same ▸ hc) hx.last
  · rw [List.getLast?_append]
    cases last : y.getLast? with
    | none => exact hx.last
    | some c => exact fun same => hy.last (last.trans same)

/-- No mark begins in a clear text, whatever follows. -/
theorem Clear.isChain_append (hx : Clear a b x) (c : Char) :
    (x ++ [c]).IsChain fun c d => c = a → d ≠ b := by
  refine List.isChain_append.2 ⟨hx.chain, List.isChain_singleton _, fun c hc d _ same => ?_⟩
  exact absurd (same ▸ hc) hx.last

end RunReport.Search
