import Mathlib.Data.List.Sort
import Mathlib.Data.List.TakeWhile

/-!
# Stretches of a list

A stretch is a maximal run of a list: a part in which a property holds throughout, and which
can be made longer on neither side. The stretches of a list are found by reading it once: one
starts at each element that has the property behind one that has not.
-/

namespace RunReport

namespace Split

variable {α : Type} {p : α → Bool} {front back as : List α}

/-- A list is cut where a property ends exactly if what stands before has the property and
what comes next has not. -/
theorem eq_takeWhile_iff :
    front ++ back = as ∧ (∀ b ∈ front, p b = true) ∧ back.head?.any p = false ↔
      front = as.takeWhile p ∧ back = as.dropWhile p := by
  constructor
  · rintro ⟨rfl, within, right⟩
    rw [List.takeWhile_append_of_pos within, List.dropWhile_append_of_pos within]
    cases back with
    | nil => simp
    | cons b back =>
      have other : ¬ p b = true := by simpa using right
      simp [List.takeWhile_cons_of_neg other, List.dropWhile_cons_of_neg other]
  · rintro ⟨rfl, rfl⟩
    refine ⟨List.takeWhile_append_dropWhile, fun b given => List.mem_takeWhile_imp given, ?_⟩
    have other := List.head?_dropWhile_not p as
    cases first : (as.dropWhile p).head? with
    | none => rfl
    | some b =>
      rw [first] at other
      exact other

end Split

/-- A part of a list, with what stands before and after it. -/
structure Stretch (α : Type) where
  /-- The elements before the part. -/
  before : List α
  /-- The part. -/
  inner : List α
  /-- The elements after the part. -/
  after : List α

namespace Stretch

variable {α : Type}

/-- The list that a part belongs to. -/
def whole (s : Stretch α) : List α := s.before ++ (s.inner ++ s.after)

/-- The property holds throughout the part, and neither just before nor just after it. -/
structure IsMaximal (p : α → Bool) (s : Stretch α) : Prop where
  /-- There is an element in the part. -/
  filled : s.inner ≠ []
  /-- Every element of it has the property. -/
  within : ∀ a ∈ s.inner, p a = true
  /-- The element before it, if there is one, does not. -/
  left : s.before.getLast?.any p = false
  /-- The element after it, if there is one, does not. -/
  right : s.after.head?.any p = false

/-- The given parts are all the stretches of a list, from left to right. -/
structure AllOf (p : α → Bool) (as : List α) (stretches : List (Stretch α)) : Prop where
  /-- Each one starts behind the start of the one before it. -/
  ordered : stretches.Pairwise fun one other => one.before.length < other.before.length
  /-- None is left out, and nothing else is given. -/
  mem_iff (s : Stretch α) : s ∈ stretches ↔ s.whole = as ∧ s.IsMaximal p

variable {p : α → Bool} {seen as : List α} {a : α} {s : Stretch α}

/-- The stretches that start in the second list, the two lists being read as one. -/
def startingIn (p : α → Bool) (seen : List α) : List α → List (Stretch α)
  | [] => []
  | a :: as =>
    if p a && !seen.getLast?.any p then
      ⟨seen, a :: as.takeWhile p, as.dropWhile p⟩ :: startingIn p (seen ++ [a]) as
    else startingIn p (seen ++ [a]) as

/-- An element that has the property behind one that has not starts a stretch. -/
theorem startingIn_cons_of_start (here : p a = true) (fresh : seen.getLast?.any p = false) :
    startingIn p seen (a :: as) =
      ⟨seen, a :: as.takeWhile p, as.dropWhile p⟩ :: startingIn p (seen ++ [a]) as := by
  rw [startingIn, if_pos (by simp [here, fresh])]

/-- An element within a stretch starts none. -/
theorem startingIn_cons_of_inside (inside : seen.getLast?.any p = true) :
    startingIn p seen (a :: as) = startingIn p (seen ++ [a]) as := by
  rw [startingIn, if_neg (by simp [inside])]

/-- An element that has not the property starts no stretch. -/
theorem startingIn_cons_of_other (other : p a = false) :
    startingIn p seen (a :: as) = startingIn p (seen ++ [a]) as := by
  rw [startingIn, if_neg (by simp [other])]

/-- What starts in a list starts with its first element or behind it. -/
theorem mem_startingIn_cons :
    s ∈ startingIn p seen (a :: as) ↔
      ((p a = true ∧ seen.getLast?.any p = false) ∧
        s = ⟨seen, a :: as.takeWhile p, as.dropWhile p⟩) ∨
      s ∈ startingIn p (seen ++ [a]) as := by
  by_cases starts : p a = true ∧ seen.getLast?.any p = false
  · rw [startingIn_cons_of_start starts.1 starts.2, List.mem_cons, and_iff_right starts]
  · have skipped : startingIn p seen (a :: as) = startingIn p (seen ++ [a]) as := by
      cases here : p a with
      | true =>
        exact startingIn_cons_of_inside (Bool.eq_true_of_not_eq_false fun fresh =>
          starts ⟨here, fresh⟩)
      | false => exact startingIn_cons_of_other here
    rw [skipped]
    exact (or_iff_right fun found => starts found.1).symm

/-- A maximal part that starts with the second list is as much of it as has the property. -/
theorem whole_maximal_iff (start : s.before = seen) :
    s.whole = seen ++ a :: as ∧ s.IsMaximal p ↔
      (p a = true ∧ seen.getLast?.any p = false) ∧
        s = ⟨seen, a :: as.takeWhile p, as.dropWhile p⟩ := by
  obtain ⟨before, inner, after⟩ := s
  obtain rfl : before = seen := start
  constructor
  · rintro ⟨whole, maximal⟩
    obtain ⟨filled, within, left, right⟩ := maximal
    have rest : inner ++ after = a :: as := List.append_cancel_left whole
    cases inner with
    | nil => exact absurd rfl filled
    | cons b inner =>
      rw [List.cons_append, List.cons.injEq] at rest
      obtain ⟨rfl, rest⟩ := rest
      obtain ⟨here, later⟩ := List.forall_mem_cons.1 within
      obtain ⟨rfl, rfl⟩ := Split.eq_takeWhile_iff.1 ⟨rest, later, right⟩
      exact ⟨⟨here, left⟩, rfl⟩
  · rintro ⟨⟨here, left⟩, same⟩
    obtain ⟨-, rfl, rfl⟩ := Stretch.mk.inj same
    obtain ⟨rest, within, right⟩ := Split.eq_takeWhile_iff.2 ⟨rfl, rfl⟩
    refine ⟨?_, List.cons_ne_nil _ _, List.forall_mem_cons.2 ⟨here, within⟩, left, right⟩
    simp [whole]

/-- The parts that are found are the maximal ones that start in the second list. -/
theorem mem_startingIn_iff :
    s ∈ startingIn p seen as ↔
      (s.whole = seen ++ as ∧ s.IsMaximal p) ∧ seen.length ≤ s.before.length := by
  induction as generalizing seen with
  | nil =>
    refine iff_of_false List.not_mem_nil ?_
    rintro ⟨⟨whole, maximal⟩, start⟩
    have filled := List.length_pos_iff.2 maximal.filled
    have count := congrArg List.length whole
    simp only [Stretch.whole, List.length_append, List.length_nil] at count
    omega
  | cons a as ih =>
    rw [mem_startingIn_cons, ih, List.append_assoc, List.singleton_append]
    constructor
    · rintro (⟨starts, rfl⟩ | ⟨maximal, start⟩)
      · exact ⟨(whole_maximal_iff rfl).2 ⟨starts, rfl⟩, Nat.le_refl _⟩
      · rw [List.length_append] at start
        exact ⟨maximal, by omega⟩
    · rintro ⟨maximal, start⟩
      rcases Nat.eq_or_lt_of_le start with here | later
      · refine Or.inl ((whole_maximal_iff ?_).1 maximal)
        exact (List.append_inj maximal.1 here.symm).1
      · refine Or.inr ⟨maximal, ?_⟩
        rw [List.length_append]
        exact later

/-- They are found from left to right. -/
theorem pairwise_startingIn (p : α → Bool) (seen as : List α) :
    (startingIn p seen as).Pairwise fun one other => one.before.length < other.before.length := by
  induction as generalizing seen with
  | nil => exact List.Pairwise.nil
  | cons a as ih =>
    rw [startingIn]
    split
    · refine List.pairwise_cons.2 ⟨fun s later => ?_, ih _⟩
      have start := (mem_startingIn_iff.1 later).2
      rw [List.length_append] at start
      exact start
    · exact ih _

/-- A list that is read from its start gives all its stretches. -/
theorem allOf_startingIn (p : α → Bool) (as : List α) : AllOf p as (startingIn p [] as) := by
  refine ⟨pairwise_startingIn p [] as, fun s => ?_⟩
  simp [mem_startingIn_iff]

/-- There is only one list of all stretches. -/
theorem AllOf.eq {one other : List (Stretch α)} (h : AllOf p as one) (h' : AllOf p as other) :
    one = other := by
  have antisymm : Std.Antisymm fun one other : Stretch α =>
      one.before.length < other.before.length :=
    ⟨fun _ _ less more => absurd less (Nat.lt_asymm more)⟩
  have irrefl : Std.Irrefl fun one other : Stretch α =>
      one.before.length < other.before.length := ⟨fun _ => Nat.lt_irrefl _⟩
  exact h.ordered.eq_of_mem_iff h'.ordered fun s => (h.mem_iff s).trans (h'.mem_iff s).symm

end Stretch

end RunReport
