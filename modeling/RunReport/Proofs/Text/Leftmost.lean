import RunReport.Proofs.Text.Search

/-!
# The first occurrence of a mark

The cut of a text at a mark is described without the search for it: the mark
stands between the two parts, and no occurrence has less before it. What comes
behind the mark does not matter for that, so the cut stays where it is when the
text goes on. A text without the mark joined with a second one is cut where the
second one is, unless a mark arises where they meet.
-/

namespace RunReport.Search

variable {mark cs before after : List Char}

/-- The first occurrence of a mark in a text, with what stands before and after it. -/
structure Leftmost (mark cs before after : List Char) : Prop where
  /-- The mark stands between the two. -/
  whole : cs = before ++ mark ++ after
  /-- No occurrence of the mark has less before it. -/
  least : ∀ x y, cs = x ++ mark ++ y → before.length ≤ x.length

/-- A mark is found exactly where it occurs first. -/
theorem cut?_eq_some_iff (nonempty : mark ≠ []) :
    cut? mark cs = some (before, after) ↔ Leftmost mark cs before after := by
  induction cs generalizing before with
  | nil =>
    refine iff_of_false (by simp [cut?]) fun ⟨whole, _⟩ => nonempty ?_
    simp_all
  | cons c rest ih =>
    rw [cut?]
    by_cases begins : mark <+: c :: rest
    · obtain ⟨tail, split⟩ := begins
      have later : rest.drop (mark.length - 1) = tail := by
        obtain ⟨d, others, rfl⟩ := List.exists_cons_of_ne_nil nonempty
        rw [← (List.cons.inj split).2]
        exact List.drop_left
      rw [if_pos (List.isPrefixOf_iff_prefix.2 ⟨tail, split⟩), later, Option.some.injEq,
        Prod.mk.injEq]
      constructor
      · rintro ⟨rfl, rfl⟩
        exact ⟨split.symm, fun _ _ _ => Nat.zero_le _⟩
      · rintro ⟨whole, least⟩
        obtain rfl := List.length_eq_zero_iff.1 (Nat.le_zero.1 (least [] tail split.symm))
        exact ⟨rfl, List.append_cancel_left (split.trans whole)⟩
    · rw [if_neg (mt List.isPrefixOf_iff_prefix.1 begins), Option.map_eq_some_iff]
      constructor
      · rintro ⟨⟨x, y⟩, found, same⟩
        obtain ⟨rfl, rfl⟩ := Prod.mk.inj same
        obtain ⟨whole, least⟩ := ih.1 found
        refine ⟨congrArg (c :: ·) whole, fun x y split => ?_⟩
        cases x with
        | nil => exact absurd ⟨y, split.symm⟩ begins
        | cons d x => exact Nat.succ_le_succ (least x y (List.cons.inj split).2)
      · rintro ⟨whole, least⟩
        cases before with
        | nil => exact absurd ⟨after, whole.symm⟩ begins
        | cons d before =>
          obtain ⟨rfl, split⟩ := List.cons.inj whole
          refine ⟨(before, after), ih.2 ⟨split, fun x y later => ?_⟩, rfl⟩
          exact Nat.le_of_succ_le_succ (least (c :: x) y (congrArg (c :: ·) later))

/-- A mark is not found exactly in the texts in which it does not occur. -/
theorem cut?_eq_none_iff (nonempty : mark ≠ []) : cut? mark cs = none ↔ ¬ mark <:+: cs := by
  induction cs with
  | nil => simp [cut?, nonempty]
  | cons c rest ih =>
    rw [cut?, List.infix_cons_iff, ← List.isPrefixOf_iff_prefix]
    by_cases begins : mark.isPrefixOf (c :: rest) = true
    · simp [begins]
    · simp [begins, ih]

/-- What comes after the first occurrence of a mark does not matter for it. -/
theorem Leftmost.change (h : Leftmost mark cs before after) (later : List Char) :
    Leftmost mark (before ++ mark ++ later) before later := by
  refine ⟨rfl, fun x y split => ?_⟩
  by_contra shorter
  have within : x ++ mark <+: before ++ mark := by
    refine List.prefix_of_prefix_length_le ⟨y, split.symm⟩ (List.prefix_append _ later) ?_
    rw [List.length_append, List.length_append]
    omega
  obtain ⟨z, same⟩ := within
  have earlier : cs = x ++ mark ++ (z ++ after) := by
    rw [h.whole, ← same, List.append_assoc]
  exact shorter (h.least x _ earlier)

namespace Leftmost

/-- A mark at the start occurs there first. -/
theorem here (mark after : List Char) : Leftmost mark (mark ++ after) [] after :=
  ⟨rfl, fun _ _ _ => Nat.zero_le _⟩

/-- The mark occurs in the text. -/
theorem occurs (h : Leftmost mark cs before after) : mark <:+: cs :=
  ⟨before, after, h.whole.symm⟩

/-- A text is cut at a mark in one way only. -/
theorem unique {before' after' : List Char} (nonempty : mark ≠ [])
    (h : Leftmost mark cs before after) (h' : Leftmost mark cs before' after') :
    before = before' ∧ after = after' := by
  have same := ((cut?_eq_some_iff nonempty).2 h).symm.trans ((cut?_eq_some_iff nonempty).2 h')
  exact Prod.mk.inj (Option.some.inj same)

/-- The cut stays where it is when the text goes on. -/
theorem append (h : Leftmost mark cs before after) (more : List Char) :
    Leftmost mark (cs ++ more) before (after ++ more) := by
  rw [h.whole, List.append_assoc]
  exact h.change (after ++ more)

/-- The mark does not occur before its first occurrence. -/
theorem notBefore (h : Leftmost mark cs before after) (nonempty : mark ≠ []) :
    ¬ mark <:+: before := by
  rintro ⟨x, y, rfl⟩
  have earlier := h.least x (y ++ mark ++ after) (by simp [h.whole])
  have positive := List.length_pos_iff.2 nonempty
  rw [List.length_append, List.length_append] at earlier
  omega

/-- What stands behind a mark is shorter than the text. -/
theorem length_lt (nonempty : mark ≠ []) (h : Leftmost mark cs before after) :
    after.length < cs.length := length_lt_of_cut? ((cut?_eq_some_iff nonempty).2 h)

/-- What stands before a double character does not end in it. -/
theorem getLast?_ne {a : Char} (h : Leftmost [a, a] cs before after) :
    before.getLast? ≠ some a := by
  intro last
  obtain ⟨x, rfl⟩ := List.getLast?_eq_some_iff.1 last
  have earlier := h.least x (a :: after) (by simp [h.whole])
  rw [List.length_append, List.length_singleton] at earlier
  omega

end Leftmost

variable {a b : Char} {x y : List Char}

/-- A mark of two characters that is not in a text is found behind it, unless the
text ends in the first one and the second one follows. -/
theorem cut?_append_of_none (absent : cut? [a, b] x = none)
    (apart : ¬ (x.getLast? = some a ∧ y.head? = some b)) :
    cut? [a, b] (x ++ y) = (cut? [a, b] y).map (Prod.map (x ++ ·) id) := by
  induction x with
  | nil =>
    change cut? [a, b] y = (cut? [a, b] y).map (Prod.map id id)
    rw [Prod.map_id, Option.map_id]
    rfl
  | cons c x ih =>
    have nonempty : [a, b] ≠ [] := List.cons_ne_nil _ _
    obtain ⟨notHere, notLater⟩ :=
      not_or.1 (mt List.infix_cons_iff.2 ((cut?_eq_none_iff nonempty).1 absent))
    have begins : ¬ [a, b] <+: c :: (x ++ y) := by
      rintro ⟨rest, split⟩
      obtain ⟨rfl, next⟩ := List.cons.inj split
      cases x with
      | nil => exact apart ⟨rfl, by rw [← List.nil_append y, ← next]; rfl⟩
      | cons d x => exact notHere ⟨x, by simp [(List.cons.inj next).1]⟩
    have later := ih ((cut?_eq_none_iff nonempty).2 notLater) fun ⟨last, first⟩ =>
      apart ⟨by simp [List.getLast?_cons, last], first⟩
    rw [List.cons_append, cut?, if_neg (mt List.isPrefixOf_iff_prefix.1 begins), later,
      Option.map_map]
    rfl

end RunReport.Search
