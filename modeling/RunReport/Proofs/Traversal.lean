import Mathlib.Data.List.Forall2

/-!
# Traversals that may be refused

A traversal of a list with a step that may be refused succeeds exactly when
every step does, and then keeps the order and the number of the elements. If it
is refused, then by the first step that is. The same is said for one step after
another and for a result that is renamed. What is made of a list is related to it
element by element.
-/

namespace RunReport.Traversal

variable {ε α β : Type}

/-- After a result comes the second step. -/
theorem ok_bind (a : α) (f : α → Except ε β) : (.ok a >>= f) = f a := rfl

/-- After a refusal nothing comes. -/
theorem error_bind (cause : ε) (f : α → Except ε β) : (.error cause >>= f) = .error cause := rfl

/-- A renamed result comes from a result. -/
theorem map_eq_ok_iff {x : Except ε α} {f : α → β} {b : β} :
    x.map f = .ok b ↔ ∃ a, x = .ok a ∧ f a = b := by
  cases x with
  | error cause => simp [Except.map]
  | ok a => simp [Except.map]

/-- A result that is renamed is there when the result is. -/
theorem exists_map_iff {x : Except ε α} {f : α → β} :
    (∃ b, x.map f = .ok b) ↔ ∃ a, x = .ok a := by
  cases x with
  | error cause => simp [Except.map]
  | ok a => simp [Except.map]

/-- Two steps succeed when the first does and the second does after it. -/
theorem bind_eq_ok_iff {x : Except ε α} {f : α → Except ε β} {b : β} :
    (x >>= f) = .ok b ↔ ∃ a, x = .ok a ∧ f a = .ok b := by
  cases x with
  | error cause => simp [bind, Except.bind]
  | ok a => simp [bind, Except.bind]

/-- A renamed result is refused as the result is. -/
theorem map_eq_error_iff {x : Except ε α} {f : α → β} {cause : ε} :
    x.map f = .error cause ↔ x = .error cause := by
  cases x with
  | error other => simp [Except.map]
  | ok a => simp [Except.map]

/-- Two steps are refused by the first, or by the second after it. -/
theorem bind_eq_error_iff {x : Except ε α} {f : α → Except ε β} {cause : ε} :
    (x >>= f) = .error cause ↔ x = .error cause ∨ ∃ a, x = .ok a ∧ f a = .error cause := by
  cases x with
  | error other => simp [bind, Except.bind]
  | ok a => simp [bind, Except.bind]

/-- A result is the same when causes are renamed. -/
@[simp]
theorem mapError_eq_ok_iff {δ : Type} {x : Except ε α} {f : ε → δ} {a : α} :
    x.mapError f = .ok a ↔ x = .ok a := by
  cases x with
  | error cause => simp [Except.mapError]
  | ok b => simp [Except.mapError]

/-- A renamed cause comes from a cause. -/
@[simp]
theorem mapError_eq_error_iff {δ : Type} {x : Except ε α} {f : ε → δ} {cause : δ} :
    x.mapError f = .error cause ↔ ∃ c, x = .error c ∧ f c = cause := by
  cases x with
  | error c => simp [Except.mapError]
  | ok b => simp [Except.mapError]

/-- A traversal succeeds exactly with the results of its steps, in order. -/
theorem mapM_eq_ok_iff {f : α → Except ε β} {xs : List α} {ys : List β} :
    xs.mapM f = .ok ys ↔ List.Forall₂ (fun x y => f x = .ok y) xs ys := by
  induction xs generalizing ys with
  | nil =>
    rw [List.mapM_nil, List.forall₂_nil_left_iff]
    constructor
    · intro h
      exact (Except.ok.inj h).symm
    · rintro rfl
      rfl
  | cons x xs ih =>
    rw [List.mapM_cons, List.forall₂_cons_left_iff, bind_eq_ok_iff]
    constructor
    · rintro ⟨y, hy, h⟩
      obtain ⟨rest, hrest, h⟩ := bind_eq_ok_iff.1 h
      exact ⟨y, rest, hy, ih.1 hrest, (Except.ok.inj h).symm⟩
    · rintro ⟨y, rest, hy, hrest, rfl⟩
      exact ⟨y, hy, bind_eq_ok_iff.2 ⟨rest, ih.2 hrest, rfl⟩⟩

/-- A traversal succeeds exactly when each of its steps does. -/
theorem exists_mapM_iff {f : α → Except ε β} {xs : List α} :
    (∃ ys, xs.mapM f = .ok ys) ↔ ∀ x ∈ xs, ∃ y, f x = .ok y := by
  simp only [mapM_eq_ok_iff]
  induction xs with
  | nil => simp
  | cons x xs ih =>
    rw [List.forall_mem_cons, ← ih]
    constructor
    · rintro ⟨_, h⟩
      obtain ⟨y, ys, hy, hys, _⟩ := List.forall₂_cons_left_iff.1 h
      exact ⟨⟨y, hy⟩, ys, hys⟩
    · rintro ⟨⟨y, hy⟩, ys, hys⟩
      exact ⟨y :: ys, .cons hy hys⟩

/-- Steps that are the same on a list traverse it in the same way. -/
theorem mapM_congr {f g : α → Except ε β} {xs : List α} (h : ∀ x ∈ xs, f x = g x) :
    xs.mapM f = xs.mapM g := by
  induction xs with
  | nil => rfl
  | cons x xs ih =>
    obtain ⟨here, later⟩ := List.forall_mem_cons.1 h
    rw [List.mapM_cons, List.mapM_cons, here, ih later]

/-- The results of a traversal are those of its steps. -/
theorem mem_iff_of_mapM {f : α → Except ε β} {xs : List α} {ys : List β}
    (h : xs.mapM f = .ok ys) {y : β} : y ∈ ys ↔ ∃ x ∈ xs, f x = .ok y := by
  have each := mapM_eq_ok_iff.1 h
  clear h
  induction each with
  | nil => simp
  | cons head _ ih =>
    simp [ih, head, @eq_comm _ y]

/-- Where the results of a traversal are split, the list is split as well. -/
theorem exists_split_of_mapM {f : α → Except ε β} {xs : List α} {before after : List β} {y : β}
    (h : xs.mapM f = .ok (before ++ y :: after)) : ∃ sooner x later,
      xs = sooner ++ x :: later ∧ f x = .ok y ∧ later.mapM f = .ok after := by
  have each := mapM_eq_ok_iff.1 h
  clear h
  induction before generalizing xs with
  | nil =>
    obtain ⟨x, later, here, rest, rfl⟩ := List.forall₂_cons_right_iff.1 each
    exact ⟨[], x, later, rfl, here, mapM_eq_ok_iff.2 rest⟩
  | cons b before ih =>
    obtain ⟨x, others, _, rest, rfl⟩ := List.forall₂_cons_right_iff.1 each
    obtain ⟨sooner, z, later, rfl, here, there⟩ := ih rest
    exact ⟨x :: sooner, z, later, rfl, here, there⟩

/-- What is on the right of related lists is related to something on the left. -/
theorem exists_of_mem_right {R : α → β → Prop} {xs : List α} {ys : List β} {y : β}
    (related : List.Forall₂ R xs ys) (given : y ∈ ys) : ∃ x ∈ xs, R x y := by
  induction related with
  | nil => cases given
  | cons here _ ih =>
    rcases List.mem_cons.1 given with rfl | later
    · exact ⟨_, List.mem_cons_self, here⟩
    · obtain ⟨x, hx, related⟩ := ih later
      exact ⟨x, List.mem_cons_of_mem _ hx, related⟩

/-- What is on the left of related lists is related to something on the right. -/
theorem exists_of_mem_left {R : α → β → Prop} {xs : List α} {ys : List β} {x : α}
    (related : List.Forall₂ R xs ys) (given : x ∈ xs) : ∃ y ∈ ys, R x y :=
  exists_of_mem_right related.flip given

/-- A traversal is refused by the first of its steps that is. -/
theorem mapM_eq_error_iff {f : α → Except ε β} {xs : List α} {cause : ε} :
    xs.mapM f = .error cause ↔ ∃ before x after, xs = before ++ x :: after ∧
      (∀ y ∈ before, ∃ b, f y = .ok b) ∧ f x = .error cause := by
  induction xs with
  | nil => simp [pure, Except.pure]
  | cons x xs ih =>
    rw [List.mapM_cons, bind_eq_error_iff]
    constructor
    · rintro (here | ⟨b, hb, later⟩)
      · exact ⟨[], x, xs, rfl, by simp, here⟩
      · rcases bind_eq_error_iff.1 later with later | ⟨_, _, wrong⟩
        · obtain ⟨before, y, after, rfl, fine, hy⟩ := ih.1 later
          exact ⟨x :: before, y, after, rfl, List.forall_mem_cons.2 ⟨⟨b, hb⟩, fine⟩, hy⟩
        · cases wrong
    · rintro ⟨before, y, after, split, fine, hy⟩
      cases before with
      | nil =>
        obtain ⟨rfl, rfl⟩ := List.cons.inj split
        exact Or.inl hy
      | cons first before =>
        obtain ⟨rfl, rfl⟩ := List.cons.inj split
        obtain ⟨⟨b, hb⟩, rest⟩ := List.forall_mem_cons.1 fine
        exact Or.inr ⟨b, hb, bind_eq_error_iff.2 (Or.inl (ih.2 ⟨before, y, after, rfl, rest, hy⟩))⟩

/-- A fold whose steps may be refused is refused by the first of them that is. -/
theorem foldlM_eq_error_iff {f : β → α → Except ε β} {start : β} {xs : List α} {cause : ε} :
    xs.foldlM f start = .error cause ↔ ∃ before x after b, xs = before ++ x :: after ∧
      before.foldlM f start = .ok b ∧ f b x = .error cause := by
  induction xs generalizing start with
  | nil => simp [pure, Except.pure]
  | cons x xs ih =>
    rw [List.foldlM_cons, bind_eq_error_iff]
    constructor
    · rintro (here | ⟨b, hb, later⟩)
      · exact ⟨[], x, xs, start, rfl, rfl, here⟩
      · obtain ⟨before, y, after, c, rfl, reached, refused⟩ := ih.1 later
        exact ⟨x :: before, y, after, c, rfl, bind_eq_ok_iff.2 ⟨b, hb, reached⟩, refused⟩
    · rintro ⟨before, y, after, c, split, reached, refused⟩
      cases before with
      | nil =>
        obtain ⟨rfl, rfl⟩ := List.cons.inj split
        obtain rfl := Except.ok.inj reached
        exact Or.inl refused
      | cons first before =>
        obtain ⟨rfl, rfl⟩ := List.cons.inj split
        obtain ⟨b, hb, reached⟩ := bind_eq_ok_iff.1 reached
        exact Or.inr ⟨b, hb, ih.2 ⟨before, y, after, c, rfl, reached, refused⟩⟩

end RunReport.Traversal
