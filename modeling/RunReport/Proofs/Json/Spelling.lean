import RunReport.Proofs.Json.Record

/-!
# What values spell

What a value says as a record, a number, a count or a list, told from the value
alone and not from the way it is read. A record is spelled by an object or, by
position, by an array, and has a member if exactly one of its names is that of
the member. Each reader gives just what its values spell.
-/

namespace RunReport.Json

variable {α : Type} {a : α}

/-- A value says the members of a record: those of an object, or the items of an array that
is not longer than the record, each under the name of its place. -/
def SpellsRecord (names : List String) (j : Json) (members : List (String × Json)) : Prop :=
  j = .object members ∨
    ∃ items, j = .array items ∧ items.length ≤ names.length ∧ members = names.zip items

/-- Among the members of a record one and only one has the given name. -/
def Given (members : List (String × Json)) (name : String) (j : Json) : Prop :=
  members.filter (fun m => m.1 = name) = [(name, j)]

/-- A member is given once, and its value says what it is to say. -/
def Gives (members : List (String × Json)) (name : String) (spells : Json → α → Prop) (a : α) :
    Prop :=
  ∃ j, Given members name j ∧ spells j a

/-- A value says a number: a fraction itself, a whole number the one nearest to it. -/
def SpellsNumeral (j : Json) (x : Binary64) : Prop :=
  j = .decimal x ∨ ∃ i, j = .integer i ∧ x = Binary64.ofInt i

/-- A value says a count. -/
def SpellsCount (j : Json) (n : UInt64) : Prop := j = .integer n.toNat

/-- A value says a list, item by item. -/
def SpellsList (spells : Json → α → Prop) (j : Json) (listed : List α) : Prop :=
  ∃ items, j = .array items ∧ List.Forall₂ spells items listed

/-- A record is read from the members that its value says, and from no other value. -/
theorem readRecord_eq_ok_iff {names : List String} {readMembers : Record → Reading α} {j : Json} :
    readRecord names readMembers j = .ok a ↔
      ∃ members, SpellsRecord names j members ∧ readMembers ⟨members, false⟩ = .done a := by
  unfold SpellsRecord
  cases j with
  | object members => simp [readRecord_object_eq_ok_iff]
  | array items =>
    unfold readRecord asRecord
    by_cases fits : items.length ≤ names.length
    · have noSurplus : decide (names.length < items.length) = false :=
        decide_eq_false (Nat.not_lt.2 fits)
      dsimp only
      rw [noSurplus]
      cases read : readMembers ⟨names.zip items, false⟩ with
      | done b => simp [fits, read]
      | refused place cause => simp [read]
    · have surplus : decide (names.length < items.length) = true :=
        decide_eq_true (Nat.not_le.1 fits)
      dsimp only
      rw [surplus]
      cases readMembers ⟨names.zip items, true⟩ with
      | done b => simp [fits]
      | refused place cause => simp [fits]
  | null | bool | integer | decimal | string | unreadable => simp [readRecord, asRecord]

/-- The occurrences of a name are the members that have it. -/
theorem map_occurrences (members : List (String × Json)) (surplus : Bool) (name : String) :
    ((Record.mk members surplus).occurrences name).map (·.2) =
      (members.filter fun m => m.1 = name).map (·.2) := by
  have unplaced (k : Nat) : ((members.zipIdx k).filter fun entry => entry.1.1 = name).map (·.1) =
      members.filter fun m => m.1 = name := by
    induction members generalizing k with
    | nil => rfl
    | cons m rest ih =>
      rw [List.zipIdx_cons]
      by_cases here : m.1 = name
      · rw [List.filter_cons_of_pos (by simpa using here), List.map_cons, ih (k + 1),
          List.filter_cons_of_pos (by simpa using here)]
      · rw [List.filter_cons_of_neg (by simpa using here), ih (k + 1),
          List.filter_cons_of_neg (by simpa using here)]
  rw [← unplaced 0]
  simp only [Record.occurrences, List.map_map, Function.comp_def]

/-- A name occurs once, with some value, exactly when that value is given for it. -/
theorem given_iff {members : List (String × Json)} {surplus : Bool} {name : String} {j : Json} :
    Given members name j ↔ ∃ place, (Record.mk members surplus).occurrences name = [(place, j)] := by
  have values := map_occurrences members surplus name
  have named : ∀ m ∈ members.filter (fun m => m.1 = name), m.1 = name := by
    intro m listed
    simpa using (List.mem_filter.1 listed).2
  unfold Given
  constructor
  · intro once
    rw [once, List.map_singleton] at values
    obtain ⟨entry, alone, rfl⟩ := List.map_eq_singleton_iff.1 values
    exact ⟨entry.1, alone⟩
  · intro occurs
    obtain ⟨place, occurs⟩ := occurs
    rw [occurs, List.map_singleton] at values
    obtain ⟨m, alone, rfl⟩ := List.map_eq_singleton_iff.1 values.symm
    have name_eq := named m (alone ▸ List.mem_singleton_self m)
    rw [alone, ← name_eq]

/-- A required member is read exactly when it is given and its value says what is read. -/
theorem field_eq_done_iff_gives {members : List (String × Json)} {surplus : Bool} {name : String}
    {read : Json → Except Refusal α} {spells : Json → α → Prop}
    (reads : ∀ {j a}, read j = .ok a ↔ spells j a) :
    (Record.mk members surplus).field name read = .done a ↔ Gives members name spells a := by
  have given (j : Json) := @given_iff members surplus name j
  simp only [Gives, given, ← reads]
  unfold Record.field Record.memberOr Record.readAt
  cases (Record.mk members surplus).occurrences name with
  | nil => simp
  | cons first others =>
    obtain ⟨place, j⟩ := first
    dsimp only
    cases h : read j with
    | error cause => cases others <;> simp [h]
    | ok b => cases others <;> simp [h]

/-- A number is read exactly from what says it. -/
theorem readNumeric_eq_ok_iff {j : Json} {x : Binary64} :
    readNumeric j = .ok x ↔ SpellsNumeral j x := by
  unfold SpellsNumeral readNumeric
  cases j with
  | integer i => simp [asBinary64, required, eq_comm]
  | decimal y => simp [asBinary64, required]
  | null | bool | string | array | object | unreadable => simp [asBinary64, required]

/-- A count is read exactly from what says it. -/
theorem readCount_eq_ok_iff {j : Json} {n : UInt64} : readCount j = .ok n ↔ SpellsCount j n := by
  constructor
  · intro read
    obtain ⟨k, below, rfl⟩ := Traversal.map_eq_ok_iff.1 read
    have small := lt_of_readBelow below
    cases j with
    | integer i =>
      rw [readBelow, asNatBelow] at below
      by_cases inside : 0 ≤ i ∧ i < (2 ^ 64 : ℕ)
      · rw [if_pos inside] at below
        obtain rfl := Except.ok.inj below
        rw [SpellsCount, UInt64.toNat_ofNat_of_lt' small, Int.toNat_of_nonneg inside.1]
      · rw [if_neg inside] at below
        cases below
    | null | bool | decimal | string | array | object | unreadable => cases below
  · intro spelled
    rw [spelled]
    exact readCount_toNat n

/-- A list is read exactly from what says it, if its items are. -/
theorem readList_eq_ok_iff {read : Json → Except Refusal α} {spells : Json → α → Prop}
    (items : ∀ {j a}, read j = .ok a ↔ spells j a) {j : Json} {listed : List α} :
    readList read j = .ok listed ↔ SpellsList spells j listed := by
  unfold SpellsList
  cases j with
  | array given =>
    rw [readList, Traversal.mapM_eq_ok_iff]
    simp only [items, array.injEq]
    constructor
    · intro each
      exact ⟨given, rfl, each⟩
    · intro spelled
      obtain ⟨_, rfl, each⟩ := spelled
      exact each
  | null | bool | integer | decimal | string | object | unreadable => simp [readList]

end RunReport.Json
