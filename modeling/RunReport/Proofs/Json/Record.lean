import RunReport.Json.Record
import RunReport.Proofs.Traversal

/-!
# What records are read as

A joined reading succeeds exactly when all of its parts do. A member that is
given once is read where it stands, so a record whose members are each given
once is read exactly when every member is.
-/

namespace RunReport.Json

namespace Reading

variable {α β : Type} {f : α → β} {b : β}

/-- A function of a reading succeeds exactly when the reading does. -/
theorem map_eq_done_iff {x : Reading α} : f <$> x = done b ↔ ∃ a, x = done a ∧ f a = b := by
  cases x with
  | done a =>
    change done (f a) = done b ↔ _
    simp
  | refused place cause =>
    change refused place cause = done b ↔ _
    simp

/-- Joined readings succeed exactly when both do. -/
theorem seq_eq_done_iff {g : Reading (α → β)} {x : Reading α} :
    g <*> x = done b ↔ ∃ f a, g = done f ∧ x = done a ∧ f a = b := by
  cases g with
  | done f =>
    cases x with
    | done a =>
      change done (f a) = done b ↔ _
      simp
    | refused place cause =>
      change refused place cause = done b ↔ _
      simp
  | refused place cause =>
    refine iff_of_false (fun h => ?_) (fun h => ?_)
    · cases x with
      | done a => cases h
      | refused p c =>
        change (if place ≤ p then refused place cause else refused p c) = done b at h
        split at h <;> cases h
    · obtain ⟨f, a, wrong, _⟩ := h
      cases wrong

end Reading

/-- A name that no member has occurs nowhere. -/
theorem occurrences_eq_nil {members : List (String × Json)} {name : String} {k : Nat}
    (other : ∀ m ∈ members, m.1 ≠ name) :
    (members.zipIdx k).filter (fun (m, _) => m.1 = name) = [] := by
  induction members generalizing k with
  | nil => rfl
  | cons m members ih =>
    have first := other m List.mem_cons_self
    have rest := ih (k := k + 1) fun n hn => other n (List.mem_cons_of_mem m hn)
    rw [List.zipIdx_cons, List.filter_cons_of_neg (by simpa using first), rest]

/-- A member whose name no other member has occurs where it stands. -/
theorem occurrences_eq_singleton {members : List (String × Json)} {name : String} {j : Json}
    {i k : Nat} (distinct : (members.map (·.1)).Nodup) (here : members[i]? = some (name, j)) :
    (members.zipIdx k).filter (fun (m, _) => m.1 = name) = [((name, j), k + i)] := by
  induction members generalizing i k with
  | nil => cases here
  | cons m members ih =>
    rw [List.map_cons, List.nodup_cons] at distinct
    obtain ⟨notAgain, distinct⟩ := distinct
    rw [List.zipIdx_cons]
    cases i with
    | zero =>
      obtain rfl : m = (name, j) := Option.some.inj here
      have none : ∀ n ∈ members, n.1 ≠ name :=
        fun n hn same => notAgain (List.mem_map.2 ⟨n, hn, same⟩)
      rw [List.filter_cons_of_pos (by simp), occurrences_eq_nil none, Nat.add_zero]
    | succ i =>
      have later : members[i]? = some (name, j) := here
      have differs : m.1 ≠ name := by
        rintro same
        exact notAgain (List.mem_map.2 ⟨_, List.mem_of_getElem? later, same.symm⟩)
      rw [List.filter_cons_of_neg (by simpa using differs), ih distinct later]
      congr 2
      omega

variable {α : Type} {a : α} {members : List (String × Json)}

/-- A member whose name no other member has is read where it stands, whatever stands for
it when it is not given. -/
theorem memberOr_eq_done_iff {surplus : Bool} {name : String} {read : Json → Except Refusal α}
    {absent : Reading α} {i : Nat} {j : Json} (distinct : (members.map (·.1)).Nodup)
    (here : members[i]? = some (name, j)) :
    (Record.mk members surplus).memberOr name absent read = .done a ↔ read j = .ok a := by
  have once : (Record.mk members surplus).occurrences name = [(i, j)] := by
    have places := @occurrences_eq_singleton members name j i 0 distinct here
    rw [Nat.zero_add] at places
    unfold Record.occurrences
    rw [places]
    rfl
  unfold Record.memberOr Record.readAt
  rw [once]
  cases h : read j with
  | ok b => simp [h]
  | error cause => simp [h]

/-- A required member whose name no other member has is read where it stands. -/
theorem field_eq_done_iff {surplus : Bool} {name : String} {read : Json → Except Refusal α}
    {i : Nat} {j : Json} (distinct : (members.map (·.1)).Nodup)
    (here : members[i]? = some (name, j)) :
    (Record.mk members surplus).field name read = .done a ↔ read j = .ok a :=
  memberOr_eq_done_iff distinct here

/-- A member that no other has the name of is taken from its place. -/
theorem field_at {surplus : Bool} {name : String} {read : Json → Except Refusal α} {j : Json}
    (distinct : (members.map (·.1)).Nodup) (i : Nat) (here : members[i]? = some (name, j))
    (given : read j = .ok a) : (Record.mk members surplus).field name read = .done a :=
  (field_eq_done_iff distinct here).2 given

/-- So is a member that another value can stand for. -/
theorem fieldOr_at {surplus : Bool} {name : String} {standard : α}
    {read : Json → Except Refusal α} {j : Json} (distinct : (members.map (·.1)).Nodup) (i : Nat)
    (here : members[i]? = some (name, j)) (given : read j = .ok a) :
    (Record.mk members surplus).fieldOr name standard read = .done a :=
  (memberOr_eq_done_iff distinct here).2 given

/-- A member that is not given is what stands for it. -/
theorem fieldOr_absent {surplus : Bool} {name : String} {standard : α}
    {read : Json → Except Refusal α} (absent : ∀ m ∈ members, m.1 ≠ name) :
    (Record.mk members surplus).fieldOr name standard read = .done standard := by
  have nowhere : (Record.mk members surplus).occurrences name = [] := by
    rw [Record.occurrences, occurrences_eq_nil absent, List.map_nil]
  rw [Record.fieldOr, Record.memberOr, nowhere]

/-- What is read for a member is what stands for it or is read from a member of the
record. -/
theorem exists_of_memberOr {r : Record} {name : String} {absent : Reading α}
    {read : Json → Except Refusal α} (done : r.memberOr name absent read = .done a) :
    absent = .done a ∨ ∃ m ∈ r.members, read m.2 = .ok a := by
  have among : ∀ entry ∈ r.occurrences name, ∃ m ∈ r.members, m.2 = entry.2 := by
    intro entry given
    obtain ⟨⟨m, place⟩, listed, rfl⟩ := List.mem_map.1 given
    exact ⟨m, List.fst_mem_of_mem_zipIdx (List.mem_filter.1 listed).1, rfl⟩
  unfold Record.memberOr at done
  split at done
  · exact Or.inl done
  · rename_i place j others found
    obtain ⟨m, given, same⟩ := among (place, j) (found ▸ List.mem_cons_self)
    refine Or.inr ⟨m, given, ?_⟩
    rw [same]
    unfold Record.readAt at done
    cases reads : read j with
    | ok b =>
      rw [reads] at done
      cases others with
      | nil => exact congrArg Except.ok (Reading.done.inj done)
      | cons => cases done
    | error cause =>
      rw [reads] at done
      cases done

/-- What is read for a required member is read from a member of the record. -/
theorem exists_of_field {r : Record} {name : String} {read : Json → Except Refusal α}
    (done : r.field name read = .done a) : ∃ m ∈ r.members, read m.2 = .ok a :=
  (exists_of_memberOr done).resolve_left fun absent => by cases absent

/-- What is read as a record is read from its members. -/
theorem exists_of_readRecord {names : List String} {readMembers : Record → Reading α} {j : Json}
    (read : readRecord names readMembers j = .ok a) :
    ∃ r, j.asRecord names = some r ∧ readMembers r = .done a := by
  unfold readRecord at read
  cases record : j.asRecord names with
  | none =>
    rw [record] at read
    cases read
  | some r =>
    rw [record] at read
    dsimp only at read
    split at read
    · cases read
    · rename_i b done
      split at read
      · cases read
      · exact ⟨r, rfl, done.trans (congrArg _ (Except.ok.inj read))⟩

/-- An object is read as a record exactly when its members are. -/
theorem readRecord_object_eq_ok_iff {names : List String} {readMembers : Record → Reading α} :
    readRecord names readMembers (.object members) = .ok a ↔
      readMembers ⟨members, false⟩ = .done a := by
  unfold readRecord asRecord
  dsimp only
  cases readMembers ⟨members, false⟩ with
  | done b => simp
  | refused place cause => simp

/-- A natural number below a bound is read as that number. -/
theorem readBelow_natCast {bound n : Nat} (h : n < bound) :
    readBelow bound (.integer (n : Int)) = .ok n := by
  have inside : (0 : Int) ≤ n ∧ (n : Int) < bound := ⟨Int.natCast_nonneg n, Int.ofNat_lt.2 h⟩
  rw [readBelow, asNatBelow, if_pos inside, Int.toNat_natCast, required]

/-- A natural number that is read is below its bound. -/
theorem lt_of_readBelow {bound n : Nat} {j : Json} (read : readBelow bound j = .ok n) :
    n < bound := by
  cases j with
  | integer i =>
    rw [readBelow, asNatBelow] at read
    by_cases inside : 0 ≤ i ∧ i < bound
    · rw [if_pos inside] at read
      obtain rfl := Except.ok.inj read
      omega
    · rw [if_neg inside] at read
      cases read
  | null | bool | decimal | string | array | object | unreadable => cases read

/-- A text is read as it is. -/
theorem readText_string (s : String) : readText (.string s) = .ok s := rfl

/-- A number is read as it is. -/
theorem readNumeric_decimal (x : Binary64) : readNumeric (.decimal x) = .ok x := rfl

/-- Every count is read back. -/
theorem readCount_toNat (n : UInt64) : readCount (.integer n.toNat) = .ok n := by
  rw [readCount, readBelow_natCast n.toNat_lt, Except.map, UInt64.ofNat_toNat]

/-- Every small count is read back. -/
theorem readSmallCount_toNat (n : UInt32) : readSmallCount (.integer n.toNat) = .ok n := by
  rw [readSmallCount, readBelow_natCast n.toNat_lt, Except.map, UInt32.ofNat_toNat]

end RunReport.Json
