import Mathlib.Algebra.Order.Ring.Nat
import RunReport.Json.Record
import RunReport.Proofs.Json.Members
import RunReport.Proofs.Json.RoundTrip

/-!
# Values that their texts give back

A value is faithful if each of its objects has distinct keys, its integers fit 64
bits, its other numbers are finite, and all of it is readable. The text of such a
value is read as the very same value. Setting a member and replacing texts keep a
value faithful.
-/

namespace RunReport.Json

/-- What has a JSON form of its own, at any depth. -/
inductive Faithful : Json → Prop where
  | null : Faithful .null
  | bool (b : Bool) : Faithful (.bool b)
  /-- Natural numbers of 64 bits. -/
  | natural {n : Nat} (fits : n < 2 ^ 64) : Faithful (.integer n)
  /-- Negative numbers of 64 bits. -/
  | negative {n : Nat} (fits : n < 2 ^ 63) : Faithful (.integer (Int.negSucc n))
  | decimal {x : Binary64} (finite : x.isFinite = true) : Faithful (.decimal x)
  | string (s : String) : Faithful (.string s)
  | array {items : List Json} (each : ∀ j ∈ items, Faithful j) : Faithful (.array items)
  /-- Objects whose keys are distinct. -/
  | object {members : List (String × Json)} (distinct : (members.map (·.1)).Nodup)
    (each : ∀ member ∈ members, Faithful member.2) : Faithful (.object members)

/-- A negative number of 64 bits comes back as it was. -/
theorem asWritten_negSucc {n : Nat} (fits : n < 2 ^ 63) :
    (Json.integer (Int.negSucc n)).asWritten = .integer (Int.negSucc n) := by
  rw [asWritten, decide_eq_true (Int.negSucc_lt_zero n), ofWhole]
  simp only [if_true, Int.natAbs_negSucc, Digits.value_numeral]
  rw [if_pos ⟨Nat.succ_pos n, fits⟩]
  rfl

/-- Setting a key adds it at the end unless it is there. -/
theorem map_fst_upsert (key : String) (v : Json) (members : List (String × Json)) :
    (upsert key v members).map (·.1) =
      if key ∈ members.map (·.1) then members.map (·.1) else members.map (·.1) ++ [key] := by
  induction members with
  | nil => rfl
  | cons member rest ih =>
    obtain ⟨k, w⟩ := member
    rw [upsert]
    by_cases here : k = key
    · simp [here]
    · rw [if_neg here, List.map_cons, ih]
      by_cases later : key ∈ rest.map (·.1)
      · rw [if_pos later, List.map_cons, if_pos (List.mem_cons_of_mem _ later)]
      · have absent : key ∉ k :: rest.map (·.1) :=
          List.mem_cons.not.2 (not_or.2 ⟨Ne.symm here, later⟩)
        rw [if_neg later, List.map_cons, if_neg absent, List.cons_append]

/-- A key that is not there is set at the end. -/
theorem upsert_of_notMem {key : String} {v : Json} {members : List (String × Json)}
    (absent : key ∉ members.map (·.1)) : upsert key v members = members ++ [(key, v)] := by
  induction members with
  | nil => rfl
  | cons member rest ih =>
    obtain ⟨differs, later⟩ := not_or.1 (List.mem_cons.not.1 absent)
    rw [upsert, if_neg (Ne.symm differs), ih later]
    rfl

/-- Members set under distinct keys that are not there follow in their order. -/
theorem foldl_upsert_eq_append {α : Type} {key : α → String} {value : α → Json} {items : List α}
    {members : List (String × Json)} (distinct : (members.map (·.1) ++ items.map key).Nodup) :
    items.foldl (fun members a => upsert (key a) (value a) members) members =
      members ++ items.map fun a => (key a, value a) := by
  induction items generalizing members with
  | nil => rw [List.foldl_nil, List.map_nil, List.append_nil]
  | cons a rest ih =>
    have absent : key a ∉ members.map (·.1) := fun there =>
      (List.nodup_append.1 distinct).2.2 _ there _ List.mem_cons_self rfl
    have extended : ((members ++ [(key a, value a)]).map (·.1) ++ rest.map key).Nodup := by
      simpa using distinct
    rw [List.foldl_cons, upsert_of_notMem absent, ih extended, List.append_assoc]
    rfl

/-- Setting a key keeps the keys distinct. -/
theorem nodup_upsert {members : List (String × Json)} (distinct : (members.map (·.1)).Nodup)
    (key : String) (v : Json) : ((upsert key v members).map (·.1)).Nodup := by
  rw [map_fst_upsert]
  by_cases there : key ∈ members.map (·.1)
  · rwa [if_pos there]
  · rw [if_neg there, ← List.concat_eq_append]
    exact distinct.concat there

/-- A member after a key was set is the new one or was there before. -/
theorem mem_upsert {key : String} {v : Json} {members : List (String × Json)}
    {member : String × Json} (h : member ∈ upsert key v members) :
    member = (key, v) ∨ member ∈ members := by
  induction members with
  | nil => exact Or.inl (List.mem_singleton.1 h)
  | cons first rest ih =>
    obtain ⟨k, w⟩ := first
    rw [upsert] at h
    by_cases here : k = key
    · rw [if_pos here] at h
      rcases List.mem_cons.1 h with new | later
      · exact Or.inl (new.trans (by rw [here]))
      · exact Or.inr (List.mem_cons_of_mem _ later)
    · rw [if_neg here] at h
      rcases List.mem_cons.1 h with rfl | later
      · exact Or.inr List.mem_cons_self
      · exact (ih later).imp_right (List.mem_cons_of_mem _)

/-- The texts of members are replaced where they stand. -/
theorem mapStringsMembers_eq_map (f : String → String) (members : List (String × Json)) :
    mapStringsMembers f members = members.map fun (key, j) => (key, j.mapStrings f) := by
  induction members with
  | nil => rfl
  | cons member rest ih => rw [mapStringsMembers, ih, List.map_cons]

/-- The items of an array are reduced one by one. -/
theorem normalItems_eq_map (items : List Json) : normalItems items = items.map normal := by
  induction items with
  | nil => rfl
  | cons j rest ih => rw [normalItems, ih, List.map_cons]

/-- Members of distinct keys are collected as they are. -/
theorem normalMembers_eq_append {collected members : List (String × Json)}
    (distinct : ((collected ++ members).map (·.1)).Nodup)
    (each : ∀ member ∈ members, member.2.normal = member.2) :
    normalMembers collected members = collected ++ members := by
  induction members generalizing collected with
  | nil => rw [normalMembers, List.append_nil]
  | cons member rest ih =>
    obtain ⟨key, j⟩ := member
    obtain ⟨here, later⟩ := List.forall_mem_cons.1 each
    have absent : key ∉ collected.map (·.1) := by
      rw [List.map_append, List.map_cons] at distinct
      exact fun there => (List.nodup_append.1 distinct).2.2 _ there _ List.mem_cons_self rfl
    have split : collected ++ (key, j) :: rest = collected ++ [(key, j)] ++ rest := by simp
    rw [normalMembers, upsert_of_notMem absent, here, ih (by rwa [← split]) later, split]

namespace Faithful

variable {j : Json}

/-- The keys of a faithful object are distinct. -/
theorem nodup_keys {members : List (String × Json)} (h : Faithful (.object members)) :
    (members.map (·.1)).Nodup := by
  cases h with
  | object distinct => exact distinct

/-- Every count is faithful. -/
theorem count (n : UInt64) : Faithful (.integer n.toNat) := .natural n.toNat_lt

/-- Every small count is faithful. -/
theorem smallCount (n : UInt32) : Faithful (.integer n.toNat) :=
  .natural (n.toNat_lt.trans (by decide))

/-- A faithful value comes back as it was. -/
theorem asWritten_eq (h : Faithful j) : j.asWritten = j := by
  induction h with
  | null | bool b | string s => rfl
  | natural fits => exact asWritten_natCast fits
  | negative fits => exact asWritten_negSucc fits
  | decimal finite => rw [asWritten, if_pos finite]
  | array _ ih => rw [asWritten_array, List.map_congr_left ih, List.map_id']
  | object _ _ ih =>
    rw [asWritten_object, List.map_congr_left fun member given =>
      congrArg (Prod.mk member.1) (ih member given), List.map_id']

/-- A faithful value has one member for each key already. -/
theorem normal_eq (h : Faithful j) : j.normal = j := by
  induction h with
  | null | bool b | natural fits | negative fits | decimal finite | string s => rfl
  | array _ ih => rw [normal, normalItems_eq_map, List.map_congr_left ih, List.map_id']
  | object distinct _ ih =>
    rw [normal, normalMembers_eq_append (by exact distinct) ih, List.nil_append]

/-- The text of a faithful value is read as that value. -/
theorem parse_pretty_eq (h : Faithful j) : parse j.pretty = some j := by
  rw [parse_pretty, h.asWritten_eq]

/-- The compact text of a faithful value is read as that value. -/
theorem parse_compact_eq (h : Faithful j) : parse j.compact = some j := by
  rw [parse_compact, h.asWritten_eq]

/-- A value stays faithful when its texts are replaced. -/
theorem mapStrings (h : Faithful j) (f : String → String) : Faithful (j.mapStrings f) := by
  induction h with
  | null => exact .null
  | bool b => exact .bool b
  | natural fits => exact .natural fits
  | negative fits => exact .negative fits
  | decimal finite => exact .decimal finite
  | string s => exact .string (f s)
  | array _ ih =>
    rw [Json.mapStrings, mapStringsItems_eq_map]
    exact .array (List.forall_mem_map.2 ih)
  | object distinct _ ih =>
    rw [Json.mapStrings, mapStringsMembers_eq_map]
    refine .object ?_ (List.forall_mem_map.2 ih)
    rwa [List.map_map]

/-- A value stays faithful when a member of it is set. -/
theorem set (h : Faithful j) (key : String) {v : Json} (given : Faithful v) :
    Faithful (j.set key v) := by
  cases h with
  | object distinct each =>
    refine .object (nodup_upsert distinct key v) fun member there => ?_
    rcases mem_upsert there with rfl | before
    · exact given
    · exact each member before
  | null => exact .null
  | bool b => exact .bool b
  | natural fits => exact .natural fits
  | negative fits => exact .negative fits
  | decimal finite => exact .decimal finite
  | string s => exact .string s
  | array each => exact .array each

end Faithful

/-- What is written for something is read as the very same thing: its JSON form, and
the texts of that form. -/
structure ReadsBack {α : Type} (write : α → Json) (read : Json → Except Refusal α) (a : α) :
    Prop where
  /-- The JSON form is read back. -/
  tree : read (write a) = .ok a
  /-- So is its compact text. -/
  compact : ∃ j, parse (write a).compact = some j ∧ read j = .ok a
  /-- So is its indented text. -/
  pretty : ∃ j, parse (write a).pretty = some j ∧ read j = .ok a

/-- The texts of a faithful form are read back if the form is. -/
theorem Faithful.readsBack {α : Type} {write : α → Json} {read : Json → Except Refusal α} {a : α}
    (h : Faithful (write a)) (tree : read (write a) = .ok a) : ReadsBack write read a :=
  ⟨tree, ⟨_, h.parse_compact_eq, tree⟩, ⟨_, h.parse_pretty_eq, tree⟩⟩

end RunReport.Json
