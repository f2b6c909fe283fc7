import Mathlib.Data.List.Nodup
import RunReport.Json.Basic

/-!
# Members of objects

Setting a member changes what its key leads to and nothing else. Of members that
are set one after the other under distinct keys, each can be looked up at the end.
Replacing the texts in an object leaves its keys as they are.
-/

namespace RunReport.Json

/-- What is found under a key is a member. -/
theorem mem_of_lookup {key : String} {j : Json} {members : List (String × Json)}
    (found : lookup key members = some j) : (key, j) ∈ members := by
  induction members with
  | nil => cases found
  | cons member rest ih =>
    obtain ⟨k, v⟩ := member
    rw [lookup] at found
    split at found
    · rename_i here
      obtain rfl := Option.some.inj found
      exact here ▸ List.mem_cons_self
    · exact List.mem_cons_of_mem _ (ih found)

/-- A member that was set is found under its key; others are found as before. -/
theorem lookup_upsert (key other : String) (v : Json) (members : List (String × Json)) :
    lookup other (upsert key v members) = if key = other then some v else lookup other members := by
  induction members with
  | nil => simp [upsert, lookup]
  | cons member rest ih =>
    obtain ⟨k, w⟩ := member
    rw [upsert]
    by_cases here : k = key
    · rw [if_pos here, lookup, lookup, here]
      by_cases same : key = other
      · rw [if_pos same, if_pos same]
      · rw [if_neg same, if_neg same, if_neg same]
    · rw [if_neg here, lookup, lookup, ih]
      by_cases first : k = other
      · have differs : ¬ key = other := fun same => here (first.trans same.symm)
        rw [if_pos first, if_neg differs, if_pos first]
      · rw [if_neg first, if_neg first]

variable {α : Type} {key : α → String} {value : α → Json} {other : String}

/-- What is set under other keys leaves a member as it is. -/
theorem lookup_foldl_upsert_of_notMem {items : List α} {members : List (String × Json)}
    (absent : other ∉ items.map key) :
    lookup other (items.foldl (fun members a => upsert (key a) (value a) members) members) =
      lookup other members := by
  induction items generalizing members with
  | nil => rfl
  | cons a rest ih =>
    obtain ⟨differs, later⟩ := not_or.1 (List.mem_cons.not.1 absent)
    rw [List.foldl_cons, ih later, lookup_upsert, if_neg (Ne.symm differs)]

/-- Of members set under distinct keys each one stays. -/
theorem lookup_foldl_upsert_of_mem {items : List α} {members : List (String × Json)} {a : α}
    (distinct : (items.map key).Nodup) (ha : a ∈ items) :
    lookup (key a) (items.foldl (fun members a => upsert (key a) (value a) members) members) =
      some (value a) := by
  induction items generalizing members with
  | nil => cases ha
  | cons b rest ih =>
    obtain ⟨fresh, distinct⟩ := List.nodup_cons.1 distinct
    rw [List.foldl_cons]
    rcases List.mem_cons.1 ha with rfl | ha
    · rw [lookup_foldl_upsert_of_notMem fresh, lookup_upsert, if_pos rfl]
    · exact ih distinct ha

/-- The texts of a member are replaced where it stands. -/
theorem lookup_mapStringsMembers (f : String → String) (key : String)
    (members : List (String × Json)) :
    lookup key (mapStringsMembers f members) = (lookup key members).map (mapStrings f) := by
  induction members with
  | nil => rfl
  | cons member rest ih =>
    obtain ⟨k, j⟩ := member
    rw [mapStringsMembers, lookup, lookup]
    by_cases here : k = key
    · rw [if_pos here, if_pos here]
      rfl
    · rw [if_neg here, if_neg here, ih]

/-- The texts of an item are replaced where it stands. -/
theorem mapStringsItems_eq_map (f : String → String) (items : List Json) :
    mapStringsItems f items = items.map (mapStrings f) := by
  induction items with
  | nil => rfl
  | cons j rest ih => rw [mapStringsItems, ih, List.map_cons]

end RunReport.Json
