import Mathlib.Data.List.Nodup
import RunReport.Metric.Dictionary

/-!
# What a dictionary defines

A dictionary defines the keys of its entries, each by its own entry. A definition
that is inserted is found under its key, and others are found as before. So the
dictionary that follows from a registry defines every field of it by what the field
says about itself, and has no other entries.
-/

namespace RunReport.Dictionary

/-- What is found under a key is the definition of the entry with that key. -/
theorem get?_eq_some_iff {dictionary : Dictionary} {key : String} {d : Definition} :
    dictionary.get? key = some d ↔ (key, d) ∈ dictionary.entries := by
  obtain ⟨entries, sorted⟩ := dictionary
  rw [get?]
  induction entries with
  | nil => simp
  | cons entry rest ih =>
    obtain ⟨k, e⟩ := entry
    obtain ⟨above, sorted⟩ := List.pairwise_cons.1 sorted
    rw [List.find?_cons, List.mem_cons]
    by_cases here : k = key
    · subst here
      have fresh : (k, d) ∉ rest := fun later => absurd (above _ later) (String.lt_irrefl k)
      simp [fresh, eq_comm]
    · rw [decide_eq_false here]
      simpa [Ne.symm here] using ih sorted

/-- Entries with one more definition have it under its key, and others as before. -/
theorem find?_insertEntry (key other : String) (d : Definition)
    (entries : List (String × Definition)) :
    (insertEntry key d entries).find? (·.1 = other) =
      if key = other then some (key, d) else entries.find? (·.1 = other) := by
  induction entries with
  | nil => by_cases same : key = other <;> simp [insertEntry, same]
  | cons entry rest ih =>
    obtain ⟨k, e⟩ := entry
    rw [insertEntry]
    by_cases below : key < k
    · rw [if_pos below, List.find?_cons]
      by_cases same : key = other <;> simp [same]
    · rw [if_neg below]
      by_cases here : key = k
      · rw [if_pos here, List.find?_cons, List.find?_cons, here]
        by_cases same : k = other <;> simp [same]
      · rw [if_neg here, List.find?_cons, List.find?_cons, ih]
        by_cases first : k = other
        · have differs : ¬ key = other := fun same => here (same.trans first.symm)
          simp [first, differs]
        · simp [first]

/-- A definition that is inserted is found under its key, others as before. -/
theorem get?_insert (dictionary : Dictionary) (key other : String) (d : Definition) :
    (dictionary.insert key d).get? other =
      if key = other then some d else dictionary.get? other := by
  rw [get?, insert, find?_insertEntry]
  by_cases same : key = other
  · rw [if_pos same, if_pos same]
    rfl
  · rw [if_neg same, if_neg same]
    rfl

variable {definitions : List (String × Definition)} {key : String} {d : Definition}

/-- What is inserted under other keys leaves a definition as it is. -/
theorem get?_foldl_insert_of_notMem {dictionary : Dictionary}
    (absent : key ∉ definitions.map (·.1)) :
    (definitions.foldl (fun dictionary (key, d) => dictionary.insert key d) dictionary).get? key =
      dictionary.get? key := by
  induction definitions generalizing dictionary with
  | nil => rfl
  | cons entry rest ih =>
    obtain ⟨differs, later⟩ := not_or.1 (List.mem_cons.not.1 absent)
    rw [List.foldl_cons, ih later, get?_insert, if_neg (Ne.symm differs)]

/-- Of definitions under distinct keys each one is found. -/
theorem get?_ofList_of_mem (distinct : (definitions.map (·.1)).Nodup)
    (given : (key, d) ∈ definitions) : (ofList definitions).get? key = some d := by
  have any : ∀ dictionary : Dictionary, (definitions.foldl
      (fun dictionary (key, d) => dictionary.insert key d) dictionary).get? key = some d := by
    induction definitions with
    | nil => cases given
    | cons entry rest ih =>
      intro dictionary
      obtain ⟨fresh, distinct⟩ := List.nodup_cons.1 distinct
      rw [List.foldl_cons]
      rcases List.mem_cons.1 given with rfl | given
      · rw [get?_foldl_insert_of_notMem fresh, get?_insert, if_pos rfl]
      · exact ih distinct given _
  exact any empty

/-- The dictionary of a registry defines each field by what it says about itself. -/
theorem get?_ofRegistry {r : Registry} {f : Field} (declared : f ∈ r.fields) :
    (ofRegistry r).get? f.name = some (Definition.ofField f) := by
  refine get?_ofList_of_mem ?_ (List.mem_map_of_mem declared)
  rw [List.map_map]
  exact r.distinct

/-- A definition under a new key is one entry more. -/
theorem insertEntry_perm {entries : List (String × Definition)} (fresh : key ∉ entries.map (·.1)) :
    (insertEntry key d entries).Perm ((key, d) :: entries) := by
  induction entries with
  | nil => exact List.Perm.refl _
  | cons entry rest ih =>
    obtain ⟨k, e⟩ := entry
    obtain ⟨differs, later⟩ := not_or.1 (List.mem_cons.not.1 fresh)
    rw [insertEntry]
    by_cases below : key < k
    · rw [if_pos below]
    · rw [if_neg below, if_neg differs]
      exact ((ih later).cons (k, e)).trans (List.Perm.swap (key, d) (k, e) rest)

/-- Definitions under new and distinct keys are added to those that are there. -/
theorem foldl_insert_perm (dictionary : Dictionary)
    (distinct : ((dictionary.entries ++ definitions).map (·.1)).Nodup) :
    (definitions.foldl (fun dictionary (key, d) => dictionary.insert key d) dictionary).entries.Perm
      (dictionary.entries ++ definitions) := by
  induction definitions generalizing dictionary with
  | nil => rw [List.foldl_nil, List.append_nil]
  | cons entry rest ih =>
    obtain ⟨key, d⟩ := entry
    have moved : (dictionary.entries ++ (key, d) :: rest).Perm
        ((key, d) :: (dictionary.entries ++ rest)) := List.perm_middle
    have fresh : key ∉ dictionary.entries.map (·.1) := by
      have apart := (List.nodup_cons.1 ((moved.map (·.1)).nodup_iff.1 distinct)).1
      exact fun given => apart (List.map_append ▸ List.mem_append_left _ given)
    have grown : ((dictionary.insert key d).entries ++ rest).Perm
        ((key, d) :: (dictionary.entries ++ rest)) := (insertEntry_perm fresh).append_right rest
    rw [List.foldl_cons]
    refine (ih _ ?_).trans (grown.trans moved.symm)
    exact ((grown.trans moved.symm).map (·.1)).nodup_iff.2 distinct

/-- Definitions under distinct keys are the entries of their dictionary. -/
theorem entries_ofList_perm (distinct : (definitions.map (·.1)).Nodup) :
    (ofList definitions).entries.Perm definitions :=
  foldl_insert_perm empty distinct

/-- The dictionary of a registry has one entry for each field. -/
theorem entries_ofRegistry_perm (r : Registry) :
    (ofRegistry r).entries.Perm (r.fields.map fun f => (f.name, Definition.ofField f)) := by
  refine entries_ofList_perm ?_
  rw [List.map_map]
  exact r.distinct

end RunReport.Dictionary
