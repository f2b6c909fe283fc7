import RunReport.Proofs.Json.Faithful
import RunReport.Proofs.Json.Record
import RunReport.Metric.Dictionary

/-!
# Dictionaries that are written and read back

A dictionary that was read is written as an object of its definitions in the order
of their keys, and reading that object gives the dictionary again.
-/

namespace RunReport

open Json

/-- The decimal places of a definition fit 64 bits. -/
def Definition.Fits (d : Definition) : Prop := d.precision < 2 ^ 64

instance : DecidablePred Definition.Fits :=
  fun d => inferInstanceAs (Decidable (d.precision < 2 ^ 64))

/-- The members of a definition are faithful if its decimal places fit. -/
theorem Definition.faithful_members {d : Definition} (fits : d.Fits) :
    Faithful (.object d.members) :=
  .object (by simp [members]) (by simp [members, Faithful.string, Faithful.natural fits])

/-- A dictionary is faithful if its decimal places fit: its keys are distinct since
they are in increasing order. -/
theorem Dictionary.faithful_toJson {d : Dictionary} (fits : ∀ entry ∈ d.entries, entry.2.Fits) :
    d.toJson.Faithful := by
  refine .object ?_ (List.forall_mem_map.2 fun entry given =>
    Definition.faithful_members (fits entry given))
  rw [List.map_map]
  exact List.pairwise_map.2 (d.sorted.imp fun above => String.ne_of_lt above)

/-- What is read as a definition has decimal places of one byte. -/
theorem Definition.precision_lt_of_ofJson {j : Json} {d : Definition} (read : ofJson j = .ok d) :
    d.precision < 256 := by
  obtain ⟨r, _, done⟩ := exists_of_readRecord read
  simp only [Reading.seq_eq_done_iff, Reading.map_eq_done_iff] at done
  obtain ⟨_, kind, ⟨_, precision, ⟨_, unit, ⟨_, description, ⟨short, _, rfl⟩, _, rfl⟩, _, rfl⟩,
    reads, rfl⟩, _, rfl⟩ := done
  have small : precision < 256 := by
    rcases exists_of_memberOr reads with absent | ⟨m, _, given⟩
    · obtain rfl := Reading.done.inj absent
      decide
    · exact lt_of_readBelow given
  exact small

/-- A definition with decimal places of one byte is read back. -/
theorem Definition.ofJson_members {d : Definition} (small : d.precision < 256) :
    ofJson (.object d.members) = .ok d := by
  have names : (d.members.map (·.1)).Nodup := by simp [members]
  rw [ofJson, readRecord_object_eq_ok_iff, field_at names 0 rfl (readText_string _),
    field_at names 1 rfl (readText_string _), fieldOr_at names 2 rfl (readText_string _),
    fieldOr_at names 3 rfl (readBelow_natCast small), field_at names 4 rfl (readText_string _)]
  rfl

namespace Dictionary

/-- The definitions of a dictionary are among those that it was made of. -/
theorem mem_of_mem_ofList {definitions : List (String × Definition)} {entry : String × Definition}
    (given : entry ∈ (ofList definitions).entries) : entry ∈ definitions := by
  have each : ∀ dictionary : Dictionary,
      entry ∈ (definitions.foldl (fun d entry => d.insert entry.1 entry.2) dictionary).entries →
        entry ∈ dictionary.entries ∨ entry ∈ definitions := by
    clear given
    induction definitions with
    | nil => exact fun _ given => Or.inl given
    | cons first rest ih =>
      intro dictionary given
      rcases ih _ given with before | later
      · rcases mem_insertEntry before with new | before
        · exact Or.inr (new ▸ List.mem_cons_self)
        · exact Or.inl before
      · exact Or.inr (List.mem_cons_of_mem _ later)
  exact (each empty given).resolve_left List.not_mem_nil

/-- A key above all others is added at the end. -/
theorem insertEntry_of_above {key : String} {d : Definition} {entries : List (String × Definition)}
    (above : ∀ entry ∈ entries, entry.1 < key) :
    insertEntry key d entries = entries ++ [(key, d)] := by
  induction entries with
  | nil => rfl
  | cons head rest ih =>
    obtain ⟨below, later⟩ := List.forall_mem_cons.1 above
    rw [insertEntry, if_neg (String.lt_asymm below), if_neg (String.ne_of_lt below).symm, ih later]
    rfl

/-- Entries in the order of their keys are added one after the other. -/
theorem entries_foldl_insert {entries : List (String × Definition)} {dictionary : Dictionary}
    (sorted : (dictionary.entries ++ entries).Pairwise (fun a b => a.1 < b.1)) :
    (entries.foldl (fun d entry => d.insert entry.1 entry.2) dictionary).entries =
      dictionary.entries ++ entries := by
  induction entries generalizing dictionary with
  | nil => rw [List.foldl_nil, List.append_nil]
  | cons entry rest ih =>
    have above : ∀ other ∈ dictionary.entries, other.1 < entry.1 := fun other given =>
      (List.pairwise_append.1 sorted).2.2 other given entry List.mem_cons_self
    have extended : (dictionary.insert entry.1 entry.2).entries = dictionary.entries ++ [entry] :=
      insertEntry_of_above above
    have whole : dictionary.entries ++ entry :: rest = dictionary.entries ++ [entry] ++ rest := by
      simp
    rw [List.foldl_cons, ih (by rwa [extended, ← whole]), extended, ← whole]

/-- A dictionary is made of its own entries. -/
theorem ofList_entries (d : Dictionary) : ofList d.entries = d := by
  have entries : (ofList d.entries).entries = d.entries := entries_foldl_insert d.sorted
  obtain ⟨listed, sorted⟩ := d
  generalize ofList listed = made at entries
  obtain ⟨others, order⟩ := made
  obtain rfl : others = listed := entries
  rfl

/-- What is read as a dictionary has decimal places of one byte throughout. -/
theorem precision_lt_of_ofJson {j : Json} {d : Dictionary} (read : ofJson j = .ok d) :
    ∀ entry ∈ d.entries, entry.2.precision < 256 := by
  cases j with
  | object members =>
    obtain ⟨definitions, each, read⟩ := Traversal.bind_eq_ok_iff.1 read
    obtain rfl := Except.ok.inj read
    intro entry given
    obtain ⟨⟨key, j⟩, _, reads⟩ :=
      (Traversal.mem_iff_of_mapM each).1 (mem_of_mem_ofList given)
    obtain ⟨definition, taken, rfl⟩ := Traversal.map_eq_ok_iff.1 reads
    exact Definition.precision_lt_of_ofJson taken
  | null | bool | integer | decimal | string | array | unreadable => cases read

/-- A dictionary is read back if its decimal places are of one byte. -/
theorem ofJson_toJson {d : Dictionary} (small : ∀ entry ∈ d.entries, entry.2.precision < 256) :
    ofJson d.toJson = .ok d := by
  refine Traversal.bind_eq_ok_iff.2 ⟨d.entries, ?_, congrArg Except.ok d.ofList_entries⟩
  rw [Traversal.mapM_eq_ok_iff, List.forall₂_map_left_iff]
  exact List.forall₂_same.2 fun entry given =>
    Traversal.map_eq_ok_iff.2 ⟨entry.2, Definition.ofJson_members (small entry given), rfl⟩

/-- A dictionary that was read is read back. -/
theorem readsBack_of_ofJson {j : Json} {d : Dictionary} (read : ofJson j = .ok d) :
    ReadsBack toJson ofJson d := by
  have small := precision_lt_of_ofJson read
  have fits : ∀ entry ∈ d.entries, entry.2.Fits := fun entry given =>
    (small entry given).trans (by decide)
  exact (faithful_toJson fits).readsBack (ofJson_toJson small)

end Dictionary

end RunReport
