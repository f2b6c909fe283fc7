import RunReport.Json.Record
import RunReport.Metric.Field
import RunReport.Metric.Registry

/-!
# The metric dictionary

A dictionary defines metrics for the reader of a report. Its entries are kept
in the order of their keys, so that two dictionaries with the same definitions
are equal. A projection on given keys keeps their order and fails on the first
one that has no definition.
-/

namespace RunReport

/-- What a reader is told about a metric. -/
structure Definition where
  /-- Short name. -/
  shortDescription : String
  /-- What it measures. -/
  description : String
  /-- Unit of its values. -/
  unit : String := ""
  /-- Decimal places shown. -/
  precision : Nat := 0
  /-- Whether it is instant or distributional, in a word. -/
  kind : String
  deriving DecidableEq

namespace Definition

/-- The definition that a field carries with it. -/
def ofField (f : Field) : Definition := ⟨f.label, f.description, f.unit, f.precision, f.kind.name⟩

/-- Members of a definition as an object has them. -/
def members (d : Definition) : List (String × Json) :=
  [("short_desc", .string d.shortDescription), ("description", .string d.description),
    ("unit", .string d.unit), ("precision", .integer d.precision), ("kind", .string d.kind)]

/-- A definition from its record; unit and precision may be absent. -/
def ofJson : Json → Except Json.Refusal Definition :=
  Json.readRecord ["short_desc", "description", "unit", "precision", "kind"] fun r =>
    Definition.mk <$> r.field "short_desc" Json.readText
      <*> r.field "description" Json.readText
      <*> r.fieldOr "unit" "" Json.readText
      <*> r.fieldOr "precision" 0 (Json.readBelow 256)
      <*> r.field "kind" Json.readText

end Definition

/-- A definition together with its key. -/
structure DictionaryEntry where
  /-- The key. -/
  key : String
  /-- What the dictionary says about it. -/
  definition : Definition
  deriving DecidableEq

/-- An entry as an object. -/
def DictionaryEntry.toJson (e : DictionaryEntry) : Json :=
  .object (("key", .string e.key) :: e.definition.members)

/-- Definitions by key, the keys in increasing order. -/
structure Dictionary where
  /-- Keys and definitions. -/
  entries : List (String × Definition)
  /-- Every key is above those before it. -/
  sorted : entries.Pairwise (fun a b => a.1 < b.1)

namespace Dictionary

/-- Entries in key order with one more definition, in place of one of the same key. -/
def insertEntry (key : String) (d : Definition) :
    List (String × Definition) → List (String × Definition)
  | [] => [(key, d)]
  | (k, e) :: rest =>
    if key < k then (key, d) :: (k, e) :: rest
    else if key = k then (key, d) :: rest
    else (k, e) :: insertEntry key d rest

/-- An entry after an insertion is the new one or was there before. -/
theorem mem_insertEntry {key : String} {d : Definition} {entries : List (String × Definition)}
    {x : String × Definition} (h : x ∈ insertEntry key d entries) :
    x = (key, d) ∨ x ∈ entries := by
  induction entries with
  | nil => exact Or.inl (List.mem_singleton.1 h)
  | cons head rest ih =>
    unfold insertEntry at h
    split at h
    · exact List.mem_cons.1 h
    · split at h
      · rcases List.mem_cons.1 h with h | h
        · exact Or.inl h
        · exact Or.inr (List.mem_cons_of_mem _ h)
      · rcases List.mem_cons.1 h with h | h
        · exact Or.inr (h ▸ List.mem_cons_self)
        · rcases ih h with h | h
          · exact Or.inl h
          · exact Or.inr (List.mem_cons_of_mem _ h)

/-- Insertion keeps the order of the keys. -/
theorem sorted_insertEntry (key : String) (d : Definition) {entries : List (String × Definition)}
    (h : entries.Pairwise (fun a b => a.1 < b.1)) :
    (insertEntry key d entries).Pairwise (fun a b => a.1 < b.1) := by
  induction entries with
  | nil => exact List.pairwise_singleton _ _
  | cons head rest ih =>
    obtain ⟨above, ordered⟩ := List.pairwise_cons.1 h
    unfold insertEntry
    split
    · rename_i below
      refine List.pairwise_cons.2 ⟨fun x hx => ?_, h⟩
      rcases List.mem_cons.1 hx with rfl | hx
      · exact below
      · exact String.lt_trans below (above x hx)
    · split
      · rename_i _ same
        exact List.pairwise_cons.2 ⟨fun x hx => by simpa [same] using above x hx, ordered⟩
      · rename_i notBelow different
        refine List.pairwise_cons.2 ⟨fun x hx => ?_, ih ordered⟩
        rcases mem_insertEntry hx with rfl | hx
        · exact Decidable.byContradiction fun notAbove =>
            different (String.le_antisymm (String.not_lt.1 notAbove) (String.not_lt.1 notBelow))
        · exact above x hx

/-- The dictionary without entries. -/
def empty : Dictionary := ⟨[], List.Pairwise.nil⟩

/-- The dictionary with one more definition, in place of one of the same key. -/
def insert (dictionary : Dictionary) (key : String) (d : Definition) : Dictionary :=
  ⟨insertEntry key d dictionary.entries, sorted_insertEntry key d dictionary.sorted⟩

/-- The dictionary of a list of definitions, a later one of the same key winning. -/
def ofList (definitions : List (String × Definition)) : Dictionary :=
  definitions.foldl (fun dictionary (key, d) => dictionary.insert key d) empty

/-- The definition of a key. -/
def get? (dictionary : Dictionary) (key : String) : Option Definition :=
  (dictionary.entries.find? (·.1 = key)).map (·.2)

/-- The dictionary that defines every field of a registry. -/
def ofRegistry (r : Registry) : Dictionary :=
  ofList (r.fields.map fun f => (f.name, Definition.ofField f))

/-- The entries of exactly the given keys in their order. A key without
definition is refused on behalf of whoever refers to it. -/
def onlyKeys (dictionary : Dictionary) (keys : List String) (referencedBy : String) :
    Except Failure (List DictionaryEntry) :=
  keys.mapM fun key => match dictionary.get? key with
    | some d => .ok ⟨key, d⟩
    | none => .error (.missingMetricDefinition key referencedBy)

/-- A dictionary as an object. -/
def toJson (dictionary : Dictionary) : Json :=
  .object (dictionary.entries.map fun (key, d) => (key, .object d.members))

/-- A dictionary from an object of definitions. -/
def ofJson : Json → Except Json.Refusal Dictionary
  | .object members => do
    let definitions ← members.mapM fun (key, j) => (Definition.ofJson j).map (key, ·)
    return ofList definitions
  | _ => .error .malformed

end Dictionary

/-- Keys charted for the performance of the cluster: every metric of the machines. -/
def clusterPerformanceKeys : List String := machineMetrics

/-- Keys charted for the propagation of blocks: every metric of block propagation. -/
def blockPropagationKeys : List String := propagationMetrics

end RunReport
