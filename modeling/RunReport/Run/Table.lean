import RunReport.Distribution.Basic
import RunReport.Distribution.Merge
import RunReport.Metric.Field

/-!
# Tables of distributions

A table holds one distribution for each name of a fixed list, in that order.
Two tables merge name by name; the first name whose distributions do not merge
is the one reported.
-/

namespace RunReport

/-- One distribution for each of the given names. -/
structure DistributionTable (names : List String) where
  /-- The distributions in the order of the names. -/
  entries : List (Distribution Binary64)
  /-- There is one for each name. -/
  complete : entries.length = names.length
  deriving DecidableEq

namespace DistributionTable

variable {names : List String}

/-- Names and distributions in pairs. -/
def named (t : DistributionTable names) : List (String × Distribution Binary64) :=
  names.zip t.entries

/-- The distribution of a name. -/
def find? (t : DistributionTable names) (name : String) : Option (Distribution Binary64) :=
  (t.named.find? (·.1 = name)).map (·.2)

/-- Merges distributions of the same name one after the other. -/
def mergeEntries : List String → List (Distribution Binary64) → List (Distribution Binary64) →
    Except Failure (List (Distribution Binary64))
  | name :: names, a :: as, b :: bs =>
    match a.merge b with
    | .error refusal => .error (refusal.failure (some name))
    | .ok d => match mergeEntries names as bs with
      | .error failure => .error failure
      | .ok rest => .ok (d :: rest)
  | _, _, _ => .ok []

/-- A merge that succeeds gives one distribution for each name. -/
theorem length_mergeEntries {names : List String} {as bs ds : List (Distribution Binary64)}
    (h : mergeEntries names as bs = .ok ds) (ha : as.length = names.length)
    (hb : bs.length = names.length) : ds.length = names.length := by
  induction names generalizing as bs ds with
  | nil =>
    simp only [mergeEntries, Except.ok.injEq] at h
    simp [← h]
  | cons name names ih =>
    match as, bs, ha, hb with
    | a :: as, b :: bs, ha, hb =>
      simp only [mergeEntries] at h
      split at h
      · exact absurd h (by simp)
      · split at h
        · exact absurd h (by simp)
        · rename_i rest hrest
          injection h with h
          have := ih hrest (by simpa using ha) (by simpa using hb)
          simp [← h, this]

/-- Two tables merged name by name. -/
def merge (a b : DistributionTable names) : Except Failure (DistributionTable names) :=
  match h : mergeEntries names a.entries b.entries with
  | .error failure => .error failure
  | .ok ds => .ok ⟨ds, length_mergeEntries h a.complete b.complete⟩

/-- Tables merged from left to right. -/
def mergeAll : List (DistributionTable names) → Except Failure (DistributionTable names)
  | [] => .error (.emptyRunSet "no runs to merge")
  | first :: rest => rest.foldlM merge first

/-- A table as an object. -/
def toJson (t : DistributionTable names) : Json :=
  .object (t.named.map fun (name, d) => (name, d.toJson))

/-- The distributions of the given names in a record. -/
def readEntries (r : Json.Record) :
    (names : List String) → Json.Reading (DistributionTable names)
  | [] => pure ⟨[], rfl⟩
  | name :: names =>
    (fun d t => ⟨d :: t.entries, congrArg (· + 1) t.complete⟩) <$>
      r.field name Distribution.ofJson <*> readEntries r names

/-- A table from its record. -/
def ofJson (names : List String) : Json → Except Json.Refusal (DistributionTable names) :=
  Json.readRecord names fun r => readEntries r names

end DistributionTable

end RunReport
