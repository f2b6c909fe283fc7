import RunReport.Proofs.Distribution.ReadBack
import RunReport.Proofs.Json.Genuine
import RunReport.Proofs.Metric.ReadBack
import RunReport.Proofs.Table.Transposition
import RunReport.Proofs.Time.ReadBack
import RunReport.Run.Json

/-!
# Runs that are written and read back

A run that was read has finite numbers and distributions that obey the rules. Such a
run is read back from its JSON form and from the texts of that form, whatever its
counts, its timestamp and its script, if it has one.
-/

namespace RunReport

open Json

/-- A manifest is faithful. -/
theorem Manifest.faithful_toJson (m : Manifest) : m.toJson.Faithful :=
  .object (by simp) (by simp [Faithful.string])

/-- A generator profile is faithful if its rate is finite. -/
theorem GeneratorProfile.faithful_toJson {g : GeneratorProfile} (finite : g.rate.isFinite = true) :
    g.toJson.Faithful := by
  obtain ⟨rate, transactions, inputs, outputs, script⟩ := g
  have rate := Faithful.decimal finite
  cases script with
  | none =>
    exact .object (by simp) (by simp [Faithful.count, Faithful.smallCount, rate])
  | some script =>
    exact .object (by simp) (by simp [Faithful.count, Faithful.smallCount, Faithful.string, rate])

/-- The identity of a run is faithful if the rate of its generator is finite. -/
theorem Metadata.faithful_toJson {m : Metadata} (finite : m.generator.rate.isFinite = true) :
    m.toJson.Faithful :=
  .object (by simp) (by simp [Timestamp.toJson, Faithful.string, Manifest.faithful_toJson,
    GeneratorProfile.faithful_toJson finite])

/-- The values of a run are faithful if they are finite. -/
theorem RunSummary.faithful_toJson {s : RunSummary} (duration : s.duration.isFinite = true)
    (targetRate : s.targetRate.isFinite = true) : s.toJson.Faithful :=
  .object (by simp) (by simp [Faithful.count, Faithful.smallCount, Faithful.decimal duration,
    Faithful.decimal targetRate])

/-- A distribution that obeys the rules is faithful. -/
theorem Distribution.Accepted.faithful_toJson {d : Distribution Binary64} (h : d.Accepted) :
    d.toJson.Faithful := by
  have finite := h.finite
  simp only [values, List.forall_mem_cons, List.forall_mem_map] at finite
  obtain ⟨centrality, spread, low, high, points⟩ := finite
  have probability : ∀ c ∈ d.percentiles, c.probability.isFinite = true := fun c given =>
    h.isFinite_grid (List.mem_map_of_mem given)
  have percentiles : Faithful (.array (d.percentiles.map Centile.toJson)) :=
    .array (List.forall_mem_map.2 fun c given => .object (by simp)
      (by simp [Faithful.decimal (probability c given), Faithful.decimal (points c given)]))
  exact .object (by simp) (by simp [Faithful.count, Faithful.decimal centrality,
    Faithful.decimal spread, Faithful.decimal low, Faithful.decimal high, percentiles])

namespace DistributionTable

variable {names : List String} {t : DistributionTable names}

/-- A table of distinct names is faithful if its distributions obey the rules. -/
theorem faithful_toJson (distinct : names.Nodup) (accepted : ∀ d ∈ t.entries, d.Accepted) :
    t.toJson.Faithful := by
  refine .object ?_ (List.forall_mem_map.2 fun entry given => ?_)
  · have keys : (t.named.map fun entry => (entry.1, entry.2.toJson)).map (·.1) = names := by
      rw [List.map_map]
      exact List.map_fst_zip t.complete.ge
    rwa [keys]
  · exact (accepted entry.2 (List.of_mem_zip given).2).faithful_toJson

end DistributionTable

/-- A run with finite numbers and distributions that obey the rules. -/
structure Run.Sound (run : Run) : Prop where
  /-- The rate of the generator is finite. -/
  rate : run.metadata.generator.rate.isFinite = true
  /-- The duration is finite. -/
  duration : run.summary.duration.isFinite = true
  /-- The rate that the generator aims at is finite. -/
  targetRate : run.summary.targetRate.isFinite = true
  /-- The distributions over the machines obey the rules. -/
  machines : ∀ d ∈ run.machines.entries, d.Accepted
  /-- So do those of block propagation. -/
  propagation : ∀ d ∈ run.propagation.entries, d.Accepted

/-- A sound run is faithful. -/
theorem Run.Sound.faithful_toJson {run : Run} (h : run.Sound) : run.toJson.Faithful :=
  .object (by simp) (by simp [Metadata.faithful_toJson h.rate,
    RunSummary.faithful_toJson h.duration h.targetRate,
    DistributionTable.faithful_toJson (by decide) h.machines,
    DistributionTable.faithful_toJson (by decide) h.propagation])

/-- A manifest is read back. -/
theorem Manifest.ofJson_toJson (m : Manifest) : ofJson m.toJson = .ok m := by
  have names := m.faithful_toJson.nodup_keys
  rw [toJson, ofJson, readRecord_object_eq_ok_iff, field_at names 0 rfl (readText_string _),
    field_at names 1 rfl (readText_string _), field_at names 2 rfl (readText_string _),
    field_at names 3 rfl (readText_string _)]
  rfl

/-- A generator profile is read back, with or without a script, if its rate is finite. -/
theorem GeneratorProfile.ofJson_toJson {g : GeneratorProfile} (finite : g.rate.isFinite = true) :
    ofJson g.toJson = .ok g := by
  have names := (faithful_toJson finite).nodup_keys
  rw [ofJson, toJson, readRecord_object_eq_ok_iff, field_at names 0 rfl (readNumeric_decimal _),
    field_at names 1 rfl (readCount_toNat _), field_at names 2 rfl (readSmallCount_toNat _),
    field_at names 3 rfl (readSmallCount_toNat _)]
  obtain ⟨rate, transactions, inputs, outputs, script⟩ := g
  cases script with
  | none =>
    rw [fieldOr_absent (by simp)]
    rfl
  | some script =>
    have given : readOptional readText (.string script) = .ok (some script) := rfl
    rw [fieldOr_at names 4 rfl given]
    rfl

/-- A timestamp is read back. -/
theorem Timestamp.ofJson_toJson (t : Timestamp) : ofJson t.toJson = .ok t := by
  rw [ofJson, toJson, asString, Option.bind_some, ofText?_fullText, required]

/-- The identity of a run is read back if the rate of its generator is finite. -/
theorem Metadata.ofJson_toJson {m : Metadata} (finite : m.generator.rate.isFinite = true) :
    ofJson m.toJson = .ok m := by
  have names := (faithful_toJson finite).nodup_keys
  rw [ofJson, toJson, readRecord_object_eq_ok_iff, field_at names 0 rfl (readText_string _),
    field_at names 1 rfl (readText_string _), field_at names 2 rfl (readText_string _),
    field_at names 3 rfl (readText_string _), field_at names 4 rfl (Timestamp.ofJson_toJson _),
    field_at names 5 rfl (Manifest.ofJson_toJson _),
    field_at names 6 rfl (GeneratorProfile.ofJson_toJson finite)]
  rfl

/-- The values of a run are read back if they are finite. -/
theorem RunSummary.ofJson_toJson {s : RunSummary} (duration : s.duration.isFinite = true)
    (targetRate : s.targetRate.isFinite = true) : ofJson s.toJson = .ok s := by
  have names := (faithful_toJson duration targetRate).nodup_keys
  rw [ofJson, toJson, readRecord_object_eq_ok_iff, field_at names 0 rfl (readSmallCount_toNat _),
    field_at names 1 rfl (readCount_toNat _), field_at names 2 rfl (readCount_toNat _),
    field_at names 3 rfl (readCount_toNat _), field_at names 4 rfl (readCount_toNat _),
    field_at names 5 rfl (readNumeric_decimal _), field_at names 6 rfl (readNumeric_decimal _)]
  rfl

/-- A distribution that obeys the rules is read back, without its rules and with them. -/
theorem Distribution.Accepted.ofJson_toJson {d : Distribution Binary64} (h : d.Accepted) :
    ofJsonUnchecked d.toJson = .ok d ∧ Distribution.ofJson d.toJson = .ok d := by
  have unchecked := ofJsonUnchecked_asWritten_iff.2
    ⟨rfl, h.finite, fun p given => h.isFinite_grid given⟩
  rw [h.faithful_toJson.asWritten_eq] at unchecked
  exact ⟨unchecked, ofJson_eq_ok_iff.2 ⟨unchecked, make_eq_ok_iff.2 ⟨rfl, h⟩⟩⟩

namespace DistributionTable

variable {names : List String} {t : DistributionTable names} {r : Record}

/-- A table is read from a record if each of its distributions is. -/
theorem readEntries_eq_done (each : List.Forall₂
    (fun name d => r.field name Distribution.ofJson = .done d) names t.entries) :
    readEntries r names = .done t := by
  obtain ⟨entries, complete⟩ := t
  dsimp only at each
  induction each with
  | nil => rfl
  | cons head rest ih =>
    rw [readEntries, head, ih (List.Forall₂.length_eq rest).symm]
    rfl

/-- A table of distinct names is read back if its distributions obey the rules. -/
theorem ofJson_toJson (distinct : names.Nodup) (accepted : ∀ d ∈ t.entries, d.Accepted) :
    ofJson names t.toJson = .ok t := by
  have keys := (faithful_toJson distinct accepted).nodup_keys
  rw [ofJson, toJson, readRecord_object_eq_ok_iff]
  refine readEntries_eq_done (List.forall₂_iff_zip.2 ⟨t.complete.symm, fun {name d} given => ?_⟩)
  obtain ⟨i, here⟩ := List.getElem?_of_mem given
  have written : (t.named.map fun entry => (entry.1, entry.2.toJson))[i]? =
      some (name, d.toJson) := by
    rw [List.getElem?_map, named, here]
    rfl
  exact field_at keys i written (accepted d (List.of_mem_zip given).2).ofJson_toJson.2

/-- What is read as a table obeys the rules. -/
theorem accepted_of_ofJson {j : Json} (read : ofJson names j = .ok t) :
    ∀ d ∈ t.entries, d.Accepted := by
  obtain ⟨r, record, done⟩ := exists_of_readRecord read
  clear read record
  induction names with
  | nil =>
    obtain rfl := Reading.done.inj done
    exact List.forall_mem_nil _
  | cons name names ih =>
    obtain ⟨_, rest, step, later, rfl⟩ := Reading.seq_eq_done_iff.1 done
    obtain ⟨d, head, rfl⟩ := Reading.map_eq_done_iff.1 step
    obtain ⟨m, _, reads⟩ := exists_of_field head
    obtain ⟨_, made⟩ := Distribution.ofJson_eq_ok_iff.1 reads
    exact List.forall_mem_cons.2 ⟨(Distribution.make_eq_ok_iff.1 made).2, ih later⟩

end DistributionTable

/-- A sound run is read back. -/
theorem Run.Sound.ofJson_toJson {run : Run} (h : run.Sound) : ofJson run.toJson = .ok run := by
  have names := h.faithful_toJson.nodup_keys
  rw [ofJson, toJson, readRecord_object_eq_ok_iff,
    field_at names 0 rfl (Metadata.ofJson_toJson h.rate),
    field_at names 1 rfl (RunSummary.ofJson_toJson h.duration h.targetRate),
    field_at names 2 rfl (DistributionTable.ofJson_toJson (by decide) h.machines),
    field_at names 3 rfl (DistributionTable.ofJson_toJson (by decide) h.propagation)]
  rfl

/-- In what is read from a genuine value as a generator profile the rate is finite. -/
theorem GeneratorProfile.isFinite_of_ofJson {j : Json} {g : GeneratorProfile} (h : j.Genuine)
    (read : ofJson j = .ok g) : g.rate.isFinite = true := by
  obtain ⟨r, genuine, done⟩ := h.exists_of_readRecord read
  simp only [Reading.seq_eq_done_iff, Reading.map_eq_done_iff] at done
  obtain ⟨_, _, ⟨_, _, ⟨_, _, ⟨_, _, ⟨rate, reads, rfl⟩, _, rfl⟩, _, rfl⟩, _, rfl⟩, _, rfl⟩ := done
  obtain ⟨k, given, reads⟩ := genuine.exists_of_field reads
  exact given.isFinite_of_readNumeric reads

/-- So it is in what is read as the identity of a run. -/
theorem Metadata.isFinite_of_ofJson {j : Json} {m : Metadata} (h : j.Genuine)
    (read : ofJson j = .ok m) : m.generator.rate.isFinite = true := by
  obtain ⟨r, genuine, done⟩ := h.exists_of_readRecord read
  simp only [Reading.seq_eq_done_iff, Reading.map_eq_done_iff] at done
  obtain ⟨_, generator, ⟨_, _, ⟨_, _, ⟨_, _, ⟨_, _, ⟨_, _, ⟨_, _, rfl⟩, _, rfl⟩, _, rfl⟩, _, rfl⟩,
    _, rfl⟩, _, rfl⟩, reads, rfl⟩ := done
  obtain ⟨k, given, reads⟩ := genuine.exists_of_field reads
  exact GeneratorProfile.isFinite_of_ofJson given reads

/-- In what is read from a genuine value as the values of a run these are finite. -/
theorem RunSummary.isFinite_of_ofJson {j : Json} {s : RunSummary} (h : j.Genuine)
    (read : ofJson j = .ok s) : s.duration.isFinite = true ∧ s.targetRate.isFinite = true := by
  obtain ⟨r, genuine, done⟩ := h.exists_of_readRecord read
  simp only [Reading.seq_eq_done_iff, Reading.map_eq_done_iff] at done
  obtain ⟨_, targetRate, ⟨_, duration, ⟨_, _, ⟨_, _, ⟨_, _, ⟨_, _, ⟨_, _, rfl⟩, _, rfl⟩, _, rfl⟩,
    _, rfl⟩, _, rfl⟩, readsDuration, rfl⟩, readsRate, rfl⟩ := done
  obtain ⟨k, given, readsDuration⟩ := genuine.exists_of_field readsDuration
  obtain ⟨l, given', readsRate⟩ := genuine.exists_of_field readsRate
  exact ⟨given.isFinite_of_readNumeric readsDuration, given'.isFinite_of_readNumeric readsRate⟩

/-- A run that is read from a genuine value is sound. -/
theorem Run.sound_of_ofJson {j : Json} {run : Run} (h : j.Genuine) (read : ofJson j = .ok run) :
    run.Sound := by
  obtain ⟨r, genuine, done⟩ := h.exists_of_readRecord read
  simp only [Reading.seq_eq_done_iff, Reading.map_eq_done_iff] at done
  obtain ⟨_, propagation, ⟨_, machines, ⟨_, summary, ⟨metadata, readsMetadata, rfl⟩, readsSummary,
    rfl⟩, readsMachines, rfl⟩, readsPropagation, rfl⟩ := done
  obtain ⟨k, given, readsMetadata⟩ := genuine.exists_of_field readsMetadata
  obtain ⟨l, given', readsSummary⟩ := genuine.exists_of_field readsSummary
  obtain ⟨_, _, readsMachines⟩ := exists_of_field readsMachines
  obtain ⟨_, _, readsPropagation⟩ := exists_of_field readsPropagation
  have finite := RunSummary.isFinite_of_ofJson given' readsSummary
  exact {
    rate := Metadata.isFinite_of_ofJson given readsMetadata
    duration := finite.1
    targetRate := finite.2
    machines := DistributionTable.accepted_of_ofJson readsMachines
    propagation := DistributionTable.accepted_of_ofJson readsPropagation }

/-- What is given to a report can be written and read back. What is read from a text is
genuine. A run that is read from a genuine value is read back as it is, and all of its
distributions obey the rules; so is a dictionary that is read from any value. Each
distribution that obeys the rules is read back as well, both where they are not applied
yet and where they are. -/
theorem inputs_read_back :
    (∀ (text : String) (j : Json), parse text = some j → j.Genuine) ∧
    (∀ (j : Json) (run : Run), j.Genuine → Run.ofJson j = .ok run →
      ReadsBack Run.toJson Run.ofJson run ∧
        ∀ d ∈ run.machines.entries ++ run.propagation.entries, d.make = .ok d) ∧
    (∀ (j : Json) (d : Dictionary), Dictionary.ofJson j = .ok d →
      ReadsBack Dictionary.toJson Dictionary.ofJson d) ∧
    ∀ d : Distribution Binary64, d.make = .ok d →
      ReadsBack Distribution.toJson Distribution.ofJsonUnchecked d ∧
        ReadsBack Distribution.toJson Distribution.ofJson d := by
  refine ⟨fun _ _ read => genuine_of_parse read, fun j run genuine read => ?_,
    fun j d read => Dictionary.readsBack_of_ofJson read, fun d made => ?_⟩
  · have sound := Run.sound_of_ofJson genuine read
    refine ⟨sound.faithful_toJson.readsBack sound.ofJson_toJson, fun d given => ?_⟩
    refine Distribution.make_eq_ok_iff.2 ⟨rfl, ?_⟩
    rcases List.mem_append.1 given with there | there
    · exact sound.machines d there
    · exact sound.propagation d there
  · have accepted := (Distribution.make_eq_ok_iff.1 made).2
    obtain ⟨unchecked, checked⟩ := accepted.ofJson_toJson
    exact ⟨accepted.faithful_toJson.readsBack unchecked, accepted.faithful_toJson.readsBack checked⟩

/-- A run with a script and the greatest count of transactions. -/
def Run.scripted : Run :=
  let run := Run.level "a" 1
  { run with metadata := { run.metadata with
      generator := ⟨Binary64.ofNat 1, 18446744073709551615, 0, 1, some "Loop.plutus"⟩ } }

/-- The same run as others may write it: with a member that nobody asks for, its identity
by position, its start in local time and its rate as a whole number. -/
def Run.scriptedElsewhere : Json :=
  .object [("note", .unreadable),
    ("meta", .array [.string "a", .string "nightly", .string "bench", .string "era",
      .string "2024-02-29 13:30:00+01:30", scripted.metadata.manifest.toJson,
      .array [.integer 1, .integer 18446744073709551615, .integer 0, .integer 1,
        .string "Loop.plutus"]]),
    ("summary", scripted.summary.toJson), ("machperf", scripted.machines.toJson),
    ("blockprop", scripted.propagation.toJson)]

/-- What others have written is genuine. -/
theorem Run.genuine_scriptedElsewhere : scriptedElsewhere.Genuine := by
  have accepted : ∀ d ∈ scripted.machines.entries ++ scripted.propagation.entries,
      d.make = .ok d := by decide +kernel
  obtain ⟨machines, propagation⟩ := List.forall_mem_append.1 accepted
  have summary : scripted.summary.toJson.Faithful :=
    RunSummary.faithful_toJson (by decide +kernel) (by decide +kernel)
  have machines := DistributionTable.faithful_toJson (t := scripted.machines) (by decide)
    fun d given => (Distribution.make_eq_ok_iff.1 (machines d given)).2
  have propagation := DistributionTable.faithful_toJson (t := scripted.propagation) (by decide)
    fun d given => (Distribution.make_eq_ok_iff.1 (propagation d given)).2
  have manifest := scripted.metadata.manifest.faithful_toJson
  refine .object ?_
  simp only [List.forall_mem_cons]
  refine ⟨.unreadable, .array ?_, summary.genuine, machines.genuine, propagation.genuine,
    List.forall_mem_nil _⟩
  simp only [List.forall_mem_cons]
  exact ⟨.string _, .string _, .string _, .string _, .string _, manifest.genuine,
    .array (by simp [Genuine.integer, Genuine.string]), List.forall_mem_nil _⟩

/-- A definition without unit and decimal places, as a dictionary may have it. -/
def Dictionary.sparse : Json :=
  .object [("rss", .object [("kind", .string "instant"), ("description", .string ""),
    ("short_desc", .string "RSS")])]

/-- A run that others have written, a dictionary that leaves out what it may and a
distribution are read back. -/
theorem inputs_read_back_elsewhere :
    (Run.scriptedElsewhere.Genuine ∧ Run.ofJson Run.scriptedElsewhere = .ok Run.scripted ∧
      ReadsBack Run.toJson Run.ofJson Run.scripted) ∧
    (∃ d, Dictionary.ofJson Dictionary.sparse = .ok d ∧
      ReadsBack Dictionary.toJson Dictionary.ofJson d) ∧
    ((Distribution.constant 3 1).make = .ok (Distribution.constant 3 1) ∧
      ReadsBack Distribution.toJson Distribution.ofJson (Distribution.constant 3 1)) ∧
    ∃ j, parse Run.scripted.toJson.compact = some j ∧ j.Genuine := by
  obtain ⟨parsed, runs, dictionaries, distributions⟩ := inputs_read_back
  have run : Run.ofJson Run.scriptedElsewhere = .ok Run.scripted := by decide +kernel
  obtain ⟨reads, _⟩ := runs _ _ Run.genuine_scriptedElsewhere run
  have dictionary : Dictionary.ofJson Dictionary.sparse =
      .ok (Dictionary.ofList [("rss", ⟨"RSS", "", "", 0, "instant"⟩)]) := rfl
  have made : (Distribution.constant 3 1).make = .ok (Distribution.constant 3 1) := by
    decide +kernel
  obtain ⟨j, text, _⟩ := reads.compact
  exact ⟨⟨Run.genuine_scriptedElsewhere, run, reads⟩, ⟨_, dictionary, dictionaries _ _ dictionary⟩,
    ⟨made, (distributions _ made).2⟩, j, text, parsed _ _ text⟩

end RunReport
