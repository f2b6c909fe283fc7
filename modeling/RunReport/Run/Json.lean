import RunReport.Run.Basic
import RunReport.Time.Text

/-!
# Runs as JSON

The text form of a run. All members are required but the script; whole numbers
have to fit their types; the timestamp may stand in any offset and is written
in universal time.
-/

namespace RunReport

/-- A manifest as an object. -/
def Manifest.toJson (m : Manifest) : Json :=
  .object [("name", .string m.name), ("branch", .string m.branch),
    ("revision", .string m.revision), ("version", .string m.version)]

/-- A manifest from its record. -/
def Manifest.ofJson : Json → Except Json.Refusal Manifest :=
  Json.readRecord ["name", "branch", "revision", "version"] fun r =>
    Manifest.mk <$> r.field "name" Json.readText <*> r.field "branch" Json.readText
      <*> r.field "revision" Json.readText <*> r.field "version" Json.readText

/-- A generator profile as an object; an absent script is left out. -/
def GeneratorProfile.toJson (g : GeneratorProfile) : Json :=
  let script := match g.script with
    | some s => [("plutus_script", Json.string s)]
    | none => []
  .object ([("tps", .decimal g.rate), ("tx_count", .integer g.transactions.toNat),
    ("inputs_per_tx", .integer g.inputs.toNat), ("outputs_per_tx", .integer g.outputs.toNat)] ++
    script)

/-- A generator profile from its record. -/
def GeneratorProfile.ofJson : Json → Except Json.Refusal GeneratorProfile :=
  Json.readRecord ["tps", "tx_count", "inputs_per_tx", "outputs_per_tx", "plutus_script"] fun r =>
    GeneratorProfile.mk <$> r.field "tps" Json.readNumeric
      <*> r.field "tx_count" Json.readCount
      <*> r.field "inputs_per_tx" Json.readSmallCount
      <*> r.field "outputs_per_tx" Json.readSmallCount
      <*> r.fieldOr "plutus_script" none (Json.readOptional Json.readText)

/-- A timestamp as a text. -/
def Timestamp.toJson (t : Timestamp) : Json := .string t.fullText

/-- A timestamp from a text. -/
def Timestamp.ofJson (j : Json) : Except Json.Refusal Timestamp :=
  Json.required (j.asString.bind Timestamp.ofText?)

/-- The identity of a run as an object. -/
def Metadata.toJson (m : Metadata) : Json :=
  .object [("tag", .string m.tag), ("batch", .string m.batch), ("profile", .string m.profile),
    ("era", .string m.era), ("timestamp", m.timestamp.toJson), ("manifest", m.manifest.toJson),
    ("generator", m.generator.toJson)]

/-- The identity of a run from its record. -/
def Metadata.ofJson : Json → Except Json.Refusal Metadata :=
  Json.readRecord ["tag", "batch", "profile", "era", "timestamp", "manifest", "generator"] fun r =>
    Metadata.mk <$> r.field "tag" Json.readText <*> r.field "batch" Json.readText
      <*> r.field "profile" Json.readText <*> r.field "era" Json.readText
      <*> r.field "timestamp" Timestamp.ofJson <*> r.field "manifest" Manifest.ofJson
      <*> r.field "generator" GeneratorProfile.ofJson

/-- The values of a run as an object. -/
def RunSummary.toJson (s : RunSummary) : Json :=
  .object [("hosts", .integer s.hosts.toNat), ("log_objects", .integer s.logObjects.toNat),
    ("slots", .integer s.slots.toNat), ("blocks_forged", .integer s.blocksForged.toNat),
    ("tx_submitted", .integer s.submitted.toNat), ("duration_s", .decimal s.duration),
    ("target_tps", .decimal s.targetRate)]

/-- The values of a run from their record. -/
def RunSummary.ofJson : Json → Except Json.Refusal RunSummary :=
  Json.readRecord ["hosts", "log_objects", "slots", "blocks_forged", "tx_submitted", "duration_s",
      "target_tps"] fun r =>
    RunSummary.mk <$> r.field "hosts" Json.readSmallCount
      <*> r.field "log_objects" Json.readCount <*> r.field "slots" Json.readCount
      <*> r.field "blocks_forged" Json.readCount <*> r.field "tx_submitted" Json.readCount
      <*> r.field "duration_s" Json.readNumeric <*> r.field "target_tps" Json.readNumeric

namespace Run

/-- A run as an object. -/
def toJson (run : Run) : Json :=
  .object [("meta", run.metadata.toJson), ("summary", run.summary.toJson),
    ("machperf", run.machines.toJson), ("blockprop", run.propagation.toJson)]

/-- A run from its record. -/
def ofJson : Json → Except Json.Refusal Run :=
  Json.readRecord ["meta", "summary", "machperf", "blockprop"] fun r =>
    Run.mk <$> r.field "meta" Metadata.ofJson <*> r.field "summary" RunSummary.ofJson
      <*> r.field "machperf" (DistributionTable.ofJson machineMetrics)
      <*> r.field "blockprop" (DistributionTable.ofJson propagationMetrics)

end Run

end RunReport
