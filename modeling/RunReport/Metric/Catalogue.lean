import RunReport.Metric.Registry

/-!
# The standard catalogue

The fields of a standard report: values of the run as a whole, use of
resources and forging on the machines, and propagation of blocks.
-/

namespace RunReport.Catalogue

/-- A value of the run as a whole. -/
def runValue (name label description : String) (width : Nat) : Field :=
  { name, label, description, width, group := .run, categories := [.summary] }

/-- A distribution of resource use over the machines. -/
def resource (name label description unit : String) (precision width : Nat) : Field :=
  { name, label, description, unit, precision, width, group := .resource,
    categories := [.machinePerformance], kind := .distributional .centrality }

/-- A distribution of block making over the machines. -/
def forging (name label description unit : String) (precision : Nat) : Field :=
  { name, label, description, unit, precision, width := 5, group := .forging,
    categories := [.machinePerformance], kind := .distributional .centrality }

/-- A distribution of the time that one step between peers takes. -/
def peer (name label description : String) : Field :=
  { name, label, description, unit := "s", precision := 3, width := 5, group := .peerPropagation,
    categories := [.blockPropagation], kind := .distributional .centrality }

/-- A distribution of the time until a share of the cluster has a block. -/
def adoption (name label share : String) : Field :=
  { name, label, unit := "s", precision := 3, width := 5, group := .endToEnd,
    description := "Time until a block is adopted by " ++ share ++ " of the cluster"
    categories := [.blockPropagation], kind := .distributional .centrality }

/-- Fields of the run as a whole. -/
def runFields : List Field :=
  [runValue "hosts" "Machines" "Number of cluster machines in the run" 4,
    runValue "log_objects" "Log objects" "Total log objects analysed" 10,
    runValue "slots" "Slots" "Slots covered by the analysis window" 6,
    runValue "blocks_forged" "Blocks" "Blocks forged during the run" 6,
    runValue "tx_submitted" "Tx submitted" "Transactions submitted by the generator" 8,
    { runValue "duration_s" "Duration" "Wall-clock run duration" 6 with unit := "s" },
    { runValue "target_tps" "Target TPS" "Generator target transactions per second" 5 with
      precision := 1 }]

/-- Fields of resource use. -/
def resourceFields : List Field :=
  [resource "cpu_process" "CPU process" "Process CPU usage, share of one core" "%" 1 5,
    resource "cpu_gc" "CPU GC" "CPU spent in garbage collection" "%" 1 5,
    resource "cpu_mutator" "CPU mutator" "CPU spent in the mutator" "%" 1 5,
    resource "rss" "RSS" "Resident set size" "MB" 0 6,
    resource "heap" "Heap" "Runtime heap size" "MB" 0 6,
    resource "alloc_rate" "Alloc rate" "Allocation rate" "MB/s" 0 6,
    resource "net_read" "Net read" "Network read rate" "kB/s" 0 6,
    resource "net_write" "Net write" "Network write rate" "kB/s" 0 6,
    resource "fs_read" "FS read" "Filesystem read rate" "kB/s" 0 6,
    resource "fs_write" "FS write" "Filesystem write rate" "kB/s" 0 6]

/-- Fields of block making. -/
def forgingFields : List Field :=
  [forging "slot_start" "Slot start" "Delay from slot start to leadership check start" "s" 3,
    forging "leadership" "Leadership check" "Leadership check duration" "s" 3,
    forging "forge" "Forge" "Block forging time after a won leadership check" "s" 3,
    forging "block_gap" "Block gap" "Slots between consecutive forged blocks" "slots" 1]

/-- Fields of propagation from peer to peer. -/
def peerFields : List Field :=
  [peer "notice" "Noticed" "Header first noticed by a peer after forging",
    peer "request" "Requested" "Block fetch requested after the header was noticed",
    peer "fetched" "Fetched" "Block body fetched after the request",
    peer "adopted" "Adopted" "Block adopted into the peer's chain after fetch",
    peer "announced" "Announced" "Block announced onward after adoption",
    peer "sent" "Sent" "Block sent onward after announcement"]

/-- Fields of propagation over the whole cluster; a block's size is shown by
the largest one. -/
def endToEndFields : List Field :=
  [adoption "prop_0_50" "Adoption 0.50" "half",
    adoption "prop_0_80" "Adoption 0.80" "80 percent",
    adoption "prop_0_90" "Adoption 0.90" "90 percent",
    adoption "prop_0_96" "Adoption 0.96" "96 percent",
    adoption "prop_1_00" "Adoption 1.00" "all",
    Field.withStatistic .high
      { name := "block_size", label := "Largest block",
        description := "Size of the largest forged block", unit := "bytes", width := 7,
        group := .endToEnd, categories := [.blockPropagation],
        kind := .distributional .centrality }]

/-- All fields of a standard report. -/
def fields : List Field :=
  runFields ++ resourceFields ++ forgingFields ++ peerFields ++ endToEndFields

end RunReport.Catalogue

namespace RunReport

/-- The registry of the standard catalogue. -/
def Registry.standard : Registry := ⟨Catalogue.fields, by decide +kernel⟩

end RunReport
