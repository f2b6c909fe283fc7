import RunReport.Metric.Field
import RunReport.Run.Table
import RunReport.Time.Timestamp

/-!
# Runs

Everything that a report needs from one run of the benchmark: who ran what and
when, values of the run as a whole, and the two tables of distributions. A
field is looked up by its name in the table of a category.

The workload of a run follows from the script that drives it. Only the stem of
the script's file name counts: what stands after the last slash and before the
first point of it.
-/

namespace RunReport

/-- What the generator of a run does. -/
inductive Workload where
  /-- Transactions that only move value; no script. -/
  | valueOnly
  /-- The loop that counts down. -/
  | countdownLoop
  /-- A loop over a SECP signature check. -/
  | secpLoop
  /-- Any other script. -/
  | otherScript
  deriving DecidableEq

namespace Workload

/-- The stem of a script's file name. -/
def stem (script : List Char) : List Char :=
  ((script.reverse.takeWhile (· ≠ '/')).reverse).takeWhile (· ≠ '.')

/-- Whether a list of characters stands somewhere in another. -/
def occursIn (pattern : List Char) : List Char → Bool
  | [] => pattern.isEmpty
  | c :: rest => pattern.isPrefixOf (c :: rest) || occursIn pattern rest

/-- The class of the workload that a script drives; without one, only value moves. -/
def classify : Option String → Workload
  | none => valueOnly
  | some script =>
    let stem := stem script.toList
    if occursIn "Secp256k1".toList stem then secpLoop
    else if stem = "Loop".toList then countdownLoop
    else otherScript

/-- The part of a report's file name that tells the workload. -/
def fileToken : Workload → String
  | valueOnly => "value-only"
  | countdownLoop => "plutus"
  | secpLoop => "plutus-secp"
  | otherScript => "plutus-other"

/-- The workload in a report's title. -/
def title : Workload → String
  | valueOnly => "value-only"
  | countdownLoop => "Plutus countdown loop"
  | secpLoop => "Plutus SECP loop"
  | otherScript => "Plutus (other)"

/-- The workload as a word in data. -/
def word : Workload → String
  | valueOnly => "value-only"
  | countdownLoop => "plutus-countdown-loop"
  | secpLoop => "plutus-secp-loop"
  | otherScript => "plutus-other"

end Workload

/-- Build identity of the component under test. -/
structure Manifest where
  /-- Name of the component. -/
  name : String
  /-- Branch it was built from. -/
  branch : String
  /-- Hash of its revision. -/
  revision : String
  /-- Version that it reports. -/
  version : String
  deriving DecidableEq

/-- The first seven characters of the revision. -/
def Manifest.shortRevision (m : Manifest) : String := String.ofList (m.revision.toList.take 7)

/-- Settings of the transaction generator. -/
structure GeneratorProfile where
  /-- Transactions per second. -/
  rate : Binary64
  /-- Transactions in all. -/
  transactions : UInt64
  /-- Inputs of each transaction. -/
  inputs : UInt32
  /-- Outputs of each transaction. -/
  outputs : UInt32
  /-- Script that drives the workload, if one does. -/
  script : Option String
  deriving DecidableEq

/-- Identity of a run. -/
structure Metadata where
  /-- Short identifier. -/
  tag : String
  /-- Batch that the run belongs to. -/
  batch : String
  /-- Profile of the benchmark. -/
  profile : String
  /-- Ledger era. -/
  era : String
  /-- Start of the run. -/
  timestamp : Timestamp
  /-- Component under test. -/
  manifest : Manifest
  /-- Settings of the generator. -/
  generator : GeneratorProfile
  deriving DecidableEq

/-- The workload of a run. -/
def Metadata.workload (m : Metadata) : Workload := Workload.classify m.generator.script

/-- Values of a run as a whole. -/
structure RunSummary where
  /-- Machines of the cluster. -/
  hosts : UInt32
  /-- Log objects analysed. -/
  logObjects : UInt64
  /-- Slots of the analysis window. -/
  slots : UInt64
  /-- Blocks made. -/
  blocksForged : UInt64
  /-- Transactions submitted. -/
  submitted : UInt64
  /-- Duration in seconds. -/
  duration : Binary64
  /-- Rate that the generator aims at. -/
  targetRate : Binary64
  deriving DecidableEq

namespace RunSummary

/-- The values by the names of their fields. -/
def named (s : RunSummary) : List (String × Binary64) :=
  [("hosts", Binary64.ofNat s.hosts.toNat), ("log_objects", Binary64.ofNat s.logObjects.toNat),
    ("slots", Binary64.ofNat s.slots.toNat),
    ("blocks_forged", Binary64.ofNat s.blocksForged.toNat),
    ("tx_submitted", Binary64.ofNat s.submitted.toNat), ("duration_s", s.duration),
    ("target_tps", s.targetRate)]

/-- The value of a field. -/
def value? (s : RunSummary) (field : String) : Option Binary64 :=
  (s.named.find? (·.1 = field)).map (·.2)

end RunSummary

/-- One run of the benchmark. -/
structure Run where
  /-- Identity of the run. -/
  metadata : Metadata
  /-- Values of the run as a whole. -/
  summary : RunSummary
  /-- Distributions over the machines. -/
  machines : DistributionTable machineMetrics
  /-- Distributions of block propagation. -/
  propagation : DistributionTable propagationMetrics
  deriving DecidableEq

namespace Run

/-- Short identifier of the run. -/
def tag (run : Run) : String := run.metadata.tag

/-- The instant value of a field in the table of a category. -/
def instant? (run : Run) : Category → String → Option Binary64
  | .summary, field => run.summary.value? field
  | .machinePerformance, _ => none
  | .blockPropagation, _ => none

/-- The distribution of a field in the table of a category. -/
def distribution? (run : Run) : Category → String → Option (Distribution Binary64)
  | .summary, _ => none
  | .machinePerformance, field => run.machines.find? field
  | .blockPropagation, field => run.propagation.find? field

end Run

end RunReport
