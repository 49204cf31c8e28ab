import MotionRack.Number.Shortest
import MotionRack.Provision.Delivery

/-!
# Counters

Counters of what was provisioned, and their text form: one family after the other in the order of
their names, each with a help line, a type line and its samples. Counts are 64-bit words and are
written as floating-point numbers.
-/
namespace MotionRack

/-- The counters. Stages appear once something was recorded for them, in the order of their
names. -/
structure Metrics where
  entities : List (String × UInt64) := []
  framesSent : UInt64 := 0
  commitsSent : UInt64 := 0

namespace Metrics

/-- Adds to the counter of a label; the labels are kept in ascending order. -/
def addTo (label : String) (n : UInt64) : List (String × UInt64) → List (String × UInt64)
  | [] => [(label, n)]
  | (l, m) :: rest =>
    if label = l then (l, m + n) :: rest
    else if label < l then (label, n) :: (l, m) :: rest
    else (l, m) :: addTo label n rest

/-- Adds a report. -/
def record (m : Metrics) (r : ProvisionReport) : Metrics where
  entities := r.stages.foldl (fun es s => addTo s.stage.name (UInt64.ofNat s.entities) es)
    m.entities
  framesSent := m.framesSent + UInt64.ofNat r.framesSent
  commitsSent := m.commitsSent + UInt64.ofNat r.commitsSent

/-- The text of a count. -/
def count (n : UInt64) : String := Shortest.render .double (.ofNat .double n.toNat)

/-- The lines of a family of counters. -/
def family (name help : String) (samples : List (String × UInt64)) : String :=
  s!"# HELP {name} {help}\n# TYPE {name} counter\n"
    ++ String.join (samples.map fun (label, n) => s!"{name}{label} {count n}\n")

/-- The text form of all counters. -/
def render (m : Metrics) : String :=
  (if m.entities.isEmpty then ""
    else family "mcm_entities_compiled" "Configuration entities compiled"
      (m.entities.map fun (stage, n) => ("\x7bstage=\"" ++ stage ++ "\"\x7d", n)))
    ++ family "mcm_frames_sent" "Total configuration frames sent" [("", m.framesSent)]
    ++ family "mcm_persist_frames_sent" "Commit-to-storage frames among those sent"
      [("", m.commitsSent)]

end Metrics
end MotionRack
