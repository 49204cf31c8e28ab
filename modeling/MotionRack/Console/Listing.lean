import MotionRack.Console.Help
import MotionRack.Provision.Delivery

/-!
# Listings

Listings of frames and reports, as lines of text and as JSON.
-/
namespace MotionRack.Console

/-- A frame in a listing, with the stage that it belongs to if there is one. -/
structure FrameRow where
  stage : Option Stage
  frame : Frame

namespace FrameRow

/-- Bytes as upper-case digits with blanks between them. -/
def bytesText (bytes : Octets) : String := " ".intercalate (bytes.map Hex.byte)

/-- The number of the command. -/
def commandText (f : Frame) : String := s!"0x{Hex.word f.command}"

/-- One line for a frame. -/
def line (r : FrameRow) : String :=
  let stage := padded 16 ((r.stage.map (·.name)).getD "-")
  let name := padded 28 ((Command.name? r.frame.command).getD "?")
  let destination := padded 10 r.frame.destination.render
  s!"{stage} {commandText r.frame} {name} -> {destination} {bytesText r.frame.encode}\n"

/-- The members of a frame in JSON; what is not known is left out. -/
def members (r : FrameRow) : List (String × String) :=
  let stage := match r.stage with
    | some s => [("stage", s.name)]
    | none => []
  let name := match Command.name? r.frame.command with
    | some n => [("name", n)]
    | none => []
  stage ++ [("command", commandText r.frame)] ++ name
    ++ [("destination", r.frame.destination.render), ("bytes", bytesText r.frame.encode)]

/-- A frame as a JSON object within a list. All its texts are plain ASCII without quotes. -/
def json (r : FrameRow) : String :=
  "  \x7b\n"
    ++ ",\n".intercalate (r.members.map fun (key, value) => s!"    \"{key}\": \"{value}\"")
    ++ "\n  \x7d"

end FrameRow

/-- Frames as lines. -/
def frameLines (rows : List FrameRow) : String := String.join (rows.map (·.line))

/-- Frames as a JSON list. -/
def frameJson (rows : List FrameRow) : String :=
  if rows.isEmpty then "[]\n" else "[\n" ++ ",\n".intercalate (rows.map (·.json)) ++ "\n]\n"

/-- The frames of a plan, each with its stage. -/
def planRows (plans : List StagePlan) : List FrameRow :=
  plans.flatMap fun p => p.frames.map (FrameRow.mk (some p.stage))

/-- The lines that sum up a plan. -/
def planSummary (plans : List StagePlan) : String :=
  String.join (plans.map fun p =>
    s!"# {p.stage.name}: {p.entities} entities, {p.frames.length} frames ({p.commits} persist)\n")

/-- A compiled plan as text or as JSON. -/
def planListing (json : Bool) (plans : List StagePlan) : String :=
  if json then frameJson (planRows plans) else frameLines (planRows plans) ++ planSummary plans

/-- The lines of a report. -/
def reportListing (r : ProvisionReport) : String :=
  String.join (r.stages.map fun s =>
    s!"{s.stage.name}: {s.entities} entities, {s.frames} frames\n")
    ++ s!"sent {r.framesSent} frames ({r.commitsSent} persist)\n"

end MotionRack.Console
