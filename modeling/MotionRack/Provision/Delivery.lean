import MotionRack.Link.Channel
import MotionRack.Provision.Plan

/-!
# Sending a plan

Sending of a compiled plan. Frames go out in order until one cannot be sent; what was sent before
stays sent. A plan that cannot be compiled sends nothing.
-/
namespace MotionRack

/-- What was sent for one stage. -/
structure StageReport where
  stage : Stage
  entities : Nat
  frames : Nat
  deriving DecidableEq, Repr

/-- What was sent in all. -/
structure ProvisionReport where
  stages : List StageReport := []
  framesSent : Nat := 0
  commitsSent : Nat := 0
  deriving DecidableEq, Repr

namespace ProvisionReport

/-- Adds a stage that was sent. -/
def add (r : ProvisionReport) (p : StagePlan) : ProvisionReport where
  stages := r.stages ++ [⟨p.stage, p.entities, p.frames.length⟩]
  framesSent := r.framesSent + p.frames.length
  commitsSent := r.commitsSent + p.commits

end ProvisionReport

namespace Provision

variable {σ : Type} [FrameSink σ]

/-- Sends frames in order, up to the first that cannot be sent. -/
def sendFrames : List Frame → σ → Except LinkError Unit × σ
  | [], s => (.ok (), s)
  | f :: rest, s =>
    match FrameSink.sendFrame f s with
    | (.error e, s) => (.error e, s)
    | (.ok (), s) => sendFrames rest s

/-- Sends stages in order; `report` is what was sent before. -/
def sendStages (report : ProvisionReport) :
    List StagePlan → σ → Except LinkError ProvisionReport × σ
  | [], s => (.ok report, s)
  | p :: rest, s =>
    match sendFrames p.frames s with
    | (.error e, s) => (.error e, s)
    | (.ok (), s) => sendStages (report.add p) rest s

/-- Compiles a rack and sends its frames. -/
def configure (system : RackSystem) (o : ProvisionOptions) (s : σ) :
    Except ConfigError ProvisionReport × σ :=
  match plan system o with
  | .error e => (.error e, s)
  | .ok plans =>
    match sendStages {} plans s with
    | (.error e, s) => (.error (.link e), s)
    | (.ok report, s) => (.ok report, s)

end Provision
end MotionRack
