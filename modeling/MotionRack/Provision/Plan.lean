import MotionRack.Provision.System

/-!
# Plans

What is sent to a rack, stage by stage. Everything is compiled before anything is sent. The order of
the stages is fixed, since the controller applies frames as they arrive.
-/
namespace MotionRack

/-- The stages of provisioning. -/
inductive Stage
  | cards
  | allowedDevices
  | customConfigs
  | joysticks
  deriving DecidableEq, Repr

namespace Stage

/-- The stages in the order in which they are sent. -/
def order : List Stage := [cards, allowedDevices, customConfigs, joysticks]

/-- The name of a stage in reports. -/
def name : Stage → String
  | cards => "cards"
  | allowedDevices => "allowed_devices"
  | customConfigs => "custom_configs"
  | joysticks => "joysticks"

/-- The stage of a name. -/
def ofName? (text : String) : Option Stage := order.find? (·.name == text)

end Stage

/-- What is to be provisioned. -/
structure ProvisionOptions where
  cards : Bool := true
  allowedDevices : Bool := true
  customConfigs : Bool := true
  joysticks : Bool := true
  /-- Whether parameters of devices and joysticks are to be kept beyond a restart. -/
  persist : Bool := true
  deriving DecidableEq, Repr

namespace ProvisionOptions

/-- Whether a stage is to be provisioned. -/
def enabled (o : ProvisionOptions) : Stage → Bool
  | .cards => o.cards
  | .allowedDevices => o.allowedDevices
  | .customConfigs => o.customConfigs
  | .joysticks => o.joysticks

/-- Only the stages of a list. -/
def only (stages : List Stage) : ProvisionOptions where
  cards := stages.contains .cards
  allowedDevices := stages.contains .allowedDevices
  customConfigs := stages.contains .customConfigs
  joysticks := stages.contains .joysticks

end ProvisionOptions

/-- The frames of one stage, and how many things they are about. -/
structure StagePlan where
  stage : Stage
  entities : Nat
  frames : List Frame
  deriving DecidableEq, Repr

namespace StagePlan

/-- The number of commits. -/
def commits (p : StagePlan) : Nat := p.frames.countP (·.command == Command.commit)

/-- Compiles one stage; a section that is not there has no plan. -/
def compile (s : RackSystem) (persist : Bool) (stage : Stage) :
    Except ConfigError (Option StagePlan) :=
  match stage with
  | .cards => match s.settings with
    | some x => do return some ⟨stage, x.cards.length, ← x.compile⟩
    | none => .ok none
  | .allowedDevices => match s.allowedDevices with
    | some x => do return some ⟨stage, x.devices.length + x.locks.length, ← x.compile⟩
    | none => .ok none
  | .customConfigs => match s.settings with
    | some x => .ok (some ⟨stage, x.customs.length, x.compileCustoms persist⟩)
    | none => .ok none
  | .joysticks => match s.joysticks with
    | some x => .ok (some ⟨stage, x.ports.length, x.compile persist⟩)
    | none => .ok none

end StagePlan

namespace Provision

/-- Compiles stages in order. -/
def planStages (s : RackSystem) (o : ProvisionOptions) :
    List Stage → Except ConfigError (List StagePlan)
  | [] => .ok []
  | stage :: rest =>
    if o.enabled stage then do
      let plan ← StagePlan.compile s o.persist stage
      return plan.toList ++ (← planStages s o rest)
    else planStages s o rest

/-- Compiles all stages that are to be provisioned, in order. -/
def plan (s : RackSystem) (o : ProvisionOptions) : Except ConfigError (List StagePlan) :=
  planStages s o Stage.order

end Provision
end MotionRack
