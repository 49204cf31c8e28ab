import MotionRack.Config.Attribute
import MotionRack.Config.Collision
import MotionRack.Device.Commit
import MotionRack.Document.Expansion

/-!
# Joysticks

Joysticks on the host ports of the motherboard. An input control is routed to slots; an output
control shows the state of slots. Controls and ports are numbered; one that tells no number takes
the one after its predecessor, modulo 256.
-/
namespace MotionRack

/-- Another control that an input acts upon. -/
structure TargetControl where
  port : UInt8 := 0
  control : UInt16 := 0
  deriving DecidableEq, Repr

namespace TargetControl

/-- Takes a child into account. -/
def withChild (t : TargetControl) (c : Element) : Except ConfigError TargetControl :=
  if c.name = "Port" then do return { t with port := ← Attribute.u8 c "value" }
  else if c.name = "ControlNum" then do return { t with control := ← Attribute.u16 c "value" }
  else .ok t

/-- Reads a target; what it does not tell has all bits set. -/
def ofElement (e : Element) : Except ConfigError TargetControl :=
  e.children.foldlM withChild ⟨0xFF, 0xFFFF⟩

end TargetControl

/-- Where an input goes, or where an output takes its state from. -/
structure Dispatcher where
  /-- One bit per slot. -/
  slots : UInt8 := 0
  bit : UInt8 := 0
  port : UInt8 := 0
  virtual_ : UInt8 := 0
  deriving DecidableEq, Repr

namespace Dispatcher

/-- Takes a child into account. -/
def withChild (d : Dispatcher) (c : Element) : Except ConfigError Dispatcher :=
  if c.name = "Slot" then do return { d with slots := ← Attribute.u8 c "value" }
  else if c.name = "Bit" then do return { d with bit := ← Attribute.u8 c "value" }
  else if c.name = "Port" then do return { d with port := ← Attribute.u8 c "value" }
  else if c.name = "Virtual" then do return { d with virtual_ := ← Attribute.u8 c "value" }
  else .ok d

def ofElement (e : Element) : Except ConfigError Dispatcher := e.children.foldlM withChild {}

def bytes (d : Dispatcher) : Octets := [d.slots, d.bit, d.port, d.virtual_]

end Dispatcher

/-- The number of a control or port that may leave it out. -/
def Attribute.numbered (next : UInt8) (e : Element) (key : String) : Except ConfigError UInt8 := do
  return (← Attribute.u8? e key).getD next

/-- The mapping of one input control. -/
structure InMap where
  control : UInt8
  vid : UInt16 := 0
  pid : UInt16 := 0
  target : TargetControl := {}
  destination : Dispatcher := {}
  speed : UInt8 := 0
  reverse : UInt8 := 0
  deadband : UInt8 := 0
  mode : UInt32 := 0
  deriving DecidableEq, Repr

namespace InMap

/-- Takes a child into account. -/
def withChild (m : InMap) (c : Element) : Except ConfigError InMap :=
  if c.name = "VID" then do return { m with vid := ← Attribute.u16 c "value" }
  else if c.name = "PID" then do return { m with pid := ← Attribute.u16 c "value" }
  else if c.name = "ModifyControl" then do return { m with target := ← TargetControl.ofElement c }
  else if c.name = "Destination" then do return { m with destination := ← Dispatcher.ofElement c }
  else if c.name = "ModifySpeed" then do return { m with speed := ← Attribute.u8 c "value" }
  else if c.name = "ReverseDir" then do return { m with reverse := ← Attribute.u8 c "value" }
  else if c.name = "Deadband" then do return { m with deadband := ← Attribute.u8 c "value" }
  else if c.name = "Mode" then do return { m with mode := ← Attribute.u32 c "value" }
  else .ok m

/-- Reads an input mapping; `next` is its control if it names none. -/
def ofElement (next : UInt8) (e : Element) : Except ConfigError InMap := do
  let control ← Attribute.numbered next e "control"
  e.children.foldlM withChild { control := control }

/-- The payload on a port. The last byte enables the control. -/
def payload (m : InMap) (port : UInt8) : Octets :=
  [port, m.control] ++ Octets.ofNat 2 m.vid.toNat ++ Octets.ofNat 2 m.pid.toNat
    ++ [m.target.port] ++ Octets.ofNat 2 m.target.control.toNat
    ++ m.destination.bytes ++ [m.speed, m.reverse, m.deadband]
    ++ Octets.ofNat 4 m.mode.toNat ++ [0]

/-- Whether two mappings are about one control. -/
def collides (a b : InMap) : Bool := a.control == b.control

end InMap

/-- The three colours of an output; a position that was not declared has none. -/
structure Colours where
  first : Option UInt32 := none
  second : Option UInt32 := none
  third : Option UInt32 := none
  deriving DecidableEq, Repr

namespace Colours

/-- The number of colours. -/
def count : Nat := 3

/-- The colour at a position, counted from zero. -/
def get? (cs : Colours) : Nat → Option UInt32
  | 0 => cs.first
  | 1 => cs.second
  | 2 => cs.third
  | _ => none

/-- Sets the colour at a position, counted from zero. -/
def set (cs : Colours) (position : Nat) (value : UInt32) : Colours :=
  match position with
  | 0 => { cs with first := some value }
  | 1 => { cs with second := some value }
  | 2 => { cs with third := some value }
  | _ => cs

/-- The colours in order; one that was not declared is zero. -/
def toList (cs : Colours) : List UInt32 :=
  [cs.first.getD 0, cs.second.getD 0, cs.third.getD 0]

/-- The position of a declared colour, counted from zero: the one that it names, which must be free
and one of the three, or else the next one. -/
def position (cs : Colours) (next : Nat) (c : Element) : Except ConfigError Nat := do
  match ← Attribute.u8? c "index" with
  | none => return next
  | some number =>
    if number = 0 ∨ count < number.toNat then
      throw (.malformedValue c.location "index" (toString number.toNat))
    else if (cs.get? (number.toNat - 1)).isSome then
      throw (.shape c.location (.colourTwice number.toNat))
    else return number.toNat - 1

end Colours

/-- The mapping of one output control. -/
structure OutMap where
  control : UInt8
  usage : UInt8 := 0
  vid : UInt16 := 0
  pid : UInt16 := 0
  ledMode : UInt32 := 0
  /-- Three colours. -/
  colours : List UInt32 := [0, 0, 0]
  source : Dispatcher := {}
  deriving DecidableEq, Repr

namespace OutMap

/-- An output mapping while it is read: the colours so far, and the position of the next one that
names none. -/
structure Partial where
  map : OutMap
  colours : Colours := {}
  next : Nat := 0

/-- Takes a child into account. -/
def withChild (p : Partial) (c : Element) : Except ConfigError Partial :=
  if c.name = "VID" then do return { p with map.vid := ← Attribute.u16 c "value" }
  else if c.name = "PID" then do return { p with map.pid := ← Attribute.u16 c "value" }
  else if c.name = "Mode" then do return { p with map.ledMode := ← Attribute.u32 c "value" }
  else if c.name = "Usage" then do return { p with map.usage := ← Attribute.u8 c "value" }
  else if c.name = "Source" then do return { p with map.source := ← Dispatcher.ofElement c }
  else if c.name = "ColorID" then do
    let position ← p.colours.position p.next c
    if Colours.count ≤ position then throw (.shape c.location .tooManyColours)
    let value ← Attribute.u32 c "value"
    return { p with colours := p.colours.set position value, next := position + 1 }
  else .ok p

/-- Reads an output mapping; `next` is its control if it names none. -/
def ofElement (next : UInt8) (e : Element) : Except ConfigError OutMap := do
  let control ← Attribute.numbered next e "control"
  let p ← e.children.foldlM withChild { map := { control := control } }
  return { p.map with colours := p.colours.toList }

/-- The payload on a port. The device keeps one byte of the mode and of each colour. -/
def payload (m : OutMap) (port : UInt8) : Octets :=
  [port, m.control, m.usage] ++ Octets.ofNat 2 m.vid.toNat ++ Octets.ofNat 2 m.pid.toNat
    ++ [m.ledMode.toUInt8] ++ m.colours.map (·.toUInt8) ++ m.source.bytes

/-- Whether two mappings are about one control. -/
def collides (a b : OutMap) : Bool := a.control == b.control

end OutMap

/-- A host port and the joystick on it. -/
structure JoystickPort where
  index : UInt8
  name : String := ""
  inMaps : List InMap := []
  outMaps : List OutMap := []
  deriving DecidableEq, Repr

namespace JoystickPort

/-- The mappings of a joystick while it is read, and the numbers that the next ones take. -/
structure Controls where
  inMaps : List InMap := []
  outMaps : List OutMap := []
  nextIn : UInt8 := 0
  nextOut : UInt8 := 0

/-- Takes a mapping into account. Inputs and outputs are numbered apart. -/
def withControl (s : Controls) (c : Element) : Except ConfigError Controls :=
  if c.name = "InMap" then do
    let m ← InMap.ofElement s.nextIn c
    return { s with inMaps := s.inMaps ++ [m], nextIn := m.control + 1 }
  else if c.name = "OutMap" then do
    let m ← OutMap.ofElement s.nextOut c
    return { s with outMaps := s.outMaps ++ [m], nextOut := m.control + 1 }
  else .ok s

/-- A port with the mappings of a joystick; no two inputs and no two outputs may share a number. -/
def withJoystick (p : JoystickPort) (e : Element) : Except ConfigError JoystickPort := do
  let s ← e.children.foldlM withControl {}
  let inMaps ← match Collision.unique InMap.collides s.inMaps with
    | .ok maps => pure maps
    | .error c => throw (.collision e.location .inputControl c.first c.second)
  match Collision.unique OutMap.collides s.outMaps with
  | .ok outMaps => return { p with inMaps := inMaps, outMaps := outMaps }
  | .error c => throw (.collision e.location .outputControl c.first c.second)

/-- Reads a joystick that stands alone. -/
def ofJoystick (e : Element) (index : UInt8) : Except ConfigError JoystickPort :=
  withJoystick { index := index } e

/-- Takes a child of a port into account. Of several joysticks the last counts. -/
def withChild (p : JoystickPort) (c : Element) : Except ConfigError JoystickPort :=
  if c.name = "Name" then .ok { p with name := (c.attr? "value").getD "" }
  else if c.name = "Joystick" then p.withJoystick c
  else .ok p

/-- Reads a port; `next` is its number if it names none. -/
def ofElement (next : UInt8) (e : Element) : Except ConfigError JoystickPort := do
  let index ← Attribute.numbered next e "index"
  e.children.foldlM withChild { index := index }

/-- Reads ports in order. -/
def ofElements : UInt8 → List Element → Except ConfigError (List JoystickPort)
  | _, [] => .ok []
  | next, e :: rest => do
    let p ← ofElement next e
    return p :: (← ofElements (p.index + 1) rest)

/-- The frames of the mappings: inputs, then outputs. -/
def frames (p : JoystickPort) : List Frame :=
  p.inMaps.map (fun m => .carrying Command.setJoystickMapIn .motherboard (m.payload p.index))
    ++ p.outMaps.map fun m => .carrying Command.setJoystickMapOut .motherboard (m.payload p.index)

/-- Where commits for a port go. -/
def target (p : JoystickPort) : Address × UInt16 := (.motherboard, p.index.toUInt16)

/-- The frames of a port. If they are to be kept, both tables are, whether or not the port has
entries in them. -/
def compile (persist : Bool) (p : JoystickPort) : List Frame :=
  if persist then
    p.frames ++ [.commit p.target.1 p.target.2 Command.setJoystickMapIn,
      .commit p.target.1 p.target.2 Command.setJoystickMapOut]
  else p.frames

/-- Whether two ports have one number. -/
def collides (a b : JoystickPort) : Bool := a.index == b.index

/-- Reads a joystick for a port from a file of its own. -/
def load (read : FileReader) (path : String) (index : UInt8) : Except ConfigError JoystickPort := do
  ofJoystick (← Expansion.openFile read path) index

end JoystickPort

/-- The joysticks of a rack. -/
structure Joysticks where
  ports : List JoystickPort
  deriving DecidableEq, Repr

namespace Joysticks

/-- Reads the joysticks of a rack; no two ports may have one number. -/
def ofElement (e : Element) : Except ConfigError Joysticks := do
  let ports ← JoystickPort.ofElements 0 (e.childrenNamed "Port")
  match Collision.unique JoystickPort.collides ports with
  | .ok ports => return ⟨ports⟩
  | .error c => throw (.collision e.location .joystickPort c.first c.second)

/-- The frames of all ports, each with its own commits if they are to be kept. -/
def compile (persist : Bool) (j : Joysticks) : List Frame := j.ports.flatMap (·.compile persist)

/-- Reads joysticks from a file of their own. -/
def load (read : FileReader) (path : String) : Except ConfigError Joysticks := do
  ofElement (← Expansion.openFile read path)

end Joysticks
end MotionRack
