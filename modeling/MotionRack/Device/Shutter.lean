import MotionRack.Config.Attribute
import MotionRack.Device.Stage
import MotionRack.Number.Decimal
import MotionRack.Number.Duration
import MotionRack.Number.Shortest
import MotionRack.Text.Fold

/-!
# Shutter channels

Shutter channels. A channel whose description is incomplete or out of range is left unconfigured:
it has no frames, and the rest of the rack is not held up by it.
-/
namespace MotionRack

/-- The position that a shutter takes when power comes on. -/
inductive ShutterState
  | opened
  | closed
  | unknown
  deriving DecidableEq, Repr

namespace ShutterState

def all : List ShutterState := [opened, closed, unknown]

/-- The spelling in descriptions. -/
def name : ShutterState → String
  | opened => "OPEN"
  | closed => "CLOSED"
  | unknown => "UNKNOWN"

/-- The byte on the wire. -/
def wire : ShutterState → UInt8
  | opened => 0
  | closed => 1
  | unknown => 2

def ofName? (text : String) : Option ShutterState := all.find? (·.name == text)

def ofWire? (b : UInt8) : Option ShutterState := all.find? (·.wire == b)

end ShutterState

/-- How the solenoid of a shutter is driven. -/
inductive ShutterDrive
  | pulsed
  | bidirectional
  | unidirectional
  deriving DecidableEq, Repr

namespace ShutterDrive

def all : List ShutterDrive := [pulsed, bidirectional, unidirectional]

/-- The spellings in descriptions; the first one is the proper one. -/
def names : ShutterDrive → List String
  | pulsed => ["PULSED"]
  | bidirectional => ["BIDIRECTIONAL PULSE HOLD", "PULSE HOLD"]
  | unidirectional => ["UNIDIRECTION PULSE HOLD", "NO RETURN", "NO REVERSE"]

/-- The proper spelling. -/
def name (d : ShutterDrive) : String := d.names.headD ""

/-- The byte on the wire. -/
def wire : ShutterDrive → UInt8
  | pulsed => 1
  | bidirectional => 2
  | unidirectional => 3

def ofName? (text : String) : Option ShutterDrive := all.find? (·.names.contains text)

def ofWire? (b : UInt8) : Option ShutterDrive := all.find? (·.wire == b)

end ShutterDrive

/-- What the trigger input does to a shutter. -/
inductive TriggerMode
  | disabled
  | enabled
  | inverted
  deriving DecidableEq, Repr

namespace TriggerMode

def all : List TriggerMode := [disabled, enabled, inverted]

/-- The spelling in descriptions. -/
def name : TriggerMode → String
  | disabled => "DISABLED"
  | enabled => "ENABLED"
  | inverted => "INVERTED"

/-- The byte on the wire. -/
def wire : TriggerMode → UInt8
  | disabled => 0
  | enabled => 1
  | inverted => 2

def ofName? (text : String) : Option TriggerMode := all.find? (·.name == text)

def ofWire? (b : UInt8) : Option TriggerMode := all.find? (·.wire == b)

end TriggerMode

/-- The parameters of one shutter channel. -/
structure ShutterParams where
  powerUp : ShutterState
  drive : ShutterDrive
  trigger : TriggerMode
  onTime : Duration
  /-- The duty cycle of the opening pulse, in percent of the full scale. -/
  pulseDuty : Binary
  /-- The duty cycle that holds the shutter, in percent of the full scale. -/
  holdDuty : Binary
  opensNegative : Bool
  holdoff : Duration
  deriving DecidableEq, Repr

namespace ShutterParams

/-- A floating-point number for a small whole one. -/
def whole (n : Nat) : Binary := .ofNat .double n

/-- The highest voltage of a solenoid, which is also the full scale of its duty cycle. -/
def maxVoltage : Binary := whole 24

/-- An error that names a number which is outside its range. -/
def outOfRange (e : Element) (name : String) (x : Binary) : ConfigError :=
  .malformedValue e.location name (Shortest.render .double x)

/-- A child whose value is one of a list of words. -/
def word {α : Type} (e : Element) (name : String) (read : String → Option α) :
    Except ConfigError α := do
  let c ← Attribute.child e name
  let raw ← Attribute.text c "value"
  match read raw with
  | some a => .ok a
  | none => .error (.unsupportedVariant c.location name raw)

/-- A child whose value is a finite number, with blanks around it at most. -/
def number (e : Element) (name : String) : Except ConfigError Binary := do
  let c ← Attribute.child e name
  let raw ← Attribute.text c "value"
  Attribute.orMalformed c "value" raw
    ((Decimal.binary? .double (Blank.trim raw)).filter Binary.isFinite)

/-- The duty cycle that a voltage needs. -/
def duty (e : Element) (name : String) : Except ConfigError Binary := do
  let volts ← number e name
  if Binary.le (whole 0) volts && volts.le maxVoltage then
    .ok (Binary.div .double (Binary.mul .double (whole 100) volts) maxVoltage)
  else .error (outOfRange e name volts)

/-- The words for on and off, in any case. -/
def switch? (raw : String) : Option Bool :=
  let is (words : List String) : Bool :=
    words.any fun w => Fold.agrees (Blank.trim raw) w.toList
  if is ["true", "yes", "on", "1"] then some true
  else if is ["false", "no", "off", "0"] then some false
  else none

/-- A span of time, given in seconds. -/
def span (e : Element) (name : String) (x : Binary) : Except ConfigError Duration :=
  match Duration.ofSeconds? x with
  | some d => .ok d
  | none => .error (outOfRange e name x)

/-- Reads the parameters of a channel. -/
def ofElement (e : Element) : Except ConfigError ShutterParams := do
  let powerUp ← word e "PowerUpPosition" ShutterState.ofName?
  let trigger ← word e "TriggerMode" TriggerMode.ofName?
  let drive ← word e "Type" ShutterDrive.ofName?
  let onTime ← number e "OnTimeSeconds"
  if onTime.le (whole 0) then throw (outOfRange e "OnTimeSeconds" onTime)
  let pulseDuty ← duty e "PulseVoltage"
  let holdDuty ← duty e "HoldVoltage"
  let opensNegative ← match e.child? "OpenUsesNegativeVoltage" with
    | some c => do
      let raw ← Attribute.text c "value"
      Attribute.orMalformed c "value" raw (switch? raw)
    | none => pure false
  let holdoff ← match e.child? "HoldoffTimeSeconds" with
    | some _ => number e "HoldoffTimeSeconds"
    | none => pure (whole 0)
  return {
    powerUp := powerUp
    drive := drive
    trigger := trigger
    onTime := ← span e "OnTimeSeconds" onTime
    pulseDuty := pulseDuty
    holdDuty := holdDuty
    opensNegative := opensNegative
    holdoff := ← span e "HoldoffTimeSeconds" holdoff }

/-- A span of time in milliseconds. -/
def milliseconds (d : Duration) : Binary := Binary.mul .double d.toSeconds (whole 1000)

/-- The on-time in units of ten milliseconds, rounded up; none if it does not fit into a byte. -/
def onTimeTicks? (p : ShutterParams) : Option UInt8 :=
  match Binary.div .double (milliseconds p.onTime) (whole 10) with
  | .finite s m e =>
    let ticks := Binary.ceilInt s m e
    if ticks ≤ 255 then some (UInt8.ofNat ticks.toNat) else none
  | _ => none

/-- The holdoff in tenths of a millisecond, rounded up and cut off at 32 bits. -/
def holdoffTicks (p : ShutterParams) : Nat :=
  (Binary.mul .double (milliseconds p.holdoff) (whole 10)).saturate (pow2 32) Binary.ceilInt

/-- The counts of a duty cycle, of which a full one has 1900, rounded down. -/
def dutyCounts (percent : Binary) : Nat :=
  (Binary.div .double (Binary.mul .double (whole 1900) percent) (whole 100)).saturate (pow2 32)
    Binary.floorInt

/-- The payload for a channel; none if the on-time is too long. -/
def payload? (p : ShutterParams) (channel : UInt16) : Option Octets := do
  let ticks ← p.onTimeTicks?
  return Octets.ofNat 2 channel.toNat
    ++ [p.powerUp.wire, p.drive.wire, p.trigger.wire, ticks]
    ++ Octets.ofNat 4 (dutyCounts p.pulseDuty)
    ++ Octets.ofNat 4 (dutyCounts p.holdDuty)
    ++ [if p.opensNegative then 1 else 0]
    ++ Octets.ofNat 4 p.holdoffTicks

end ShutterParams

/-- One shutter channel of a slot. -/
structure ShutterChannel where
  slot : UInt16
  channel : UInt16
  /-- The parameters, unless the channel is left unconfigured. -/
  params : Option ShutterParams
  deriving DecidableEq, Repr

namespace ShutterChannel

/-- The parameters that a description gives, if it is valid and its on-time fits. -/
def params? (e : Element) : Option ShutterParams :=
  match ShutterParams.ofElement e with
  | .ok p => if p.onTimeTicks?.isSome then some p else none
  | .error _ => none

/-- Reads a channel. Only a wrong slot is an error. -/
def ofElement (e : Element) (slot channel : UInt16) : Except ConfigError ShutterChannel :=
  if ¬ Address.IsSlotNumber slot then
    .error (.malformedValue e.location "slot" (toString slot.toNat))
  else .ok ⟨slot, channel, params? e⟩

/-- The address of the slot; a number that is no slot counts as the first. -/
def address (s : ShutterChannel) : Address := (Address.ofSlotNumber? s.slot).getD (.slot 0)

/-- The frame of a configured channel. -/
def frames (s : ShutterChannel) : List Frame :=
  match s.params.bind (·.payload? s.channel) with
  | some payload => [.carrying Command.setShutterParams s.address payload]
  | none => []

/-- Where commits for a channel go. -/
def target (s : ShutterChannel) : Address × UInt16 := (s.address, s.channel)

/-- The frames of a channel, with a commit if they are to be kept. -/
def compile (persist : Bool) (s : ShutterChannel) : List Frame :=
  Commit.append persist s.target.1 s.target.2 s.frames

end ShutterChannel

/-- The shutter channels of one slot. -/
structure FlipperGroup where
  slot : UInt16
  shutters : List ShutterChannel
  deriving DecidableEq, Repr

namespace FlipperGroup

/-- The name of the element that holds a group. -/
def elementName : String := "FlipperShutterParameters"

/-- The only version of a shutter description. -/
def version : String := "0"

/-- Reads the shutter at a position among the shutters of the group, which is also its channel if it
names none. -/
def shutter (slot : UInt16) (position : UInt16) (e : Element) :
    Except ConfigError ShutterChannel := do
  let channel := (← Attribute.u16? e "channel").getD position
  match e.attr? "version" with
  | some v =>
    if v = version then ShutterChannel.ofElement e slot channel
    else .error (.unsupportedVariant e.location "version" v)
  | none => .error (.missingField e.location "version")

/-- Reads shutters, the first of which is at `position`. -/
def shuttersFrom (slot : UInt16) : UInt16 → List Element → Except ConfigError (List ShutterChannel)
  | _, [] => .ok []
  | position, e :: rest => do
    let s ← shutter slot position e
    return s :: (← shuttersFrom slot (position + 1) rest)

/-- Reads a group. -/
def ofElement (e : Element) (slot : UInt16) : Except ConfigError FlipperGroup := do
  return ⟨slot, ← shuttersFrom slot 0 (e.childrenNamed "Shutter")⟩

/-- Where commits for the group as a whole would go. -/
def target (g : FlipperGroup) : Address × UInt16 :=
  ((Address.ofSlotNumber? g.slot).getD (.slot 0), 0)

/-- The frames of all channels, each with its own commit if they are to be kept. -/
def compile (persist : Bool) (g : FlipperGroup) : List Frame :=
  g.shutters.flatMap (·.compile persist)

/-- Reads a group from a file of its own. -/
def load (read : FileReader) (path : String) (slot : UInt16) : Except ConfigError FlipperGroup := do
  ofElement (← StageParameters.rootNamed elementName (← Expansion.openFile read path)) slot

end FlipperGroup
end MotionRack
