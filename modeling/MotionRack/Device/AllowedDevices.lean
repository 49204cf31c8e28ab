import MotionRack.Config.Attribute
import MotionRack.Config.Collision
import MotionRack.Document.Expansion
import MotionRack.Bus.Frame
import MotionRack.Text.Fold

/-!
# Allowed devices

Which devices may be plugged into which slots, and locks of a slot to one serial number.
-/
namespace MotionRack

/-- What tells kinds of devices apart. -/
structure Signature where
  slotType : UInt16 := 0xFFFF
  deviceId : UInt16 := 0xFFFF
  deriving DecidableEq, Repr

namespace Signature

/-- Takes a child of a signature into account. -/
def withChild (s : Signature) (c : Element) : Except ConfigError Signature :=
  if c.name = "DefaultSlotType" then do return { s with slotType := ← Attribute.u16 c "value" }
  else if c.name = "DeviceID" then do return { s with deviceId := ← Attribute.u16 c "value" }
  else .ok s

def ofElement (e : Element) : Except ConfigError Signature := e.children.foldlM withChild {}

/-- The order of signatures: by slot type, then by device. -/
def compare (a b : Signature) : Ordering :=
  (Ord.compare a.slotType b.slotType).then (Ord.compare a.deviceId b.deviceId)

/-- The bytes of an entry of an allow list. -/
def bytes (s : Signature) : Octets :=
  Octets.ofNat 2 s.slotType.toNat ++ Octets.ofNat 2 s.deviceId.toNat

end Signature

/-- The slot that an element names, which has to be one. -/
def Attribute.slot (e : Element) : Except ConfigError UInt16 := do
  let raw ← Attribute.text e "slot"
  Attribute.orMalformed e "slot" raw
    ((Numeral.u16? raw).filter fun n => Address.IsSlotNumber n)

/-- A kind of device, and the slots that it may be plugged into, each once. -/
structure AllowedDevice where
  signature : Signature
  slots : List UInt16
  deriving DecidableEq, Repr

namespace AllowedDevice

/-- Names more slots. Each is put behind those that are there, unless it is one of them. -/
def allow (slots more : List UInt16) : List UInt16 :=
  more.foldl (fun slots slot => if slot ∈ slots then slots else slots ++ [slot]) slots

/-- A device with slots in the order of their first mention. -/
def new (signature : Signature) (slots : List UInt16) : AllowedDevice :=
  ⟨signature, allow [] slots⟩

/-- Takes a child of a device into account. Of several signatures the last counts. -/
def withChild (d : Signature × List UInt16) (c : Element) :
    Except ConfigError (Signature × List UInt16) :=
  if c.name = "Signature" then do return (← Signature.ofElement c, d.2)
  else if c.name = "Allow" then do return (d.1, d.2 ++ [← Attribute.slot c])
  else .ok d

def ofElement (e : Element) : Except ConfigError AllowedDevice := do
  let (signature, slots) ← e.children.foldlM withChild ({}, [])
  return new signature slots

/-- Two declarations of one kind of device as one: the slots of the first and then the others. -/
def merge (a b : AllowedDevice) : AllowedDevice := ⟨a.signature, allow a.slots b.slots⟩

/-- Whether two declarations are about one kind of device. -/
def collides (a b : AllowedDevice) : Bool := a.signature == b.signature

end AllowedDevice

/-- A slot that takes one device only, or is said to take any. -/
structure DeviceLock where
  slot : UInt16
  serial : Option UInt64
  deriving DecidableEq, Repr

namespace DeviceLock

/-- The serial number that stands for any device. -/
def anySerial : UInt64 := 0xFFFF000000000000

def ofElement (e : Element) : Except ConfigError DeviceLock := do
  let slot ← Attribute.slot e
  let enabled := match e.attr? "enabled" with
    | some v => Fold.agrees v.toList "true".toList
    | none => false
  if enabled then
    let raw ← Attribute.text e "sn"
    return ⟨slot, some (← Attribute.orMalformed e "sn" raw (Numeral.u64? raw))⟩
  else return ⟨slot, none⟩

def frame (l : DeviceLock) : Frame :=
  .carrying Command.setDeviceBoard .motherboard
    (Octets.ofNat 2 (l.slot - 1).toNat ++ Octets.ofNat 8 (l.serial.getD anySerial).toNat)

/-- Whether two locks are about one slot. -/
def collides (a b : DeviceLock) : Bool := a.slot == b.slot

end DeviceLock

/-- The allow lists and locks of a rack. -/
structure AllowedDevices where
  devices : List AllowedDevice
  locks : List DeviceLock
  deriving DecidableEq, Repr

namespace AllowedDevices

/-- Takes a declaration into account. -/
def withChild (a : AllowedDevices) (c : Element) : Except ConfigError AllowedDevices :=
  if c.name = "Device" then do
    return { a with devices := a.devices ++ [← AllowedDevice.ofElement c] }
  else if c.name = "DeviceLock" then do
    return { a with locks := a.locks ++ [← DeviceLock.ofElement c] }
  else .ok a

/-- Reads allow lists and locks. Declarations of one kind of device are merged in pairs; two locks
of one slot are an error. -/
def ofElement (e : Element) : Except ConfigError AllowedDevices := do
  let declared ← e.children.foldlM withChild ⟨[], []⟩
  let merged := Collision.union AllowedDevice.collides AllowedDevice.merge declared.devices
  let devices ← match merged with
    | .ok devices => pure devices
    | .error c => throw (.collision e.location .deviceSignature c.first c.second)
  match Collision.unique DeviceLock.collides declared.locks with
  | .ok locks => return ⟨devices, locks⟩
  | .error c => throw (.collision e.location .deviceLockSlot c.first c.second)

/-- The slots that any device names, each once, in the order of first mention. -/
def slotsUsed (a : AllowedDevices) : List UInt16 := (a.devices.flatMap (·.slots)).eraseDups

/-- The devices that may be plugged into a slot, in order. -/
def allowedIn (a : AllowedDevices) (slot : UInt16) : List Signature :=
  (a.devices.filter (·.slots.contains slot)).map (·.signature)

/-- The allow list of a slot. Only this frame can grow beyond what a frame carries. -/
def allowFrame (a : AllowedDevices) (slot : UInt16) : Except LinkError Frame :=
  Frame.long Command.setAllowedDevices .motherboard
    (Octets.ofNat 2 (slot - 1).toNat ++ (a.allowedIn slot).flatMap Signature.bytes)

/-- The frames: one allow list per slot in use, then one frame per lock. -/
def compile (a : AllowedDevices) : Except ConfigError (List Frame) :=
  match a.slotsUsed.mapM a.allowFrame with
  | .ok frames => .ok (frames ++ a.locks.map DeviceLock.frame)
  | .error e => .error (.link e)

/-- Reads allow lists and locks from a file of their own. -/
def load (read : FileReader) (path : String) : Except ConfigError AllowedDevices := do
  ofElement (← Expansion.openFile read path)

end AllowedDevices
end MotionRack
