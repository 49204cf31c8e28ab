import MotionRack.Octets
import MotionRack.Text.Hex

/-!
# Nodes of the bus

Nodes of the bus. An address byte has seven bits; the eighth marks a frame with a payload and is
no part of the address. Slots are numbered from one in descriptions and from zero on the wire.
-/
namespace MotionRack

/-- A node of the bus. Slot indices are zero-based. -/
inductive Address
  | host
  | motherboard
  | slot (index : UInt8)
  | other (byte : UInt8)
  deriving DecidableEq, Repr, Inhabited

namespace Address

/-- The bit of a destination byte that marks a frame with a payload. -/
def extendedFlag : UInt8 := 0x80

/-- The seven bits of a byte that hold an address. -/
def addressMask : UInt8 := 0x7F

/-- The byte of the first slot; the others follow it. -/
def slotBase : UInt8 := 0x21

/-- The number of slots of a rack. -/
def slotCount : Nat := 16

/-- A slot number as descriptions write it: from one to the number of slots. -/
def IsSlotNumber (number : UInt16) : Prop := 1 ≤ number.toNat ∧ number.toNat ≤ slotCount

instance (number : UInt16) : Decidable (IsSlotNumber number) :=
  inferInstanceAs (Decidable (_ ∧ _))

/-- The address of a slot, given its number. -/
def ofSlotNumber? (number : UInt16) : Option Address :=
  if IsSlotNumber number then some (slot (number - 1).toUInt8) else none

/-- The address byte, without the payload mark. -/
def byte : Address → UInt8
  | host => 0x01
  | motherboard => 0x11
  | slot index => (slotBase + index) &&& addressMask
  | other b => b &&& addressMask

/-- The node that an address byte names, whatever its eighth bit. -/
def ofByte (raw : UInt8) : Address :=
  let b := raw &&& addressMask
  if b = 0x01 then host
  else if b = 0x11 then motherboard
  else if slotBase ≤ b ∧ b.toNat < slotBase.toNat + slotCount then slot (b - slotBase)
  else other b

/-- The number of a slot, counted from one. -/
def slotNumber? : Address → Option UInt16
  | slot index => some (index.toUInt16 + 1)
  | _ => none

/-- The name of a node in listings. -/
def render : Address → String
  | host => "host"
  | motherboard => "motherboard"
  | slot index => s!"slot {index.toNat + 1}"
  | other b => s!"0x{Hex.byte b}"

instance : ToString Address := ⟨render⟩

end Address
end MotionRack
