import MotionRack.Config.Fault
import MotionRack.Document.Element
import MotionRack.Number.Numeral

/-!
# Attributes with a meaning

Attributes with a meaning. Each reader tells a missing attribute from one that cannot be read, and
both name the element.
-/
namespace MotionRack.Attribute

/-- An attribute that has to be there. -/
def text (e : Element) (key : String) : Except ConfigError String :=
  match e.attr? key with
  | some value => .ok value
  | none => .error (.missingField e.location key)

/-- A value that was read from an attribute, or the error that it cannot be read. -/
def orMalformed {α : Type} (e : Element) (key raw : String) : Option α → Except ConfigError α
  | some value => .ok value
  | none => .error (.malformedValue e.location key raw)

/-- An unsigned number of at most `bits` bits that has to be there. -/
def natural (bits : Nat) (e : Element) (key : String) : Except ConfigError Nat := do
  let raw ← text e key
  orMalformed e key raw (Numeral.natOf? bits raw)

/-- An unsigned number of at most `bits` bits that may be missing, but has to be one if it is
there. -/
def natural? (bits : Nat) (e : Element) (key : String) : Except ConfigError (Option Nat) :=
  if e.hasAttr key then some <$> natural bits e key else .ok none

def u8 (e : Element) (key : String) : Except ConfigError UInt8 := UInt8.ofNat <$> natural 8 e key

def u16 (e : Element) (key : String) : Except ConfigError UInt16 :=
  UInt16.ofNat <$> natural 16 e key

def u32 (e : Element) (key : String) : Except ConfigError UInt32 :=
  UInt32.ofNat <$> natural 32 e key

def u8? (e : Element) (key : String) : Except ConfigError (Option UInt8) :=
  Option.map UInt8.ofNat <$> natural? 8 e key

def u16? (e : Element) (key : String) : Except ConfigError (Option UInt16) :=
  Option.map UInt16.ofNat <$> natural? 16 e key

/-- A child that has to be there. -/
def child (e : Element) (name : String) : Except ConfigError Element :=
  match e.child? name with
  | some c => .ok c
  | none => .error (.missingField e.location name)

end MotionRack.Attribute
