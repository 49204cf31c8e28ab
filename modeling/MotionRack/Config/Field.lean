import MotionRack.Config.Attribute
import MotionRack.Number.Decimal
import MotionRack.Octets

/-!
# Fields of fixed width

Attribute values as bytes of a fixed width. A whole number may be narrower than its natural four
bytes as long as its value fits; nothing else is ever cut. What is shorter than the width is filled
up with zeros behind.
-/
namespace MotionRack

/-- How the text of a value is read. -/
inductive FieldKind
  /-- The words `true` and `false`, as one byte. -/
  | bool
  /-- A signed number of 32 bits. -/
  | int
  /-- An unsigned number of 32 bits. -/
  | uint
  /-- A binary floating-point number of 32 bits. -/
  | float
  /-- ASCII characters. -/
  | text
  deriving DecidableEq, Repr

namespace Field

/-- Reads a truth value, in any case and with blanks anywhere. -/
def bool? (raw : String) : Option Bool :=
  let cs := Blank.strip raw
  if Fold.agrees cs "true".toList then some true
  else if Fold.agrees cs "false".toList then some false
  else none

/-- Reads a floating-point number of 32 bits. -/
def float? (raw : String) : Option Binary := Decimal.binary? .single (Blank.strip raw)

/-- The bytes of a floating-point number of 32 bits. -/
def floatBytes (x : Binary) : Octets := Octets.ofNat 4 (x.toBits .single)

/-- The bytes of a text, if all its characters are ASCII. -/
def asciiBytes? (raw : String) : Option Octets :=
  raw.toList.mapM fun c => if c.toNat < 128 then some (UInt8.ofNat c.toNat) else none

/-- Whether a number can be told apart in `width` bytes, read as a signed or an unsigned one. -/
def FitsWidth (v : Int) (width : Nat) : Prop :=
  width ≠ 0 ∧ -(pow2 (8 * width - 1) : Int) ≤ v ∧ v < pow2 (8 * width)

instance (v : Int) (width : Nat) : Decidable (FitsWidth v width) :=
  inferInstanceAs (Decidable (_ ∧ _ ∧ _))

/-- The natural bytes of a value, or none if the text cannot be read. -/
def naturalBytes? (kind : FieldKind) (raw : String) : Option (Int × Octets) :=
  match kind with
  | .bool => (bool? raw).map fun b => (0, [if b then 1 else 0])
  | .int => (Numeral.i32? raw).map fun v => (v, Octets.ofInt 4 v)
  | .uint => (Numeral.natOf? 32 raw).map fun n => (Int.ofNat n, Octets.ofNat 4 n)
  | .float => (float? raw).map fun x => (0, floatBytes x)
  | .text => (asciiBytes? raw).map fun bytes => (0, bytes)

/-- Whether natural bytes go into a width: a whole number by its value, all else by its length. -/
def goesInto (kind : FieldKind) (value : Int) (bytes : Octets) (width : Nat) : Bool :=
  match kind with
  | .int => 4 ≤ width || decide (FitsWidth value width)
  | .uint => 4 ≤ width || decide (FitsWidth value width)
  | _ => bytes.length ≤ width

/-- The bytes of a value that is known by the name of its field. -/
def encodeText (e : Element) (field raw : String) (kind : FieldKind) (width : Nat) :
    Except ConfigError Octets :=
  match naturalBytes? kind raw with
  | none => .error (.malformedValue e.location field raw)
  | some (value, bytes) =>
    if goesInto kind value bytes width then .ok (bytes.fit width)
    else .error (.widthOverflow e.location field bytes.length width)

/-- The bytes of an attribute. -/
def encode (e : Element) (key : String) (kind : FieldKind) (width : Nat) :
    Except ConfigError Octets := do
  encodeText e key (← Attribute.text e key) kind width

/-- The whole number nearest to `x · factor`, where the product is a floating-point number itself;
none if it is outside the range of 64 bits. The upper end of the range counts as its last number. -/
def scaledWhole? (x : Binary) (factor : Nat) : Option Int :=
  match Binary.mul .double x (.ofNat .double factor) with
  | .finite s m e =>
    let n := Binary.nearestInt s m e
    if -(pow2 63 : Int) ≤ n ∧ n ≤ pow2 63 then some (min n (pow2 63 - 1)) else none
  | _ => none

/-- The bytes of a fraction, counted in parts of `1 / factor`. -/
def encodeScaled (e : Element) (key : String) (factor width : Nat) : Except ConfigError Octets := do
  let raw ← Attribute.text e key
  let x ← Attribute.orMalformed e key raw (Decimal.binary? .double (Blank.strip raw))
  let n ← Attribute.orMalformed e key raw (scaledWhole? x factor)
  if width < 8 ∧ ¬ FitsWidth n width then .error (.widthOverflow e.location key 8 width)
  else .ok ((Octets.ofInt 8 n).fit width)

end Field
end MotionRack
