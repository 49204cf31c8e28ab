import MotionRack.Number.Power
import MotionRack.Text.Blank

/-!
# Whole numbers

Whole numbers as descriptions write them. Blanks may stand anywhere and are ignored. An unsigned
number is decimal, or hexadecimal behind `0x`; a plus sign may precede its digits. A signed number
is decimal with an optional sign. A number that does not fit the width asked for is no number.
-/
namespace MotionRack.Numeral

/-- The value of a digit in a radix of at most sixteen. -/
def digitValue? (radix : Nat) (c : Char) : Option Nat :=
  let value :=
    if '0' ≤ c ∧ c ≤ '9' then c.toNat - 48
    else if 'a' ≤ c ∧ c ≤ 'f' then c.toNat - 87
    else if 'A' ≤ c ∧ c ≤ 'F' then c.toNat - 55
    else radix
  if value < radix then some value else none

/-- The value of a run of digits that continues a number read so far. -/
def continue? (radix : Nat) : Nat → List Char → Option Nat
  | value, [] => some value
  | value, c :: rest => do continue? radix (radix * value + (← digitValue? radix c)) rest

/-- The value of one or more digits. -/
def digits? (radix : Nat) (cs : List Char) : Option Nat :=
  if cs.isEmpty then none else continue? radix 0 cs

/-- The value of digits behind an optional plus sign. -/
def unsigned? (radix : Nat) : List Char → Option Nat
  | '+' :: rest => digits? radix rest
  | cs => digits? radix cs

/-- The value of decimal digits behind an optional sign. -/
def signed? : List Char → Option Int
  | '-' :: rest => (digits? 10 rest).map fun n => -(n : Int)
  | cs => (unsigned? 10 cs).map Int.ofNat

/-- The value of an unsigned number without blanks. -/
def hexable? : List Char → Option Nat
  | '0' :: 'x' :: rest => unsigned? 16 rest
  | '0' :: 'X' :: rest => unsigned? 16 rest
  | cs => unsigned? 10 cs

/-- An unsigned number of at most `bits` bits. -/
def natOf? (bits : Nat) (raw : String) : Option Nat :=
  (hexable? (Blank.strip raw)).filter (· < pow2 bits)

/-- An unsigned number of 64 bits. -/
def u64? (raw : String) : Option UInt64 := (natOf? 64 raw).map UInt64.ofNat

/-- An unsigned number of 32 bits. -/
def u32? (raw : String) : Option UInt32 := (natOf? 32 raw).map UInt32.ofNat

/-- An unsigned number of 16 bits. -/
def u16? (raw : String) : Option UInt16 := (natOf? 16 raw).map UInt16.ofNat

/-- An unsigned number of 8 bits. -/
def u8? (raw : String) : Option UInt8 := (natOf? 8 raw).map UInt8.ofNat

/-- A signed number of 32 bits. -/
def i32? (raw : String) : Option Int :=
  (signed? (Blank.strip raw)).filter fun v => decide (-(pow2 31 : Int) ≤ v ∧ v < pow2 31)

end MotionRack.Numeral
