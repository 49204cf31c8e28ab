/-!
# Hexadecimal text

Hexadecimal text: upper-case digits without a sign, filled up with zeros to a least width.
-/
namespace MotionRack.Hex

/-- The upper-case digit of a number below sixteen. -/
def digit (n : Nat) : Char :=
  if n < 10 then Char.ofNat (48 + n) else Char.ofNat (55 + n)

/-- The `width` low digits of `n`, most significant first. -/
def digits : Nat → Nat → List Char
  | 0, _ => []
  | width + 1, n => digits width (n / 16) ++ [digit (n % 16)]

/-- One byte as two digits. -/
def byte (b : UInt8) : String := String.ofList (digits 2 b.toNat)

/-- A 16-bit word as four digits. -/
def word (w : UInt16) : String := String.ofList (digits 4 w.toNat)

/-- A 32-bit word as eight digits. -/
def double (w : UInt32) : String := String.ofList (digits 8 w.toNat)

end MotionRack.Hex
