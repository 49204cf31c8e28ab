import MotionRack.Number.Binary
import MotionRack.Number.Numeral
import MotionRack.Text.Fold

/-!
# Decimal fractions

Decimal fractions. A text is an optional sign and then either `inf`, `infinity` or `nan` in any
case, or digits with at most one point among or around them and an optional exponent. The value is
rounded once, straight from the digits, whatever the format.
-/
namespace MotionRack

/-- The value of a decimal text. -/
inductive Decimal
  | nan (negative : Bool)
  | infinite (negative : Bool)
  | finite (negative : Bool) (digits : Nat) (exponent : Int)
  deriving DecidableEq, Repr

namespace Decimal

/-- Whether a character is a decimal digit. -/
def isDigit (c : Char) : Bool := '0' ≤ c && c ≤ '9'

/-- The exponent behind the digits: nothing, or `e` with an optional sign and digits. -/
def exponent? : List Char → Option Int
  | [] => some 0
  | c :: rest =>
    if c = 'e' ∨ c = 'E' then
      match rest with
      | '-' :: ds => (Numeral.digits? 10 ds).map fun n => -(n : Int)
      | '+' :: ds => (Numeral.digits? 10 ds).map Int.ofNat
      | ds => (Numeral.digits? 10 ds).map Int.ofNat
    else none

/-- A number without its sign: digits, a point with digits behind it, an exponent. At least one
digit has to stand before or behind the point. -/
def magnitude? (cs : List Char) : Option (Nat × Int) := do
  let whole := cs.takeWhile isDigit
  let rest := cs.dropWhile isDigit
  let (fraction, rest) := match rest with
    | '.' :: r => (r.takeWhile isDigit, r.dropWhile isDigit)
    | r => ([], r)
  let digits ← Numeral.digits? 10 (whole ++ fraction)
  let exponent ← exponent? rest
  return (digits, exponent - Int.ofNat fraction.length)

/-- A value without its sign. -/
def unsigned? (negative : Bool) (cs : List Char) : Option Decimal :=
  if Fold.agrees cs "inf".toList || Fold.agrees cs "infinity".toList then some (infinite negative)
  else if Fold.agrees cs "nan".toList then some (nan negative)
  else (magnitude? cs).map fun (digits, exponent) => finite negative digits exponent

/-- The value of a text without blanks. -/
def parse? : List Char → Option Decimal
  | '-' :: rest => unsigned? true rest
  | '+' :: rest => unsigned? false rest
  | cs => unsigned? false cs

/-- A power of ten beyond which a number of `n` digits is above, or its reciprocal below, every
finite number of the formats in use. -/
def reach : Nat := 400

/-- The number of a format nearest to a decimal value. A value beyond the reach of the format is
settled by its size, so that no power of ten grows with the exponent that was written. -/
def toBinary (f : BinaryFormat) : Decimal → Binary
  | nan s => .nan s
  | infinite s => .infinite s
  | finite s digits exponent =>
    if digits = 0 then .finite s 0 f.minExponent
    else
      let size := exponent + Int.ofNat (Nat.toDigits 10 digits).length
      if Int.ofNat reach < size then .infinite s
      else if size < -Int.ofNat reach then .finite s 0 f.minExponent
      else if 0 ≤ exponent then Binary.round f s (digits * pow10 exponent.toNat) 1
      else Binary.round f s digits (pow10 (-exponent).toNat)

/-- The number of a format that a text without blanks denotes. -/
def binary? (f : BinaryFormat) (cs : List Char) : Option Binary := (parse? cs).map (toBinary f)

end Decimal
end MotionRack
