import MotionRack.Number.Power

/-!
# Binary floating-point numbers

Binary floating-point numbers as exact values. A finite number is `significand · 2 ^ exponent`
with a sign; `round` is the only place where precision is lost, to the nearest number of a format
and to the even significand of two that are equally near. Arithmetic is the exact result, rounded.
-/
namespace MotionRack

/-- The shape of a binary format: significands have at most `precision` bits, and the unit of a
finite number lies between `2 ^ minExponent` and `2 ^ maxExponent`. -/
structure BinaryFormat where
  precision : Nat
  minExponent : Int
  maxExponent : Int
  /-- The number of bits that hold the exponent. -/
  exponentBits : Nat

/-- The format of 64 bits. -/
def BinaryFormat.double : BinaryFormat := ⟨53, -1074, 971, 11⟩

/-- The format of 32 bits. -/
def BinaryFormat.single : BinaryFormat := ⟨24, -149, 104, 8⟩

/-- A floating-point number. -/
inductive Binary
  | nan (negative : Bool)
  | infinite (negative : Bool)
  | finite (negative : Bool) (significand : Nat) (exponent : Int)
  deriving DecidableEq, Repr, Inhabited

namespace Binary

/-- The pair of natural numbers whose quotient is `m · 2 ^ e`. -/
def ratio (m : Nat) (e : Int) : Nat × Nat :=
  if 0 ≤ e then (m * pow2 e.toNat, 1) else (m, pow2 (-e).toNat)

/-- The quotient to the nearest natural number; a half goes to the even neighbour. -/
def divHalfEven (num den : Nat) : Nat :=
  let q := num / den
  let twice := 2 * (num % den)
  if twice < den then q
  else if den < twice then q + 1
  else if q % 2 = 0 then q else q + 1

/-- The quotient to the nearest natural number; a half goes up. -/
def divHalfUp (num den : Nat) : Nat := (2 * num + den) / (2 * den)

/-- The exponent of the greatest power of two that is not above `num / den`, for positive
numbers. -/
def floorLog (num den : Nat) : Int :=
  let guess : Int := Int.ofNat num.log2 - Int.ofNat den.log2
  let (a, b) := ratio den guess
  if num * b < a then guess - 1 else guess

/-- The number of a format nearest to `num / den`. -/
def round (f : BinaryFormat) (negative : Bool) (num den : Nat) : Binary :=
  if num = 0 then .finite negative 0 f.minExponent
  else
    let e := max (floorLog num den - Int.ofNat (f.precision - 1)) f.minExponent
    let (a, b) := ratio den e
    let m := divHalfEven (num * b) a
    let (m, e) := if m = pow2 f.precision then (pow2 (f.precision - 1), e + 1) else (m, e)
    if f.maxExponent < e then .infinite negative else .finite negative m e

/-- The number of a format nearest to `m · 2 ^ e`. -/
def roundScaled (f : BinaryFormat) (negative : Bool) (m : Nat) (e : Int) : Binary :=
  let (num, den) := ratio m e
  round f negative num den

/-- The number of a format nearest to a natural number. -/
def ofNat (f : BinaryFormat) (n : Nat) : Binary := round f false n 1

/-- The same value in another format, rounded where that format is coarser. -/
def convert (f : BinaryFormat) : Binary → Binary
  | finite s m e => roundScaled f s m e
  | x => x

def isFinite : Binary → Bool
  | finite _ _ _ => true
  | _ => false

def isNaN : Binary → Bool
  | nan _ => true
  | _ => false

/-! ### Arithmetic -/

def mul (f : BinaryFormat) : Binary → Binary → Binary
  | nan s, _ => nan s
  | _, nan s => nan s
  | infinite s, infinite t => infinite (s != t)
  | infinite s, finite t m _ => if m = 0 then nan false else infinite (s != t)
  | finite s m _, infinite t => if m = 0 then nan false else infinite (s != t)
  | finite s m e, finite t n d => roundScaled f (s != t) (m * n) (e + d)

def div (f : BinaryFormat) : Binary → Binary → Binary
  | nan s, _ => nan s
  | _, nan s => nan s
  | infinite _, infinite _ => nan false
  | infinite s, finite t _ _ => infinite (s != t)
  | finite s _ _, infinite t => finite (s != t) 0 f.minExponent
  | finite s m e, finite t n d =>
    if n = 0 then if m = 0 then nan false else infinite (s != t)
    else
      let (a, b) := ratio m e
      let (c, g) := ratio n d
      round f (s != t) (a * g) (b * c)

/-- The integer by which a finite number exceeds zero in units of `2 ^ unit`, where `unit` is at
most its exponent. -/
def inUnits (unit : Int) (negative : Bool) (m : Nat) (e : Int) : Int :=
  let n : Int := Int.ofNat (m * pow2 (e - unit).toNat)
  if negative then -n else n

def add (f : BinaryFormat) : Binary → Binary → Binary
  | nan s, _ => nan s
  | _, nan s => nan s
  | infinite s, infinite t => if s = t then infinite s else nan false
  | infinite s, finite _ _ _ => infinite s
  | finite _ _ _, infinite t => infinite t
  | finite s m e, finite t n d =>
    let unit := min e d
    let sum := inUnits unit s m e + inUnits unit t n d
    if sum = 0 then finite (s && t) 0 f.minExponent
    else roundScaled f (decide (sum < 0)) sum.natAbs unit

/-! ### Comparison -/

/-- Whether one number is below another; nothing is below or above what is no number. -/
def lt : Binary → Binary → Bool
  | nan _, _ => false
  | _, nan _ => false
  | infinite s, infinite t => s && !t
  | infinite s, finite _ _ _ => s
  | finite _ _ _, infinite t => !t
  | finite s m e, finite t n d =>
    let unit := min e d
    decide (inUnits unit s m e < inUnits unit t n d)

/-- Whether one number is at most another. -/
def le : Binary → Binary → Bool
  | nan _, _ => false
  | _, nan _ => false
  | infinite s, infinite t => s || !t
  | infinite s, finite _ _ _ => s
  | finite _ _ _, infinite t => !t
  | finite s m e, finite t n d =>
    let unit := min e d
    decide (inUnits unit s m e ≤ inUnits unit t n d)

/-! ### Whole numbers -/

/-- The integer nearest to a finite number; a half goes away from zero. -/
def nearestInt (negative : Bool) (m : Nat) (e : Int) : Int :=
  let (num, den) := ratio m e
  let n : Int := Int.ofNat (divHalfUp num den)
  if negative then -n else n

/-- The greatest integer that is not above a finite number. -/
def floorInt (negative : Bool) (m : Nat) (e : Int) : Int :=
  let (num, den) := ratio m e
  if negative then -Int.ofNat ((num + den - 1) / den) else Int.ofNat (num / den)

/-- The least integer that is not below a finite number. -/
def ceilInt (negative : Bool) (m : Nat) (e : Int) : Int :=
  let (num, den) := ratio m e
  if negative then -Int.ofNat (num / den) else Int.ofNat ((num + den - 1) / den)

/-- The natural number below `bound` that is closest to what `whole` makes of a number: below zero
it is zero, from `bound` on it is the last, and what is no number gives zero. -/
def saturate (bound : Nat) (whole : Bool → Nat → Int → Int) : Binary → Nat
  | nan _ => 0
  | infinite s => if s then 0 else bound - 1
  | finite s m e => min (whole s m e).toNat (bound - 1)

/-! ### Bits -/

/-- The pattern of bits of a number. -/
def toBits (f : BinaryFormat) (x : Binary) : Nat :=
  let hidden := pow2 (f.precision - 1)
  let top := (pow2 f.exponentBits - 1) * hidden
  let signBit (s : Bool) : Nat := if s then pow2 f.exponentBits * hidden else 0
  match x with
  | nan s => signBit s + top + hidden / 2
  | infinite s => signBit s + top
  | finite s m e =>
    if m < hidden then signBit s + m
    else signBit s + ((e - f.minExponent).toNat + 1) * hidden + (m - hidden)

/-- The number that a pattern of bits stands for. -/
def ofBits (f : BinaryFormat) (bits : Nat) : Binary :=
  let hidden := pow2 (f.precision - 1)
  let fraction := bits % hidden
  let biased := bits / hidden % pow2 f.exponentBits
  let s := bits / hidden / pow2 f.exponentBits % 2 = 1
  if biased = pow2 f.exponentBits - 1 then
    if fraction = 0 then infinite s else nan s
  else if biased = 0 then finite s fraction f.minExponent
  else finite s (hidden + fraction) (f.minExponent + Int.ofNat biased - 1)

end Binary
end MotionRack
