import MotionRack.Number.Binary

/-!
# The shortest decimal text

The shortest decimal text of a floating-point number: the fewest digits that read back as the same
number, of these the ones nearest to it, written without an exponent.
-/
namespace MotionRack.Shortest

/-- A number `digits · 10 ^ exponent`. -/
structure Digits where
  digits : Nat
  exponent : Int

/-- The pair of natural numbers whose quotient is `n · 10 ^ k`. -/
def tens (n : Nat) (k : Int) : Nat × Nat :=
  if 0 ≤ k then (n * pow10 k.toNat, 1) else (n, pow10 (-k).toNat)

/-- The open or closed interval of the reals that round to a number, in multiples of a quarter of
its unit. Below the least significand of a unit the neighbour is only half as far away. -/
structure Basin where
  low : Nat
  high : Nat
  closed : Bool
  exponent : Int

/-- The reals that round to `m · 2 ^ e`. -/
def basin (f : BinaryFormat) (m : Nat) (e : Int) : Basin where
  low := if m = pow2 (f.precision - 1) ∧ f.minExponent < e then 4 * m - 1 else 4 * m - 2
  high := 4 * m + 2
  closed := m % 2 = 0
  exponent := e - 2

/-- Whether `n · 10 ^ k` lies in the interval. -/
def Basin.holds (b : Basin) (n : Nat) (k : Int) : Bool :=
  let (num, den) := tens n k
  let (a, c) := Binary.ratio b.low b.exponent
  let (d, g) := Binary.ratio b.high b.exponent
  if b.closed then decide (a * den ≤ num * c) && decide (num * g ≤ d * den)
  else decide (a * den < num * c) && decide (num * g < d * den)

/-- The exponent of the greatest power of ten that is not above `num / den`, for positive numbers:
the search starts below it and goes up. -/
def floorLogTen (num den : Nat) : Int :=
  let start : Int := (Binary.floorLog num den * 30103) / 100000 - 1
  let fits (k : Int) : Bool :=
    let (a, b) := tens den k
    decide (a ≤ num * b)
  if fits (start + 2) then start + 2 else if fits (start + 1) then start + 1 else start

/-- The same number without a zero at the end. The grid of one digit ends with the next power of
ten, the only point of any grid that can be found and has such a zero. -/
def Digits.carry (d : Digits) : Digits :=
  if d.digits % 10 = 0 then ⟨d.digits / 10, d.exponent + 1⟩ else d

/-- The first of the grids with `count`, `count + 1`, … digits that has a point in the interval. Of
two neighbours the nearer one counts, and the greater one where they are equally near. -/
def search (b : Basin) (num den : Nat) (top : Int) : Nat → Nat → Digits
  | 0, _ => ⟨0, 0⟩
  | fuel + 1, count =>
    let k := top - Int.ofNat count + 1
    let (a, c) := tens den k
    let below := num * c / a
    let rest := num * c % a
    let lowFits := b.holds below k
    let highFits := b.holds (below + 1) k
    if lowFits && (!highFits || decide (2 * rest < a)) then ⟨below, k⟩
    else if highFits then ⟨below + 1, k⟩
    else search b num den top fuel (count + 1)

/-- Seventeen digits tell all numbers of the formats in use apart. -/
def digits (f : BinaryFormat) (m : Nat) (e : Int) : Digits :=
  let (num, den) := Binary.ratio m e
  (search (basin f m e) num den (floorLogTen num den) 18 1).carry

/-- Digits with the point at its place and no exponent. -/
def positional (d : Digits) : String :=
  let text := Nat.toDigits 10 d.digits
  if 0 ≤ d.exponent then String.ofList (text ++ List.replicate d.exponent.toNat '0')
  else
    let places := (-d.exponent).toNat
    if places < text.length then
      String.ofList (text.take (text.length - places) ++ '.' :: text.drop (text.length - places))
    else String.ofList ('0' :: '.' :: List.replicate (places - text.length) '0' ++ text)

/-- The text of a number. Zero keeps its sign. -/
def render (f : BinaryFormat) : Binary → String
  | .nan _ => "NaN"
  | .infinite s => if s then "-inf" else "inf"
  | .finite s m e =>
    let body := if m = 0 then "0" else positional (digits f m e)
    if s then "-" ++ body else body

end MotionRack.Shortest
