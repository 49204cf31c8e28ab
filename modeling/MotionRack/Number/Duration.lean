import MotionRack.Number.Binary

/-!
# Spans of time

Spans of time in whole nanoseconds. A floating-point number of seconds goes to the nearest
nanosecond, a half to the even one.
-/
namespace MotionRack

/-- A span of time: whole seconds, and less than a second in nanoseconds. -/
structure Duration where
  seconds : Nat
  nanoseconds : Nat
  deriving DecidableEq, Repr

namespace Duration

/-- The number of nanoseconds in a second. -/
def nanosPerSecond : Nat := 1000000000

/-- The span of seconds and nanoseconds, of which there may be more than make a second. -/
def ofParts (seconds nanoseconds : Nat) : Duration :=
  ⟨seconds + nanoseconds / nanosPerSecond, nanoseconds % nanosPerSecond⟩

/-- The span of a number of seconds. There is none for a number below zero, for one that has more
than 64 bits before the point, and for what is no finite number. -/
def ofSeconds? : Binary → Option Duration
  | .finite s m e =>
    let (num, den) := Binary.ratio m e
    if (s ∧ m ≠ 0) ∨ pow2 64 * den ≤ num then none
    else
      some (ofParts 0 (Binary.divHalfEven (num * nanosPerSecond) den))
  | _ => none

/-- The span as a floating-point number of seconds: the two parts, each rounded, and their sum
rounded. -/
def toSeconds (d : Duration) : Binary :=
  Binary.add .double (.ofNat .double d.seconds)
    (Binary.div .double (.ofNat .double d.nanoseconds) (.ofNat .double nanosPerSecond))

end Duration
end MotionRack
