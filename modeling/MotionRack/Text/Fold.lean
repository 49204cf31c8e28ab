/-!
# Words without regard to case

Comparison of words without regard to the case of ASCII letters. Other letters stay as they are.
-/
namespace MotionRack.Fold

/-- The lower-case form of an ASCII capital; every other character is its own. -/
def lower (c : Char) : Char :=
  if 'A' ≤ c ∧ c ≤ 'Z' then Char.ofNat (c.toNat + 32) else c

/-- Whether two texts differ at most in the case of ASCII letters. -/
def agrees (cs ds : List Char) : Bool := cs.map lower == ds.map lower

end MotionRack.Fold
