/-!
# Powers of two and ten

Powers of two and of ten, the scales of binary and of decimal numbers.
-/
namespace MotionRack

/-- Two to the power of `n`, which is how many words of `n` bits there are. -/
def pow2 (n : Nat) : Nat := Nat.pow 2 n

/-- Ten to the power of `n`. -/
def pow10 (n : Nat) : Nat := Nat.pow 10 n

theorem pow2_succ (n : Nat) : pow2 (n + 1) = 2 * pow2 n := Nat.mul_comm _ _

theorem pow2_add (m n : Nat) : pow2 (m + n) = pow2 m * pow2 n := by
  induction n with
  | zero => exact (Nat.mul_one _).symm
  | succ n ih => rw [← Nat.add_assoc, pow2_succ, pow2_succ, ih, Nat.mul_left_comm]

theorem pow2_pos (n : Nat) : 0 < pow2 n := by
  induction n with
  | zero => exact Nat.one_pos
  | succ n ih => rw [pow2_succ]; exact Nat.mul_pos Nat.two_pos ih

end MotionRack
