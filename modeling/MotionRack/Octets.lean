import MotionRack.Number.Power

/-!
# Byte strings

Byte strings and little-endian words. `ofNat` and `ofInt` write a word of a given width and `toNat`
reads one back; every layout of the library is a concatenation of such words, so the length of a
payload is the sum of the widths that were written.
-/
namespace MotionRack

/-- A byte string in the order in which it travels. -/
abbrev Octets := List UInt8

namespace Octets

/-- The `width` low bytes of `n`, least significant first. -/
def ofNat : Nat → Nat → Octets
  | 0, _ => []
  | width + 1, n => UInt8.ofNat n :: ofNat width (n / 256)

/-- The `width` low bytes of `v` in two's complement, least significant first. -/
def ofInt : Nat → Int → Octets
  | 0, _ => []
  | width + 1, v => UInt8.ofNat (v % 256).toNat :: ofInt width (v / 256)

/-- The number that a little-endian word stands for. -/
def toNat : Octets → Nat
  | [] => 0
  | b :: rest => b.toNat + 256 * toNat rest

/-- Exactly `width` bytes: cut off behind, or filled up with zeros. -/
def fit (width : Nat) (bytes : Octets) : Octets :=
  bytes.take width ++ List.replicate (width - bytes.length) 0

/-- Overwrites the bytes from `at` on; what lies before and behind stays. -/
def overwrite (image : Octets) (start : Nat) (bytes : Octets) : Octets :=
  image.take start ++ bytes ++ image.drop (start + bytes.length)

/-- Consecutive blocks of `size` bytes, the last one possibly shorter. A block size of zero cuts
nothing. -/
def pieces (size : Nat) (bytes : Octets) : List Octets :=
  if _h : size = 0 ∨ bytes = [] then []
  else bytes.take size :: pieces size (bytes.drop size)
termination_by bytes.length
decreasing_by
  have : 0 < bytes.length := List.length_pos_iff.2 fun e => _h (.inr e)
  simp only [List.length_drop]
  omega

@[simp] theorem length_ofNat (width n : Nat) : (ofNat width n).length = width := by
  induction width generalizing n with
  | zero => rfl
  | succ w ih => simp [ofNat, ih]

@[simp] theorem length_ofInt (width : Nat) (v : Int) : (ofInt width v).length = width := by
  induction width generalizing v with
  | zero => rfl
  | succ w ih => simp [ofInt, ih]

@[simp] theorem length_fit (width : Nat) (bytes : Octets) : (fit width bytes).length = width := by
  simp [fit]
  omega

/-- One more byte makes 256 times as many words. -/
theorem pow2_byte_succ (width : Nat) : pow2 (8 * (width + 1)) = 256 * pow2 (8 * width) := by
  rw [Nat.mul_succ, pow2_add, Nat.mul_comm]
  rfl

/-- A word reads back as the number it was written from, reduced to its width. -/
theorem toNat_ofNat (width n : Nat) : toNat (ofNat width n) = n % pow2 (8 * width) := by
  induction width generalizing n with
  | zero => exact (Nat.mod_one n).symm
  | succ w ih =>
    have hb : (UInt8.ofNat n).toNat = n % 256 := UInt8.toNat_ofNat'
    rw [ofNat, toNat, ih, hb, pow2_byte_succ, Nat.mod_mul]

/-- Cutting into blocks loses nothing and keeps the order. -/
theorem flatten_pieces {size : Nat} (hs : size ≠ 0) (bytes : Octets) :
    (pieces size bytes).flatten = bytes := by
  fun_induction pieces size bytes with
  | case1 bytes h =>
    rcases h with h | h
    · exact absurd h hs
    · simp [h]
  | case2 bytes h ih => simp [ih]

end Octets
end MotionRack
