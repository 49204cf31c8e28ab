import Mathlib.Algebra.Order.Floor.Div
import Mathlib.Tactic.Ring
import MotionRack.Octets

/-!
# Words, overwriting and cutting

A word of two bytes tells its number, and a byte string is written again from the number that
it stands for. A write into a byte string sets the range that it takes and leaves everything apart
from it alone. A byte string is cut into its blocks in order, none of which exceeds the size asked
for.
-/
namespace MotionRack.Octets

theorem toNat_ofNat_two {n : Nat} (h : n < 65536) : toNat (ofNat 2 n) = n := by
  rw [toNat_ofNat]
  exact Nat.mod_eq_of_lt h

/-- A word of two bytes is read as the number that it was written from. -/
theorem uint16_ofNat_two (v : UInt16) : UInt16.ofNat (toNat (ofNat 2 v.toNat)) = v := by
  rw [toNat_ofNat_two v.toNat_lt, UInt16.ofNat_toNat]

/-- The same of four bytes. -/
theorem uint32_ofNat_four (v : UInt32) : UInt32.ofNat (toNat (ofNat 4 v.toNat)) = v := by
  have hread : toNat (ofNat 4 v.toNat) = v.toNat := by
    rw [toNat_ofNat]
    exact Nat.mod_eq_of_lt v.toNat_lt
  rw [hread, UInt32.ofNat_toNat]

/-- The same of eight bytes. -/
theorem uint64_ofNat_eight (v : UInt64) : UInt64.ofNat (toNat (ofNat 8 v.toNat)) = v := by
  have hread : toNat (ofNat 8 v.toNat) = v.toNat := by
    rw [toNat_ofNat]
    exact Nat.mod_eq_of_lt v.toNat_lt
  rw [hread, UInt64.ofNat_toNat]

theorem ofNat_two_inj {v w : UInt16} : ofNat 2 v.toNat = ofNat 2 w.toNat ↔ v = w := by
  refine ⟨fun h => ?_, fun h => by rw [h]⟩
  rw [← uint16_ofNat_two v, h, uint16_ofNat_two w]

theorem ofNat_eight_inj {v w : UInt64} : ofNat 8 v.toNat = ofNat 8 w.toNat ↔ v = w := by
  refine ⟨fun h => ?_, fun h => by rw [h]⟩
  rw [← uint64_ofNat_eight v, h, uint64_ofNat_eight w]

/-- A byte string is written again from the number that it stands for. -/
theorem ofNat_toNat (bytes : Octets) : ofNat bytes.length (toNat bytes) = bytes := by
  induction bytes with
  | nil => rfl
  | cons b rest ih =>
    have hb := b.toNat_lt
    have hlow : UInt8.ofNat (b.toNat + 256 * toNat rest) = b := by
      apply UInt8.toNat_inj.mp
      rw [UInt8.toNat_ofNat']
      omega
    have hhigh : (b.toNat + 256 * toNat rest) / 256 = toNat rest := by omega
    rw [List.length_cons, toNat, ofNat, hlow, hhigh, ih]

/-- Byte strings of the same length are told apart by the numbers that they stand for. -/
theorem eq_iff_toNat {a b : Octets} (h : a.length = b.length) : a = b ↔ toNat a = toNat b := by
  refine ⟨congrArg toNat, fun hnumber => ?_⟩
  rw [← ofNat_toNat a, ← ofNat_toNat b, h, hnumber]

/-- The bytes at the front of a word are a word themselves. -/
theorem toNat_take (k : Nat) (bytes : Octets) :
    toNat (bytes.take k) = toNat bytes % pow2 (8 * k) := by
  induction k generalizing bytes with
  | zero => exact (Nat.mod_one _).symm
  | succ k ih =>
    cases bytes with
    | nil => exact (Nat.zero_mod _).symm
    | cons b rest =>
      have hb := b.toNat_lt
      have hlow : (b.toNat + 256 * toNat rest) % 256 = b.toNat := by omega
      have hhigh : (b.toNat + 256 * toNat rest) / 256 = toNat rest := by omega
      rw [List.take_succ_cons, toNat, ih, toNat, pow2_byte_succ, Nat.mod_mul, hlow, hhigh]

theorem toNat_zeros (n : Nat) : toNat (List.replicate n 0) = 0 := by
  induction n with
  | zero => rfl
  | succ n ih =>
    rw [List.replicate_succ, toNat, ih]
    rfl

/-- Zeros behind a word do not change its number. -/
theorem toNat_append_zeros (bytes : Octets) (n : Nat) :
    toNat (bytes ++ List.replicate n 0) = toNat bytes := by
  induction bytes with
  | nil => exact toNat_zeros n
  | cons b rest ih => rw [List.cons_append, toNat, ih, toNat]

theorem toNat_fit (width : Nat) (bytes : Octets) :
    toNat (fit width bytes) = toNat bytes % pow2 (8 * width) := by
  rw [fit, toNat_append_zeros, toNat_take]

/-- A signed number is written modulo the number of words that there are. -/
theorem toNat_ofInt (width : Nat) (v : Int) :
    (toNat (ofInt width v) : Int) = v % pow2 (8 * width) := by
  induction width generalizing v with
  | zero => exact (Int.emod_one v).symm
  | succ width ih =>
    have hbyte : ((UInt8.ofNat (v % 256).toNat).toNat : Int) = v % 256 := by
      rw [UInt8.toNat_ofNat']
      omega
    have hsplit : v % (256 * pow2 (8 * width)) = v % 256 + 256 * (v / 256 % pow2 (8 * width)) := by
      rw [Int.emod_def, ← Int.ediv_ediv_of_nonneg (by decide), Int.emod_def v,
        Int.emod_def (v / 256)]
      ring
    rw [ofInt, toNat, Nat.cast_add, Nat.cast_mul, ih, hbyte, pow2_byte_succ, Nat.cast_mul]
    exact hsplit.symm

theorem toNat_lt (bytes : Octets) : toNat bytes < pow2 (8 * bytes.length) := by
  have hread := toNat_ofNat bytes.length (toNat bytes)
  rw [ofNat_toNat] at hread
  rw [hread]
  exact Nat.mod_lt _ (pow2_pos _)

theorem toNat_two_lt (a b : UInt8) : toNat [a, b] < 65536 := by
  have hp : pow2 (8 * 2) = 65536 := rfl
  rw [← hp]
  exact toNat_lt [a, b]

theorem ofNat_two_uint16 (a b : UInt8) : ofNat 2 (UInt16.ofNat (toNat [a, b])).toNat = [a, b] := by
  rw [UInt16.toNat_ofNat', Nat.mod_eq_of_lt (toNat_two_lt a b)]
  exact ofNat_toNat [a, b]

theorem overwrite_append {a m bytes : Octets} (h : m.length = bytes.length) (z : Octets) :
    overwrite (a ++ (m ++ z)) a.length bytes = a ++ (bytes ++ z) := by
  rw [overwrite, List.take_left' rfl, ← List.drop_drop, List.drop_left' rfl, ← h,
    List.drop_left' rfl, List.append_assoc]

/-- A write of fewer bytes than lie behind its start. -/
theorem overwrite_append_of_le {a z bytes : Octets} (h : bytes.length ≤ z.length) :
    overwrite (a ++ z) a.length bytes = a ++ (bytes ++ z.drop bytes.length) := by
  have hm : (z.take bytes.length).length = bytes.length := List.length_take_of_le h
  have hw := overwrite_append (a := a) hm (z.drop bytes.length)
  rwa [List.take_append_drop] at hw

/-- A write within a byte string keeps its length. -/
theorem length_overwrite {image bytes : Octets} {start : Nat}
    (h : start + bytes.length ≤ image.length) :
    (overwrite image start bytes).length = image.length := by
  unfold overwrite
  rw [List.length_append, List.length_append, List.length_take, List.length_drop]
  omega

/-- A write within a byte string sets the bytes of its own range, and no others. -/
theorem getElem?_overwrite {image bytes : Octets} {start : Nat}
    (h : start + bytes.length ≤ image.length) (i : Nat) :
    (overwrite image start bytes)[i]? =
      if start ≤ i ∧ i < start + bytes.length then bytes[i - start]? else image[i]? := by
  have hfront : (image.take start).length = start := List.length_take_of_le (by omega)
  rw [overwrite, List.append_assoc]
  rcases Nat.lt_or_ge i start with hi | hi
  · rw [List.getElem?_append_left (by omega), List.getElem?_take_of_lt hi, if_neg (by omega)]
  · rw [List.getElem?_append_right (by omega), hfront]
    rcases Nat.lt_or_ge i (start + bytes.length) with hj | hj
    · rw [List.getElem?_append_left (by omega), if_pos ⟨hi, hj⟩]
    · have hback : start + bytes.length + (i - start - bytes.length) = i := by omega
      rw [List.getElem?_append_right (by omega), List.getElem?_drop, if_neg (by omega), hback]

/-- A write behind a beginning leaves the beginning alone. -/
theorem overwrite_append_right (front back bytes : Octets) (start : Nat) :
    overwrite (front ++ back) (front.length + start) bytes =
      front ++ overwrite back start bytes := by
  rw [overwrite, overwrite, List.take_length_add_append, Nat.add_assoc, List.drop_length_add_append,
    List.append_assoc, List.append_assoc, List.append_assoc]

theorem length_of_mem_pieces {size : Nat} {bytes piece : Octets} (h : piece ∈ pieces size bytes) :
    piece.length ≤ size := by
  fun_induction pieces size bytes with
  | case1 => simp at h
  | case2 bytes _ ih =>
    rcases List.mem_cons.mp h with rfl | h
    · exact List.length_take_le _ _
    · exact ih h

/-- A byte string has as many pieces as its length, divided by their size and rounded up. -/
theorem length_pieces (size : Nat) (bytes : Octets) :
    (pieces size bytes).length = bytes.length ⌈/⌉ size := by
  fun_induction pieces size bytes with
  | case1 bytes h =>
    rcases h with rfl | rfl
    · exact (ceilDiv_zero _).symm
    · exact (zero_ceilDiv size).symm
  | case2 bytes hne ih =>
    obtain ⟨hsize, hbytes⟩ := not_or.mp hne
    have hpos : 0 < bytes.length := List.length_pos_iff.mpr hbytes
    rw [List.length_cons, ih, List.length_drop, Nat.ceilDiv_eq_add_pred_div,
      Nat.ceilDiv_eq_add_pred_div, ← Nat.add_div_right _ (Nat.pos_of_ne_zero hsize)]
    by_cases hlast : bytes.length ≤ size
    · have hone : (bytes.length + size - 1) / size = 1 :=
        Nat.div_eq_of_lt_le (by omega) (by omega)
      rw [hone, Nat.sub_eq_zero_of_le hlast]
      exact Nat.div_eq_of_lt_le (by omega) (by omega)
    · congr 1
      omega

/-- The block number `i` of `size` bytes, which may be shorter at the end. -/
def block (size : Nat) (bytes : Octets) (i : Nat) : Octets := (bytes.drop (i * size)).take size

theorem block_drop (size : Nat) (bytes : Octets) (i : Nat) :
    block size (bytes.drop size) i = block size bytes (i + 1) := by
  have hstart : size + i * size = (i + 1) * size := by rw [Nat.succ_mul, Nat.add_comm]
  rw [block, block, List.drop_drop, hstart]

theorem length_block_le (size : Nat) (bytes : Octets) (i : Nat) :
    (block size bytes i).length ≤ size :=
  List.length_take_le _ _

/-- What stands at a place of the cut is the block of that number, which has bytes. -/
theorem getElem?_pieces {size : Nat} {bytes piece : Octets} {i : Nat}
    (h : (pieces size bytes)[i]? = some piece) :
    piece = block size bytes i ∧ i * size < bytes.length := by
  fun_induction pieces size bytes generalizing i with
  | case1 => cases h
  | case2 bytes hne ih =>
    have hpos : 0 < bytes.length := List.length_pos_iff.mpr fun e => hne (Or.inr e)
    cases i with
    | zero =>
      obtain rfl := Option.some.inj h
      rw [block, Nat.zero_mul, List.drop_zero]
      exact ⟨rfl, hpos⟩
    | succ i =>
      obtain ⟨hpiece, hlt⟩ := ih h
      rw [block_drop] at hpiece
      rw [List.length_drop] at hlt
      refine ⟨hpiece, ?_⟩
      rw [Nat.succ_mul]
      omega

/-- The blocks of `size` bytes in order, the last one possibly shorter. -/
def blocks (size : Nat) (bytes : Octets) : List Octets :=
  (List.range (bytes.length ⌈/⌉ size)).map (block size bytes)

@[simp] theorem length_blocks (size : Nat) (bytes : Octets) :
    (blocks size bytes).length = bytes.length ⌈/⌉ size := by
  rw [blocks, List.length_map, List.length_range]

/-- A byte string is cut into its blocks. -/
theorem pieces_eq_blocks (size : Nat) (bytes : Octets) : pieces size bytes = blocks size bytes := by
  apply List.ext_getElem
  · rw [length_pieces, length_blocks]
  · intro i hi _
    have hpiece := (getElem?_pieces (List.getElem?_eq_getElem hi)).1
    rw [hpiece]
    simp [blocks]

/-! ### Ranges -/

/-- The `width` bytes from a place on, or those that are left there. -/
def slice (start width : Nat) (bytes : Octets) : Octets := (bytes.drop start).take width

theorem getElem?_slice (start width : Nat) (bytes : Octets) (i : Nat) :
    (slice start width bytes)[i]? = if i < width then bytes[start + i]? else none := by
  rw [slice, List.getElem?_take, List.getElem?_drop]

/-- A place in a range, counted from the beginning of the range. -/
theorem getElem?_of_slice {start width i : Nat} (hstart : start ≤ i) (hstop : i < start + width)
    (bytes : Octets) : bytes[i]? = (slice start width bytes)[i - start]? := by
  rw [getElem?_slice, if_pos (by omega), Nat.add_sub_cancel' hstart]

/-- Ranges are equal if all their places are. -/
theorem slice_congr {start width : Nat} {bytes other : Octets}
    (h : ∀ i, start ≤ i → i < start + width → bytes[i]? = other[i]?) :
    slice start width bytes = slice start width other := by
  apply List.ext_getElem?
  intro i
  rw [getElem?_slice, getElem?_slice]
  split
  next hi => exact h (start + i) (Nat.le_add_right start i) (Nat.add_lt_add_left hi start)
  next => rfl

theorem slice_overwrite {image bytes : Octets} {start width : Nat} (hwidth : bytes.length = width)
    (h : start + bytes.length ≤ image.length) :
    slice start width (overwrite image start bytes) = bytes := by
  have hfront : (image.take start).length = start := List.length_take_of_le (by omega)
  rw [slice, overwrite, List.append_assoc, List.drop_left' hfront, List.take_left' hwidth]

/-- A write leaves the ranges apart from its own alone. -/
theorem slice_overwrite_of_apart {image bytes : Octets} {start place width : Nat}
    (h : start + bytes.length ≤ image.length)
    (hapart : place + width ≤ start ∨ start + bytes.length ≤ place) :
    slice place width (overwrite image start bytes) = slice place width image := by
  apply slice_congr
  intro i hi hstop
  rw [getElem?_overwrite h, if_neg (by omega)]

theorem slice_append_right (front back : Octets) (start width : Nat) :
    slice (front.length + start) width (front ++ back) = slice start width back := by
  rw [slice, slice, List.drop_length_add_append]

end MotionRack.Octets
