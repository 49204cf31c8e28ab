import Mathlib.Data.Nat.Bitwise
import MotionRack.Bus.Address

/-!
# Addresses and their bytes

The eighth bit of an address byte is the payload mark and no part of the address; the other
seven name one node. Of the addresses that share a byte one is canonical: the one that the
byte is read as. The index of a slot is one less than its number.
-/
namespace MotionRack.Address

/-- Whether an address is the one that its byte is read as: a slot that there is, or seven bits
that are not those of another node. -/
def Canonical : Address → Prop
  | host => True
  | motherboard => True
  | slot index => index.toNat < slotCount
  | other b => b.toNat < 128 ∧ b ≠ 0x01 ∧ b ≠ 0x11 ∧
      ¬ (slotBase ≤ b ∧ b.toNat < slotBase.toNat + slotCount)

instance : DecidablePred Canonical := fun a =>
  match a with
  | host => .isTrue trivial
  | motherboard => .isTrue trivial
  | slot index => inferInstanceAs (Decidable (index.toNat < slotCount))
  | other _ => inferInstanceAs (Decidable (_ ∧ _))

/-! ### The seven bits of an address -/

theorem toNat_and_addressMask (b : UInt8) : (b &&& addressMask).toNat = b.toNat % 128 := by
  rw [UInt8.toNat_and]
  exact Nat.and_two_pow_sub_one_eq_mod b.toNat 7

theorem toNat_and_addressMask_lt (b : UInt8) : (b &&& addressMask).toNat < 128 := by
  rw [toNat_and_addressMask]
  exact Nat.mod_lt b.toNat (by decide)

theorem and_addressMask_of_lt {b : UInt8} (h : b.toNat < 128) : b &&& addressMask = b := by
  apply UInt8.toNat_inj.mp
  rw [toNat_and_addressMask, Nat.mod_eq_of_lt h]

theorem toNat_byte_lt (a : Address) : a.byte.toNat < 128 := by
  cases a with
  | host => decide
  | motherboard => decide
  | slot index => exact toNat_and_addressMask_lt (slotBase + index)
  | other b => exact toNat_and_addressMask_lt b

/-- The node that a byte names has that byte, less the payload mark. -/
theorem byte_ofByte (raw : UInt8) : (ofByte raw).byte = raw &&& addressMask := by
  have hbits := and_addressMask_of_lt (toNat_and_addressMask_lt raw)
  unfold ofByte
  dsimp only
  split
  next hhost => exact hhost.symm
  next =>
    split
    next hboard => exact hboard.symm
    next =>
      split
      next => rw [byte, UInt8.add_comm, UInt8.sub_add_cancel, hbits]
      next => rw [byte, hbits]

theorem canonical_ofByte (raw : UInt8) : (ofByte raw).Canonical := by
  have hlt := toNat_and_addressMask_lt raw
  unfold ofByte
  dsimp only
  split
  next => exact trivial
  next hhost =>
    split
    next => exact trivial
    next hboard =>
      split
      next hslot =>
        rw [Canonical, UInt8.toNat_sub_of_le _ _ hslot.1]
        exact Nat.sub_lt_left_of_lt_add hslot.1 hslot.2
      next hslot => exact ⟨hlt, hhost, hboard, hslot⟩

theorem ofByte_byte_of_canonical {a : Address} (h : a.Canonical) : ofByte a.byte = a := by
  cases a with
  | host => decide
  | motherboard => decide
  | slot index =>
    have hall : ∀ i : Fin slotCount, ofByte (slot (UInt8.ofNat i)).byte = slot (UInt8.ofNat i) := by
      decide
    have hindex := hall ⟨index.toNat, h⟩
    rwa [UInt8.ofNat_toNat] at hindex
  | other b =>
    obtain ⟨hlt, hhost, hboard, hslot⟩ := h
    have hbits := and_addressMask_of_lt hlt
    rw [byte, ofByte, hbits, hbits, if_neg hhost, if_neg hboard, if_neg hslot]

/-- An address is read back from its byte exactly if it is canonical. -/
theorem ofByte_byte_eq_self_iff {a : Address} : ofByte a.byte = a ↔ a.Canonical := by
  constructor
  · intro h
    rw [← h]
    exact canonical_ofByte a.byte
  · exact ofByte_byte_of_canonical

/-! ### The payload mark -/

theorem testBit_mark (b : UInt8) : b.toNat.testBit 7 = decide (128 ≤ b.toNat) := by
  have hb := b.toNat_lt
  rw [Nat.testBit_eq_decide_div_mod_eq, decide_eq_decide]
  omega

theorem and_extendedFlag_eq_zero_iff {b : UInt8} :
    b &&& extendedFlag = 0 ↔ b.toNat.testBit 7 = false := by
  have hflag : (b &&& extendedFlag).toNat = (b.toNat.testBit 7).toNat * 128 := by
    rw [UInt8.toNat_and]
    exact Nat.and_two_pow b.toNat 7
  rw [← UInt8.toNat_inj, hflag]
  cases b.toNat.testBit 7 <;> decide

theorem and_addressMask_of_unmarked {b : UInt8} (h : b.toNat.testBit 7 = false) :
    b &&& addressMask = b := by
  rw [testBit_mark, decide_eq_false_iff_not] at h
  exact and_addressMask_of_lt (Nat.lt_of_not_le h)

theorem toNat_or_extendedFlag {b : UInt8} (h : b.toNat < 128) :
    (b ||| extendedFlag).toNat = 128 + b.toNat := by
  rw [UInt8.toNat_or, Nat.or_comm]
  exact (Nat.two_pow_add_eq_or_of_lt (i := 7) h 1).symm

/-- A byte with the mark is made of its seven bits and the mark. -/
theorem and_addressMask_or_extendedFlag {b : UInt8} (h : b.toNat.testBit 7 = true) :
    (b &&& addressMask) ||| extendedFlag = b := by
  rw [testBit_mark, decide_eq_true_eq] at h
  have hb := b.toNat_lt
  apply UInt8.toNat_inj.mp
  rw [toNat_or_extendedFlag (toNat_and_addressMask_lt b), toNat_and_addressMask]
  omega

theorem byte_unmarked (a : Address) : a.byte.toNat.testBit 7 = false := by
  rw [testBit_mark, decide_eq_false_iff_not]
  exact Nat.not_le_of_lt a.toNat_byte_lt

theorem byte_marked (a : Address) : (a.byte ||| extendedFlag).toNat.testBit 7 = true := by
  rw [testBit_mark, decide_eq_true_eq, toNat_or_extendedFlag a.toNat_byte_lt]
  exact Nat.le_add_right 128 a.byte.toNat

/-- The mark is no part of the address. -/
theorem ofByte_marked (a : Address) : ofByte (a.byte ||| extendedFlag) = ofByte a.byte := by
  have hbits : (a.byte ||| extendedFlag) &&& addressMask = a.byte &&& addressMask := by
    apply UInt8.toNat_inj.mp
    rw [toNat_and_addressMask, toNat_and_addressMask, toNat_or_extendedFlag a.toNat_byte_lt,
      Nat.add_mod_left]
  rw [ofByte, ofByte, hbits]

/-! ### Slot numbers -/

/-- A slot counts back to its index without a wrap. -/
theorem IsSlotNumber.toNat_pred {slot : UInt16} (h : IsSlotNumber slot) :
    (slot - 1).toNat + 1 = slot.toNat := by
  have hone : (1 : UInt16) ≤ slot := h.1
  rw [UInt16.toNat_sub_of_le slot 1 hone]
  exact Nat.sub_add_cancel h.1

/-- The same of its index as the bus writes it. -/
theorem IsSlotNumber.toNat_index {slot : UInt16} (h : IsSlotNumber slot) :
    (slot - 1).toUInt8.toNat + 1 = slot.toNat := by
  have hpred := h.toNat_pred
  have hrange : slot.toNat ≤ 16 := h.2
  rw [UInt16.toNat_toUInt8]
  omega

end MotionRack.Address
