import Mathlib.Algebra.Order.Field.Power
import Mathlib.Algebra.Order.Field.Rat
import Mathlib.Tactic.FieldSimp
import Mathlib.Tactic.Linarith
import Mathlib.Tactic.NormNum
import Mathlib.Tactic.Positivity
import Mathlib.Tactic.Ring
import MotionRack.Number.Binary

/-!
# Bounds that rounding keeps

The values of floating-point numbers as rational numbers. Rounding to nearest never goes below a
power of two that the exact result has reached, as long as it is not below the least unit of the
format. So a chain of sums, products and quotients of positive numbers has a positive result if the
powers of two below its links stay within the format.
-/
namespace MotionRack.Binary

/-- The value of a finite number. What is no finite number has none, and counts as zero. -/
def value : Binary → ℚ
  | finite s m e => if s then -(m * 2 ^ e) else m * 2 ^ e
  | _ => 0

theorem cast_pow2 (n : Nat) : ((pow2 n : Nat) : ℚ) = 2 ^ n := Nat.cast_pow 2 n

theorem two_zpow_pos (e : Int) : (0 : ℚ) < 2 ^ e := zpow_pos two_pos e

/-! ### Quotients -/

theorem ratio_snd_pos (m : Nat) (e : Int) : 0 < (ratio m e).2 := by
  unfold ratio
  split
  next => exact Nat.one_pos
  next => exact pow2_pos _

/-- The two numbers of a ratio have the quotient that they stand for. -/
theorem ratio_quotient (m : Nat) (e : Int) : ((ratio m e).1 : ℚ) / (ratio m e).2 = m * 2 ^ e := by
  unfold ratio
  split
  next he =>
    rw [Nat.cast_one, div_one, Nat.cast_mul, cast_pow2, ← zpow_natCast, Int.toNat_of_nonneg he]
  next he =>
    rw [cast_pow2, ← zpow_natCast, Int.toNat_of_nonneg (by omega), zpow_neg, div_inv_eq_mul]

theorem ratio_fst_eq_zero {m : Nat} {e : Int} : (ratio m e).1 = 0 ↔ m = 0 := by
  unfold ratio
  split
  next => simp [Nat.ne_of_gt (pow2_pos _)]
  next => rfl

/-- A multiple of a ratio, told from a quotient. -/
theorem mul_ratio_le_iff {c num den : Nat} (hden : 0 < den) (e : Int) :
    c * (ratio den e).1 ≤ num * (ratio den e).2 ↔ (c * 2 ^ e : ℚ) ≤ num / den := by
  have hsnd : (0 : ℚ) < (ratio den e).2 := Nat.cast_pos.mpr (ratio_snd_pos den e)
  have hpos : (0 : ℚ) < den := Nat.cast_pos.mpr hden
  have hquotient := ratio_quotient den e
  rw [div_eq_iff hsnd.ne'] at hquotient
  have hfactor : (c : ℚ) * (den * 2 ^ e * (ratio den e).2) = c * 2 ^ e * den * (ratio den e).2 := by
    ring
  rw [← @Nat.cast_le ℚ, Nat.cast_mul, Nat.cast_mul, hquotient, le_div_iff₀ hpos, hfactor,
    mul_le_mul_iff_left₀ hsnd]

/-- A quotient lies between two powers of two in a row, of which the logarithm tells the lower. -/
theorem floorLog_bounds {num den : Nat} (hnum : 0 < num) (hden : 0 < den) :
    (2 : ℚ) ^ floorLog num den ≤ num / den ∧ (num : ℚ) / den < 2 ^ (floorLog num den + 1) := by
  have hpos : (0 : ℚ) < den := Nat.cast_pos.mpr hden
  have hnumLow : (2 : ℚ) ^ (num.log2 : Int) ≤ num := by
    exact_mod_cast Nat.log2_self_le hnum.ne'
  have hnumHigh : (num : ℚ) < 2 ^ ((num.log2 : Int) + 1) := by
    exact_mod_cast Nat.lt_log2_self (n := num)
  have hdenLow : (2 : ℚ) ^ (den.log2 : Int) ≤ den := by
    exact_mod_cast Nat.log2_self_le hden.ne'
  have hdenHigh : (den : ℚ) < 2 ^ ((den.log2 : Int) + 1) := by
    exact_mod_cast Nat.lt_log2_self (n := den)
  -- The logarithms of the two numbers leave the quotient between three powers in a row.
  have hlow : (2 : ℚ) ^ ((num.log2 : Int) - den.log2 - 1) ≤ num / den := by
    rw [le_div_iff₀ hpos]
    calc (2 : ℚ) ^ ((num.log2 : Int) - den.log2 - 1) * den
        ≤ 2 ^ ((num.log2 : Int) - den.log2 - 1) * 2 ^ ((den.log2 : Int) + 1) :=
          mul_le_mul_of_nonneg_left hdenHigh.le (two_zpow_pos _).le
      _ = 2 ^ (num.log2 : Int) := by rw [← zpow_add₀ two_ne_zero]; congr 1; ring
      _ ≤ num := hnumLow
  have hhigh : (num : ℚ) / den < 2 ^ ((num.log2 : Int) - den.log2 + 1) := by
    rw [div_lt_iff₀ hpos]
    calc (num : ℚ) < 2 ^ ((num.log2 : Int) + 1) := hnumHigh
      _ = 2 ^ ((num.log2 : Int) - den.log2 + 1) * 2 ^ (den.log2 : Int) := by
          rw [← zpow_add₀ two_ne_zero]; congr 1; ring
      _ ≤ 2 ^ ((num.log2 : Int) - den.log2 + 1) * den :=
          mul_le_mul_of_nonneg_left hdenLow (two_zpow_pos _).le
  have hguess : (ratio den (num.log2 - den.log2)).1 ≤ num * (ratio den (num.log2 - den.log2)).2 ↔
      (2 : ℚ) ^ ((num.log2 : Int) - den.log2) ≤ num / den := by
    rw [← Nat.one_mul (ratio den _).1, mul_ratio_le_iff hden, Nat.cast_one, one_mul]
  simp only [floorLog, Int.ofNat_eq_natCast]
  split
  next hbelow =>
    refine ⟨hlow, ?_⟩
    rw [Int.sub_add_cancel]
    exact not_le.mp (mt hguess.mpr (Nat.not_le.mpr hbelow))
  next hreached => exact ⟨hguess.mp (Nat.not_lt.mp hreached), hhigh⟩

theorem le_divHalfEven {c num den : Nat} (hden : 0 < den) (h : c * den ≤ num) :
    c ≤ divHalfEven num den := by
  have hfloor : c ≤ num / den := (Nat.le_div_iff_mul_le hden).mpr h
  simp only [divHalfEven]
  split_ifs <;> omega

/-- A quotient is rounded to zero exactly if it is a half at most. -/
theorem divHalfEven_eq_zero_iff {num den : Nat} (hden : 0 < den) :
    divHalfEven num den = 0 ↔ 2 * num ≤ den := by
  rcases Nat.lt_or_ge num den with hsmall | hlarge
  · simp only [divHalfEven, Nat.div_eq_of_lt hsmall, Nat.mod_eq_of_lt hsmall]
    split_ifs
    · exact iff_of_true rfl (by omega)
    · exact iff_of_false not_false (by omega)
    · exact iff_of_true rfl (by omega)
  · have hone : 1 ≤ divHalfEven num den := le_divHalfEven hden (by omega)
    omega

/-! ### Units -/

theorem value_false (m : Nat) (e : Int) : value (.finite false m e) = m * 2 ^ e := rfl

theorem value_true_nonpos (m : Nat) (e : Int) : value (.finite true m e) ≤ 0 :=
  neg_nonpos.mpr (mul_nonneg (Nat.cast_nonneg m) (two_zpow_pos e).le)

/-- A number keeps its value when it is counted in units that are not above its own. -/
theorem cast_inUnits (s : Bool) (m : Nat) {unit e : Int} (h : unit ≤ e) :
    (inUnits unit s m e : ℚ) * 2 ^ unit = value (.finite s m e) := by
  have hunits : (m : ℚ) * 2 ^ (e - unit).toNat * 2 ^ unit = m * 2 ^ e := by
    rw [mul_assoc, ← zpow_natCast, Int.toNat_of_nonneg (Int.sub_nonneg.mpr h),
      ← zpow_add₀ two_ne_zero, Int.sub_add_cancel]
  cases s with
  | false =>
    rw [value_false, ← hunits, ← cast_pow2, ← Nat.cast_mul]
    rfl
  | true =>
    have hvalue : value (.finite true m e) = -(m * 2 ^ e) := rfl
    rw [hvalue, ← hunits, ← cast_pow2, ← Nat.cast_mul, ← neg_mul, ← Int.cast_natCast (R := ℚ),
      ← Int.cast_neg]
    rfl

/-- Finite numbers are compared by their values. -/
theorem le_iff {s t : Bool} {m n : Nat} {e d : Int} :
    (finite s m e).le (finite t n d) ↔ value (.finite s m e) ≤ value (.finite t n d) := by
  rw [← cast_inUnits s m (min_le_left e d), ← cast_inUnits t n (min_le_right e d),
    mul_le_mul_iff_left₀ (two_zpow_pos _), Int.cast_le]
  exact decide_eq_true_iff

/-! ### Rounding -/

/-- A bound that rounding keeps: zero, or a power of two that is not below the least unit. -/
def Kept (f : BinaryFormat) (b : ℚ) : Prop := b = 0 ∨ ∃ k : Int, f.minExponent ≤ k ∧ b = 2 ^ k

/-- Whether a number is not negative, and not below a bound. -/
inductive AtLeast (b : ℚ) : Binary → Prop
  | infinite : AtLeast b (infinite false)
  | finite {m : Nat} {e : Int} (h : b ≤ m * 2 ^ e) : AtLeast b (finite false m e)

variable {f : BinaryFormat} {b c : ℚ} {x y : Binary}

/-- The exponent that a quotient is rounded with. -/
def unitOf (f : BinaryFormat) (num den : Nat) : Int :=
  max (floorLog num den - Int.ofNat (f.precision - 1)) f.minExponent

/-- The significand that a quotient is rounded to. -/
def significandOf (f : BinaryFormat) (num den : Nat) : Nat :=
  divHalfEven (num * (ratio den (unitOf f num den)).2) (ratio den (unitOf f num den)).1

theorem round_eq {num : Nat} (hnum : num ≠ 0) (f : BinaryFormat) (s : Bool) (den : Nat) :
    round f s num den =
      let rounded := if significandOf f num den = pow2 f.precision then
          (pow2 (f.precision - 1), unitOf f num den + 1)
        else (significandOf f num den, unitOf f num den)
      if f.maxExponent < rounded.2 then .infinite s else .finite s rounded.1 rounded.2 := by
  unfold round
  rw [if_neg hnum]
  rfl

/-- A power of two that a quotient has reached is reached by its significand. -/
theorem two_zpow_le_significandOf {num den : Nat} (hnum : 0 < num) (hden : 0 < den) {k : Int}
    (hk : f.minExponent ≤ k) (h : (2 : ℚ) ^ k ≤ num / den) :
    (2 : ℚ) ^ k ≤ significandOf f num den * 2 ^ unitOf f num den := by
  obtain ⟨hlow, hhigh⟩ := floorLog_bounds hnum hden
  have hlog : k ≤ floorLog num den :=
    Int.lt_add_one_iff.mp ((zpow_lt_zpow_iff_right₀ one_lt_two).mp (h.trans_lt hhigh))
  have hunit : unitOf f num den ≤ floorLog num den :=
    max_le (Int.sub_le_self _ (Int.natCast_nonneg _)) (hk.trans hlog)
  obtain ⟨places, hplaces⟩ := Int.le.dest hunit
  -- The power of two below the quotient is a whole number of units.
  have hwhole : ((pow2 places : Nat) : ℚ) * 2 ^ unitOf f num den = 2 ^ floorLog num den := by
    rw [cast_pow2, ← hplaces, zpow_add₀ two_ne_zero, zpow_natCast, mul_comm]
  have hreached : pow2 places ≤ significandOf f num den := by
    have hfst : 0 < (ratio den (unitOf f num den)).1 :=
      Nat.pos_of_ne_zero (mt ratio_fst_eq_zero.mp hden.ne')
    exact le_divHalfEven hfst ((mul_ratio_le_iff hden _).mpr (hwhole.trans_le hlow))
  calc (2 : ℚ) ^ k ≤ 2 ^ floorLog num den := zpow_le_zpow_right₀ one_le_two hlog
    _ = (pow2 places : Nat) * 2 ^ unitOf f num den := hwhole.symm
    _ ≤ significandOf f num den * 2 ^ unitOf f num den :=
      mul_le_mul_of_nonneg_right (Nat.cast_le.mpr hreached) (two_zpow_pos _).le

/-- Rounding to nearest keeps the bounds of a format. -/
theorem atLeast_round {num den : Nat} (hden : 0 < den) (hkept : Kept f b)
    (h : b ≤ (num : ℚ) / den) : AtLeast b (round f false num den) := by
  rcases Nat.eq_zero_or_pos num with rfl | hnum
  · rw [Nat.cast_zero, zero_div] at h
    exact .finite (by rwa [Nat.cast_zero, zero_mul])
  have hsignificand : b ≤ significandOf f num den * 2 ^ unitOf f num den := by
    rcases hkept with rfl | ⟨k, hk, rfl⟩
    · exact mul_nonneg (Nat.cast_nonneg _) (two_zpow_pos _).le
    · exact two_zpow_le_significandOf hnum hden hk h
  rw [round_eq hnum.ne']
  extract_lets rounded
  have hrounded : b ≤ rounded.1 * 2 ^ rounded.2 := by
    unfold rounded
    split
    next hcarry =>
      -- A significand that is one bit too long is halved, and its unit doubled.
      have hhalf : pow2 f.precision ≤ pow2 (f.precision - 1) * 2 := by
        cases f.precision with
        | zero => decide
        | succ p => rw [pow2_succ, Nat.mul_comm, Nat.add_sub_cancel]
      rw [hcarry] at hsignificand
      calc b ≤ (pow2 f.precision : Nat) * 2 ^ unitOf f num den := hsignificand
        _ ≤ (pow2 (f.precision - 1) * 2 : Nat) * 2 ^ unitOf f num den :=
          mul_le_mul_of_nonneg_right (Nat.cast_le.mpr hhalf) (two_zpow_pos _).le
        _ = (pow2 (f.precision - 1) : Nat) * 2 ^ (unitOf f num den + 1) := by
          rw [zpow_add_one₀ two_ne_zero, Nat.cast_mul, Nat.cast_ofNat]; ring
    next => exact hsignificand
  split
  next => exact .infinite
  next => exact .finite hrounded

theorem atLeast_roundScaled {m : Nat} {e : Int} (hkept : Kept f b) (h : b ≤ m * 2 ^ e) :
    AtLeast b (roundScaled f false m e) := by
  have hquotient : b ≤ ((ratio m e).1 : ℚ) / (ratio m e).2 := by rwa [ratio_quotient]
  exact atLeast_round (ratio_snd_pos m e) hkept hquotient

theorem atLeast_ofNat {n : Nat} (hkept : Kept f b) (h : b ≤ n) : AtLeast b (ofNat f n) :=
  atLeast_round Nat.one_pos hkept (by rwa [Nat.cast_one, div_one])

namespace AtLeast

theorem significand_ne_zero {m : Nat} {e : Int} (hb : 0 < b) (h : b ≤ m * 2 ^ e) : m ≠ 0 := by
  rintro rfl
  rw [Nat.cast_zero, zero_mul] at h
  exact absurd h (not_le.mpr hb)

theorem mul (hx : AtLeast b x) (hy : AtLeast c y) (hb : 0 < b) (hc : 0 < c)
    (hkept : Kept f (b * c)) : AtLeast (b * c) (Binary.mul f x y) := by
  cases hx with
  | infinite =>
    cases hy with
    | infinite => exact .infinite
    | finite hy =>
      rw [Binary.mul, if_neg (significand_ne_zero hc hy)]
      exact .infinite
  | finite hx =>
    cases hy with
    | infinite =>
      rw [Binary.mul, if_neg (significand_ne_zero hb hx)]
      exact .infinite
    | finite hy =>
      refine atLeast_roundScaled hkept ((mul_le_mul hx hy hc.le (hb.le.trans hx)).trans_eq ?_)
      rw [zpow_add₀ two_ne_zero, Nat.cast_mul]
      ring

/-- A quotient by a positive number that is not above a bound itself. -/
theorem div {n : Nat} {d : Int} (hx : AtLeast b x) (hb : 0 ≤ b) (hn : n ≠ 0)
    (hc : (n * 2 ^ d : ℚ) ≤ c) (hkept : Kept f (b / c)) :
    AtLeast (b / c) (Binary.div f x (.finite false n d)) := by
  have hpos : (0 : ℚ) < n * 2 ^ d :=
    mul_pos (Nat.cast_pos.mpr (Nat.pos_of_ne_zero hn)) (two_zpow_pos d)
  cases hx with
  | infinite => exact .infinite
  | @finite m e hx =>
    rw [Binary.div, if_neg hn]
    have hden : 0 < (ratio m e).2 * (ratio n d).1 :=
      Nat.mul_pos (ratio_snd_pos m e) (Nat.pos_of_ne_zero (mt ratio_fst_eq_zero.mp hn))
    have hquotient : (((ratio m e).1 * (ratio n d).2 : Nat) : ℚ) /
        ((ratio m e).2 * (ratio n d).1 : Nat) = m * 2 ^ e / (n * 2 ^ d) := by
      rw [← ratio_quotient, ← ratio_quotient, div_div_div_eq, Nat.cast_mul, Nat.cast_mul]
    have hbound : b / c ≤ (((ratio m e).1 * (ratio n d).2 : Nat) : ℚ) /
        ((ratio m e).2 * (ratio n d).1 : Nat) := by
      rw [hquotient]
      exact div_le_div₀ (hb.trans hx) hx hpos hc
    exact atLeast_round hden hkept hbound

theorem add (hx : AtLeast b x) (hy : AtLeast c y) (hkept : Kept f (b + c)) :
    AtLeast (b + c) (Binary.add f x y) := by
  cases hx with
  | infinite => cases hy <;> exact .infinite
  | @finite m e hx =>
    cases hy with
    | infinite => exact .infinite
    | @finite n d hy =>
      have hnonneg : 0 ≤ inUnits (min e d) false m e + inUnits (min e d) false n d :=
        add_nonneg (Int.natCast_nonneg _) (Int.natCast_nonneg _)
      have hsum : b + c ≤ (inUnits (min e d) false m e + inUnits (min e d) false n d).natAbs *
          2 ^ min e d := by
        rw [Nat.cast_natAbs, abs_of_nonneg hnonneg, Int.cast_add, add_mul,
          cast_inUnits false m (min_le_left e d), cast_inUnits false n (min_le_right e d)]
        exact add_le_add hx hy
      simp only [Binary.add]
      split
      next hzero =>
        rw [hzero, Int.natAbs_zero, Nat.cast_zero, zero_mul] at hsum
        exact .finite (by rwa [Nat.cast_zero, zero_mul])
      next =>
        rw [decide_eq_false (not_lt.mpr hnonneg)]
        exact atLeast_roundScaled hkept hsum

/-- What is above zero is one at least when it is rounded up to a whole number. -/
theorem one_le_ceilInt {s : Bool} {m : Nat} {e : Int} (h : AtLeast b (.finite s m e)) (hb : 0 < b) :
    1 ≤ ceilInt s m e := by
  cases h with
  | finite h =>
    have hnum : 0 < (ratio m e).1 :=
      Nat.pos_of_ne_zero (mt ratio_fst_eq_zero.mp (significand_ne_zero hb h))
    have hceil : 1 ≤ ((ratio m e).1 + (ratio m e).2 - 1) / (ratio m e).2 :=
      (Nat.le_div_iff_mul_le (ratio_snd_pos m e)).mpr (by omega)
    exact Int.ofNat_le.mpr hceil

theorem mono (h : AtLeast b x) (hle : c ≤ b) : AtLeast c x := by
  cases h with
  | infinite => exact .infinite
  | finite h => exact .finite (hle.trans h)

end AtLeast

end MotionRack.Binary
