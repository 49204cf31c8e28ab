import Mathlib.Algebra.Order.Ring.Int
import Mathlib.Data.List.Induction
import MotionRack.Number.Numeral
import MotionRack.Proofs.Success

/-!
# What whole numbers look like

A number is written with one or more digits, an unsigned one behind an optional plus sign and a
signed one behind an optional sign; digits up to fifteen stand behind `0x`. Reading accepts the
texts that are such a number once their blanks are gone, if it fits the width asked for, and no
others. So a number that was printed is read back wherever blanks were put into it, and a number
that does not fit is none, not a smaller one.
-/
namespace MotionRack

namespace Blank

/-- Whether a text comes from another one when blanks are put in anywhere. -/
inductive Spaces : List Char → List Char → Prop
  | nil : Spaces [] []
  | keep {cs raw : List Char} (c : Char) : Spaces cs raw → Spaces (c :: cs) (c :: raw)
  | blank {cs raw : List Char} {b : Char} : holds b = true → Spaces cs raw → Spaces cs (b :: raw)

theorem Spaces.filter_eq {cs raw : List Char} (h : Spaces cs raw)
    (hcs : ∀ c ∈ cs, holds c = false) : raw.filter (!holds ·) = cs := by
  induction h with
  | nil => rfl
  | keep c _ ih =>
    obtain ⟨hc, hrest⟩ := List.forall_mem_cons.mp hcs
    rw [List.filter_cons_of_pos (by simp [hc]), ih hrest]
  | blank hb _ ih => rw [List.filter_cons_of_neg (by simp [hb]), ih hcs]

end Blank

namespace Numeral

/-! ### The form of numbers -/

/-- Whether a character is the digit of a value. Letters may be of either case. -/
def IsDigit (radix : Nat) (c : Char) (value : Nat) : Prop :=
  value < radix ∧ (c = value.digitChar ∨ c = value.digitChar.toUpper)

/-- Whether a text is one or more digits, and which number they are. -/
inductive Digits (radix : Nat) : List Char → Nat → Prop
  | one {c : Char} {value : Nat} : IsDigit radix c value → Digits radix [c] value
  | concat {cs : List Char} {c : Char} {n value : Nat} :
      Digits radix cs n → IsDigit radix c value → Digits radix (cs ++ [c]) (radix * n + value)

/-- Digits behind an optional plus sign. -/
inductive Unsigned (radix : Nat) : List Char → Nat → Prop
  | bare {cs : List Char} {n : Nat} : Digits radix cs n → Unsigned radix cs n
  | plus {cs : List Char} {n : Nat} : Digits radix cs n → Unsigned radix ('+' :: cs) n

/-- Decimal digits behind an optional sign. -/
inductive Signed : List Char → Int → Prop
  | unsigned {cs : List Char} {n : Nat} : Unsigned 10 cs n → Signed cs n
  | minus {cs : List Char} {n : Nat} : Digits 10 cs n → Signed ('-' :: cs) (-n)

/-- An unsigned number, decimal or hexadecimal. -/
inductive Hexable : List Char → Nat → Prop
  | decimal {cs : List Char} {n : Nat} : Unsigned 10 cs n → Hexable cs n
  | hexadecimal {cs : List Char} {n : Nat} {x : Char} : x = 'x' ∨ x = 'X' → Unsigned 16 cs n →
      Hexable ('0' :: x :: cs) n

/-! ### Digits -/

variable {radix n value bits : Nat} {c : Char} {cs : List Char} {raw : String}

theorem toNat_digitChar : ∀ value < 16,
    value.digitChar.toNat = if value < 10 then 48 + value else 87 + value := by decide

theorem toNat_toUpper_digitChar : ∀ value < 16,
    value.digitChar.toUpper.toNat = if value < 10 then 48 + value else 55 + value := by decide

/-- A character has the value of a digit exactly if it is the digit of that value. -/
theorem digitValue?_eq_some (h : radix ≤ 16) :
    digitValue? radix c = some value ↔ IsDigit radix c value := by
  have hvalue : digitValue? radix c = some value ↔ value < radix ∧
      (48 ≤ c.toNat ∧ c.toNat ≤ 57 ∧ value = c.toNat - 48 ∨
        97 ≤ c.toNat ∧ c.toNat ≤ 102 ∧ value = c.toNat - 87 ∨
        65 ≤ c.toNat ∧ c.toNat ≤ 70 ∧ value = c.toNat - 55) := by
    unfold digitValue?
    simp only [Char.le_def, UInt32.le_iff_toNat_le, Char.toNat_val, Char.reduceToNat]
    grind
  rw [hvalue, IsDigit]
  refine and_congr_right fun hlt => ?_
  rw [← Char.toNat_inj, ← Char.toNat_inj, toNat_digitChar value (by omega),
    toNat_toUpper_digitChar value (by omega)]
  split <;> omega

/-- No digit is blank, and none is one of the other characters in numbers. -/
theorem IsDigit.apart (h : IsDigit radix c value) (hradix : radix ≤ 16) :
    c ∉ ['+', '-', 'x', 'X'] ∧ Blank.holds c = false := by
  have hlower : ∀ value < 16, value.digitChar ∉ ['+', '-', 'x', 'X'] ∧
      Blank.holds value.digitChar = false := by decide
  have hupper : ∀ value < 16, value.digitChar.toUpper ∉ ['+', '-', 'x', 'X'] ∧
      Blank.holds value.digitChar.toUpper = false := by decide
  obtain ⟨hlt, rfl | rfl⟩ := h
  · exact hlower value (by omega)
  · exact hupper value (by omega)

theorem Digits.apart (h : Digits radix cs n) (hradix : radix ≤ 16) :
    ∀ c ∈ cs, c ∉ ['+', '-', 'x', 'X'] ∧ Blank.holds c = false := by
  induction h with
  | one hc => exact List.forall_mem_singleton.mpr (hc.apart hradix)
  | concat _ hc ih =>
    exact List.forall_mem_append.mpr ⟨ih, List.forall_mem_singleton.mpr (hc.apart hradix)⟩

theorem continue?_concat (radix start : Nat) (cs : List Char) (c : Char) :
    continue? radix start (cs ++ [c]) =
      (continue? radix start cs).bind fun n => (digitValue? radix c).map (radix * n + ·) := by
  induction cs generalizing start with
  | nil =>
    simp only [List.nil_append, continue?]
    cases digitValue? radix c <;> rfl
  | cons first cs ih =>
    simp only [List.cons_append, continue?, ih]
    cases digitValue? radix first <;> rfl

theorem digits?_eq_some : digits? radix cs = some n ↔ cs ≠ [] ∧ continue? radix 0 cs = some n := by
  cases cs <;> simp [digits?]

/-- Digits are read exactly if they are some. -/
theorem digits?_eq_some_iff (h : radix ≤ 16) : digits? radix cs = some n ↔ Digits radix cs n := by
  constructor
  · induction cs using List.reverseRecOn generalizing n with
    | nil => intro hread; cases hread
    | append_singleton cs c ih =>
      intro hread
      have hcontinued := (digits?_eq_some.mp hread).2
      rw [continue?_concat] at hcontinued
      obtain ⟨m, hm, hlast⟩ := Option.bind_eq_some_iff.mp hcontinued
      obtain ⟨value, hvalue, rfl⟩ := Option.map_eq_some_iff.mp hlast
      have hdigit := (digitValue?_eq_some h).mp hvalue
      by_cases hcs : cs = []
      · subst hcs
        obtain rfl := Option.some.inj hm
        simpa using Digits.one hdigit
      · exact .concat (ih (digits?_eq_some.mpr ⟨hcs, hm⟩)) hdigit
  · intro hdigits
    induction hdigits with
    | one hc =>
      rw [digits?_eq_some, ← List.nil_append [_], continue?_concat, continue?, Option.bind_some,
        (digitValue?_eq_some h).mpr hc]
      simp
    | concat _ hc ih =>
      rw [digits?_eq_some, continue?_concat, (digits?_eq_some.mp ih).2, Option.bind_some,
        (digitValue?_eq_some h).mpr hc]
      simp

/-! ### Signs and prefixes -/

/-- A sign or the mark of a prefix cannot be taken for a digit. -/
theorem digits?_eq_none (h : radix ≤ 16) (hc : c ∈ cs) (hmark : c ∈ ['+', '-', 'x', 'X']) :
    digits? radix cs = none := by
  rw [Option.eq_none_iff_forall_ne_some]
  intro n hread
  exact (((digits?_eq_some_iff h).mp hread).apart h c hc).1 hmark

theorem unsigned?_eq_some_iff (h : radix ≤ 16) :
    unsigned? radix cs = some n ↔ Unsigned radix cs n := by
  constructor
  · intro hread
    unfold unsigned? at hread
    split at hread
    · exact .plus ((digits?_eq_some_iff h).mp hread)
    · exact .bare ((digits?_eq_some_iff h).mp hread)
  · intro hform
    cases hform with
    | bare hdigits =>
      rw [← digits?_eq_some_iff h] at hdigits
      unfold unsigned?
      split
      · rw [digits?_eq_none h List.mem_cons_self (by decide)] at hdigits
        cases hdigits
      · exact hdigits
    | plus hdigits => exact (digits?_eq_some_iff h).mpr hdigits

/-- An unsigned number holds no minus sign, no mark of a prefix and no blanks. -/
theorem Unsigned.apart (h : Unsigned radix cs n) (hradix : radix ≤ 16) :
    ∀ c ∈ cs, c ∉ ['-', 'x', 'X'] ∧ Blank.holds c = false := by
  have hdigits : ∀ {cs : List Char}, Digits radix cs n →
      ∀ c ∈ cs, c ∉ ['-', 'x', 'X'] ∧ Blank.holds c = false :=
    fun hdigits c hc => (hdigits.apart hradix c hc).imp_left fun hmark h => hmark (.tail _ h)
  cases h with
  | bare hbare => exact hdigits hbare
  | plus hplus => exact List.forall_mem_cons.mpr ⟨by decide, hdigits hplus⟩

theorem signed?_minus (cs : List Char) :
    signed? ('-' :: cs) = (digits? 10 cs).map fun n => -(Int.ofNat n) := by
  rw [signed?]
  cases digits? 10 cs <;> rfl

theorem signed?_eq_some_iff {v : Int} : signed? cs = some v ↔ Signed cs v := by
  constructor
  · intro hread
    unfold signed? at hread
    split at hread
    next rest =>
      have hminus : signed? ('-' :: rest) = some v := hread
      rw [signed?_minus] at hminus
      obtain ⟨n, hn, rfl⟩ := Option.map_eq_some_iff.mp hminus
      exact .minus ((digits?_eq_some_iff (by decide)).mp hn)
    next =>
      obtain ⟨n, hn, rfl⟩ := Option.map_eq_some_iff.mp hread
      exact .unsigned ((unsigned?_eq_some_iff (by decide)).mp hn)
  · intro hform
    cases hform with
    | unsigned hunsigned =>
      unfold signed?
      split
      · exact absurd (hunsigned.apart (by decide) '-' List.mem_cons_self).1 (by decide)
      · rw [(unsigned?_eq_some_iff (by decide)).mpr hunsigned]
        rfl
    | minus hdigits =>
      rw [signed?_minus, (digits?_eq_some_iff (by decide)).mpr hdigits]
      rfl

theorem hexable?_eq_some_iff : hexable? cs = some n ↔ Hexable cs n := by
  constructor
  · intro hread
    unfold hexable? at hread
    split at hread
    · exact .hexadecimal (Or.inl rfl) ((unsigned?_eq_some_iff (by decide)).mp hread)
    · exact .hexadecimal (Or.inr rfl) ((unsigned?_eq_some_iff (by decide)).mp hread)
    · exact .decimal ((unsigned?_eq_some_iff (by decide)).mp hread)
  · intro hform
    cases hform with
    | decimal hunsigned =>
      unfold hexable?
      split
      · exact absurd (hunsigned.apart (by decide) 'x' (by simp)).1 (by decide)
      · exact absurd (hunsigned.apart (by decide) 'X' (by simp)).1 (by decide)
      · exact (unsigned?_eq_some_iff (by decide)).mpr hunsigned
    | hexadecimal hx hunsigned =>
      rcases hx with rfl | rfl <;> exact (unsigned?_eq_some_iff (by decide)).mpr hunsigned

theorem Hexable.unblank (h : Hexable cs n) : ∀ c ∈ cs, Blank.holds c = false := by
  cases h with
  | decimal hunsigned => exact fun c hc => (hunsigned.apart (by decide) c hc).2
  | hexadecimal hx hunsigned =>
    refine List.forall_mem_cons.mpr ⟨by decide, List.forall_mem_cons.mpr ⟨?_, ?_⟩⟩
    · rcases hx with rfl | rfl <;> rfl
    · exact fun c hc => (hunsigned.apart (by decide) c hc).2

theorem Signed.unblank {v : Int} (h : Signed cs v) : ∀ c ∈ cs, Blank.holds c = false := by
  cases h with
  | unsigned hunsigned => exact fun c hc => (hunsigned.apart (by decide) c hc).2
  | minus hdigits =>
    exact List.forall_mem_cons.mpr ⟨by decide, fun c hc => (hdigits.apart (by decide) c hc).2⟩

/-! ### Widths -/

/-- A text of this form is read if the number fits, and gives none if it does not. -/
theorem natOf?_of_hexable (h : Hexable (Blank.strip raw) n) :
    natOf? bits raw = if n < 2 ^ bits then some n else none := by
  rw [natOf?, hexable?_eq_some_iff.mpr h, Option.filter_some]
  simp only [decide_eq_true_eq]
  rfl

theorem natOf?_eq_some_iff :
    natOf? bits raw = some n ↔ Hexable (Blank.strip raw) n ∧ n < 2 ^ bits := by
  rw [natOf?, Option.filter_eq_some_iff, hexable?_eq_some_iff, decide_eq_true_eq]
  rfl

theorem i32?_eq_some_iff {v : Int} :
    i32? raw = some v ↔ Signed (Blank.strip raw) v ∧ -2 ^ 31 ≤ v ∧ v < 2 ^ 31 := by
  rw [i32?, Option.filter_eq_some_iff, signed?_eq_some_iff, decide_eq_true_eq]
  rfl

theorem i32?_of_signed {v : Int} (h : Signed (Blank.strip raw) v) :
    i32? raw = if -2 ^ 31 ≤ v ∧ v < 2 ^ 31 then some v else none := by
  rw [i32?, signed?_eq_some_iff.mpr h, Option.filter_some]
  simp only [decide_eq_true_eq]
  rfl

/-- A word is the number that was read, as its width was checked. -/
theorem map_natOf? {α : Type} {ofNat : Nat → α} {toNat : α → Nat}
    (h : ∀ n < 2 ^ bits, toNat (ofNat n) = n) (raw : String) :
    ((natOf? bits raw).map ofNat).map toNat = natOf? bits raw := by
  cases hread : natOf? bits raw with
  | none => rfl
  | some n => exact congrArg some (h n (natOf?_lt hread))

theorem map_u64? (raw : String) : (u64? raw).map UInt64.toNat = natOf? 64 raw :=
  map_natOf? (fun _ => UInt64.toNat_ofNat_of_lt') raw

theorem map_u32? (raw : String) : (u32? raw).map UInt32.toNat = natOf? 32 raw :=
  map_natOf? (fun _ => UInt32.toNat_ofNat_of_lt') raw

theorem map_u16? (raw : String) : (u16? raw).map UInt16.toNat = natOf? 16 raw :=
  map_natOf? (fun _ => UInt16.toNat_ofNat_of_lt') raw

/-- A narrower number is one that fits. -/
theorem natOf?_narrow {wide : Nat} (h : bits ≤ wide) :
    natOf? bits raw = some n ↔ natOf? wide raw = some n ∧ n < 2 ^ bits := by
  have hle : 2 ^ bits ≤ 2 ^ wide := Nat.pow_le_pow_right (by decide) h
  rw [natOf?_eq_some_iff, natOf?_eq_some_iff]
  constructor
  · rintro ⟨hform, hlt⟩
    exact ⟨⟨hform, by omega⟩, hlt⟩
  · rintro ⟨⟨hform, -⟩, hlt⟩
    exact ⟨hform, hlt⟩

/-! ### Printed numbers -/

/-- The texts that a number is printed as: decimal digits, or hexadecimal ones behind `0x`. -/
def printed (n : Nat) : List (List Char) := [(toString n).toList, '0' :: 'x' :: Nat.toDigits 16 n]

theorem digits_toDigits (hlow : 1 < radix) (n : Nat) : Digits radix (Nat.toDigits radix n) n := by
  induction n using Nat.strongRecOn with
  | ind n ih =>
    rw [Nat.toDigits_eq_if hlow]
    split
    next hlt => exact .one ⟨hlt, Or.inl rfl⟩
    next hge =>
      have hdigit : IsDigit radix (n % radix).digitChar (n % radix) :=
        ⟨Nat.mod_lt n (by omega), Or.inl rfl⟩
      have hsmaller : n / radix < n := Nat.div_lt_self (by omega) hlow
      have hnumber := Digits.concat (ih (n / radix) hsmaller) hdigit
      rwa [Nat.div_add_mod] at hnumber

theorem digits_toString (n : Nat) : Digits 10 (toString n).toList n := by
  rw [Nat.toString_eq_ofList_toDigits, String.toList_ofList]
  exact digits_toDigits (by decide) n

theorem hexable_of_mem_printed (h : cs ∈ printed n) : Hexable cs n := by
  rcases List.mem_cons.mp h with rfl | h
  · exact .decimal (.bare (digits_toString n))
  · obtain rfl := List.mem_singleton.mp h
    exact .hexadecimal (Or.inl rfl) (.bare (digits_toDigits (by decide) n))

theorem signed_toString (v : Int) : Signed (toString v).toList v := by
  cases v with
  | ofNat n => exact .unsigned (.bare (digits_toString n))
  | negSucc m =>
    have htext : (toString (Int.negSucc m)).toList = '-' :: (toString (m + 1)).toList :=
      String.toList_append
    rw [htext]
    exact .minus (digits_toString (m + 1))

/-- What is read from a text: a number exactly if the text without its blanks has the form of one
that fits the width. So a number of that form, with blanks put in anywhere, is the number that is
read if it fits, and none is if it does not. -/
structure ReadsExactly (raw : String) : Prop where
  u64 : ∀ n, (u64? raw).map UInt64.toNat = some n ↔ Hexable (Blank.strip raw) n ∧ n < 2 ^ 64
  u32 : ∀ n, (u32? raw).map UInt32.toNat = some n ↔
    (u64? raw).map UInt64.toNat = some n ∧ n < 2 ^ 32
  u16 : ∀ n, (u16? raw).map UInt16.toNat = some n ↔
    (u64? raw).map UInt64.toNat = some n ∧ n < 2 ^ 16
  i32 : ∀ v, i32? raw = some v ↔ Signed (Blank.strip raw) v ∧ -2 ^ 31 ≤ v ∧ v < 2 ^ 31
  spacedUnsigned : ∀ {cs n}, Hexable cs n → Blank.Spaces cs raw.toList →
    u64? raw = (if n < 2 ^ 64 then some (UInt64.ofNat n) else none) ∧
    u32? raw = (if n < 2 ^ 32 then some (UInt32.ofNat n) else none) ∧
    u16? raw = (if n < 2 ^ 16 then some (UInt16.ofNat n) else none)
  spacedSigned : ∀ {cs v}, Signed cs v → Blank.Spaces cs raw.toList →
    i32? raw = if -2 ^ 31 ≤ v ∧ v < 2 ^ 31 then some v else none

/-- Every text is read exactly, and every number is printed in a form that is read: an unsigned one
in decimal and in hexadecimal digits, a signed one in decimal digits. -/
theorem numbers_read_exactly :
    (∀ raw, ReadsExactly raw) ∧ (∀ n, ∀ cs ∈ printed n, Hexable cs n) ∧
      ∀ v : Int, Signed (toString v).toList v := by
  refine ⟨fun raw => ?_, fun n cs => hexable_of_mem_printed, signed_toString⟩
  constructor
  case u64 => exact fun n => by rw [map_u64?, natOf?_eq_some_iff]
  case u32 =>
    intro n
    rw [map_u32?, map_u64?]
    exact natOf?_narrow (by decide)
  case u16 =>
    intro n
    rw [map_u16?, map_u64?]
    exact natOf?_narrow (by decide)
  case i32 => exact fun v => i32?_eq_some_iff
  case spacedUnsigned =>
    intro cs n hform hspaces
    rw [← hspaces.filter_eq hform.unblank] at hform
    rw [u64?, u32?, u16?, natOf?_of_hexable hform, natOf?_of_hexable hform,
      natOf?_of_hexable hform]
    refine ⟨?_, ?_, ?_⟩ <;> split <;> rfl
  case spacedSigned =>
    intro cs v hform hspaces
    rw [← hspaces.filter_eq hform.unblank] at hform
    exact i32?_of_signed hform

/-- A number just too wide for 16 bits and one with a sign, both with blanks in them. -/
theorem numbers_read_exactly_spread :
    u32? "0x 100\t00" = some 65536 ∧ u16? "0x 100\t00" = none ∧ i32? "- 7" = some (-7) := by
  have hwide : Blank.Spaces ('0' :: 'x' :: Nat.toDigits 16 65536) "0x 100\t00".toList :=
    .keep _ (.keep _ (.blank rfl (.keep _ (.keep _ (.keep _ (.blank rfl
      (.keep _ (.keep _ .nil))))))))
  have hminus : Blank.Spaces (toString (-7 : Int)).toList "- 7".toList :=
    .keep _ (.blank rfl (.keep _ .nil))
  obtain ⟨hexact, hprinted, hsigned⟩ := numbers_read_exactly
  have hhexadecimal := hprinted 65536 _ (List.mem_cons_of_mem _ (List.mem_singleton_self _))
  obtain ⟨-, hmiddle, hnarrow⟩ := (hexact _).spacedUnsigned hhexadecimal hwide
  exact ⟨hmiddle, hnarrow, (hexact _).spacedSigned (hsigned (-7)) hminus⟩

end Numeral
end MotionRack
