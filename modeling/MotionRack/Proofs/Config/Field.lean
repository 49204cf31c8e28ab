import Mathlib.Algebra.Order.Ring.Int
import MotionRack.Config.Field
import MotionRack.Proofs.Octets
import MotionRack.Proofs.Success

/-!
# What a field says

The bytes of a field are those of its text, or there are none: a number keeps its value, all else
keeps its bytes, and zeros follow up to the width. What would have to be cut is refused instead. The
check whether a number is narrow enough stays within 64 bits wherever it is made.
-/
namespace MotionRack.Field

/-! ### Texts and the bytes they are written as -/

/-- What a text is written as, if it can be read as the kind and goes into the width. -/
def bytes? (kind : FieldKind) (width : Nat) (raw : String) : Option Octets :=
  ((naturalBytes? kind raw).filter fun v => goesInto kind v.1 v.2 width).map fun v =>
    v.2.fit width

/-- What a fraction is written as, counted in parts of `1 / factor`. -/
def scaledBytes? (factor width : Nat) (raw : String) : Option Octets :=
  (((Decimal.binary? .double (Blank.strip raw)).bind (scaledWhole? · factor)).filter fun n =>
    8 ≤ width ∨ FitsWidth n width).map fun n => (Octets.ofInt 8 n).fit width

variable {e : Element} {key : String} {width : Nat} {bytes : Octets}

/-- An attribute is written as its text is. -/
theorem encode_iff_encodeText {kind : FieldKind} :
    encode e key kind width = .ok bytes ↔
      ∃ raw, e.attr? key = some raw ∧ encodeText e key raw kind width = .ok bytes := by
  simp only [encode, bind_eq_ok, Attribute.text_eq_ok]

theorem encode_eq_ok {kind : FieldKind} :
    encode e key kind width = .ok bytes ↔
      ∃ raw, e.attr? key = some raw ∧ bytes? kind width raw = some bytes := by
  rw [encode_iff_encodeText]
  refine exists_congr fun raw => and_congr_right fun _ => ?_
  unfold encodeText bytes?
  cases naturalBytes? kind raw with
  | none => simp
  | some v => cases h : goesInto kind v.1 v.2 width <;> simp [Option.filter, h]

theorem encodeScaled_eq_ok {factor : Nat} :
    encodeScaled e key factor width = .ok bytes ↔
      ∃ raw, e.attr? key = some raw ∧ scaledBytes? factor width raw = some bytes := by
  simp only [encodeScaled, bind_eq_ok, Attribute.text_eq_ok, Attribute.orMalformed_eq_ok]
  refine exists_congr fun raw => and_congr_right fun _ => ?_
  unfold scaledBytes?
  constructor
  · rintro ⟨x, hx, n, hn, h⟩
    split at h
    next => cases h
    next hfits =>
      have hwide : 8 ≤ width ∨ FitsWidth n width :=
        or_iff_not_imp_left.mpr fun hw => not_and_not_right.mp hfits (Nat.not_le.mp hw)
      simpa [hx, hn, Option.filter, hwide] using h
  · intro h
    obtain ⟨n, hn, rfl⟩ := Option.map_eq_some_iff.mp h
    obtain ⟨hn, hfits⟩ := Option.filter_eq_some_iff.mp hn
    obtain ⟨x, hx, hn⟩ := Option.bind_eq_some_iff.mp hn
    refine ⟨x, hx, n, hn, if_neg fun hnarrow => ?_⟩
    exact (of_decide_eq_true hfits).elim (Nat.not_le.mpr hnarrow.1) hnarrow.2

/-! ### What a text says -/

/-- Some bytes, and zeros behind them. -/
def ZeroFilled (natural bytes : Octets) : Prop := ∃ n, bytes = natural ++ List.replicate n 0

/-- Whether a text can be read as a kind. -/
def Readable (raw : String) : FieldKind → Prop
  | .bool => ∃ b, bool? raw = some b
  | .int => ∃ v, Numeral.i32? raw = some v
  | .uint => ∃ n, Numeral.natOf? 32 raw = some n
  | .float => ∃ x, float? raw = some x
  | .text => ∀ c ∈ raw.toList, c.toNat < 128

/-- The number of bytes that a text has as a kind of value. -/
def naturalLength (raw : String) : FieldKind → Nat
  | .bool => 1
  | .text => raw.toList.length
  | _ => 4

/-- Whether a text goes into `width` bytes: a number with its value, all else with its length. -/
def Fits (raw : String) (width : Nat) : FieldKind → Prop
  | .int => ∃ v, Numeral.i32? raw = some v ∧
      (4 ≤ width ∨ 1 ≤ width ∧ width < 4 ∧ -2 ^ (8 * width - 1) ≤ v ∧ v < 2 ^ (8 * width))
  | .uint => ∃ n, Numeral.natOf? 32 raw = some n ∧
      (4 ≤ width ∨ 1 ≤ width ∧ width < 4 ∧ n < 2 ^ (8 * width))
  | kind => Readable raw kind ∧ naturalLength raw kind ≤ width

/-- What bytes say in place of a text. As an unsigned number they have its value. As a signed one,
the first four or fewer have its value modulo the number of such words, and the rest is zero. As all
else, the bytes of the text are in front, and the rest is zero. -/
def Says (raw : String) (bytes : Octets) : FieldKind → Prop
  | .bool => ∃ b, bool? raw = some b ∧ ZeroFilled [if b then 1 else 0] bytes
  | .int => ∃ v, Numeral.i32? raw = some v ∧
      (Octets.toNat (bytes.take 4) : Int) = v % 2 ^ (8 * min bytes.length 4) ∧
      ∀ b ∈ bytes.drop 4, b = 0
  | .uint => ∃ n, Numeral.natOf? 32 raw = some n ∧ Octets.toNat bytes = n
  | .float => ∃ x, float? raw = some x ∧ ZeroFilled (Octets.ofNat 4 (x.toBits .single)) bytes
  | .text => ZeroFilled (raw.toList.map fun c => UInt8.ofNat c.toNat) bytes

variable {kind : FieldKind} {raw : String} {v : Int × Octets}

theorem asciiBytes?_eq_some {ascii : Octets} :
    asciiBytes? raw = some ascii ↔
      (∀ c ∈ raw.toList, c.toNat < 128) ∧ ascii = raw.toList.map fun c => UInt8.ofNat c.toNat := by
  unfold asciiBytes?
  induction raw.toList generalizing ascii with
  | nil => simp [eq_comm]
  | cons c cs ih =>
    rw [List.mapM_cons, List.forall_mem_cons, List.map_cons]
    by_cases hc : c.toNat < 128
    · simp only [if_pos hc, Option.bind_eq_bind, Option.bind_some, Option.bind_eq_some_iff, ih]
      simp [hc, eq_comm]
    · simp [hc]

theorem readable_iff : Readable raw kind ↔ ∃ v, naturalBytes? kind raw = some v := by
  rw [← Option.isSome_iff_exists]
  cases kind with
  | text =>
    rw [naturalBytes?, Option.isSome_map, Option.isSome_iff_exists]
    simp only [Readable, asciiBytes?_eq_some, exists_and_left, exists_eq, and_true]
  | _ => simp only [naturalBytes?, Readable, Option.isSome_map, Option.isSome_iff_exists]

theorem length_naturalBytes? (h : naturalBytes? kind raw = some v) :
    v.2.length = naturalLength raw kind := by
  cases kind with
  | text =>
    obtain ⟨ascii, hascii, rfl⟩ := Option.map_eq_some_iff.mp h
    rw [(asciiBytes?_eq_some.mp hascii).2, List.length_map]
    rfl
  | _ =>
    obtain ⟨a, -, rfl⟩ := Option.map_eq_some_iff.mp h
    simp [naturalLength, floatBytes]

/-! ### Widths -/

theorem cast_pow2 (n : Nat) : (pow2 n : Int) = 2 ^ n := Nat.cast_pow 2 n

theorem fitsWidth_iff {v : Int} :
    FitsWidth v width ↔ 1 ≤ width ∧ -2 ^ (8 * width - 1) ≤ v ∧ v < 2 ^ (8 * width) := by
  rw [FitsWidth, cast_pow2, cast_pow2, Nat.one_le_iff_ne_zero]

theorem goesInto_iff {v : Int} :
    (4 ≤ width || decide (FitsWidth v width)) = true ↔
      4 ≤ width ∨ 1 ≤ width ∧ width < 4 ∧ -2 ^ (8 * width - 1) ≤ v ∧ v < 2 ^ (8 * width) := by
  rw [Bool.or_eq_true, decide_eq_true_iff, decide_eq_true_iff, fitsWidth_iff]
  omega

/-- For an unsigned number the lower bound makes no difference. -/
theorem goesInto_natCast {n : Nat} :
    (4 ≤ width ∨ 1 ≤ width ∧ width < 4 ∧ -2 ^ (8 * width - 1) ≤ (n : Int) ∧
        (n : Int) < 2 ^ (8 * width)) ↔
      4 ≤ width ∨ 1 ≤ width ∧ width < 4 ∧ n < 2 ^ (8 * width) := by
  have hlow : -2 ^ (8 * width - 1) ≤ (n : Int) :=
    (neg_nonpos.mpr (pow_nonneg (by decide) _)).trans (Int.natCast_nonneg n)
  have hhigh : (n : Int) < 2 ^ (8 * width) ↔ n < 2 ^ (8 * width) := by
    exact_mod_cast Iff.rfl
  rw [and_iff_right hlow, hhigh]

/-- A text that can be read goes into a width exactly if its bytes do. -/
theorem fits_iff (h : naturalBytes? kind raw = some v) :
    Fits raw width kind ↔ goesInto kind v.1 v.2 width = true := by
  have hreadable : Readable raw kind := readable_iff.mpr ⟨v, h⟩
  have hlength := length_naturalBytes? h
  cases kind with
  | int =>
    obtain ⟨a, ha, rfl⟩ := Option.map_eq_some_iff.mp h
    simp only [Fits, ha, Option.some.injEq, exists_eq_left', goesInto, goesInto_iff]
  | uint =>
    obtain ⟨n, hn, rfl⟩ := Option.map_eq_some_iff.mp h
    simp only [Fits, hn, Option.some.injEq, exists_eq_left', goesInto, goesInto_iff,
      Int.ofNat_eq_natCast, goesInto_natCast]
  | _ => simp only [Fits, hreadable, true_and, goesInto, hlength, decide_eq_true_iff]

/-- Bytes that go into a width are filled up with zeros. -/
theorem fit_eq_iff {natural : Octets} (h : natural.length ≤ width) :
    natural.fit width = bytes ↔ bytes.length = width ∧ ZeroFilled natural bytes := by
  constructor
  · rintro rfl
    refine ⟨Octets.length_fit width natural, width - natural.length, ?_⟩
    rw [Octets.fit, List.take_of_length_le h]
  · rintro ⟨rfl, n, rfl⟩
    rw [Octets.fit, List.take_of_length_le h, List.length_append, List.length_replicate,
      Nat.add_sub_cancel_left]

/-- The bytes of an unsigned number that goes into a width are those with that number. -/
theorem fit_ofNat_eq_iff {n : Nat} (hword : n < pow2 32)
    (h : 4 ≤ width ∨ 1 ≤ width ∧ width < 4 ∧ n < 2 ^ (8 * width)) :
    (Octets.ofNat 4 n).fit width = bytes ↔ bytes.length = width ∧ Octets.toNat bytes = n := by
  have hwidth : n < pow2 (8 * width) := by
    rcases h with h | ⟨-, -, h⟩
    · exact hword.trans_le (Nat.pow_le_pow_right Nat.two_pos (by omega))
    · exact h
  have hnumber : Octets.toNat ((Octets.ofNat 4 n).fit width) = n := by
    rw [Octets.toNat_fit, Octets.toNat_ofNat, Nat.mod_eq_of_lt hword, Nat.mod_eq_of_lt hwidth]
  constructor
  · rintro rfl
    exact ⟨Octets.length_fit width _, hnumber⟩
  · rintro ⟨hlength, hn⟩
    rw [Octets.eq_iff_toNat (by rw [Octets.length_fit, hlength]), hnumber, hn]

/-- The front of a signed number is the number, modulo the number of shorter words. -/
theorem toNat_take_ofInt (v : Int) {m : Nat} (h : m ≤ 4) :
    (Octets.toNat ((Octets.ofInt 4 v).take m) : Int) = v % 2 ^ (8 * m) := by
  rw [Octets.toNat_take, Int.natCast_emod, Octets.toNat_ofInt, cast_pow2, cast_pow2]
  exact Int.emod_emod_of_dvd v (pow_dvd_pow 2 (by omega))

/-- The bytes of a signed number in a width have that number in front, and zeros behind it. -/
theorem fit_ofInt_eq_iff {v : Int} :
    (Octets.ofInt 4 v).fit width = bytes ↔ bytes.length = width ∧
      (Octets.toNat (bytes.take 4) : Int) = v % 2 ^ (8 * min bytes.length 4) ∧
      ∀ b ∈ bytes.drop 4, b = 0 := by
  have hlength : (Octets.ofInt 4 v).length = 4 := Octets.length_ofInt 4 v
  have hnumber := toNat_take_ofInt v (Nat.min_le_right width 4)
  have htake : ((Octets.ofInt 4 v).fit width).take 4 = (Octets.ofInt 4 v).take (min width 4) := by
    have hnone : (4 - min width 4) ⊓ (width - 4) = 0 := by omega
    rw [Octets.fit, List.take_append, List.take_take, List.length_take, hlength,
      List.take_replicate, hnone, List.replicate_zero, List.append_nil, Nat.min_comm]
  have hdrop : ((Octets.ofInt 4 v).fit width).drop 4 = List.replicate (width - 4) 0 := by
    have hshort : ((Octets.ofInt 4 v).take width).length ≤ 4 := by
      rw [List.length_take, hlength]
      exact Nat.min_le_right width 4
    have hall : width - 4 - (4 - min width 4) = width - 4 := by omega
    rw [Octets.fit, List.drop_append, List.drop_of_length_le hshort, List.nil_append,
      List.length_take, hlength, List.drop_replicate, hall]
  constructor
  · rintro rfl
    rw [Octets.length_fit, htake, hdrop]
    exact ⟨rfl, hnumber, fun b hb => List.eq_of_mem_replicate hb⟩
  · rintro ⟨rfl, hsame, hzeros⟩
    have hfront : (Octets.ofInt 4 v).take (min bytes.length 4) = bytes.take 4 := by
      rw [Octets.eq_iff_toNat (by simp [hlength, Nat.min_comm])]
      exact Int.natCast_inj.mp (hnumber.trans hsame.symm)
    have hback : List.replicate (bytes.length - 4) 0 = bytes.drop 4 := by
      rw [eq_comm, List.eq_replicate_iff, List.length_drop]
      exact ⟨rfl, hzeros⟩
    rw [← List.take_append_drop 4 (Octets.fit bytes.length _), htake, hdrop, hfront, hback,
      List.take_append_drop]

/-- What a text is written as in a width says the same. -/
theorem fit_eq_iff_says (h : naturalBytes? kind raw = some v) (hfits : Fits raw width kind) :
    v.2.fit width = bytes ↔ bytes.length = width ∧ Says raw bytes kind := by
  have hlength := length_naturalBytes? h
  cases kind with
  | int =>
    obtain ⟨a, ha, rfl⟩ := Option.map_eq_some_iff.mp h
    simp only [Says, ha, Option.some.injEq, exists_eq_left', fit_ofInt_eq_iff]
  | uint =>
    obtain ⟨n, hn, rfl⟩ := Option.map_eq_some_iff.mp h
    simp only [Fits, hn, Option.some.injEq, exists_eq_left'] at hfits
    simp only [Says, hn, Option.some.injEq, exists_eq_left']
    exact fit_ofNat_eq_iff (Numeral.natOf?_lt hn) hfits
  | text =>
    obtain ⟨ascii, hascii, rfl⟩ := Option.map_eq_some_iff.mp h
    obtain ⟨-, rfl⟩ := asciiBytes?_eq_some.mp hascii
    exact fit_eq_iff (hlength.trans_le hfits.2)
  | _ =>
    obtain ⟨a, ha, rfl⟩ := Option.map_eq_some_iff.mp h
    simp only [Says, ha, Option.some.injEq, exists_eq_left']
    exact fit_eq_iff (hlength.trans_le hfits.2)

theorem Fits.readable (h : Fits raw width kind) : Readable raw kind := by
  cases kind with
  | int => exact ⟨h.choose, h.choose_spec.1⟩
  | uint => exact ⟨h.choose, h.choose_spec.1⟩
  | _ => exact h.1

/-- A text is written exactly if it can be read and goes into the width. -/
theorem encodeText_eq_ok :
    encodeText e key raw kind width = .ok bytes ↔
      Fits raw width kind ∧ bytes.length = width ∧ Says raw bytes kind := by
  unfold encodeText
  cases hread : naturalBytes? kind raw with
  | none =>
    have hunread : ¬ Fits raw width kind := by
      intro hfits
      obtain ⟨v, hv⟩ := readable_iff.mp hfits.readable
      rw [hread] at hv
      cases hv
    exact iff_of_false nofun fun h => hunread h.1
  | some v =>
    dsimp only
    split
    next hgoes =>
      have hfits : Fits raw width kind := (fits_iff hread).mpr hgoes
      rw [Except.ok.injEq, fit_eq_iff_says hread hfits, and_iff_right hfits]
    next hgoes => exact iff_of_false nofun fun h => hgoes ((fits_iff hread).mp h.1)

/-- A text that goes into a width is written. -/
theorem exists_encodeText_iff :
    (∃ bytes, encodeText e key raw kind width = .ok bytes) ↔ Fits raw width kind := by
  constructor
  · rintro ⟨bytes, h⟩
    exact (encodeText_eq_ok.mp h).1
  · intro hfits
    obtain ⟨v, hread⟩ := readable_iff.mp hfits.readable
    refine ⟨v.2.fit width, ?_⟩
    rw [encodeText, hread]
    exact if_pos ((fits_iff hread).mp hfits)

/-- Why a text cannot be written. -/
theorem encodeText_eq_error {fault : ConfigError} :
    encodeText e key raw kind width = .error fault ↔
      ¬ Readable raw kind ∧ fault = .malformedValue e.location key raw ∨
      Readable raw kind ∧ ¬ Fits raw width kind ∧
        fault = .widthOverflow e.location key (naturalLength raw kind) width := by
  rw [readable_iff]
  unfold encodeText
  cases hread : naturalBytes? kind raw with
  | none => simp [eq_comm (b := fault)]
  | some v =>
    rw [fits_iff hread, ← length_naturalBytes? hread]
    cases hgoes : goesInto kind v.1 v.2 width <;> simp [hgoes, eq_comm (b := fault)]

/-- Why an attribute cannot be written: it is missing, or its text cannot be. -/
theorem encode_eq_error {fault : ConfigError} :
    encode e key kind width = .error fault ↔
      e.attr? key = none ∧ fault = .missingField e.location key ∨
      ∃ raw, e.attr? key = some raw ∧ encodeText e key raw kind width = .error fault := by
  unfold encode Attribute.text
  cases e.attr? key with
  | none => simp [bind, Except.bind, eq_comm]
  | some raw => simp [ok_bind]

/-! ### The width check on a machine -/

/-- A number, if it is one of 64 bits with its sign. -/
def word? (n : Int) : Option Int := if -2 ^ 63 ≤ n ∧ n < 2 ^ 63 then some n else none

/-- The word of 64 bits of which one bit is set, if it has that bit. -/
def bit? (n : Nat) : Option Int := if n < 64 then some (Int.bmod (2 ^ n) (2 ^ 64)) else none

/-- The check whether a number can be told apart in `width` bytes, made with words of 64 bits and a
number of bits that has 32. There is no answer if a step of it leaves them. -/
def checkWidth? (v : Int) (width : Nat) : Option Bool :=
  if width = 0 then some false
  else if 2 ^ 64 ≤ width * 8 then none
  else
    let bits := width * 8 % 2 ^ 32
    if bits = 0 then none
    else do
      let least ← word? (-(← bit? (bits - 1)))
      let greatest ← word? ((← bit? bits) - 1)
      some (least ≤ v && v ≤ greatest)

/-- Whether a number goes into `width` bytes, checked on a machine below four bytes only. -/
def checkedInto? (v : Int) (width : Nat) : Option Bool :=
  if 4 ≤ width then some true else checkWidth? v width

theorem bit?_eq {n : Nat} (h : n < 63) : bit? n = some (2 ^ n) := by
  have hsmall : (2 : Int) ^ n < 2 ^ 63 := pow_lt_pow_right₀ (by decide) h
  have hnonneg : 0 ≤ (2 : Int) ^ n := pow_nonneg (by decide) n
  rw [bit?, if_pos (by omega), Int.bmod_eq_of_le (by omega) (by omega)]

theorem word?_eq {n : Int} (hlow : -2 ^ 63 ≤ n) (hhigh : n < 2 ^ 63) : word? n = some n :=
  if_pos ⟨hlow, hhigh⟩

/-- Below eight bytes, no step of the check leaves its words. -/
theorem checkWidth?_eq (v : Int) (h : width < 8) :
    checkWidth? v width = some (decide (FitsWidth v width)) := by
  rcases Nat.eq_zero_or_pos width with rfl | hpos
  · simp [checkWidth?, FitsWidth]
  have hbits : width * 8 % 2 ^ 32 = 8 * width := by omega
  have hhalf : (2 : Int) ^ (8 * width) = 2 * 2 ^ (8 * width - 1) := by
    rw [← pow_succ', Nat.sub_add_cancel (by omega)]
  have hsmall : (2 : Int) ^ (8 * width) ≤ 2 ^ 56 := pow_le_pow_right₀ (by decide) (by omega)
  have hpositive : 0 < (2 : Int) ^ (8 * width - 1) := pow_pos (by decide) _
  rw [checkWidth?, if_neg (by omega), if_neg (by omega)]
  simp only [hbits]
  rw [if_neg (by omega), bit?_eq (by omega), bit?_eq (by omega)]
  simp only [Option.bind_eq_bind, Option.bind_some]
  rw [word?_eq (by omega) (by omega), word?_eq (by omega) (by omega), Option.bind_some,
    Option.bind_some, Option.some.injEq, ← Bool.decide_and, decide_eq_decide, fitsWidth_iff]
  omega

theorem checkedInto?_eq (v : Int) (width : Nat) :
    checkedInto? v width = some (4 ≤ width || decide (FitsWidth v width)) := by
  unfold checkedInto?
  split
  next hwide => rw [decide_eq_true hwide, Bool.true_or]
  next hnarrow => rw [checkWidth?_eq v (by omega), decide_eq_false hnarrow, Bool.false_or]

/-- The bytes of an attribute are exact. There are some exactly if the attribute is there and its
text can be read and goes into the width. Then they are as many as the width, and say the same as
the text. Otherwise there is one fault of three: the attribute is missing, its text cannot be read,
or it can be, but does not go into the width. And the check of a number's width always has an answer
on a machine, which is the one that the bytes depend on. -/
theorem encode_exact (e : Element) (key : String) (kind : FieldKind) (width : Nat) :
    ((∃ bytes, encode e key kind width = .ok bytes) ↔
      ∃ raw, e.attr? key = some raw ∧ Fits raw width kind) ∧
    (∀ bytes, encode e key kind width = .ok bytes ↔
      ∃ raw, e.attr? key = some raw ∧ Fits raw width kind ∧
        bytes.length = width ∧ Says raw bytes kind) ∧
    (∀ fault, encode e key kind width = .error fault ↔
      e.attr? key = none ∧ fault = .missingField e.location key ∨
      ∃ raw, e.attr? key = some raw ∧
        (¬ Readable raw kind ∧ fault = .malformedValue e.location key raw ∨
          Readable raw kind ∧ ¬ Fits raw width kind ∧
            fault = .widthOverflow e.location key (naturalLength raw kind) width)) ∧
    ∀ (v : Int) (natural : Octets),
      checkedInto? v width = some (goesInto .int v natural width) ∧
        checkedInto? v width = some (goesInto .uint v natural width) := by
  refine ⟨?_, fun bytes => ?_, fun fault => ?_, fun v _ => ?_⟩
  · simp only [encode_iff_encodeText]
    rw [exists_comm]
    simp only [exists_and_left, exists_encodeText_iff]
  · simp only [encode_iff_encodeText, encodeText_eq_ok]
  · simp only [encode_eq_error, encodeText_eq_error]
  · exact ⟨checkedInto?_eq v width, checkedInto?_eq v width⟩

/-- A number above zero and one below may have the same byte, as the width takes both ranges. -/
example : bytes? .int 1 "200" = some [200] ∧ bytes? .int 1 "-56" = some [200] ∧
    bytes? .int 1 "-129" = none ∧ bytes? .int 1 "256" = none := by decide +kernel

end MotionRack.Field
