import MotionRack.Proofs.Device.Shutters
import MotionRack.Proofs.Number.Binary

/-!
# On-times of shutters

The on-time of a shutter on its way from the description to the byte on the wire. It is rounded
three times: to whole nanoseconds, to a floating-point number of milliseconds, and up to units of
ten milliseconds. Only the first rounding can make nothing of a time that is above zero. So the
frame of a shutter drives it exactly if its on-time is above half a nanosecond.
-/
namespace MotionRack

open Binary (AtLeast Kept)

/-! ### Spans of time -/

namespace Duration

/-- No time at all. -/
def zero : Duration := ⟨0, 0⟩

theorem ofParts_eq_zero_iff {n : Nat} : ofParts 0 n = zero ↔ n = 0 := by
  unfold ofParts zero nanosPerSecond
  rw [Duration.mk.injEq]
  omega

/-- A time above zero is rounded to none exactly if it is half a nanosecond at most. -/
theorem ofSeconds?_eq_zero_iff {x : Binary} {d : Duration} (h : ofSeconds? x = some d)
    (hx : 0 < x.value) : d = zero ↔ 2 * nanosPerSecond * x.value ≤ 1 := by
  unfold ofSeconds? at h
  split at h
  next s m e =>
    cases s with
    | true => exact absurd hx (not_lt.mpr (Binary.value_true_nonpos m e))
    | false =>
      have hden : 0 < (Binary.ratio m e).2 := Binary.ratio_snd_pos m e
      dsimp only at h
      split at h
      next => cases h
      next =>
        obtain rfl := Option.some.inj h
        have hscaled : ((2 * ((Binary.ratio m e).1 * nanosPerSecond) : Nat) : ℚ) =
            2 * nanosPerSecond * (Binary.ratio m e).1 := by push_cast; ring
        rw [ofParts_eq_zero_iff, Binary.divHalfEven_eq_zero_iff hden, Binary.value_false,
          ← Binary.ratio_quotient, mul_div_assoc', div_le_one₀ (Nat.cast_pos.mpr hden), ← hscaled,
          Nat.cast_le]
  next => cases h

theorem kept_zero : Kept .double 0 := .inl rfl

theorem kept_one : Kept .double 1 := .inr ⟨0, by decide, (zpow_zero 2).symm⟩

/-- The nanoseconds of a span, as a part of a second, which has fewer than `2 ^ 30` of them. -/
theorem atLeast_fraction {b : ℚ} {n : Nat} (hb : 0 ≤ b) (hkept : Kept .double b)
    (hpart : Kept .double (b / 2 ^ 30)) (h : b ≤ n) :
    AtLeast (b / 2 ^ 30)
      (Binary.div .double (.ofNat .double n) (.ofNat .double nanosPerSecond)) := by
  have hdivisor : Binary.ofNat .double nanosPerSecond = .finite false (10 ^ 9 * 2 ^ 23) (-23) := rfl
  rw [hdivisor]
  exact (Binary.atLeast_ofNat hkept h).div hb (by decide) (by norm_num) hpart

/-- A time above zero stays above zero as a floating-point number of seconds: a nanosecond is far
above the least unit. -/
theorem atLeast_toSeconds {d : Duration} (h : d ≠ zero) : AtLeast (1 / 2 ^ 30) d.toSeconds := by
  have hnanosecond : Kept .double (1 / 2 ^ 30) := .inr ⟨-30, by decide, by norm_num⟩
  rcases Nat.eq_zero_or_pos d.seconds with hseconds | hseconds
  · have hnanoseconds : 0 < d.nanoseconds :=
      Nat.pos_of_ne_zero fun hnone => h (congrArg₂ Duration.mk hseconds hnone)
    have hsum := (Binary.atLeast_ofNat kept_zero (Nat.cast_nonneg d.seconds)).add
      (atLeast_fraction zero_le_one kept_one hnanosecond (Nat.one_le_cast.mpr hnanoseconds))
      (by rwa [zero_add])
    rwa [zero_add] at hsum
  · have hnone : Kept .double (0 / 2 ^ 30) := by rw [zero_div]; exact kept_zero
    have hsum := (Binary.atLeast_ofNat kept_one (Nat.one_le_cast.mpr hseconds)).add
      (atLeast_fraction le_rfl kept_zero hnone (Nat.cast_nonneg d.nanoseconds))
      (by rw [zero_div, add_zero]; exact kept_one)
    exact hsum.mono (by norm_num)

end Duration

/-! ### Parameters -/

namespace ShutterParams

theorem le_whole_zero_iff {x : Binary} (h : x.isFinite) : x.le (whole 0) ↔ x.value ≤ 0 := by
  cases x with
  | finite s m e =>
    have hzero : whole 0 = .finite false 0 (-1074) := rfl
    rw [hzero, Binary.le_iff, Binary.value_false, Nat.cast_zero, zero_mul]
  | _ => cases h

theorem isFinite_of_number {e : Element} {name : String} {x : Binary}
    (h : number e name = .ok x) : x.isFinite := by
  unfold number at h
  obtain ⟨c, -, h⟩ := bind_eq_ok.mp h
  obtain ⟨raw, -, h⟩ := bind_eq_ok.mp h
  exact (Option.filter_eq_some_iff.mp (Attribute.orMalformed_eq_ok.mp h)).2

theorem span_eq_ok {e : Element} {name : String} {x : Binary} {d : Duration} :
    span e name x = .ok d ↔ Duration.ofSeconds? x = some d := by
  unfold span
  cases Duration.ofSeconds? x <;> simp

/-- The on-time that was read is the one of the description, which is above zero. -/
theorem ofElement_onTime {e : Element} {p : ShutterParams} (h : ofElement e = .ok p) :
    ∃ x, number e "OnTimeSeconds" = .ok x ∧ 0 < x.value ∧
      Duration.ofSeconds? x = some p.onTime := by
  unfold ofElement at h
  obtain ⟨powerUp, -, h⟩ := bind_eq_ok.mp h
  obtain ⟨trigger, -, h⟩ := bind_eq_ok.mp h
  obtain ⟨drive, -, h⟩ := bind_eq_ok.mp h
  obtain ⟨x, hx, h⟩ := bind_eq_ok.mp h
  -- What follows the reading of the on-time passes it on, whichever other settings there are.
  extract_lets rest at h
  have hrest (h : rest () = .ok p) : Duration.ofSeconds? x = some p.onTime := by
    obtain ⟨pulseDuty, -, h⟩ := bind_eq_ok.mp h
    obtain ⟨holdDuty, -, h⟩ := bind_eq_ok.mp h
    extract_lets withSwitch at h
    have hwithSwitch {opensNegative : Bool} (h : withSwitch opensNegative = .ok p) :
        Duration.ofSeconds? x = some p.onTime := by
      unfold withSwitch at h
      extract_lets withHoldoff at h
      have hwithHoldoff {holdoff : Binary} (h : withHoldoff holdoff = .ok p) :
          Duration.ofSeconds? x = some p.onTime := by
        obtain ⟨onTime, honTime, h⟩ := bind_eq_ok.mp h
        obtain ⟨holdoffTime, -, h⟩ := bind_eq_ok.mp h
        obtain rfl := pure_eq_ok.mp h
        exact span_eq_ok.mp honTime
      split at h
      next =>
        obtain ⟨holdoff, -, h⟩ := bind_eq_ok.mp h
        exact hwithHoldoff h
      next => exact hwithHoldoff h
    split at h
    next =>
      obtain ⟨raw, -, h⟩ := bind_eq_ok.mp h
      obtain ⟨opensNegative, -, h⟩ := bind_eq_ok.mp h
      exact hwithSwitch h
    next => exact hwithSwitch h
  by_cases hle : x.le (whole 0)
  · rw [if_pos hle] at h
    cases h
  · rw [if_neg hle] at h
    rw [le_whole_zero_iff (isFinite_of_number hx), not_le] at hle
    exact ⟨x, hx, hle, hrest h⟩

/-- A time above zero stays above zero in units of ten milliseconds, before it is rounded up. -/
theorem atLeast_units {d : Duration} (h : d ≠ .zero) :
    AtLeast (1 / 2 ^ 25) (Binary.div .double (milliseconds d) (whole 10)) := by
  have hthousand : AtLeast (2 ^ 9) (whole 1000) :=
    Binary.atLeast_ofNat (.inr ⟨9, by decide, by norm_num⟩) (by norm_num)
  have hmilliseconds : AtLeast (1 / 2 ^ 30 * 2 ^ 9) (milliseconds d) :=
    (Duration.atLeast_toSeconds h).mul hthousand (by norm_num) (by norm_num)
      (.inr ⟨-21, by decide, by norm_num⟩)
  have hten : whole 10 = .finite false (10 * 2 ^ 49) (-49) := rfl
  have hkept : Kept .double (1 / 2 ^ 30 * 2 ^ 9 / 2 ^ 4) := .inr ⟨-25, by decide, by norm_num⟩
  rw [hten]
  exact (hmilliseconds.div (by norm_num) (by decide) (by norm_num) hkept).mono (by norm_num)

/-- The byte of an on-time is zero for no time at all only. -/
theorem onTimeTicks?_eq_zero_iff {p : ShutterParams} {ticks : UInt8}
    (h : p.onTimeTicks? = some ticks) : ticks = 0 ↔ p.onTime = .zero := by
  unfold onTimeTicks? at h
  constructor
  · intro hticks
    by_contra hpositive
    have hunits := atLeast_units hpositive
    split at h
    next s m e hfinite =>
      rw [hfinite] at hunits
      have hceil : 1 ≤ Binary.ceilInt s m e := hunits.one_le_ceilInt (by norm_num)
      dsimp only at h
      split at h
      next hbyte =>
        have hnat : (Binary.ceilInt s m e).toNat % 2 ^ 8 = 0 := by
          rw [← UInt8.toNat_ofNat', Option.some.inj h, hticks]
          rfl
        omega
      next => cases h
    next => cases h
  · intro hzero
    have hunits : Binary.div .double (milliseconds .zero) (whole 10) = .finite false 0 (-1074) := by
      decide +kernel
    have hceil : Binary.ceilInt false 0 (-1074) = 0 := by decide +kernel
    rw [hzero, hunits] at h
    dsimp only at h
    rw [hceil] at h
    exact (Option.some.inj h).symm

/-- The byte with the on-time in a payload. -/
theorem onTime_payload? {p : ShutterParams} {channel : UInt16} {payload : Octets}
    (h : p.payload? channel = some payload) : payload[5]? = p.onTimeTicks? := by
  unfold payload? at h
  obtain ⟨ticks, hticks, h⟩ := Option.bind_eq_some_iff.mp h
  obtain rfl := Option.some.inj h
  rw [hticks]
  simp [Octets.ofNat]

end ShutterParams

namespace ShutterChannel

/-- What a frame of a shutter was made from. -/
theorem onTime_of_mem_frames {e : Element} {slot channel : UInt16} {s : ShutterChannel} {f : Frame}
    (h : ofElement e slot channel = .ok s) (hf : f ∈ s.frames) :
    ∃ (p : ShutterParams) (x : Binary), p.payload? channel = some f.payload ∧
      ShutterParams.number e "OnTimeSeconds" = .ok x ∧ 0 < x.value ∧
      Duration.ofSeconds? x = some p.onTime := by
  unfold ofElement at h
  split at h
  next => cases h
  next =>
    obtain rfl := Except.ok.inj h
    obtain ⟨p, payload, hparams, hpayload, rfl⟩ := eq_of_mem_frames hf
    obtain ⟨x, hx, hpositive, honTime⟩ := ShutterParams.ofElement_onTime (params?_eq_some hparams)
    exact ⟨p, x, hpayload, hx, hpositive, honTime⟩

/-- The frame of a shutter drives it exactly if its on-time is above half a nanosecond. Every frame
has nineteen bytes, and was made from an on-time above zero. Its on-time byte lies between 1 and 255
if the on-time is above half a nanosecond, and is zero if it is not. -/
theorem on_time_drives_iff {e : Element} {slot channel : UInt16} {s : ShutterChannel} {f : Frame}
    (h : ofElement e slot channel = .ok s) (hf : f ∈ s.frames) :
    f.payload.length = 19 ∧
    ∃ (x : Binary) (ticks : UInt8), ShutterParams.number e "OnTimeSeconds" = .ok x ∧
      0 < x.value ∧ f.payload[5]? = some ticks ∧
      (1 ≤ ticks.toNat ∧ ticks.toNat ≤ 255 ↔ 1 / (2 * 10 ^ 9) < x.value) := by
  obtain ⟨p, x, hpayload, hx, hpositive, honTime⟩ := onTime_of_mem_frames h hf
  obtain ⟨ticks, hticks, -⟩ := Option.bind_eq_some_iff.mp hpayload
  have hzero : ticks.toNat = 0 ↔ ticks = 0 := UInt8.toNat_inj (b := 0)
  have hdriven : 1 ≤ ticks.toNat ↔ 1 / (2 * 10 ^ 9) < x.value := by
    rw [Nat.one_le_iff_ne_zero, ne_eq, hzero, ShutterParams.onTimeTicks?_eq_zero_iff hticks,
      Duration.ofSeconds?_eq_zero_iff honTime hpositive, not_le, div_lt_iff₀' (by norm_num)]
    norm_num [Duration.nanosPerSecond]
  have hbyte : ticks.toNat ≤ 255 := Nat.le_of_lt_succ ticks.toNat_lt
  refine ⟨ShutterParams.length_payload? hpayload, x, ticks, hx, hpositive, ?_,
    (and_iff_left hbyte).trans hdriven⟩
  rw [ShutterParams.onTime_payload? hpayload, hticks]

open FlipperGroup (pulsedFor)

/-- A shutter that is switched on for twenty milliseconds is driven for two units. -/
theorem on_time_drives_iff_twentyMilliseconds :
    ∃ s f x, ofElement (pulsedFor "0.02" []) 2 0 = .ok s ∧ f ∈ s.frames ∧
      ShutterParams.number (pulsedFor "0.02" []) "OnTimeSeconds" = .ok x ∧
      f.payload[5]? = some 2 ∧ 1 / (2 * 10 ^ 9) < x.value := by
  obtain ⟨s, hread, hbytes⟩ : ∃ s, ofElement (pulsedFor "0.02" []) 2 0 = .ok s ∧
      s.frames.map (·.payload[5]?) = [some 2] := ⟨_, rfl, by decide +kernel⟩
  obtain ⟨f, hf, hbyte⟩ := List.mem_map.mp (hbytes ▸ List.mem_singleton_self (some 2))
  obtain ⟨-, x, ticks, hx, -, hticks, hdriven⟩ := on_time_drives_iff hread hf
  obtain rfl : 2 = ticks := Option.some.inj (hbyte.symm.trans hticks)
  exact ⟨s, f, x, hread, hf, hx, hbyte, hdriven.mp (by decide)⟩

/-- An on-time of a tenth of a nanosecond gives a frame that does not switch the shutter on. -/
theorem on_time_lost_tenthOfNanosecond :
    ∃ s f x, ofElement (pulsedFor "1e-10" []) 2 0 = .ok s ∧ f ∈ s.frames ∧
      ShutterParams.number (pulsedFor "1e-10" []) "OnTimeSeconds" = .ok x ∧ 0 < x.value ∧
      f.payload[5]? = some 0 := by
  obtain ⟨s, hread, hbytes⟩ : ∃ s, ofElement (pulsedFor "1e-10" []) 2 0 = .ok s ∧
      s.frames.map (·.payload[5]?) = [some 0] := ⟨_, rfl, by decide +kernel⟩
  obtain ⟨f, hf, hbyte⟩ := List.mem_map.mp (hbytes ▸ List.mem_singleton_self (some 0))
  obtain ⟨p, x, -, hx, hpositive, -⟩ := onTime_of_mem_frames hread hf
  exact ⟨s, f, x, hread, hf, hx, hpositive, hbyte⟩

end ShutterChannel

end MotionRack
