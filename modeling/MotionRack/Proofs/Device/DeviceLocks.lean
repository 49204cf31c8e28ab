import MotionRack.Document.Reader
import MotionRack.Proofs.Bus.Frame
import MotionRack.Proofs.Device.AllowedDevices

/-!
# Device locks that are read back

A lock is sent as the index of its slot and a serial number, one of which stands for any device. So
a lock to that number cannot be told from a slot that is not restricted, although it may be
declared. All other locks are read back as they were declared, and no two of them are sent alike.
-/
namespace MotionRack.DeviceLock

/-! ### What a description declares -/

/-- Whether a description enables its lock. -/
def Enabled (e : Element) : Prop :=
  ∃ v, e.attr? "enabled" = some v ∧ Fold.agrees v.toList "true".toList = true

/-- The serial number that a description names, if it can be read. -/
def namedSerial? (e : Element) : Option UInt64 := (e.attr? "sn").bind Numeral.u64?

/-- Whether a description declares a lock: its slot, and its serial number if it is enabled. -/
structure Declares (e : Element) (l : DeviceLock) : Prop where
  slot : Attribute.slot e = .ok l.slot
  locked : Enabled e → ∃ serial, namedSerial? e = some serial ∧ l.serial = some serial
  unlocked : ¬ Enabled e → l.serial = none

/-- Whether a description enables a lock to the number that stands for any device. -/
def LocksToAny (e : Element) : Prop := Enabled e ∧ namedSerial? e = some anySerial

variable {e e' : Element} {l l' : DeviceLock}

theorem enabled_iff :
    Enabled e ↔ (match e.attr? "enabled" with
      | some v => Fold.agrees v.toList "true".toList
      | none => false) = true := by
  unfold Enabled
  cases e.attr? "enabled" <;> simp

/-- A lock is read exactly if it is declared. -/
theorem ofElement_eq_ok : ofElement e = .ok l ↔ Declares e l := by
  unfold ofElement
  constructor
  · intro h
    obtain ⟨slot, hslot, h⟩ := bind_eq_ok.mp h
    extract_lets enabled at h
    have henabled : Enabled e ↔ enabled = true := enabled_iff
    split at h
    next hon =>
      obtain ⟨raw, hraw, h⟩ := bind_eq_ok.mp h
      obtain ⟨serial, hserial, h⟩ := bind_eq_ok.mp h
      obtain rfl := pure_eq_ok.mp h
      have hnamed : namedSerial? e = some serial := by
        rw [namedSerial?, Attribute.text_eq_ok.mp hraw]
        exact Attribute.orMalformed_eq_ok.mp hserial
      exact ⟨hslot, fun _ => ⟨serial, hnamed, rfl⟩, fun hnot => absurd (henabled.mpr hon) hnot⟩
    next hoff =>
      obtain rfl := pure_eq_ok.mp h
      exact ⟨hslot, fun hon => absurd (henabled.mp hon) hoff, fun _ => rfl⟩
  · rintro ⟨hslot, hlocked, hunlocked⟩
    refine bind_eq_ok.mpr ⟨l.slot, hslot, ?_⟩
    extract_lets enabled
    have henabled : Enabled e ↔ enabled = true := enabled_iff
    split
    next hon =>
      obtain ⟨serial, hnamed, hserial⟩ := hlocked (henabled.mpr hon)
      obtain ⟨raw, hraw, hread⟩ := Option.bind_eq_some_iff.mp hnamed
      refine bind_eq_ok.mpr ⟨raw, Attribute.text_eq_ok.mpr hraw, ?_⟩
      refine bind_eq_ok.mpr ⟨serial, Attribute.orMalformed_eq_ok.mpr hread, ?_⟩
      rw [← hserial]
      rfl
    next hoff =>
      rw [← hunlocked fun hon => hoff (henabled.mp hon)]
      rfl

theorem Declares.serial_eq_none_iff (h : Declares e l) : l.serial = none ↔ ¬ Enabled e := by
  refine ⟨fun hnone henabled => ?_, h.unlocked⟩
  obtain ⟨serial, -, hserial⟩ := h.locked henabled
  rw [hnone] at hserial
  cases hserial

theorem Declares.serial_eq_any_iff (h : Declares e l) :
    l.serial = some anySerial ↔ LocksToAny e := by
  constructor
  · intro hany
    have henabled : Enabled e := by
      by_contra hnot
      rw [h.unlocked hnot] at hany
      cases hany
    obtain ⟨serial, hnamed, hserial⟩ := h.locked henabled
    exact ⟨henabled, hnamed.trans (hserial.symm.trans hany)⟩
  · rintro ⟨henabled, hany⟩
    obtain ⟨serial, hnamed, hserial⟩ := h.locked henabled
    exact hserial.trans (hnamed.symm.trans hany)

/-! ### What a frame says -/

/-- Reads the payload of a lock: the index of its slot, and a serial number unless it is the one
that stands for any device. -/
def ofPayload? (command : CommandId) (payload : Octets) : Option DeviceLock :=
  match payload with
  | [i0, i1, n0, n1, n2, n3, n4, n5, n6, n7] =>
    if command = Command.setDeviceBoard then
      let serial := UInt64.ofNat (Octets.toNat [n0, n1, n2, n3, n4, n5, n6, n7])
      some {
        slot := UInt16.ofNat (Octets.toNat [i0, i1]) + 1
        serial := if serial = anySerial then none else some serial }
    else none
  | _ => none

/-- Reads a lock from the byte form of its frame. -/
def ofBytes? (bytes : Octets) : Option DeviceLock := Frame.told? ofPayload? bytes

/-- What is left of a lock once it was sent. -/
def heard (l : DeviceLock) : DeviceLock :=
  if l.serial = some anySerial then { l with serial := none } else l

/-- Whether the serial number in a frame is the one that stands for any device. -/
def SentUnrestricted (f : Frame) : Prop := f.payload.drop 2 = Octets.ofNat 8 anySerial.toNat

theorem heard_eq_self_iff : l.heard = l ↔ l.serial ≠ some anySerial := by
  unfold heard
  split
  next hany =>
    refine iff_of_false (fun h => ?_) (not_not.mpr hany)
    rw [← h] at hany
    cases hany
  next hother => exact iff_of_true rfl hother

/-- Two locks are heard alike if they are equal, or if they are about one slot and only one of them
is to the number that stands for any device, while the other does not restrict the slot. -/
theorem heard_eq_iff : l.heard = l'.heard ↔
    l = l' ∨ l.slot = l'.slot ∧ (l.serial = some anySerial ∧ l'.serial = none ∨
      l.serial = none ∧ l'.serial = some anySerial) := by
  obtain ⟨slot, serial⟩ := l
  obtain ⟨slot', serial'⟩ := l'
  unfold heard
  grind

theorem ofBytes?_frame (l : DeviceLock) : ofBytes? l.frame.encode = some l.heard := by
  have hread : ofPayload? Command.setDeviceBoard l.frame.payload = some {
      slot := UInt16.ofNat (Octets.toNat (Octets.ofNat 2 (l.slot - 1).toNat)) + 1
      serial :=
        let serial := UInt64.ofNat (Octets.toNat (Octets.ofNat 8 (l.serial.getD anySerial).toNat))
        if serial = anySerial then none else some serial } :=
    rfl
  have hfits : l.frame.payload.length ≤ maxPayload := by
    simp [frame]
    decide
  have htold : ofBytes? l.frame.encode = ofPayload? Command.setDeviceBoard l.frame.payload :=
    Frame.told?_encode_carrying hfits
  rw [htold, hread, Octets.uint16_ofNat_two, Octets.uint64_ofNat_eight, UInt16.sub_add_cancel]
  obtain ⟨slot, serial⟩ := l
  cases serial with
  | none => rfl
  | some serial =>
    unfold heard
    split <;> simp_all

theorem frame_heard (l : DeviceLock) : l.heard.frame = l.frame := by
  unfold heard
  split
  next hany => rw [frame, frame, hany]; rfl
  next => rfl

/-- Two locks are sent alike exactly if they are heard alike. -/
theorem frame_eq_iff : l.frame = l'.frame ↔ l.heard = l'.heard := by
  constructor
  · intro h
    have hread := ofBytes?_frame l
    rw [h, ofBytes?_frame] at hread
    exact (Option.some.inj hread).symm
  · intro h
    rw [← frame_heard l, h, frame_heard]

theorem sentUnrestricted_iff :
    SentUnrestricted l.frame ↔ l.serial = none ∨ l.serial = some anySerial := by
  have hpayload : l.frame.payload.drop 2 = Octets.ofNat 8 (l.serial.getD anySerial).toNat := by
    rw [frame, Frame.payload_carrying, List.drop_left' (Octets.length_ofNat 2 _)]
  rw [SentUnrestricted, hpayload, Octets.ofNat_eight_inj]
  cases l.serial with
  | none => simp
  | some serial => simp

/-- A lock that was read is the one that the description declares, and it is read back from its
frame exactly if it is not to the number that stands for any device. Its frame lifts the restriction
of the slot if the lock is disabled, or if it is to that number, and only then. So the frames of two
locks are equal only if the locks are, or if both are about one slot and one of them is disabled and
the other one is to that number. -/
theorem lock_read_back_iff (h : ofElement e = .ok l) :
    Declares e l ∧
    (ofBytes? l.frame.encode = some l ↔ ¬ LocksToAny e) ∧
    (SentUnrestricted l.frame ↔ ¬ Enabled e ∨ LocksToAny e) ∧
    ∀ {e' : Element} {l' : DeviceLock}, ofElement e' = .ok l' →
      (l.frame = l'.frame ↔ l = l' ∨ l.slot = l'.slot ∧
        (LocksToAny e ∧ ¬ Enabled e' ∨ ¬ Enabled e ∧ LocksToAny e')) := by
  have hdeclared := ofElement_eq_ok.mp h
  refine ⟨hdeclared, ?_, ?_, fun {e' l'} h' => ?_⟩
  · rw [ofBytes?_frame, Option.some.injEq, heard_eq_self_iff, ne_eq, hdeclared.serial_eq_any_iff]
  · rw [sentUnrestricted_iff, hdeclared.serial_eq_none_iff, hdeclared.serial_eq_any_iff]
  · have hdeclared' := ofElement_eq_ok.mp h'
    rw [frame_eq_iff, heard_eq_iff, hdeclared.serial_eq_any_iff, hdeclared.serial_eq_none_iff,
      hdeclared'.serial_eq_any_iff, hdeclared'.serial_eq_none_iff]

section

open Document (unplaced)

/-- A lock of the second slot. -/
def lockTo (enabled sn : String) : Element :=
  unplaced "DeviceLock" [("slot", "2"), ("enabled", enabled), ("sn", sn)] []

theorem lock_read_back_iff_greatestSerial :
    ∃ l, ofElement (lockTo "True" "0xFFFFFFFFFFFFFFFF") = .ok l ∧
      l = ⟨2, some 0xFFFFFFFFFFFFFFFF⟩ ∧ ofBytes? l.frame.encode = some l ∧
      ¬ SentUnrestricted l.frame := by
  obtain ⟨l, hread, hlock⟩ : ∃ l, ofElement (lockTo "True" "0xFFFFFFFFFFFFFFFF") = .ok l ∧
      l = ⟨2, some 0xFFFFFFFFFFFFFFFF⟩ := ⟨_, rfl, rfl⟩
  obtain ⟨hdeclared, hback, hsent, -⟩ := lock_read_back_iff hread
  have hother : ¬ LocksToAny (lockTo "True" "0xFFFFFFFFFFFFFFFF") := by
    rw [← hdeclared.serial_eq_any_iff, hlock]
    decide
  have henabled : Enabled (lockTo "True" "0xFFFFFFFFFFFFFFFF") := ⟨"True", rfl, rfl⟩
  exact ⟨l, hread, hlock, hback.mpr hother, fun h => (hsent.mp h).elim (absurd henabled) hother⟩

/-- A lock to the number that stands for any device is read without an error, and then sent as the
frame that lifts the restriction of its slot. -/
theorem lock_lost_anySerial :
    ∃ l disabled, ofElement (lockTo "true" "0xFFFF000000000000") = .ok l ∧
      ofElement (lockTo "false" "0xFFFF000000000000") = .ok disabled ∧
      l = ⟨2, some anySerial⟩ ∧ disabled = ⟨2, none⟩ ∧ l.frame = disabled.frame ∧
      ofBytes? l.frame.encode = some disabled :=
  ⟨_, _, rfl, rfl, rfl, rfl, rfl, rfl⟩

end

end MotionRack.DeviceLock
