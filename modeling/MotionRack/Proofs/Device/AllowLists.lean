import MotionRack.Proofs.Config.Union
import MotionRack.Proofs.Device.DeviceLocks
import MotionRack.Proofs.Sequence

/-!
# Allow lists as the controller reads them

The frames of allow lists are read back here: which slot a frame is about, and which signatures it
lists. No slot that a description names is lost on the way and none is added; how often a signature
is listed for a slot is told by the number of its declarations and of those that name the slot. The
frames of the locks follow, each with the index of its slot and a serial number.
-/
namespace MotionRack

/-! ### What a description declares -/

/-- The signature that a device tells: that of the last child for it, or else the one that stands
for any device. -/
def AllowedDevice.signatureOf (c : Element) : Except ConfigError Signature := do
  let told ← (c.childrenNamed "Signature").getLast?.mapM Signature.ofElement
  return told.getD {}

/-- Whether a device is declared with a signature. -/
def AllowedDevice.Declares (g : Signature) (c : Element) : Prop := signatureOf c = .ok g

/-- Whether a device names a slot that it may be plugged into. -/
def AllowedDevice.Allows (slot : UInt16) (c : Element) : Prop :=
  ∃ x ∈ c.childrenNamed "Allow", Attribute.slot x = .ok slot

instance (g : Signature) : DecidablePred (AllowedDevice.Declares g) := fun _ =>
  inferInstanceAs (Decidable (_ = _))

instance (slot : UInt16) : DecidablePred (AllowedDevice.Allows slot) := fun c =>
  inferInstanceAs (Decidable (∃ x ∈ c.childrenNamed "Allow", _))

/-- How often a signature with `declared` declarations is listed for a slot that `allowing` of them
name. -/
def AllowedDevices.occurrences (declared allowing : Nat) : Nat :=
  if declared ≤ 1 then allowing
  else declared * (declared - 1) / 2 - (declared - allowing) * (declared - allowing - 1) / 2

/-! ### What a frame says -/

namespace Signature

/-- The signatures that a byte string lists, four bytes each. -/
def readAll : Octets → List Signature
  | a :: b :: c :: d :: rest =>
    ⟨UInt16.ofNat (Octets.toNat [a, b]), UInt16.ofNat (Octets.toNat [c, d])⟩ :: readAll rest
  | _ => []

theorem readAll_flatMap_bytes (signatures : List Signature) :
    readAll (signatures.flatMap bytes) = signatures := by
  induction signatures with
  | nil => rfl
  | cons s rest ih =>
    have hword : ∀ v : UInt16, ∃ a b, Octets.ofNat 2 v.toNat = [a, b] := fun v => ⟨_, _, rfl⟩
    obtain ⟨a, b, htype⟩ := hword s.slotType
    obtain ⟨c, d, hid⟩ := hword s.deviceId
    rw [List.flatMap_cons, bytes, htype, hid]
    change _ :: readAll (rest.flatMap bytes) = _
    rw [ih, ← htype, ← hid, Octets.uint16_ofNat_two, Octets.uint16_ofNat_two]

end Signature

namespace AllowedDevices

/-- The frame that lists signatures for a slot, behind the index of the slot. -/
def listFrame (slot : UInt16) (signatures : List Signature) : Frame where
  command := Command.setAllowedDevices
  destination := .motherboard
  source := .host
  body := .long (Octets.ofNat 2 (slot - 1).toNat ++ signatures.flatMap fun s =>
    Octets.ofNat 2 s.slotType.toNat ++ Octets.ofNat 2 s.deviceId.toNat)

/-- The frame that locks a slot: the index of the slot, and a serial number of eight bytes, one of
which stands for any device. -/
def lockFrame (l : DeviceLock) : Frame where
  command := Command.setDeviceBoard
  destination := .motherboard
  source := .host
  body := .long (Octets.ofNat 2 (l.slot - 1).toNat ++ Octets.ofNat 8 (match l.serial with
    | some serial => serial.toNat
    | none => 0xFFFF000000000000))

/-- The slot that an allow list is about, told by the index in front. -/
def slotOf (f : Frame) : UInt16 := UInt16.ofNat (Octets.toNat (f.payload.take 2)) + 1

/-- The signatures that an allow list holds. -/
def listOf (f : Frame) : List Signature := Signature.readAll (f.payload.drop 2)

@[simp] theorem slotOf_listFrame (slot : UInt16) (signatures : List Signature) :
    slotOf (listFrame slot signatures) = slot := by
  rw [slotOf, listFrame, Frame.payload, List.take_left' (Octets.length_ofNat 2 _),
    Octets.uint16_ofNat_two, UInt16.sub_add_cancel]

@[simp] theorem listOf_listFrame (slot : UInt16) (signatures : List Signature) :
    listOf (listFrame slot signatures) = signatures := by
  rw [listOf, listFrame, Frame.payload, List.drop_left' (Octets.length_ofNat 2 _)]
  exact Signature.readAll_flatMap_bytes signatures

theorem allowFrame_eq_ok {a : AllowedDevices} {slot : UInt16} {f : Frame}
    (h : a.allowFrame slot = .ok f) : listFrame slot (a.allowedIn slot) = f := by
  rw [allowFrame_eq] at h
  split at h
  next => cases h
  next => exact Except.ok.inj h

theorem lockFrame_eq (l : DeviceLock) : l.frame = lockFrame l := by
  obtain ⟨slot, _ | serial⟩ := l <;> rfl

/-- Compiling gives one list for each slot in use and then one frame for each lock. -/
theorem compile_eq_ok {a : AllowedDevices} {frames : List Frame} (h : a.compile = .ok frames) :
    frames = a.slotsUsed.map (fun slot => listFrame slot (a.allowedIn slot)) ++
      a.locks.map lockFrame := by
  unfold compile at h
  split at h
  next lists hlists =>
    rw [mapM_eq_map (fun _ _ => allowFrame_eq_ok) hlists, ← funext lockFrame_eq]
    exact (Except.ok.inj h).symm
  next => cases h

end AllowedDevices

/-! ### What is read from a description -/

namespace AllowedDevice

theorem withChild_eq_ok {d next : Signature × List UInt16} {c : Element}
    (h : withChild d c = .ok next) :
    (c.name = "Signature" ∧ ∃ s, Signature.ofElement c = .ok s ∧ next = (s, d.2)) ∨
      (c.name = "Allow" ∧ ∃ slot, Attribute.slot c = .ok slot ∧ next = (d.1, d.2 ++ [slot])) ∨
      (c.name ≠ "Signature" ∧ c.name ≠ "Allow" ∧ next = d) := by
  unfold withChild at h
  split at h
  next hname =>
    obtain ⟨s, hs, h⟩ := bind_eq_ok.mp h
    exact Or.inl ⟨hname, s, hs, (pure_eq_ok.mp h).symm⟩
  next hsignature =>
    split at h
    next hname =>
      obtain ⟨slot, hslot, h⟩ := bind_eq_ok.mp h
      exact Or.inr (Or.inl ⟨hname, slot, hslot, (pure_eq_ok.mp h).symm⟩)
    next hallow => exact Or.inr (Or.inr ⟨hsignature, hallow, (Except.ok.inj h).symm⟩)

theorem signature_of_withChild {d next : Signature × List UInt16} {c : Element}
    (h : withChild d c = .ok next) :
    (c.name = "Signature" → Signature.ofElement c = .ok next.1) ∧
      (c.name ≠ "Signature" → next.1 = d.1) := by
  rcases withChild_eq_ok h with ⟨hname, s, hs, rfl⟩ | ⟨hname, slot, -, rfl⟩ | ⟨hname, -, rfl⟩
  · exact ⟨fun _ => hs, fun hnot => absurd hname hnot⟩
  · refine ⟨fun hother => ?_, fun _ => rfl⟩
    rw [hname] at hother
    exact absurd hother (by decide)
  · exact ⟨fun hother => absurd hother hname, fun _ => rfl⟩

theorem slots_of_withChild {d next : Signature × List UInt16} {c : Element}
    (h : withChild d c = .ok next) :
    (c.name = "Allow" → ∃ slot, Attribute.slot c = .ok slot ∧ next.2 = d.2 ++ [slot]) ∧
      (c.name ≠ "Allow" → next.2 = d.2) := by
  rcases withChild_eq_ok h with ⟨hname, s, -, rfl⟩ | ⟨hname, slot, hslot, rfl⟩ | ⟨-, hname, rfl⟩
  · refine ⟨fun hother => ?_, fun _ => rfl⟩
    rw [hname] at hother
    exact absurd hother (by decide)
  · exact ⟨fun _ => ⟨slot, hslot, rfl⟩, fun hnot => absurd hname hnot⟩
  · exact ⟨fun hother => absurd hother hname, fun _ => rfl⟩

/-- A device that was read has the signature that it tells and the slots that it names. -/
theorem declares_of_ofElement {c : Element} {d : AllowedDevice} (h : ofElement c = .ok d) :
    signatureOf c = .ok d.signature ∧ ∀ slot, slot ∈ d.slots ↔ Allows slot c := by
  unfold ofElement at h
  obtain ⟨read, hfold, h⟩ := bind_eq_ok.mp h
  obtain rfl := pure_eq_ok.mp h
  have hsignature : ∃ o, (c.childrenNamed "Signature").getLast?.mapM Signature.ofElement = .ok o ∧
      read.1 = o.getD {} := by
    refine foldlM_last_or hfold ?_ ?_ <;> intro a x b hname hstep
    · exact (signature_of_withChild hstep).1 (by simpa using hname)
    · exact (signature_of_withChild hstep).2 (by simpa using hname)
  have hslots : ∃ slots, (c.childrenNamed "Allow").mapM Attribute.slot = .ok slots ∧
      read.2 = [] ++ slots := by
    refine foldlM_collect hfold ?_ ?_ <;> intro a x b hname hstep
    · exact (slots_of_withChild hstep).1 (by simpa using hname)
    · exact (slots_of_withChild hstep).2 (by simpa using hname)
  obtain ⟨told, htold, hkept⟩ := hsignature
  obtain ⟨slots, hread, hslots⟩ := hslots
  refine ⟨bind_eq_ok.mpr ⟨told, htold, pure_eq_ok.mpr hkept.symm⟩, fun slot => ?_⟩
  rw [new, mem_allow, hslots, List.nil_append, or_iff_right List.not_mem_nil]
  exact mem_mapM_iff hread

theorem beq_signature_of_ofElement {c : Element} {d : AllowedDevice} (h : ofElement c = .ok d)
    (g : Signature) : (d.signature == g) = decide (Declares g c) := by
  rw [Bool.eq_iff_iff, beq_iff_eq, decide_eq_true_eq, Declares, (declares_of_ofElement h).1,
    Except.ok.injEq]

theorem contains_slots_of_ofElement {c : Element} {d : AllowedDevice} (h : ofElement c = .ok d)
    (slot : UInt16) : d.slots.contains slot = decide (Allows slot c) := by
  rw [Bool.eq_iff_iff, List.contains_iff_mem, decide_eq_true_eq, (declares_of_ofElement h).2]

end AllowedDevice

namespace AllowedDevices

theorem withChild_eq_ok {a next : AllowedDevices} {c : Element} (h : a.withChild c = .ok next) :
    (c.name = "Device" ∧ ∃ d, AllowedDevice.ofElement c = .ok d ∧
        next = { a with devices := a.devices ++ [d] }) ∨
      (c.name = "DeviceLock" ∧ ∃ l, DeviceLock.ofElement c = .ok l ∧
        next = { a with locks := a.locks ++ [l] }) ∨
      (c.name ≠ "Device" ∧ c.name ≠ "DeviceLock" ∧ next = a) := by
  unfold withChild at h
  split at h
  next hname =>
    obtain ⟨d, hd, h⟩ := bind_eq_ok.mp h
    exact Or.inl ⟨hname, d, hd, (pure_eq_ok.mp h).symm⟩
  next hdevice =>
    split at h
    next hname =>
      obtain ⟨l, hl, h⟩ := bind_eq_ok.mp h
      exact Or.inr (Or.inl ⟨hname, l, hl, (pure_eq_ok.mp h).symm⟩)
    next hlock => exact Or.inr (Or.inr ⟨hdevice, hlock, (Except.ok.inj h).symm⟩)

theorem devices_of_withChild {a next : AllowedDevices} {c : Element}
    (h : a.withChild c = .ok next) :
    (c.name = "Device" →
      ∃ d, AllowedDevice.ofElement c = .ok d ∧ next.devices = a.devices ++ [d]) ∧
      (c.name ≠ "Device" → next.devices = a.devices) := by
  rcases withChild_eq_ok h with ⟨hname, d, hd, rfl⟩ | ⟨hname, l, -, rfl⟩ | ⟨hname, -, rfl⟩
  · exact ⟨fun _ => ⟨d, hd, rfl⟩, fun hnot => absurd hname hnot⟩
  · refine ⟨fun hother => ?_, fun _ => rfl⟩
    rw [hname] at hother
    exact absurd hother (by decide)
  · exact ⟨fun hother => absurd hother hname, fun _ => rfl⟩

theorem locks_of_withChild {a next : AllowedDevices} {c : Element} (h : a.withChild c = .ok next) :
    (c.name = "DeviceLock" →
      ∃ l, DeviceLock.ofElement c = .ok l ∧ next.locks = a.locks ++ [l]) ∧
      (c.name ≠ "DeviceLock" → next.locks = a.locks) := by
  rcases withChild_eq_ok h with ⟨hname, d, -, rfl⟩ | ⟨hname, l, hl, rfl⟩ | ⟨-, hname, rfl⟩
  · refine ⟨fun hother => ?_, fun _ => rfl⟩
    rw [hname] at hother
    exact absurd hother (by decide)
  · exact ⟨fun _ => ⟨l, hl, rfl⟩, fun hnot => absurd hname hnot⟩
  · exact ⟨fun hother => absurd hother hname, fun _ => rfl⟩

/-- What a description declares before it is merged: the devices and the locks, each in order. -/
theorem exists_declared {e : Element} {a : AllowedDevices} (h : ofElement e = .ok a) :
    ∃ declared, (e.childrenNamed "Device").mapM AllowedDevice.ofElement = .ok declared ∧
      Collision.union AllowedDevice.collides AllowedDevice.merge declared = .ok a.devices ∧
      (e.childrenNamed "DeviceLock").mapM DeviceLock.ofElement = .ok a.locks ∧
      (a.locks.map (·.slot)).Nodup := by
  unfold ofElement at h
  obtain ⟨declared, hfold, h⟩ := bind_eq_ok.mp h
  have hdevices : ∃ ds, (e.childrenNamed "Device").mapM AllowedDevice.ofElement = .ok ds ∧
      declared.devices = [] ++ ds := by
    refine foldlM_collect hfold ?_ ?_ <;> intro a x b hname hstep
    · exact (devices_of_withChild hstep).1 (by simpa using hname)
    · exact (devices_of_withChild hstep).2 (by simpa using hname)
  have hlocks : ∃ ls, (e.childrenNamed "DeviceLock").mapM DeviceLock.ofElement = .ok ls ∧
      declared.locks = [] ++ ls := by
    refine foldlM_collect hfold ?_ ?_ <;> intro a x b hname hstep
    · exact (locks_of_withChild hstep).1 (by simpa using hname)
    · exact (locks_of_withChild hstep).2 (by simpa using hname)
  obtain ⟨_, hread, rfl⟩ := hdevices
  obtain ⟨_, hlocksRead, rfl⟩ := hlocks
  dsimp only at h
  split at h
  next devices hunion =>
    obtain ⟨_, hpure, h⟩ := bind_eq_ok.mp h
    obtain rfl := pure_eq_ok.mp hpure
    split at h
    next locks hunique =>
      obtain rfl := pure_eq_ok.mp h
      have hapart := Collision.pairwise_of_unique hunique
      rw [Collision.unique_eq_ok hunique] at hapart ⊢
      refine ⟨declared.devices, hread, hunion, hlocksRead, ?_⟩
      exact List.pairwise_map.mpr (hapart.imp ne_of_beq_false)
    next => cases h
  next => cases h

/-! ### How often a signature is listed -/

section

open AllowedDevice (Declares Allows)

theorem occurrences_eq_choose {declared allowing : Nat} :
    occurrences declared allowing =
      if declared ≤ 1 then allowing else declared.choose 2 - (declared - allowing).choose 2 := by
  rw [occurrences, Nat.choose_two_right, Nat.choose_two_right]

theorem occurrences_pos_iff {declared allowing : Nat} (h : allowing ≤ declared) :
    0 < occurrences declared allowing ↔ 0 < allowing := by
  rw [occurrences_eq_choose]
  split
  next => rfl
  next hmany =>
    obtain ⟨n, rfl⟩ : ∃ n, declared = n + 1 := ⟨declared - 1, by omega⟩
    constructor
    · intro hpos
      by_contra hnone
      obtain rfl : allowing = 0 := by omega
      rw [Nat.sub_zero, Nat.sub_self] at hpos
      exact absurd hpos (Nat.lt_irrefl 0)
    · intro hpos
      have hfewer : (n + 1 - allowing).choose 2 ≤ n.choose 2 := Nat.choose_le_choose 2 (by omega)
      rw [Collision.choose_two_succ]
      omega

theorem occurrences_le_one {declared allowing : Nat} (h : allowing ≤ declared)
    (htwo : declared ≤ 2) : occurrences declared allowing ≤ 1 := by
  unfold occurrences
  split
  next => omega
  next =>
    obtain rfl : declared = 2 := by omega
    exact Nat.sub_le _ _

/-- In the list of a slot a signature occurs as often as the numbers of its declarations say. -/
theorem count_allowedIn {e : Element} {a : AllowedDevices} (h : ofElement e = .ok a) (slot : UInt16)
    (g : Signature) :
    (a.allowedIn slot).count g =
      occurrences ((e.childrenNamed "Device").countP (Declares g ·))
        ((e.childrenNamed "Device").countP fun c => Declares g c ∧ Allows slot c) := by
  obtain ⟨declared, hread, hunion, _⟩ := exists_declared h
  have hkind : ∀ x y : AllowedDevice, (x.signature == g) = true →
      AllowedDevice.collides x y = (y.signature == g) := by
    intro x y hx
    rw [AllowedDevice.collides, eq_of_beq hx, Bool.beq_comm]
  have hsymm : ∀ x y : AllowedDevice, AllowedDevice.collides x y = AllowedDevice.collides y x :=
    fun x y => Bool.beq_comm
  have hslots : ∀ x y : AllowedDevice, (x.merge y).slots.contains slot =
      (x.slots.contains slot || y.slots.contains slot) := by
    intro x y
    simp [AllowedDevice.merge, AllowedDevice.mem_allow]
  have hcount : (a.allowedIn slot).count g =
      a.devices.countP fun d => d.signature == g && d.slots.contains slot := by
    rw [allowedIn, List.count_eq_countP, List.countP_map, List.countP_filter]
    rfl
  -- The counts among the devices that were read are those among the elements.
  have hall : declared.countP (fun d => d.signature == g) =
      (e.childrenNamed "Device").countP (Declares g ·) :=
    countP_of_mapM hread fun c d hd => AllowedDevice.beq_signature_of_ofElement hd g
  have hhas : declared.countP (fun d => d.signature == g && d.slots.contains slot) =
      (e.childrenNamed "Device").countP fun c => Declares g c ∧ Allows slot c := by
    refine countP_of_mapM hread fun c d hd => ?_
    rw [AllowedDevice.beq_signature_of_ofElement hd, AllowedDevice.contains_slots_of_ofElement hd,
      Bool.decide_and]
  have hmerge : ∀ x y : AllowedDevice, AllowedDevice.collides x y = true →
      ((x.merge y).signature == g) = (x.signature == g) := fun _ _ _ => rfl
  rw [hcount, occurrences_eq_choose, ← hall, ← hhas, ← countP_and_not]
  exact Collision.countP_union hkind hsymm hmerge hslots hunion

theorem countP_allows_le (es : List Element) (slot : UInt16) (g : Signature) :
    (es.countP fun c => Declares g c ∧ Allows slot c) ≤ es.countP (Declares g ·) :=
  List.countP_mono_left fun _ _ h => decide_eq_true (of_decide_eq_true h).1

/-- A signature is on the list of a slot exactly if one of its declarations names the slot. -/
theorem mem_allowedIn_iff {e : Element} {a : AllowedDevices} (h : ofElement e = .ok a)
    {slot : UInt16} {g : Signature} :
    g ∈ a.allowedIn slot ↔ ∃ c ∈ e.childrenNamed "Device", Declares g c ∧ Allows slot c := by
  rw [← List.count_pos_iff, count_allowedIn h, occurrences_pos_iff (countP_allows_le _ slot g),
    List.countP_pos_iff]
  simp only [decide_eq_true_eq]

/-- A slot is in use exactly if a device names it. -/
theorem mem_slotsUsed_iff {e : Element} {a : AllowedDevices} (h : ofElement e = .ok a)
    {slot : UInt16} : slot ∈ a.slotsUsed ↔ ∃ c ∈ e.childrenNamed "Device", Allows slot c := by
  constructor
  · intro hused
    obtain ⟨d, hd, hslot⟩ := List.mem_flatMap.mp (List.mem_eraseDups.mp hused)
    have hlisted : d.signature ∈ a.allowedIn slot :=
      List.mem_map_of_mem (List.mem_filter.mpr ⟨hd, List.contains_iff_mem.mpr hslot⟩)
    obtain ⟨c, hc, _, hallows⟩ := (mem_allowedIn_iff h).mp hlisted
    exact ⟨c, hc, hallows⟩
  · rintro ⟨c, hc, hallows⟩
    obtain ⟨declared, hread, _⟩ := exists_declared h
    obtain ⟨d, hd⟩ := exists_mapM_iff.mp ⟨declared, hread⟩ c hc
    have hdeclares : Declares d.signature c := (AllowedDevice.declares_of_ofElement hd).1
    exact mem_slotsUsed (List.ne_nil_of_mem ((mem_allowedIn_iff h).mpr ⟨c, hc, hdeclares, hallows⟩))

/-- Compiled allow lists say what was declared: one list for each slot that a device names, each
signature in it as often as the numbers of its declarations say, and then the locks in the order in
which they are declared, each with its slot and serial number. -/
theorem allow_lists_exact {e : Element} {a : AllowedDevices} {frames : List Frame}
    (h : ofElement e = .ok a) (hframes : a.compile = .ok frames) :
    ∃ (lists : List Frame) (locks : List DeviceLock),
      frames = lists ++ locks.map lockFrame ∧
      (∀ f ∈ lists, f = listFrame (slotOf f) (listOf f) ∧ Address.IsSlotNumber (slotOf f)) ∧
      (lists.map slotOf).Nodup ∧
      (∀ slot, slot ∈ lists.map slotOf ↔ ∃ c ∈ e.childrenNamed "Device", Allows slot c) ∧
      List.Forall₂ DeviceLock.Declares (e.childrenNamed "DeviceLock") locks ∧
      (locks.map (·.slot)).Nodup ∧
      ∀ f ∈ lists, ∀ g,
        let declared := (e.childrenNamed "Device").countP (Declares g ·)
        let allowing := (e.childrenNamed "Device").countP fun c =>
          Declares g c ∧ Allows (slotOf f) c
        (listOf f).count g = occurrences declared allowing ∧
          (g ∈ listOf f ↔
            ∃ c ∈ e.childrenNamed "Device", Declares g c ∧ Allows (slotOf f) c) ∧
          (declared ≤ 2 → (listOf f).count g ≤ 1) := by
  obtain ⟨declared, _, _, hlocks, hapart⟩ := exists_declared h
  have hslots : (a.slotsUsed.map fun slot => listFrame slot (a.allowedIn slot)).map slotOf =
      a.slotsUsed := by
    simp [Function.comp_def]
  have hdeclared : List.Forall₂ DeviceLock.Declares (e.childrenNamed "DeviceLock") a.locks :=
    (forall₂_of_mapM hlocks).imp fun _ _ => DeviceLock.ofElement_eq_ok.mp
  refine ⟨_, a.locks, compile_eq_ok hframes, ?_, ?_, ?_, hdeclared, hapart, ?_⟩
  · refine List.forall_mem_map.mpr fun slot hslot => ?_
    rw [slotOf_listFrame, listOf_listFrame]
    exact ⟨rfl, (sound_of_ofElement h).isSlotNumber slot (List.mem_append_left _ hslot)⟩
  · rw [hslots]
    exact nodup_eraseDups _
  · intro slot
    rw [hslots, mem_slotsUsed_iff h]
  · refine List.forall_mem_map.mpr fun slot _ g => ?_
    rw [slotOf_listFrame, listOf_listFrame]
    intro declared allowing
    have hcount : (a.allowedIn slot).count g = occurrences declared allowing :=
      count_allowedIn h slot g
    refine ⟨hcount, mem_allowedIn_iff h, fun htwo => ?_⟩
    rw [hcount]
    exact occurrences_le_one (countP_allows_le _ slot g) htwo

end

section

open Document (unplaced)

/-- A device of one signature with the slots that it names. -/
def declaring (slotType : String) (slots : List String) : Element :=
  unplaced "Device" []
    (unplaced "Signature" [] [unplaced "DefaultSlotType" [("value", slotType)] []] ::
      slots.map fun slot => unplaced "Allow" [("slot", slot)] [])

/-- A description that declares a signature three times, another one once, and two locks. -/
def thriceDeclared : Element :=
  unplaced "AllowedDevices" [] [declaring "16" ["1", "2"], declaring "0x20" ["2"],
    declaring "16" ["2"], unplaced "DeviceLock" [("slot", "4")] [], declaring "0x10" ["3"],
    unplaced "DeviceLock" [("slot", "2"), ("enabled", "true"), ("sn", "0x0102030405060708")] []]

/-- Two of its three declarations name the second slot, and all three pairs have one of them. The
lock that is not enabled is sent with the number that stands for any device. -/
theorem allow_lists_exact_thrice :
    let sent : List Octets :=
      [[0xF2, 0x40, 18, 0, 0x91, 0x01, 1, 0, 0x20, 0, 0xFF, 0xFF, 16, 0, 0xFF, 0xFF,
          16, 0, 0xFF, 0xFF, 16, 0, 0xFF, 0xFF],
        [0xF2, 0x40, 10, 0, 0x91, 0x01, 0, 0, 16, 0, 0xFF, 0xFF, 16, 0, 0xFF, 0xFF],
        [0xF2, 0x40, 10, 0, 0x91, 0x01, 2, 0, 16, 0, 0xFF, 0xFF, 16, 0, 0xFF, 0xFF],
        [0x08, 0x40, 10, 0, 0x91, 0x01, 3, 0, 0, 0, 0, 0, 0, 0, 0xFF, 0xFF],
        [0x08, 0x40, 10, 0, 0x91, 0x01, 1, 0, 8, 7, 6, 5, 4, 3, 2, 1]]
    ∃ a frames, ofElement thriceDeclared = .ok a ∧ a.compile = .ok frames ∧
      frames.map Frame.encode = sent ∧
      ∃ f ∈ frames, slotOf f = 2 ∧ (listOf f).count ⟨16, 0xFFFF⟩ = 3 ∧
        (listOf f).count ⟨32, 0xFFFF⟩ = 1 := by
  intro sent
  obtain ⟨frames, hcompile, hbytes⟩ : ∃ frames, ofElement thriceDeclared >>= compile = .ok frames ∧
      frames.map Frame.encode = sent := ⟨_, rfl, rfl⟩
  obtain ⟨a, hread, hcompiled⟩ := bind_eq_ok.mp hcompile
  refine ⟨a, frames, hread, hcompiled, hbytes, ?_⟩
  obtain ⟨lists, locks, hframes, _, _, hslots, _, _, hlists⟩ := allow_lists_exact hread hcompiled
  obtain ⟨f, hf, hslot⟩ := List.mem_map.mp ((hslots 2).mpr (by decide))
  refine ⟨f, ?_, hslot, ?_, ?_⟩
  · rw [hframes]
    exact List.mem_append_left _ hf
  · rw [(hlists f hf _).1, hslot]
    decide
  · rw [(hlists f hf _).1, hslot]
    decide

end

end AllowedDevices
end MotionRack
