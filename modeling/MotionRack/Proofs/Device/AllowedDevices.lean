import MotionRack.Device.AllowedDevices
import MotionRack.Proofs.Config.Collision
import MotionRack.Proofs.Device.Commit
import MotionRack.Proofs.Success

/-!
# Allow lists that were read

Every slot that a device or a lock names is one, and merging brings in no other. The frame
of a lock has a fixed size, but an allow list can grow beyond what a frame carries, and
that is the only way in which compiling can fail.
-/
namespace MotionRack

theorem Attribute.isSlotNumber_slot {e : Element} {slot : UInt16}
    (h : Attribute.slot e = .ok slot) : Address.IsSlotNumber slot := by
  obtain ⟨raw, _, h⟩ := bind_eq_ok.mp h
  exact of_decide_eq_true (Option.filter_eq_some_iff.mp (Attribute.orMalformed_eq_ok.mp h)).2

namespace AllowedDevice

/-- Of the slots that are named more, only those count that were not there. -/
theorem allow_concat (slots more : List UInt16) (slot : UInt16) :
    allow slots (more ++ [slot]) =
      if slot ∈ allow slots more then allow slots more else allow slots more ++ [slot] :=
  List.foldl_concat ..

theorem mem_allow {slots more : List UInt16} {slot : UInt16} :
    slot ∈ allow slots more ↔ slot ∈ slots ∨ slot ∈ more := by
  induction more using List.reverseRecOn with
  | nil => simp [allow]
  | append_singleton more last ih =>
    rw [allow_concat]
    split
    next hthere =>
      rw [ih, List.mem_append, List.mem_singleton, ← or_assoc]
      refine (or_iff_left_of_imp ?_).symm
      rintro rfl
      exact ih.mp hthere
    next => rw [List.mem_append, ih, List.mem_append, or_assoc]

/-- Whether every slot of a device is one. -/
def InRange (d : AllowedDevice) : Prop := ∀ slot ∈ d.slots, Address.IsSlotNumber slot

theorem inRange_of_ofElement {e : Element} {d : AllowedDevice} (h : ofElement e = .ok d) :
    d.InRange := by
  unfold ofElement at h
  obtain ⟨⟨signature, slots⟩, hfold, h⟩ := bind_eq_ok.mp h
  obtain rfl := pure_eq_ok.mp h
  have hslots : ∀ slot ∈ slots, Address.IsSlotNumber slot := by
    refine foldlM_induction (P := fun read => ∀ slot ∈ read.2, Address.IsSlotNumber slot)
      hfold (List.forall_mem_nil _) ?_
    intro read c next hread hstep
    unfold withChild at hstep
    split at hstep
    next =>
      obtain ⟨s, _, hstep⟩ := bind_eq_ok.mp hstep
      obtain rfl := pure_eq_ok.mp hstep
      exact hread
    next =>
      split at hstep
      next =>
        obtain ⟨slot, hslot, hstep⟩ := bind_eq_ok.mp hstep
        obtain rfl := pure_eq_ok.mp hstep
        refine List.forall_mem_append.mpr ⟨hread, ?_⟩
        exact List.forall_mem_singleton.mpr (Attribute.isSlotNumber_slot hslot)
      next =>
        obtain rfl := Except.ok.inj hstep
        exact hread
  exact fun slot hslot => (mem_allow.mp hslot).elim (by simp) (hslots slot)

theorem InRange.merge {a b : AllowedDevice} (ha : a.InRange) (hb : b.InRange) :
    (a.merge b).InRange := by
  intro slot hslot
  rcases mem_allow.mp hslot with hslot | hslot
  · exact ha slot hslot
  · exact hb slot hslot

end AllowedDevice

namespace DeviceLock

theorem isSlotNumber_of_ofElement {e : Element} {l : DeviceLock} (h : ofElement e = .ok l) :
    Address.IsSlotNumber l.slot := by
  unfold ofElement at h
  obtain ⟨slot, hslot, h⟩ := bind_eq_ok.mp h
  extract_lets enabled at h
  split at h
  next =>
    obtain ⟨raw, _, h⟩ := bind_eq_ok.mp h
    obtain ⟨serial, _, h⟩ := bind_eq_ok.mp h
    obtain rfl := pure_eq_ok.mp h
    exact Attribute.isSlotNumber_slot hslot
  next =>
    obtain rfl := pure_eq_ok.mp h
    exact Attribute.isSlotNumber_slot hslot

theorem checked_frame (l : DeviceLock) : l.frame.Checked := Frame.checked_words (by decide)

end DeviceLock

namespace AllowedDevices

/-- The slots that devices and locks name. -/
def slots (a : AllowedDevices) : List UInt16 := a.slotsUsed ++ a.locks.map (·.slot)

/-- What holds of allow lists and locks that were read. -/
structure Sound (a : AllowedDevices) : Prop where
  devices : ∀ d ∈ a.devices, d.InRange
  locks : ∀ l ∈ a.locks, Address.IsSlotNumber l.slot

theorem Sound.withChild {a next : AllowedDevices} (ha : a.Sound) {c : Element}
    (h : a.withChild c = .ok next) : next.Sound := by
  unfold AllowedDevices.withChild at h
  split at h
  next =>
    obtain ⟨d, hd, h⟩ := bind_eq_ok.mp h
    obtain rfl := pure_eq_ok.mp h
    refine ⟨List.forall_mem_append.mpr ⟨ha.devices, ?_⟩, ha.locks⟩
    exact List.forall_mem_singleton.mpr (AllowedDevice.inRange_of_ofElement hd)
  next =>
    split at h
    next =>
      obtain ⟨l, hl, h⟩ := bind_eq_ok.mp h
      obtain rfl := pure_eq_ok.mp h
      refine ⟨ha.devices, List.forall_mem_append.mpr ⟨ha.locks, ?_⟩⟩
      exact List.forall_mem_singleton.mpr (DeviceLock.isSlotNumber_of_ofElement hl)
    next =>
      obtain rfl := Except.ok.inj h
      exact ha

theorem sound_of_ofElement {e : Element} {a : AllowedDevices} (h : ofElement e = .ok a) :
    a.Sound := by
  unfold ofElement at h
  obtain ⟨declared, hfold, h⟩ := bind_eq_ok.mp h
  have hdeclared : declared.Sound :=
    foldlM_induction hfold ⟨List.forall_mem_nil _, List.forall_mem_nil _⟩
      fun _ _ _ ha hstep => ha.withChild hstep
  dsimp only at h
  split at h
  next devices hunion =>
    have hmerged : ∀ d ∈ devices, d.InRange := by
      intro d hd
      rcases Collision.mem_union hunion hd with hd | ⟨x, hx, y, hy, rfl⟩
      · exact hdeclared.devices d hd
      · exact (hdeclared.devices x hx).merge (hdeclared.devices y hy)
    obtain ⟨_, hdevices, h⟩ := bind_eq_ok.mp h
    obtain rfl := pure_eq_ok.mp hdevices
    split at h
    next locks hlocks =>
      obtain rfl := pure_eq_ok.mp h
      rw [Collision.unique_eq_ok hlocks]
      exact ⟨hmerged, hdeclared.locks⟩
    next => cases h
  next => cases h

theorem Sound.isSlotNumber {a : AllowedDevices} (h : a.Sound) :
    ∀ slot ∈ a.slots, Address.IsSlotNumber slot := by
  refine List.forall_mem_append.mpr ⟨?_, List.forall_mem_map.mpr h.locks⟩
  intro slot hslot
  obtain ⟨d, hd, hslot⟩ := List.mem_flatMap.mp (List.mem_eraseDups.mp hslot)
  exact h.devices d hd slot hslot

/-! ### The length of a list -/

/-- The most entries of an allow list that one frame carries. -/
def listLimit : Nat := 16381

/-- Whether the allow list of some slot is longer than a frame carries. -/
def Overlong (a : AllowedDevices) : Prop := ∃ slot, listLimit < (a.allowedIn slot).length

/-- The size of the frame of a list with `entries` entries. -/
def listSize (entries : Nat) : Nat := 2 + 4 * entries

theorem length_flatMap_bytes (signatures : List Signature) :
    (signatures.flatMap Signature.bytes).length = 4 * signatures.length := by
  have hbytes : ∀ s : Signature, s.bytes.length = 4 := fun s => by simp [Signature.bytes]
  simp [List.length_flatMap, hbytes, List.map_const', Nat.mul_comm]

theorem allowFrame_eq (a : AllowedDevices) (slot : UInt16) :
    a.allowFrame slot =
      if listLimit < (a.allowedIn slot).length then
        .error (.payloadTooLarge (listSize (a.allowedIn slot).length))
      else
        .ok (.carrying Command.setAllowedDevices .motherboard
          (Octets.ofNat 2 (slot - 1).toNat ++ (a.allowedIn slot).flatMap Signature.bytes)) := by
  have hlimit : maxPayload < 2 + 4 * (a.allowedIn slot).length ↔
      listLimit < (a.allowedIn slot).length := by
    unfold maxPayload listLimit
    omega
  rw [allowFrame, Frame.long, List.length_append, Octets.length_ofNat, length_flatMap_bytes]
  simp only [hlimit, listSize]

/-- A slot with devices on its list is in use. -/
theorem mem_slotsUsed {a : AllowedDevices} {slot : UInt16} (h : a.allowedIn slot ≠ []) :
    slot ∈ a.slotsUsed := by
  obtain ⟨signature, hsignature⟩ := List.exists_mem_of_ne_nil _ h
  obtain ⟨d, hd, _⟩ := List.mem_map.mp hsignature
  obtain ⟨hmem, hcontains⟩ := List.mem_filter.mp hd
  rw [slotsUsed, List.mem_eraseDups, List.mem_flatMap]
  exact ⟨d, hmem, List.contains_iff_mem.mp hcontains⟩

theorem foldlM_withChild_replicate {c : Element} {d : AllowedDevice} (hname : c.name = "Device")
    (hd : AllowedDevice.ofElement c = .ok d) (n : Nat) (a : AllowedDevices) :
    (List.replicate n c).foldlM withChild a =
      .ok { a with devices := a.devices ++ List.replicate n d } := by
  induction n generalizing a with
  | zero => rw [List.replicate_zero, List.replicate_zero, List.append_nil]; rfl
  | succ n ih =>
    have hstep : a.withChild c = .ok { a with devices := a.devices ++ [d] } := by
      rw [withChild, if_pos hname, hd]
      rfl
    rw [List.replicate_succ, List.foldlM_cons, hstep]
    change (List.replicate n c).foldlM withChild _ = _
    rw [ih, List.append_assoc, List.singleton_append, ← List.replicate_succ]

/-- A device that is declared `n` times is on the list of its slots once for every pair of its
declarations, so a list can be too long although the description is not. -/
theorem exists_ofElement_repeated {c e : Element} {d : AllowedDevice} (hname : c.name = "Device")
    (hd : AllowedDevice.ofElement c = .ok d) {n : Nat} (he : e.children = List.replicate n c)
    {slot : UInt16} (hslot : slot ∈ d.slots) :
    ∃ a, ofElement e = .ok a ∧ n * (n - 1) / 2 ≤ (a.allowedIn slot).length := by
  have hcollides : AllowedDevice.collides d d = true := beq_self_eq_true d.signature
  obtain ⟨kept, hunion⟩ := Collision.union_replicate AllowedDevice.merge hcollides n
  refine ⟨⟨kept ++ List.replicate (n * (n - 1) / 2) (d.merge d), []⟩, ?_, ?_⟩
  · rw [ofElement, he, foldlM_withChild_replicate hname hd]
    simp only [List.nil_append, bind, Except.bind, hunion]
    rfl
  · have hmerged : (d.merge d).slots.contains slot = true := by
      rw [List.contains_iff_mem, AllowedDevice.merge, AllowedDevice.mem_allow]
      exact Or.inl hslot
    unfold allowedIn
    rw [List.length_map, List.filter_append, List.length_append, List.filter_replicate,
      if_pos hmerged, List.length_replicate]
    exact Nat.le_add_left _ _

/-- Compiling succeeds unless a list is too long; then that is the error. -/
theorem compile_cases (a : AllowedDevices) :
    (¬ a.Overlong ∧ ∃ frames, a.compile = .ok frames) ∨
      ∃ slot ∈ a.slotsUsed, listLimit < (a.allowedIn slot).length ∧
        a.compile = .error (.link (.payloadTooLarge (listSize (a.allowedIn slot).length))) := by
  unfold compile
  rcases mapM_cases a.allowFrame a.slotsUsed with
    ⟨frames, hframes, hall⟩ | ⟨e, he, slot, hslot, hfail⟩
  · rw [hframes]
    refine Or.inl ⟨?_, _, rfl⟩
    rintro ⟨slot, hlong⟩
    -- A list that is too long belongs to a slot in use, so its frame was compiled.
    have hused : slot ∈ a.slotsUsed := mem_slotsUsed fun hnil => by
      rw [hnil] at hlong
      exact absurd hlong (Nat.not_lt_zero _)
    obtain ⟨f, hf⟩ := hall slot hused
    rw [allowFrame_eq, if_pos hlong] at hf
    cases hf
  · rw [he]
    rw [allowFrame_eq] at hfail
    split at hfail
    next hlong =>
      cases hfail
      exact Or.inr ⟨slot, hslot, hlong, rfl⟩
    next => cases hfail

theorem checked_compile {a : AllowedDevices} {frames : List Frame} (h : a.compile = .ok frames) :
    ∀ f ∈ frames, f.Checked := by
  unfold compile at h
  split at h
  next lists hlists =>
    cases h
    rw [List.forall_mem_append, List.forall_mem_map]
    exact ⟨forall_of_mapM hlists fun _ _ => Frame.checked_of_long, fun l _ => l.checked_frame⟩
  next => cases h

end AllowedDevices
end MotionRack
