import MotionRack.Device.Stage
import MotionRack.Proofs.Bus.Address
import MotionRack.Proofs.Octets
import MotionRack.Proofs.Success

/-!
# The frames of a stage

A field takes exactly the width of its row, every row of a layout lies within the payload,
and every cell of a saved position within the table. So a payload keeps the size that its
layout declares, whichever sections a stage has and whatever they say.
-/
namespace MotionRack

/-- A field that can be read takes exactly the width that was asked for. -/
theorem Field.length_encodeText {e : Element} {field raw : String} {kind : FieldKind} {width : Nat}
    {bytes : Octets} (h : Field.encodeText e field raw kind width = .ok bytes) :
    bytes.length = width := by
  unfold Field.encodeText at h
  split at h
  next => cases h
  next value natural _ =>
    split at h
    next =>
      cases h
      exact Octets.length_fit width natural
    next => cases h

theorem Field.length_encodeScaled {e : Element} {key : String} {factor width : Nat}
    {bytes : Octets} (h : Field.encodeScaled e key factor width = .ok bytes) :
    bytes.length = width := by
  unfold Field.encodeScaled at h
  obtain ⟨raw, _, h⟩ := bind_eq_ok.mp h
  obtain ⟨x, _, h⟩ := bind_eq_ok.mp h
  obtain ⟨n, _, h⟩ := bind_eq_ok.mp h
  split at h
  next => cases h
  next =>
    cases h
    exact Octets.length_fit width _

theorem FieldRow.length_encode {row : FieldRow} {part : Element} {bytes : Octets}
    (h : row.encode part = .ok bytes) : bytes.length = row.width := by
  unfold FieldRow.encode at h
  split at h
  next => cases h
  next node _ =>
    split at h
    next kind _ =>
      obtain ⟨raw, _, htext⟩ := bind_eq_ok.mp h
      exact Field.length_encodeText htext
    next => exact Field.length_encodeScaled h

theorem length_blankPayload {size : Nat} (h : 2 ≤ size) (slot : UInt16) :
    (blankPayload size slot).length = size := by
  unfold blankPayload
  rw [List.length_append, Octets.length_ofNat, List.length_replicate]
  omega

theorem slotAddress_eq {slot : UInt16} (h : Address.IsSlotNumber slot) :
    slotAddress slot = .slot (UInt8.ofNat (slot.toNat - 1)) := by
  have hindex := h.toNat_index
  have hsame : (slot - 1).toUInt8 = UInt8.ofNat (slot.toNat - 1) := by
    rw [← hindex, Nat.add_sub_cancel, UInt8.ofNat_toNat]
  rw [slotAddress, hsame]

theorem getElem?_blankPayload {size i : Nat} (hi : 2 ≤ i) (hsize : i < size) (slot : UInt16) :
    (blankPayload size slot)[i]? = some 0 := by
  have hword : (Octets.ofNat 2 slot.toNat).length = 2 := Octets.length_ofNat 2 _
  rw [blankPayload, List.getElem?_append_right (by omega), hword,
    List.getElem?_replicate_of_lt (by omega)]

theorem slice_blankPayload (size : Nat) (slot : UInt16) :
    Octets.slice 0 2 (blankPayload size slot) = Octets.ofNat 2 slot.toNat :=
  List.take_left' (Octets.length_ofNat 2 _)

theorem slice_blankPayload_zero {size start width : Nat} (hstart : 2 ≤ start)
    (hstop : start + width ≤ size) (slot : UInt16) :
    Octets.slice start width (blankPayload size slot) = List.replicate width 0 := by
  apply List.ext_getElem?
  intro i
  rw [Octets.getElem?_slice, List.getElem?_replicate]
  split
  next hi => exact getElem?_blankPayload (by omega) (by omega) slot
  next => rfl

namespace FrameLayout

/-- Whether every row of a layout lies within its payload. -/
def RowsFit (layout : FrameLayout) : Prop :=
  2 ≤ layout.size ∧ ∀ row ∈ layout.rows, row.offset + row.width ≤ layout.size

instance (layout : FrameLayout) : Decidable layout.RowsFit := inferInstanceAs (Decidable (_ ∧ _))

/-- Fields that are written within a payload keep its length. -/
theorem length_fill {sections : Sections} {rows : List FieldRow} {image payload : Octets}
    (h : fill sections rows image = .ok payload)
    (hfit : ∀ row ∈ rows, row.offset + row.width ≤ image.length) :
    payload.length = image.length := by
  induction rows generalizing image with
  | nil =>
    cases h
    rfl
  | cons row rest ih =>
    have hrest : ∀ r ∈ rest, r.offset + r.width ≤ image.length :=
      fun r hr => hfit r (List.mem_cons_of_mem row hr)
    rw [fill] at h
    split at h
    next => exact ih h hrest
    next part _ =>
      obtain ⟨bytes, hbytes, h⟩ := bind_eq_ok.mp h
      have hwrite : (image.overwrite row.offset bytes).length = image.length := by
        apply Octets.length_overwrite
        rw [FieldRow.length_encode hbytes]
        exact hfit row List.mem_cons_self
      rw [← hwrite]
      exact ih h (by rwa [hwrite])

/-- The frame of a layout that fits: its command, to the slot, with a payload of its size. -/
theorem frame?_eq_some {layout : FrameLayout} (hfit : layout.RowsFit) {sections : Sections}
    {slot : UInt16} {f : Frame} (h : layout.frame? sections slot = .ok (some f)) :
    ∃ payload, payload.length = layout.size ∧
      f = .carrying layout.command (slotAddress slot) payload := by
  unfold frame? at h
  split at h
  next =>
    obtain ⟨payload, hpayload, h⟩ := bind_eq_ok.mp h
    have hlength := length_blankPayload hfit.1 slot
    have hsize := length_fill hpayload (by rw [hlength]; exact hfit.2)
    rw [hlength] at hsize
    exact ⟨payload, hsize, (Option.some.inj (pure_eq_ok.mp h)).symm⟩
  next => cases h

end FrameLayout

namespace Stage

theorem rowsFit_layouts : ∀ layout ∈ layouts, layout.RowsFit := by decide

/-! ### Saved positions -/

theorem one_le_positionCell {next cell : Nat} {e : Element} (hnext : 1 ≤ next)
    (h : positionCell next e = .ok cell) : 1 ≤ cell := by
  unfold positionCell at h
  split at h
  next =>
    cases h
    exact hnext
  next raw _ =>
    obtain ⟨v, hv, rfl⟩ := Option.map_eq_some_iff.mp (Attribute.orMalformed_eq_ok.mp h)
    have hpos : 1 ≤ v := of_decide_eq_true (Option.filter_eq_some_iff.mp hv).2
    omega

/-- Positions that are written into their cells keep the length of the table. -/
theorem length_fillPositions {next : Nat} {positions : List Element} {image payload : Octets}
    (h : fillPositions next positions image = .ok payload) (hnext : 1 ≤ next)
    (htable : image.length = 42) : payload.length = 42 := by
  induction positions generalizing next image with
  | nil =>
    cases h
    exact htable
  | cons e rest ih =>
    rw [fillPositions] at h
    obtain ⟨cell, hcell, h⟩ := bind_eq_ok.mp h
    have hpos := one_le_positionCell hnext hcell
    split at h
    next => cases h
    next hrange =>
      obtain ⟨raw, _, h⟩ := bind_eq_ok.mp h
      obtain ⟨value, _, h⟩ := bind_eq_ok.mp h
      refine ih h (Nat.le_add_left 1 cell) ?_
      rw [Octets.length_overwrite, htable]
      rw [Octets.length_ofInt, htable]
      unfold cellOffset
      unfold cellCount at hrange
      omega

theorem positionsFrame_eq_ok {store : Element} {slot : UInt16} {f : Frame}
    (h : positionsFrame store slot = .ok f) :
    ∃ payload, payload.length = 42 ∧
      f = .carrying Command.setStorePosition (slotAddress slot) payload := by
  unfold positionsFrame at h
  obtain ⟨payload, hpayload, h⟩ := bind_eq_ok.mp h
  have hsize := length_fillPositions hpayload (Nat.le_refl 1) (length_blankPayload (by decide) slot)
  exact ⟨payload, hsize, (pure_eq_ok.mp h).symm⟩

end Stage

namespace StageParameters

/-- The commands of the frames of a stage, with the sizes of their payloads. -/
def frameSizes : List (CommandId × Nat) :=
  Stage.layouts.map (fun layout => (layout.command, layout.size)) ++
    [(Command.setStorePosition, 42)]

/-- Whether a frame is one of a stage in a slot. -/
def IsFrameOf (slot : UInt16) (f : Frame) : Prop :=
  ∃ command size, (command, size) ∈ frameSizes ∧ ∃ payload : Octets, payload.length = size ∧
    f = .carrying command (slotAddress slot) payload

theorem isFrameOf_layoutFrames {sections : Sections} {slot : UInt16} {layouts : List FrameLayout}
    {frames : List Frame} (h : layoutFrames sections slot layouts = .ok frames)
    (hlayouts : layouts ⊆ Stage.layouts) : ∀ f ∈ frames, IsFrameOf slot f := by
  induction layouts generalizing frames with
  | nil =>
    cases h
    exact List.forall_mem_nil _
  | cons layout rest ih =>
    obtain ⟨hlayout, hrest⟩ := List.cons_subset.mp hlayouts
    rw [layoutFrames] at h
    obtain ⟨found, hfound, h⟩ := bind_eq_ok.mp h
    obtain ⟨others, hothers, h⟩ := bind_eq_ok.mp h
    obtain rfl := pure_eq_ok.mp h
    intro f hf
    rcases List.mem_append.mp hf with hf | hf
    · rw [Option.mem_toList] at hf
      obtain rfl : found = some f := hf
      obtain ⟨payload, hsize, hframe⟩ :=
        FrameLayout.frame?_eq_some (Stage.rowsFit_layouts layout hlayout) hfound
      refine ⟨layout.command, layout.size, ?_, payload, hsize, hframe⟩
      exact List.mem_append_left _ (List.mem_map_of_mem hlayout)
    · exact ih hothers hrest f hf

/-- A stage that can be read sits in a slot, and every frame of it is one of its kinds. -/
theorem ofElement_eq_ok {e : Element} {slot : UInt16} {s : StageParameters}
    (h : ofElement e slot = .ok s) :
    s.slot = slot ∧ Address.IsSlotNumber slot ∧ ∀ f ∈ s.frames, IsFrameOf slot f := by
  unfold ofElement ofSections at h
  by_cases hslot : Address.IsSlotNumber slot
  · simp only [hslot, not_true_eq_false, if_false] at h
    obtain ⟨frames, hframes, h⟩ := bind_eq_ok.mp h
    have hlayouts := isFrameOf_layoutFrames hframes (List.Subset.refl _)
    split at h
    next store _ =>
      obtain ⟨positions, hpositions, h⟩ := bind_eq_ok.mp h
      obtain rfl := pure_eq_ok.mp h
      obtain ⟨payload, hsize, hpayload⟩ := Stage.positionsFrame_eq_ok hpositions
      have hcell : (Command.setStorePosition, 42) ∈ frameSizes :=
        List.mem_append_right _ List.mem_cons_self
      refine ⟨rfl, hslot, List.forall_mem_append.mpr ⟨hlayouts, ?_⟩⟩
      exact List.forall_mem_singleton.mpr
        ⟨Command.setStorePosition, 42, hcell, payload, hsize, hpayload⟩
    next =>
      obtain rfl := pure_eq_ok.mp h
      refine ⟨rfl, hslot, ?_⟩
      rw [List.append_nil]
      exact hlayouts
  · simp only [hslot, not_false_eq_true, if_true] at h
    cases h

end StageParameters
end MotionRack
