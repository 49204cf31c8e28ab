import MotionRack.Document.Reader
import MotionRack.Proofs.Bus.Frame
import MotionRack.Proofs.Device.Fields

/-!
# The frames of a stage, field by field

The byte form of a frame tells every field of its layout, as it is read from the sections of the
stage. Another text for one attribute changes the bytes of its own field and no others.
-/
namespace MotionRack

/-! ### Another text -/

/-- Sections in which the attribute of a field has another text. -/
def Sections.withText (sections : Sections) (row : FieldRow) (raw : String) : Sections := fun id =>
  if id = row.holder then (sections id).map (Element.setAttrAt row.names row.key raw)
  else sections id

theorem FieldRow.text?_withText {sections : Sections} {row : FieldRow} {before : String}
    (h : row.text? sections = some before) (raw : String) (other : FieldRow) :
    other.text? (sections.withText row raw) =
      if other.readsFrom = row.readsFrom then some raw else other.text? sections := by
  obtain ⟨part, hpart, hbefore⟩ := Option.bind_eq_some_iff.mp h
  obtain ⟨node, hnode, -⟩ := Option.bind_eq_some_iff.mp hbefore
  unfold text? Sections.withText readsFrom
  by_cases hholder : other.holder = row.holder
  · rw [if_pos hholder, hholder, hpart, Option.map_some, Option.bind_some, Option.bind_some,
      Element.attrAt?_setAttrAt, hnode, Option.map_some]
    simp
  · rw [if_neg hholder, if_neg (by simp [hholder])]

theorem FrameLayout.Holds.withText {layout : FrameLayout} (hlayout : layout.Sound)
    {sections : Sections} {slot : UInt16} {payload : Octets}
    (h : layout.Holds sections slot payload) {row : FieldRow} (hrow : row ∈ layout.rows)
    {raw : String} {bytes : Octets} (hbytes : row.serialize? raw = some bytes) :
    layout.Holds (sections.withText row raw) slot (payload.overwrite row.offset bytes) := by
  obtain ⟨before, hbefore, -⟩ := h.fields row hrow
  have hwidth := FieldRow.length_serialize? hbytes
  have hwrite : row.offset + bytes.length ≤ payload.length := by
    rw [hwidth, h.length]
    exact hlayout.fits.2 row hrow
  constructor
  case length => rw [Octets.length_overwrite hwrite, h.length]
  case slot =>
    rw [Octets.slice_overwrite_of_apart hwrite (Or.inl (hlayout.behind row hrow)), h.slot]
  case fields =>
    intro other hother
    rw [FieldRow.text?_withText hbefore]
    by_cases hsame : other = row
    · subst hsame
      rw [if_pos rfl, Octets.slice_overwrite hwidth hwrite]
      exact ⟨raw, rfl, hbytes⟩
    · obtain ⟨hapart, hown⟩ := hlayout.separate.forall hother hrow hsame
      rw [if_neg hown, Octets.slice_overwrite_of_apart hwrite (hwidth ▸ hapart)]
      exact h.fields other hother
  case rest =>
    intro i hi hsize hnone
    rw [Octets.getElem?_overwrite hwrite, hwidth, ← h.rest i hi hsize hnone]
    exact if_neg (hnone row hrow)

theorem FieldRow.serialize?_of_encode_setAttrAt {row : FieldRow} (hbelow : row.IsBelow)
    {sections : Sections} {before : String} (hbefore : row.text? sections = some before)
    {part : Element} (hpart : sections row.holder = some part) {raw : String} {bytes : Octets}
    (h : row.encode (part.setAttrAt row.names row.key raw) = .ok bytes) :
    row.serialize? raw = some bytes := by
  rw [text?, hpart, Option.bind_some] at hbefore
  obtain ⟨node, hnode, -⟩ := Option.bind_eq_some_iff.mp hbefore
  obtain ⟨found, hfound, hbytes⟩ := (encode_eq_ok hbelow).mp h
  rw [Element.attrAt?_setAttrAt, if_pos rfl, hnode] at hfound
  obtain rfl := Option.some.inj hfound
  exact hbytes

/-! ### Frames -/

namespace FrameLayout

def frameLength (layout : FrameLayout) : Nat := Frame.headerLength + layout.size

/-- What the byte form of a frame tells: its command and node, the number of the slot behind the
header, each field where its row says, as it is read from its section, and zeros in between. -/
structure Tells (layout : FrameLayout) (sections : Sections) (slot : UInt16) (f : Frame) :
    Prop where
  command : f.command = layout.command
  destination : f.destination = .slot (UInt8.ofNat (slot.toNat - 1))
  length : f.encode.length = layout.frameLength
  slot : Octets.slice Frame.headerLength 2 f.encode = Octets.ofNat 2 slot.toNat
  fields : ∀ row ∈ layout.rows, ∃ part, sections row.holder = some part ∧
    row.encode part = .ok (Octets.slice (Frame.headerLength + row.offset) row.width f.encode)
  rest : ∀ i, 2 ≤ i → i < layout.size → (∀ row ∈ layout.rows, ¬ row.Covers i) →
    f.encode[Frame.headerLength + i]? = some 0

section

variable {layout : FrameLayout} {sections : Sections} {slot : UInt16} {payload : Octets}

theorem Holds.tells (hlayout : layout.Sound) (h : layout.Holds sections slot payload)
    (hslot : Address.IsSlotNumber slot) :
    layout.Tells sections slot (.carrying layout.command (slotAddress slot) payload) := by
  constructor
  case command => rfl
  case destination => exact slotAddress_eq hslot
  case length => rw [Frame.length_encode_carrying, h.length, frameLength]
  case slot =>
    rw [← h.slot]
    exact Frame.slice_encode_carrying 0 2
  case fields =>
    intro row hrow
    rw [Frame.slice_encode_carrying]
    exact (FieldRow.exists_text?_iff (hlayout.below row hrow)).mp (h.fields row hrow)
  case rest =>
    intro i hi hsize hnone
    rw [Frame.getElem?_encode_carrying, h.rest i hi hsize hnone]

theorem Holds.frame?_withText (hlayout : layout.Sound) (h : layout.Holds sections slot payload)
    {row : FieldRow} (hrow : row ∈ layout.rows) {raw : String} {bytes : Octets}
    (hbytes : row.serialize? raw = some bytes) :
    ∃ f, layout.frame? (sections.withText row raw) slot = .ok (some f) ∧
      f.encode = (Frame.carrying layout.command (slotAddress slot) payload).encode.overwrite
        (Frame.headerLength + row.offset) bytes := by
  refine ⟨_, (frame?_eq_some_iff hlayout).mpr ⟨_, h.withText hlayout hrow hbytes, rfl⟩, ?_⟩
  apply Frame.encode_carrying_overwrite
  rw [FieldRow.length_serialize? hbytes, h.length]
  exact hlayout.fits.2 row hrow

end

theorem frameLength_layouts : Stage.layouts.map frameLength = [96, 30, 20, 26, 10] := by decide

theorem not_covers_motionLayout {i : Nat} (hi : i < 22) :
    ∀ row ∈ Stage.motionLayout.rows, ¬ row.Covers i := by
  have hoffset : ∀ row ∈ Stage.motionLayout.rows, 22 ≤ row.offset := by decide
  exact fun row hrow hcovers => Nat.not_lt.mpr (Nat.le_trans (hoffset row hrow) hcovers.1) hi

/-- The sections of a stage in a slot make a frame of a layout exactly if every field can be read
from its section. The frame tells each field where its row says, and nothing else; the frames
of the layouts have 96, 30, 20, 26 and 10 bytes. A motion frame has zeros between the number of
its slot and its first field. If one attribute gets another text that its field accepts, there
is a frame again, and it differs in the bytes of this field alone. -/
theorem fields_faithful {layout : FrameLayout} (hlayout : layout ∈ Stage.layouts)
    {sections : Sections} {slot : UInt16} (hslot : Address.IsSlotNumber slot) :
    ((∃ f, layout.frame? sections slot = .ok (some f)) ↔
      ∀ row ∈ layout.rows, ∃ part bytes, sections row.holder = some part ∧
        row.encode part = .ok bytes) ∧
    Stage.layouts.map frameLength = [96, 30, 20, 26, 10] ∧
    ∀ f, layout.frame? sections slot = .ok (some f) →
      layout.Tells sections slot f ∧
      (layout = Stage.motionLayout → ∀ i, 8 ≤ i → i < 28 → f.encode[i]? = some 0) ∧
      ∀ row ∈ layout.rows, ∀ part raw bytes, sections row.holder = some part →
        row.encode (part.setAttrAt row.names row.key raw) = .ok bytes →
        bytes.length = row.width ∧
        ∃ other, layout.frame? (sections.withText row raw) slot = .ok (some other) ∧
          other.encode = f.encode.overwrite (Frame.headerLength + row.offset) bytes := by
  have hsound := sound_layouts layout hlayout
  refine ⟨exists_frame?_iff hsound, frameLength_layouts, fun f h => ?_⟩
  obtain ⟨payload, hholds, rfl⟩ := (frame?_eq_some_iff hsound).mp h
  have htells := hholds.tells hsound hslot
  refine ⟨htells, ?_, ?_⟩
  · rintro rfl i hi hstop
    obtain ⟨j, rfl⟩ := Nat.exists_eq_add_of_le (show 6 ≤ i by omega)
    exact htells.rest j (by omega) (show j < 90 by omega) (not_covers_motionLayout (by omega))
  · intro row hrow part raw bytes hpart hencode
    obtain ⟨before, hbefore, -⟩ := hholds.fields row hrow
    have hbytes := FieldRow.serialize?_of_encode_setAttrAt (hsound.below row hrow) hbefore hpart
      hencode
    exact ⟨FieldRow.length_serialize? hbytes, hholds.frame?_withText hsound hrow hbytes⟩

section

open Document (unplaced)

def setting (name value : String) : Element := unplaced name [("value", value)] []

def movingDrive : Element :=
  unplaced "Drive" [] [
    unplaced "Acceleration" [("min", "5"), ("max", "500")] [],
    unplaced "Speed" [("min", "7"), ("max", "7000")] [],
    setting "FullStepSpeed" "900",
    unplaced "KVal" [] [setting "Hold" "10", setting "Run" "20", setting "Accel" "30",
      setting "Decel" "40"],
    setting "IntersectSpeed" "61", setting "StallThreshold" "4",
    unplaced "Slope" [] [setting "Start" "1", setting "FinalAccel" "2", setting "FinalDecel" "3"],
    setting "OCDThreshold" "8", setting "StepMode" "7", setting "ICConfig" "11912",
    setting "GateDriverConfig" "12543", setting "ApproachVelocity" "100", setting "Deadband" "2",
    setting "Backlash" "-5", setting "KickoutTime" "9"]

/-- A stage that tells everything of its motion. -/
def movingStage : Element :=
  unplaced "StageParameters" [] [
    unplaced "Config" [] [
      setting "AxisSerial" "0x00ABCDEF", setting "CountsPerUnit" "1.5",
      unplaced "Position" [("min", "-100"), ("max", "200000")] [],
      setting "CollisionThreshold" "12"],
    movingDrive,
    unplaced "Flags" [] [setting "Flags" "0x05"],
    unplaced "Encoder" [] [
      setting "NmPerCount" "2.5", setting "EncoderType" "1",
      unplaced "IndexDelta" [("min", "3"), ("step", "4")] []]]

/-- The stage in slot 3, and the same with another backlash. -/
theorem fields_faithful_movingStage :
    ∃ f, Stage.motionLayout.frame? (.ofElement movingStage) 3 = .ok (some f) ∧
      f.destination = .slot 2 ∧ f.encode.length = 96 ∧ f.encode[20]? = some 0 ∧
      Octets.slice 78 3 f.encode = [0xFF, 0x30, 0x00] ∧
      ∃ other, Stage.motionLayout.frame? ((Sections.ofElement movingStage).withText
          (.int .drive "Backlash" "value" 79 2) "200") 3 = .ok (some other) ∧
        other.encode = f.encode.overwrite 85 [0xC8, 0x00] := by
  have hmade : (Stage.motionLayout.frame? (.ofElement movingStage) 3).toOption.join.isSome := by
    decide +kernel
  obtain ⟨f, hf⟩ := Option.isSome_iff_exists.mp hmade
  replace hf := toOption_eq_some.mp (Option.join_eq_some_iff.mp hf)
  have hlayout : Stage.motionLayout ∈ Stage.layouts := List.mem_cons_self
  have hslot : Address.IsSlotNumber 3 := by decide
  obtain ⟨htells, hblank, hreplaced⟩ := (fields_faithful hlayout hslot).2.2 f hf
  refine ⟨f, hf, htells.destination, htells.length, hblank rfl 20 (by decide) (by decide), ?_, ?_⟩
  · have hrow : FieldRow.int .drive "GateDriverConfig" "value" 72 3 ∈ Stage.motionLayout.rows := by
      simp [Stage.motionLayout]
    obtain ⟨part, hpart, hbytes⟩ := htells.fields _ hrow
    obtain rfl : movingDrive = part := Option.some.inj hpart
    have hread : (FieldRow.int .drive "GateDriverConfig" "value" 72 3).encode movingDrive =
        .ok [0xFF, 0x30, 0x00] := by
      decide +kernel
    exact Except.ok.inj (hbytes.symm.trans hread)
  · have hrow : FieldRow.int .drive "Backlash" "value" 79 2 ∈ Stage.motionLayout.rows := by
      simp [Stage.motionLayout]
    exact (hreplaced _ hrow movingDrive "200" _ rfl (by decide +kernel)).2

end

end FrameLayout
end MotionRack
