import Mathlib.Data.List.Pairwise
import MotionRack.Proofs.Config.Field
import MotionRack.Proofs.Device.Stage
import MotionRack.Proofs.Document.Amendment
import MotionRack.Proofs.Document.Bare

/-!
# The fields of a frame

The rows of a layout lie behind the slot number and within the payload, no two of them share a
byte, and each has an attribute of its own. So the fields do not depend on the order in which they
are written: the payload of a layout is the only one that has every field where its row says
and zeros in between.
-/
namespace MotionRack

/-! ### Rows -/

namespace FieldRow

/-- The names of the elements that lead from a section to the attribute of a field. -/
def names (row : FieldRow) : List String :=
  match Element.Query.parse row.query with
  | .relative names => names
  | _ => []

def readsFrom (row : FieldRow) : SectionId × List String × String :=
  (row.holder, row.names, row.key)

def text? (row : FieldRow) (sections : Sections) : Option String :=
  (sections row.holder).bind (·.attrAt? row.names row.key)

/-- What a text is written as in a field, if the field accepts it. -/
def serialize? (row : FieldRow) (raw : String) : Option Octets :=
  match row.form with
  | .plain kind => Field.bytes? kind row.width raw
  | .scaled factor => Field.scaledBytes? factor row.width raw

/-- Whether a field takes a byte of the payload. -/
def Covers (row : FieldRow) (i : Nat) : Prop := row.offset ≤ i ∧ i < row.offset + row.width

def Apart (r s : FieldRow) : Prop :=
  r.offset + r.width ≤ s.offset ∨ s.offset + s.width ≤ r.offset

def Separate (r s : FieldRow) : Prop := r.Apart s ∧ r.readsFrom ≠ s.readsFrom

instance (r s : FieldRow) : Decidable (r.Apart s) := inferInstanceAs (Decidable (_ ∨ _))

instance (r s : FieldRow) : Decidable (r.Separate s) := inferInstanceAs (Decidable (_ ∧ _))

instance : Std.Symm Separate := ⟨fun _ _ h => ⟨h.1.symm, h.2.symm⟩⟩

/-- Whether the attribute of a field is looked for below its section. -/
def IsBelow (row : FieldRow) : Prop := (Element.Query.parse row.query).IsBelow

instance : DecidablePred IsBelow := fun row =>
  inferInstanceAs (Decidable (Element.Query.parse row.query).IsBelow)

theorem Apart.not_covers {r s : FieldRow} (h : r.Apart s) {i : Nat} (hi : r.Covers i) :
    ¬ s.Covers i := by
  unfold Apart at h
  unfold Covers at hi ⊢
  omega

theorem select?_query {row : FieldRow} (h : row.IsBelow) (part : Element) :
    part.select? row.query = part.walk? row.names := by
  obtain ⟨name, rest, hquery⟩ := h
  rw [Element.select?, names, hquery]
  rfl

variable {row : FieldRow} {part : Element} {bytes : Octets} {raw : String}

theorem encode_eq_ok (h : row.IsBelow) :
    row.encode part = .ok bytes ↔
      ∃ raw, part.attrAt? row.names row.key = some raw ∧ row.serialize? raw = some bytes := by
  rw [encode, select?_query h, Element.attrAt?]
  cases part.walk? row.names with
  | none => simp
  | some node =>
    rw [Option.bind_some]
    dsimp only
    unfold serialize?
    cases row.form with
    | plain kind => exact Field.encode_eq_ok
    | scaled factor => exact Field.encodeScaled_eq_ok

/-- What a field says, told by its text, and by its section. -/
theorem exists_text?_iff (h : row.IsBelow) {sections : Sections} :
    (∃ raw, row.text? sections = some raw ∧ row.serialize? raw = some bytes) ↔
      ∃ part, sections row.holder = some part ∧ row.encode part = .ok bytes := by
  simp only [text?, encode_eq_ok h, Option.bind_eq_some_iff]
  constructor
  · rintro ⟨raw, ⟨part, hpart, hraw⟩, hbytes⟩
    exact ⟨part, hpart, raw, hraw, hbytes⟩
  · rintro ⟨part, hpart, raw, hraw, hbytes⟩
    exact ⟨raw, ⟨part, hpart, hraw⟩, hbytes⟩

theorem length_serialize? (h : row.serialize? raw = some bytes) : bytes.length = row.width := by
  unfold serialize? Field.bytes? Field.scaledBytes? at h
  split at h
  all_goals
    obtain ⟨v, _, rfl⟩ := Option.map_eq_some_iff.mp h
    exact Octets.length_fit row.width _

/-- What is needed to write a field into `size` bytes: its section is there, and its row lies within
them. -/
structure Ready (sections : Sections) (size : Nat) (row : FieldRow) : Prop where
  below : row.IsBelow
  there : (sections row.holder).isSome
  fits : row.offset + row.width ≤ size

section

variable {sections : Sections} {image : Octets} (h : row.Ready sections image.length)
  (hbytes : row.serialize? raw = some bytes)

include h hbytes

theorem Ready.fits_of_serialize? : row.offset + bytes.length ≤ image.length :=
  length_serialize? hbytes ▸ h.fits

theorem Ready.length_overwrite : (image.overwrite row.offset bytes).length = image.length :=
  Octets.length_overwrite (h.fits_of_serialize? hbytes)

end

end FieldRow

/-! ### Payloads -/

namespace FrameLayout

/-- What keeps the fields of a layout from each other: they lie behind the slot number and within
the payload, no two of them share a byte, and each has an attribute of its own. -/
structure Sound (layout : FrameLayout) : Prop where
  fits : layout.RowsFit
  behind : ∀ row ∈ layout.rows, 2 ≤ row.offset
  below : ∀ row ∈ layout.rows, row.IsBelow
  separate : layout.rows.Pairwise FieldRow.Separate

theorem fill_cons_eq_ok {sections : Sections} {row : FieldRow} {rest : List FieldRow}
    {image payload : Octets} (hrow : row.Ready sections image.length) :
    fill sections (row :: rest) image = .ok payload ↔
      ∃ raw bytes, row.text? sections = some raw ∧ row.serialize? raw = some bytes ∧
        (image.overwrite row.offset bytes).length = image.length ∧
        fill sections rest (image.overwrite row.offset bytes) = .ok payload := by
  obtain ⟨part, hpart⟩ := Option.isSome_iff_exists.mp hrow.there
  rw [fill, hpart, FieldRow.text?, hpart, Option.bind_some]
  simp only [bind_eq_ok, FieldRow.encode_eq_ok hrow.below]
  constructor
  · rintro ⟨bytes, ⟨raw, hraw, hbytes⟩, h⟩
    exact ⟨raw, bytes, hraw, hbytes, hrow.length_overwrite hbytes, h⟩
  · rintro ⟨raw, bytes, hraw, hbytes, -, h⟩
    exact ⟨bytes, ⟨raw, hraw, hbytes⟩, h⟩

theorem sound_layouts : ∀ layout ∈ Stage.layouts, layout.Sound := by
  have hbehind : ∀ layout ∈ Stage.layouts, ∀ row ∈ layout.rows, 2 ≤ row.offset := by decide
  have hbelow : ∀ layout ∈ Stage.layouts, ∀ row ∈ layout.rows, row.IsBelow := by decide
  have hseparate : ∀ layout ∈ Stage.layouts, layout.rows.Pairwise FieldRow.Separate := by
    decide +kernel
  intro layout h
  exact ⟨Stage.rowsFit_layouts layout h, hbehind layout h, hbelow layout h, hseparate layout h⟩

/-- What the payload of a frame holds: the number of its slot, each field where its row says, and
zeros in between. -/
structure Holds (layout : FrameLayout) (sections : Sections) (slot : UInt16)
    (payload : Octets) : Prop where
  length : payload.length = layout.size
  slot : Octets.slice 0 2 payload = Octets.ofNat 2 slot.toNat
  fields : ∀ row ∈ layout.rows, ∃ raw, row.text? sections = some raw ∧
    row.serialize? raw = some (Octets.slice row.offset row.width payload)
  rest : ∀ i, 2 ≤ i → i < layout.size → (∀ row ∈ layout.rows, ¬ row.Covers i) →
    payload[i]? = some 0

section

variable {sections : Sections} {rows : List FieldRow} {image payload : Octets}

theorem exists_fill_iff (hready : ∀ row ∈ rows, row.Ready sections image.length) :
    (∃ payload, fill sections rows image = .ok payload) ↔
      ∀ row ∈ rows, ∃ raw bytes, row.text? sections = some raw ∧
        row.serialize? raw = some bytes := by
  induction rows generalizing image with
  | nil => exact iff_of_true ⟨image, rfl⟩ (List.forall_mem_nil _)
  | cons row rest ih =>
    obtain ⟨hrow, hrest⟩ := List.forall_mem_cons.mp hready
    rw [List.forall_mem_cons]
    constructor
    · rintro ⟨payload, h⟩
      obtain ⟨raw, bytes, hraw, hbytes, hlength, h⟩ := (fill_cons_eq_ok hrow).mp h
      exact ⟨⟨raw, bytes, hraw, hbytes⟩, (ih (hlength ▸ hrest)).mp ⟨payload, h⟩⟩
    · rintro ⟨⟨raw, bytes, hraw, hbytes⟩, hall⟩
      have hlength := hrow.length_overwrite hbytes
      obtain ⟨payload, h⟩ := (ih (hlength ▸ hrest)).mpr hall
      exact ⟨payload, (fill_cons_eq_ok hrow).mpr ⟨raw, bytes, hraw, hbytes, hlength, h⟩⟩

theorem getElem?_fill_of_uncovered (hready : ∀ row ∈ rows, row.Ready sections image.length)
    (h : fill sections rows image = .ok payload) {i : Nat} (hi : ∀ row ∈ rows, ¬ row.Covers i) :
    payload[i]? = image[i]? := by
  induction rows generalizing image with
  | nil =>
    cases h
    rfl
  | cons row rest ih =>
    obtain ⟨hrow, hrest⟩ := List.forall_mem_cons.mp hready
    obtain ⟨hout, houts⟩ := List.forall_mem_cons.mp hi
    obtain ⟨raw, bytes, -, hbytes, hlength, h⟩ := (fill_cons_eq_ok hrow).mp h
    rw [ih (hlength ▸ hrest) h houts, Octets.getElem?_overwrite (hrow.fits_of_serialize? hbytes),
      FieldRow.length_serialize? hbytes]
    exact if_neg hout

/-- Every field stands where its row says: none behind it is written over it. -/
theorem slice_fill_of_mem (hready : ∀ row ∈ rows, row.Ready sections image.length)
    (hapart : rows.Pairwise FieldRow.Separate) (h : fill sections rows image = .ok payload)
    {row : FieldRow} (hmem : row ∈ rows) :
    ∃ raw, row.text? sections = some raw ∧
      row.serialize? raw = some (Octets.slice row.offset row.width payload) := by
  induction rows generalizing image with
  | nil => cases hmem
  | cons first rest ih =>
    obtain ⟨hfirst, hrest⟩ := List.forall_mem_cons.mp hready
    obtain ⟨hfar, hapart⟩ := List.pairwise_cons.mp hapart
    obtain ⟨raw, bytes, hraw, hbytes, hlength, h⟩ := (fill_cons_eq_ok hfirst).mp h
    rcases List.mem_cons.mp hmem with rfl | hmem
    · -- The rows behind the first one are apart from it, so its bytes stay as they were written.
      have hkept : Octets.slice row.offset row.width payload =
          Octets.slice row.offset row.width (image.overwrite row.offset bytes) := by
        apply Octets.slice_congr
        intro i hi hstop
        exact getElem?_fill_of_uncovered (hlength ▸ hrest) h fun r hr =>
          (hfar r hr).1.not_covers ⟨hi, hstop⟩
      have hwidth := FieldRow.length_serialize? hbytes
      rw [Octets.slice_overwrite hwidth (hfirst.fits_of_serialize? hbytes)] at hkept
      exact ⟨raw, hraw, hkept ▸ hbytes⟩
    · exact ih (hlength ▸ hrest) hapart h hmem

end

section

variable {layout : FrameLayout} {sections : Sections} {slot : UInt16} {payload : Octets}

theorem Holds.isSome (h : layout.Holds sections slot payload) :
    ∀ row ∈ layout.rows, (sections row.holder).isSome := by
  intro row hrow
  obtain ⟨raw, hraw, -⟩ := h.fields row hrow
  obtain ⟨part, hpart, -⟩ := Option.bind_eq_some_iff.mp hraw
  exact Option.isSome_of_eq_some hpart

theorem Holds.unique {other : Octets} (h : layout.Holds sections slot payload)
    (hother : layout.Holds sections slot other) : payload = other := by
  apply List.ext_getElem?
  intro i
  -- A byte is one of the slot number, of a field, of the gaps, or there is none.
  rcases Nat.lt_or_ge i (0 + 2) with hword | hword
  · rw [Octets.getElem?_of_slice (Nat.zero_le i) hword payload,
      Octets.getElem?_of_slice (Nat.zero_le i) hword other, h.slot, hother.slot]
  rcases Nat.lt_or_ge i layout.size with hsize | hsize
  · by_cases hcovered : ∃ row ∈ layout.rows, row.Covers i
    · obtain ⟨row, hrow, hstart, hstop⟩ := hcovered
      obtain ⟨raw, hraw, hbytes⟩ := h.fields row hrow
      obtain ⟨raw', hraw', hbytes'⟩ := hother.fields row hrow
      obtain rfl := Option.some.inj (hraw.symm.trans hraw')
      rw [Octets.getElem?_of_slice hstart hstop payload,
        Octets.getElem?_of_slice hstart hstop other, Option.some.inj (hbytes.symm.trans hbytes')]
    · have hnone : ∀ row ∈ layout.rows, ¬ row.Covers i :=
        fun row hrow hi => hcovered ⟨row, hrow, hi⟩
      rw [h.rest i hword hsize hnone, hother.rest i hword hsize hnone]
  · rw [List.getElem?_eq_none (h.length.trans_le hsize),
      List.getElem?_eq_none (hother.length.trans_le hsize)]

theorem Sound.ready (hlayout : layout.Sound)
    (hthere : ∀ row ∈ layout.rows, (sections row.holder).isSome) (slot : UInt16) :
    ∀ row ∈ layout.rows, row.Ready sections (blankPayload layout.size slot).length := by
  rw [length_blankPayload hlayout.fits.1 slot]
  exact fun row hrow => ⟨hlayout.below row hrow, hthere row hrow, hlayout.fits.2 row hrow⟩

/-- A layout that can be filled is filled with the one payload that holds what the sections say. -/
theorem fill_eq_ok_iff (hlayout : layout.Sound)
    (hthere : ∀ row ∈ layout.rows, (sections row.holder).isSome) :
    fill sections layout.rows (blankPayload layout.size slot) = .ok payload ↔
      layout.Holds sections slot payload := by
  have hblank := length_blankPayload hlayout.fits.1 slot
  have hready := hlayout.ready hthere slot
  have hholds : ∀ {written},
      fill sections layout.rows (blankPayload layout.size slot) = .ok written →
        layout.Holds sections slot written := by
    intro written h
    constructor
    case length => rw [length_fill h fun row hrow => (hready row hrow).fits, hblank]
    case slot =>
      rw [← slice_blankPayload layout.size slot]
      apply Octets.slice_congr
      intro i _ hi
      exact getElem?_fill_of_uncovered hready h fun row hrow hcovers =>
        Nat.not_lt.mpr (Nat.le_trans (hlayout.behind row hrow) hcovers.1) hi
    case fields => exact fun row hrow => slice_fill_of_mem hready hlayout.separate h hrow
    case rest =>
      intro i hi hsize hnone
      rw [getElem?_fill_of_uncovered hready h hnone, getElem?_blankPayload hi hsize]
  refine ⟨hholds, fun h => ?_⟩
  -- What is held can be written, and what is then written is the same: only one payload is held.
  obtain ⟨written, hwritten⟩ := (exists_fill_iff hready).mpr fun row hrow =>
    have ⟨raw, hraw, hbytes⟩ := h.fields row hrow
    ⟨raw, _, hraw, hbytes⟩
  rw [hwritten, (hholds hwritten).unique h]

/-- A layout makes the frame whose payload holds what the sections say, and no other. -/
theorem frame?_eq_some_iff (hlayout : layout.Sound) {f : Frame} :
    layout.frame? sections slot = .ok (some f) ↔
      ∃ payload, layout.Holds sections slot payload ∧
        f = .carrying layout.command (slotAddress slot) payload := by
  unfold frame?
  constructor
  · intro h
    split at h
    next hthere =>
      obtain ⟨payload, hpayload, h⟩ := bind_eq_ok.mp h
      have hholds := (fill_eq_ok_iff hlayout (List.all_eq_true.mp hthere)).mp hpayload
      exact ⟨payload, hholds, (Option.some.inj (pure_eq_ok.mp h)).symm⟩
    next => cases h
  · rintro ⟨payload, hholds, rfl⟩
    rw [if_pos (List.all_eq_true.mpr hholds.isSome),
      (fill_eq_ok_iff hlayout hholds.isSome).mpr hholds]
    rfl

/-- There is a frame exactly if every field can be read from its section. -/
theorem exists_frame?_iff (hlayout : layout.Sound) :
    (∃ f, layout.frame? sections slot = .ok (some f)) ↔
      ∀ row ∈ layout.rows, ∃ part bytes, sections row.holder = some part ∧
        row.encode part = .ok bytes := by
  constructor
  · rintro ⟨f, h⟩ row hrow
    obtain ⟨payload, hholds, -⟩ := (frame?_eq_some_iff hlayout).mp h
    obtain ⟨part, hpart, hencode⟩ :=
      (FieldRow.exists_text?_iff (hlayout.below row hrow)).mp (hholds.fields row hrow)
    exact ⟨part, _, hpart, hencode⟩
  · intro h
    have hthere : ∀ row ∈ layout.rows, (sections row.holder).isSome := by
      intro row hrow
      obtain ⟨part, -, hpart, -⟩ := h row hrow
      exact Option.isSome_of_eq_some hpart
    have hfields : ∀ row ∈ layout.rows, ∃ raw bytes, row.text? sections = some raw ∧
        row.serialize? raw = some bytes := by
      intro row hrow
      obtain ⟨part, bytes, hread⟩ := h row hrow
      obtain ⟨raw, hraw⟩ := (FieldRow.exists_text?_iff (hlayout.below row hrow)).mpr ⟨part, hread⟩
      exact ⟨raw, bytes, hraw⟩
    obtain ⟨payload, hpayload⟩ := (exists_fill_iff (hlayout.ready hthere slot)).mpr hfields
    have hholds := (fill_eq_ok_iff hlayout hthere).mp hpayload
    exact ⟨_, (frame?_eq_some_iff hlayout).mpr ⟨payload, hholds, rfl⟩⟩

end

end FrameLayout
end MotionRack
