import MotionRack.Device.AllowedDevices
import MotionRack.Device.Card
import MotionRack.Device.Joystick
import MotionRack.Proofs.Document.Bare

/-!
# Devices, wherever they are described

No reader of a device looks at the place or the origin of an element but to name it in an error.
So each reads the same from an element as from what is left of it without them, or fails on both.
-/
namespace MotionRack

/-! ### Joysticks -/

namespace TargetControl

theorem toOption_withChild (t : TargetControl) (c : Element) :
    (t.withChild c.bare).toOption = (t.withChild c).toOption := by
  simp only [withChild, Element.name_bare]
  split_ifs <;> simp (disch := decide)

@[simp] theorem toOption_ofElement (e : Element) :
    (ofElement e.bare).toOption = (ofElement e).toOption := by
  simp only [ofElement, Element.children_bare, Element.toOption_foldlM_bare toOption_withChild]

end TargetControl

namespace Dispatcher

theorem toOption_withChild (d : Dispatcher) (c : Element) :
    (d.withChild c.bare).toOption = (d.withChild c).toOption := by
  simp only [withChild, Element.name_bare]
  split_ifs <;> simp (disch := decide)

@[simp] theorem toOption_ofElement (e : Element) :
    (ofElement e.bare).toOption = (ofElement e).toOption := by
  simp only [ofElement, Element.children_bare, Element.toOption_foldlM_bare toOption_withChild]

end Dispatcher

@[simp] theorem Attribute.toOption_numbered (next : UInt8) (e : Element) {key : String}
    (h : key ≠ Expansion.sourceKey) :
    (numbered next e.bare key).toOption = (numbered next e key).toOption := by
  simp [numbered, h]

namespace InMap

theorem toOption_withChild (m : InMap) (c : Element) :
    (m.withChild c.bare).toOption = (m.withChild c).toOption := by
  simp only [withChild, Element.name_bare]
  split_ifs <;> simp (disch := decide)

@[simp] theorem toOption_ofElement (next : UInt8) (e : Element) :
    (ofElement next e.bare).toOption = (ofElement next e).toOption := by
  simp (disch := decide) [ofElement, Element.toOption_foldlM_bare toOption_withChild]

end InMap

@[simp] theorem Colours.toOption_position (cs : Colours) (next : Nat) (c : Element) :
    (cs.position next c.bare).toOption = (cs.position next c).toOption := by
  refine toOption_bind_congr (Attribute.toOption_u8? c (by decide)) fun number => ?_
  cases number with
  | none => rfl
  | some number => simp

namespace OutMap

theorem toOption_withChild (p : Partial) (c : Element) :
    (withChild p c.bare).toOption = (withChild p c).toOption := by
  simp only [withChild, Element.name_bare]
  split_ifs <;> simp (disch := decide)

@[simp] theorem toOption_ofElement (next : UInt8) (e : Element) :
    (ofElement next e.bare).toOption = (ofElement next e).toOption := by
  simp (disch := decide) [ofElement, Element.toOption_foldlM_bare toOption_withChild]

end OutMap

namespace JoystickPort

theorem toOption_withControl (s : Controls) (c : Element) :
    (withControl s c.bare).toOption = (withControl s c).toOption := by
  simp only [withControl, Element.name_bare]
  split_ifs <;> simp

@[simp] theorem toOption_withJoystick (p : JoystickPort) (e : Element) :
    (p.withJoystick e.bare).toOption = (p.withJoystick e).toOption := by
  unfold withJoystick
  rw [Element.children_bare]
  refine toOption_bind_congr (Element.toOption_foldlM_bare toOption_withControl _ _) fun s => ?_
  cases Collision.unique InMap.collides s.inMaps with
  | error c => rfl
  | ok inMaps => cases Collision.unique OutMap.collides s.outMaps <;> rfl

theorem toOption_ofJoystick (e : Element) (index : UInt8) :
    (ofJoystick e.bare index).toOption = (ofJoystick e index).toOption :=
  toOption_withJoystick _ e

theorem toOption_withChild (p : JoystickPort) (c : Element) :
    (p.withChild c.bare).toOption = (p.withChild c).toOption := by
  simp only [withChild, Element.name_bare, Element.attr?_bare c (by decide : "value" ≠ _)]
  split_ifs <;> simp

@[simp] theorem toOption_ofElement (next : UInt8) (e : Element) :
    (ofElement next e.bare).toOption = (ofElement next e).toOption := by
  simp (disch := decide) [ofElement, Element.toOption_foldlM_bare toOption_withChild]

theorem toOption_ofElements (next : UInt8) (es : List Element) :
    (ofElements next (es.map Element.bare)).toOption = (ofElements next es).toOption := by
  induction es generalizing next with
  | nil => rfl
  | cons e es ih => simp [ofElements, ih]

end JoystickPort

@[simp] theorem Joysticks.toOption_ofElement (e : Element) :
    (ofElement e.bare).toOption = (ofElement e).toOption := by
  unfold ofElement
  rw [Element.childrenNamed_bare]
  refine toOption_bind_congr (JoystickPort.toOption_ofElements 0 _) fun ports => ?_
  cases Collision.unique JoystickPort.collides ports <;> rfl

/-! ### Stages -/

namespace Field

@[simp] theorem toOption_encodeText (e : Element) (field raw : String) (kind : FieldKind)
    (width : Nat) : (encodeText e.bare field raw kind width).toOption =
      (encodeText e field raw kind width).toOption := by
  unfold encodeText
  cases naturalBytes? kind raw with
  | none => rfl
  | some found => simp

variable (e : Element) {key : String} (h : key ≠ Expansion.sourceKey)

include h

@[simp] theorem toOption_encode (kind : FieldKind) (width : Nat) :
    (encode e.bare key kind width).toOption = (encode e key kind width).toOption := by
  simp [encode, h]

@[simp] theorem toOption_encodeScaled (factor width : Nat) :
    (encodeScaled e.bare key factor width).toOption =
      (encodeScaled e key factor width).toOption := by
  simp [encodeScaled, h]

end Field

/-- Whether a row reads nothing of a section but what is below it, and not where that comes
from. -/
def FieldRow.ReadsBelow (row : FieldRow) : Prop :=
  (Element.Query.parse row.query).IsBelow ∧ row.key ≠ Expansion.sourceKey

instance : DecidablePred FieldRow.ReadsBelow := fun _ => inferInstanceAs (Decidable (_ ∧ _))

theorem FieldRow.toOption_encode {row : FieldRow} (h : row.ReadsBelow) (part : Element) :
    (row.encode part.inner).toOption = (row.encode part).toOption := by
  unfold encode
  rw [Element.select?_inner part h.1]
  cases part.select? row.query with
  | none => rfl
  | some node =>
    dsimp only [Option.map_some]
    cases row.form <;> simp [h.2]

namespace Sections

/-- Sections without places and origins. -/
def bare (sections : Sections) : Sections := fun id => (sections id).map Element.bare

theorem ofElement_bare (e : Element) : ofElement e.bare = (ofElement e).bare := by
  funext id
  exact Element.child?_bare e id.elementName

/-- What the sections hold, without the names and attributes of the sections. -/
def inner (sections : Sections) : Sections := fun id => (sections id).map Element.inner

theorem inner_bare (sections : Sections) : sections.bare.inner = sections.inner := by
  funext id
  rw [inner, bare, inner, Option.map_map]
  exact congrArg (Option.map · (sections id)) (funext Element.inner_bare)

end Sections

namespace FrameLayout

theorem toOption_fill {rows : List FieldRow} (h : ∀ row ∈ rows, row.ReadsBelow)
    (sections : Sections) (image : Octets) :
    (fill sections.inner rows image).toOption = (fill sections rows image).toOption := by
  induction rows generalizing image with
  | nil => rfl
  | cons row rest ih =>
    obtain ⟨hrow, hrest⟩ := List.forall_mem_cons.mp h
    rw [fill, fill, Sections.inner]
    cases sections row.holder with
    | none => exact ih hrest image
    | some part => simp [FieldRow.toOption_encode hrow, ih hrest]

theorem toOption_frame? {layout : FrameLayout} (h : ∀ row ∈ layout.rows, row.ReadsBelow)
    (sections : Sections) (slot : UInt16) :
    (layout.frame? sections.inner slot).toOption = (layout.frame? sections slot).toOption := by
  have hthere : ∀ id, (sections.inner id).isSome = (sections id).isSome := by
    simp [Sections.inner]
  simp only [frame?, hthere, toOption_ite, toOption_bind, toOption_fill h]

end FrameLayout

namespace Stage

theorem readsBelow_layouts : ∀ layout ∈ layouts, ∀ row ∈ layout.rows, row.ReadsBelow := by decide

@[simp] theorem toOption_positionCell (next : Nat) (e : Element) :
    (positionCell next e.bare).toOption = (positionCell next e).toOption := by
  unfold positionCell
  rw [Element.attr?_bare e (by decide)]
  cases e.attr? "index" <;> simp

theorem toOption_fillPositions (next : Nat) (es : List Element) (image : Octets) :
    (fillPositions next (es.map Element.bare) image).toOption =
      (fillPositions next es image).toOption := by
  induction es generalizing next image with
  | nil => rfl
  | cons e es ih => simp (disch := decide) [fillPositions, ih]

@[simp] theorem toOption_positionsFrame (store : Element) (slot : UInt16) :
    (positionsFrame store.inner slot).toOption = (positionsFrame store slot).toOption := by
  simp [positionsFrame, toOption_fillPositions]

end Stage

namespace StageParameters

theorem resolution?_inner (sections : Sections) :
    resolution? sections.inner = resolution? sections := by
  unfold resolution? Sections.inner
  cases sections .encoder with
  | none => rfl
  | some encoder =>
    cases hchild : encoder.child? "NmPerCount" with
    | none => simp [hchild]
    | some c => simp (disch := decide) [hchild, Element.attr?_bare]

theorem toOption_layoutFrames {layouts : List FrameLayout}
    (h : ∀ layout ∈ layouts, ∀ row ∈ layout.rows, row.ReadsBelow) (sections : Sections)
    (slot : UInt16) : (layoutFrames sections.inner slot layouts).toOption =
      (layoutFrames sections slot layouts).toOption := by
  induction layouts with
  | nil => rfl
  | cons layout rest ih =>
    obtain ⟨hlayout, hrest⟩ := List.forall_mem_cons.mp h
    simp [layoutFrames, FrameLayout.toOption_frame? hlayout, ih hrest]

/-- A stage is read from what its sections hold. -/
theorem toOption_ofSections (sections : Sections) (slot : UInt16) :
    (ofSections sections.inner slot).toOption = (ofSections sections slot).toOption := by
  simp only [ofSections, toOption_ite, toOption_bind,
    toOption_layoutFrames Stage.readsBelow_layouts, resolution?_inner]
  cases hstore : sections .store <;> simp [hstore, Sections.inner]

@[simp] theorem toOption_ofElement (e : Element) (slot : UInt16) :
    (ofElement e.bare slot).toOption = (ofElement e slot).toOption := by
  rw [ofElement, ofElement, Sections.ofElement_bare, ← toOption_ofSections, Sections.inner_bare,
    toOption_ofSections]

end StageParameters

/-! ### Shutters -/

namespace ShutterParams

@[simp] theorem toOption_word {α : Type} (e : Element) (name : String)
    (read : String → Option α) :
    (word e.bare name read).toOption = (word e name read).toOption := by
  refine Attribute.toOption_child_bind e name fun c => ?_
  refine toOption_bind_congr (Attribute.toOption_text c (by decide)) fun raw => ?_
  cases read raw <;> rfl

@[simp] theorem toOption_number (e : Element) (name : String) :
    (number e.bare name).toOption = (number e name).toOption := by
  refine Attribute.toOption_child_bind e name fun c => ?_
  simp (disch := decide)

@[simp] theorem toOption_duty (e : Element) (name : String) :
    (duty e.bare name).toOption = (duty e name).toOption := by
  simp [duty]

@[simp] theorem toOption_span (e : Element) (name : String) (x : Binary) :
    (span e.bare name x).toOption = (span e name x).toOption := by
  unfold span
  cases Duration.ofSeconds? x <;> rfl

@[simp] theorem toOption_ofElement (e : Element) :
    (ofElement e.bare).toOption = (ofElement e).toOption := by
  unfold ofElement
  refine toOption_bind_congr (toOption_word e _ _) fun powerUp => ?_
  refine toOption_bind_congr (toOption_word e _ _) fun trigger => ?_
  refine toOption_bind_congr (toOption_word e _ _) fun drive => ?_
  refine toOption_bind_congr (toOption_number e _) fun onTime => ?_
  by_cases honTime : onTime.le (whole 0) = true
  · rw [if_pos honTime, if_pos honTime]
    rfl
  · rw [if_neg honTime, if_neg honTime]
    refine toOption_bind_congr (toOption_duty e _) fun pulseDuty => ?_
    refine toOption_bind_congr (toOption_duty e _) fun holdDuty => ?_
    -- The two settings that may be missing are there in both descriptions or in neither.
    rw [Element.child?_bare, Element.child?_bare]
    cases e.child? "OpenUsesNegativeVoltage" <;> cases e.child? "HoldoffTimeSeconds" <;>
      simp (disch := decide)

end ShutterParams

namespace ShutterChannel

/-- A channel is left unconfigured whatever the error of its description is. -/
theorem params?_eq (e : Element) :
    params? e = (ShutterParams.ofElement e).toOption.filter (·.onTimeTicks?.isSome) := by
  unfold params?
  cases ShutterParams.ofElement e <;> simp [Option.filter]

@[simp] theorem toOption_ofElement (e : Element) (slot channel : UInt16) :
    (ofElement e.bare slot channel).toOption = (ofElement e slot channel).toOption := by
  simp [ofElement, params?_eq]

end ShutterChannel

namespace FlipperGroup

@[simp] theorem toOption_shutter (slot position : UInt16) (e : Element) :
    (shutter slot position e.bare).toOption = (shutter slot position e).toOption := by
  unfold shutter
  rw [Element.attr?_bare e (by decide)]
  cases e.attr? "version" <;> simp (disch := decide)

theorem toOption_shuttersFrom (slot position : UInt16) (es : List Element) :
    (shuttersFrom slot position (es.map Element.bare)).toOption =
      (shuttersFrom slot position es).toOption := by
  induction es generalizing position with
  | nil => rfl
  | cons e es ih => simp [shuttersFrom, ih]

@[simp] theorem toOption_ofElement (e : Element) (slot : UInt16) :
    (ofElement e.bare slot).toOption = (ofElement e slot).toOption := by
  simp [ofElement, toOption_shuttersFrom]

end FlipperGroup

/-! ### Cards -/

@[simp] theorem CustomConfig.toOption_ofElement (slot : UInt16) (e : Element) :
    (ofElement slot e.bare).toOption = (ofElement slot e).toOption := by
  unfold ofElement
  rw [Element.children_bare]
  match e.children with
  | [] => rfl
  | [inner] => simp
  | _ :: _ :: _ => rfl

namespace Card

@[simp] theorem toOption_ofElement (next : UInt16) (e : Element) :
    (ofElement next e.bare).toOption = (ofElement next e).toOption := by
  have hcustoms : ∀ (slot : UInt16) (es : List Element),
      (es.mapM (CustomConfig.ofElement slot ∘ Element.bare)).toOption =
        (es.mapM (CustomConfig.ofElement slot)).toOption :=
    fun slot es => toOption_mapM_congr (CustomConfig.toOption_ofElement slot) es
  unfold ofElement
  rw [Element.attr?_bare e (by decide), Element.attr?_bare e (by decide)]
  simp (disch := decide) [hcustoms]

theorem toOption_ofElements (next : UInt16) (es : List Element) :
    (ofElements next (es.map Element.bare)).toOption = (ofElements next es).toOption := by
  induction es generalizing next with
  | nil => rfl
  | cons e es ih => simp [ofElements, ih]

end Card

@[simp] theorem Settings.toOption_ofElement (e : Element) :
    (ofElement e.bare).toOption = (ofElement e).toOption := by
  unfold ofElement
  rw [Element.childrenNamed_bare]
  refine toOption_bind_congr (Card.toOption_ofElements 1 _) fun cards => ?_
  cases Collision.unique Card.collides cards <;> rfl

/-! ### Allow lists and locks -/

namespace Signature

theorem toOption_withChild (s : Signature) (c : Element) :
    (s.withChild c.bare).toOption = (s.withChild c).toOption := by
  simp only [withChild, Element.name_bare]
  split_ifs <;> simp (disch := decide)

@[simp] theorem toOption_ofElement (e : Element) :
    (ofElement e.bare).toOption = (ofElement e).toOption := by
  simp only [ofElement, Element.children_bare, Element.toOption_foldlM_bare toOption_withChild]

end Signature

@[simp] theorem Attribute.toOption_slot (e : Element) :
    (Attribute.slot e.bare).toOption = (Attribute.slot e).toOption := by
  simp (disch := decide) [Attribute.slot]

namespace AllowedDevice

theorem toOption_withChild (d : Signature × List UInt16) (c : Element) :
    (withChild d c.bare).toOption = (withChild d c).toOption := by
  simp only [withChild, Element.name_bare]
  split_ifs <;> simp

@[simp] theorem toOption_ofElement (e : Element) :
    (ofElement e.bare).toOption = (ofElement e).toOption := by
  simp [ofElement, Element.toOption_foldlM_bare toOption_withChild]

end AllowedDevice

@[simp] theorem DeviceLock.toOption_ofElement (e : Element) :
    (ofElement e.bare).toOption = (ofElement e).toOption := by
  unfold ofElement
  rw [Element.attr?_bare e (by decide)]
  simp (disch := decide)

namespace AllowedDevices

theorem toOption_withChild (a : AllowedDevices) (c : Element) :
    (a.withChild c.bare).toOption = (a.withChild c).toOption := by
  simp only [withChild, Element.name_bare]
  split_ifs <;> simp

@[simp] theorem toOption_ofElement (e : Element) :
    (ofElement e.bare).toOption = (ofElement e).toOption := by
  unfold ofElement
  rw [Element.children_bare]
  refine toOption_bind_congr (Element.toOption_foldlM_bare toOption_withChild _ _)
    fun declared => ?_
  cases Collision.union AllowedDevice.collides AllowedDevice.merge declared.devices with
  | error c => rfl
  | ok devices => cases Collision.unique DeviceLock.collides declared.locks <;> rfl

end AllowedDevices
end MotionRack
