import MotionRack.Device.Card
import MotionRack.Proofs.Config.Collision
import MotionRack.Proofs.Device.Shutters
import MotionRack.Proofs.Device.Stage

/-!
# Cards that were read

A card that was read sits in a slot, and whatever describes the device behind it was read
for that slot. So the cards of a rack can always be compiled, and so can their devices.
-/
namespace MotionRack

theorem StageParameters.IsFrameOf.checked {slot : UInt16} {f : Frame} (h : IsFrameOf slot f) :
    f.Checked := by
  obtain ⟨command, size, hmem, payload, hsize, rfl⟩ := h
  have hlimit : ∀ entry ∈ frameSizes, entry.2 ≤ maxPayload := by decide
  exact Frame.checked_carrying (hsize ▸ hlimit (command, size) hmem)

/-! ### Devices behind cards -/

namespace CustomConfig

/-- Whether a description was read for a slot. -/
def ReadFor (slot : UInt16) : CustomConfig → Prop
  | stage s => s.slot = slot ∧ ∀ f ∈ s.frames, StageParameters.IsFrameOf slot f
  | flipper g => g.slot = slot ∧ ∀ s ∈ g.shutters, s.slot = slot

/-- The slots that a description names. -/
def slots : CustomConfig → List UInt16
  | stage s => [s.slot]
  | flipper g => g.slot :: g.shutters.map (·.slot)

theorem readFor_of_ofElement {slot : UInt16} {e : Element} {c : CustomConfig}
    (h : ofElement slot e = .ok c) : c.ReadFor slot := by
  unfold ofElement at h
  split at h
  next inner _ =>
    split at h
    next =>
      obtain ⟨s, hs, rfl⟩ := map_eq_ok.mp h
      obtain ⟨hslot, _, hframes⟩ := StageParameters.ofElement_eq_ok hs
      exact ⟨hslot, hframes⟩
    next =>
      split at h
      next =>
        obtain ⟨g, hg, rfl⟩ := map_eq_ok.mp h
        obtain ⟨-, rfl⟩ := FlipperGroup.ofElement_eq_ok.mp hg
        exact ⟨rfl, List.forall_mem_map.mpr fun _ _ => rfl⟩
      next => cases h
  next => cases h

theorem ReadFor.eq_of_mem_slots {slot : UInt16} {c : CustomConfig} (h : c.ReadFor slot) :
    ∀ s ∈ c.slots, s = slot := by
  cases c with
  | stage s => exact List.forall_mem_singleton.mpr h.1
  | flipper g =>
    obtain ⟨hslot, hshutters⟩ := h
    exact List.forall_mem_cons.mpr ⟨hslot, List.forall_mem_map.mpr hshutters⟩

theorem ReadFor.checked_compile {slot : UInt16} {c : CustomConfig} (h : c.ReadFor slot)
    (persist : Bool) : ∀ f ∈ c.compile persist, f.Checked := by
  cases c with
  | stage s => exact Commit.checked_append (fun f hf => (h.2 f hf).checked) persist _ _
  | flipper g =>
    intro f hf
    obtain ⟨s, _, hs⟩ := List.mem_flatMap.mp hf
    exact s.checked_compile persist f hs

end CustomConfig

/-! ### Cards -/

namespace Card

/-- What holds of a card that was read: it sits in a slot, and the device behind it too. -/
structure Sound (c : Card) : Prop where
  inRange : Address.IsSlotNumber c.slot
  readFor : ∀ d ∈ c.custom, d.ReadFor c.slot

/-- A card is read exactly if its slot and its type are numbers, the slot is one, and every
description of a device can be read for it. -/
theorem ofElement_eq_ok {next : UInt16} {e : Element} {c : Card} :
    ofElement next e = .ok c ↔
      ∃ named cardType customs, Attribute.u16? e "slot" = .ok named ∧
        Address.IsSlotNumber (named.getD next) ∧ Attribute.u16 e "type" = .ok cardType ∧
        (e.childrenNamed "CustomConfig").mapM (CustomConfig.ofElement (named.getD next)) =
          .ok customs ∧
        c = {
          slot := named.getD next
          cardType := cardType
          isStatic := e.attr? "static" == some "1"
          deviceDetect := match e.attr? "device-detect" with
            | some v => Fold.agrees v.toList "true".toList
            | none => true
          custom := customs.getLast? } := by
  unfold ofElement
  rw [bind_eq_ok]
  constructor
  · rintro ⟨named, hnamed, h⟩
    by_cases hslot : Address.IsSlotNumber (named.getD next)
    · simp only [hslot, not_true_eq_false, if_false] at h
      obtain ⟨cardType, htype, h⟩ := bind_eq_ok.mp h
      obtain ⟨customs, hcustoms, h⟩ := bind_eq_ok.mp h
      exact ⟨named, cardType, customs, hnamed, hslot, htype, hcustoms, (pure_eq_ok.mp h).symm⟩
    · simp only [hslot, not_false_eq_true, if_true] at h
      cases h
  · rintro ⟨named, cardType, customs, hnamed, hslot, htype, hcustoms, rfl⟩
    refine ⟨named, hnamed, ?_⟩
    simp only [hslot, not_true_eq_false, if_false]
    exact bind_eq_ok.mpr ⟨cardType, htype, bind_eq_ok.mpr ⟨customs, hcustoms, rfl⟩⟩

/-- A card that was read sits in a slot, and of its descriptions the last was read for this slot. -/
theorem custom_of_ofElement {next : UInt16} {e : Element} {c : Card}
    (h : ofElement next e = .ok c) :
    Address.IsSlotNumber c.slot ∧
      (e.childrenNamed "CustomConfig").getLast?.mapM (CustomConfig.ofElement c.slot) =
        .ok c.custom := by
  obtain ⟨named, cardType, customs, -, hslot, -, hcustoms, rfl⟩ := ofElement_eq_ok.mp h
  exact ⟨hslot, getLast?_of_mapM hcustoms⟩

theorem sound_of_ofElement {next : UInt16} {e : Element} {c : Card} (h : ofElement next e = .ok c) :
    c.Sound := by
  obtain ⟨hslot, hcustom⟩ := custom_of_ofElement h
  refine ⟨hslot, fun d hd => ?_⟩
  obtain ⟨inner, _, hread⟩ := mapM_option_eq_ok hcustom hd
  exact CustomConfig.readFor_of_ofElement hread

theorem ofElements_cons_eq_ok {next : UInt16} {e : Element} {es : List Element}
    {cards : List Card} :
    ofElements next (e :: es) = .ok cards ↔
      ∃ c rest, ofElement next e = .ok c ∧ ofElements (c.slot + 1) es = .ok rest ∧
        cards = c :: rest := by
  rw [ofElements, bind_eq_ok]
  constructor
  · rintro ⟨c, hc, h⟩
    obtain ⟨rest, hrest, h⟩ := bind_eq_ok.mp h
    exact ⟨c, rest, hc, hrest, (pure_eq_ok.mp h).symm⟩
  · rintro ⟨c, rest, hc, hrest, rfl⟩
    exact ⟨c, hc, bind_eq_ok.mpr ⟨rest, hrest, rfl⟩⟩

theorem getElem?_ofElements {next : UInt16} {elements : List Element} {cards : List Card}
    (h : ofElements next elements = .ok cards) {rank : Nat} {e : Element}
    (he : elements[rank]? = some e) :
    ∃ number c, cards[rank]? = some c ∧ ofElement number e = .ok c := by
  induction elements generalizing next cards rank with
  | nil => cases he
  | cons first elements ih =>
    obtain ⟨c, rest, hc, hrest, rfl⟩ := ofElements_cons_eq_ok.mp h
    cases rank with
    | zero =>
      obtain rfl : first = e := Option.some.inj he
      exact ⟨next, c, rfl, hc⟩
    | succ rank => exact ih hrest he

theorem sound_of_ofElements {next : UInt16} {elements : List Element} {cards : List Card}
    (h : ofElements next elements = .ok cards) : ∀ c ∈ cards, c.Sound :=
  forall_of_numbered ofElements ofElement (fun _ c => c.slot + 1) (fun _ => rfl)
    (fun _ _ _ => rfl) (fun _ _ _ => sound_of_ofElement) h

theorem checked_typeFrame (c : Card) : c.typeFrame.Checked := Frame.checked_words (by decide)

theorem checked_detectionFrame (c : Card) : c.detectionFrame.Checked :=
  Frame.checked_carrying (by decide : 3 ≤ maxPayload)

end Card

namespace Settings

/-- The slots of the cards and of the devices behind them. -/
def slots (s : Settings) : List UInt16 :=
  s.cards.flatMap fun c => c.slot :: c.custom.toList.flatMap CustomConfig.slots

/-- What holds of the cards of a rack that was read. -/
def Sound (s : Settings) : Prop := ∀ c ∈ s.cards, c.Sound

/-- The cards of a rack are read in order, and no two of them sit in one slot. -/
theorem cards_of_ofElement {e : Element} {s : Settings} (h : ofElement e = .ok s) :
    Card.ofElements 1 (e.childrenNamed "Card") = .ok s.cards ∧
      s.cards.Pairwise fun c d => c.slot ≠ d.slot := by
  unfold ofElement at h
  obtain ⟨cards, hcards, h⟩ := bind_eq_ok.mp h
  split at h
  next kept hkept =>
    obtain rfl := pure_eq_ok.mp h
    obtain rfl := Collision.unique_eq_ok hkept
    exact ⟨hcards, (Collision.pairwise_of_unique hkept).imp fun hapart => by
      simpa [Card.collides] using hapart⟩
  next => cases h

theorem find?_of_inRange {s : Settings} (h : ∀ c ∈ s.cards, Address.IsSlotNumber c.slot) :
    (s.cards.find? fun c => ¬ Address.IsSlotNumber c.slot) = none := by
  rw [List.find?_eq_none]
  intro c hc
  simp [h c hc]

/-- Cards that all sit in slots can be compiled. -/
theorem compile_of_inRange {s : Settings} (h : ∀ c ∈ s.cards, Address.IsSlotNumber c.slot) :
    s.compile = .ok (s.cards.map Card.typeFrame ++ s.cards.map Card.detectionFrame) := by
  rw [compile, find?_of_inRange h]

theorem sound_of_ofElement {e : Element} {s : Settings} (h : ofElement e = .ok s) : s.Sound :=
  Card.sound_of_ofElements (cards_of_ofElement h).1

namespace Sound

variable {s : Settings}

theorem isSlotNumber (h : s.Sound) : ∀ slot ∈ s.slots, Address.IsSlotNumber slot := by
  intro slot hslot
  obtain ⟨c, hc, hslot⟩ := List.mem_flatMap.mp hslot
  have hcard := h c hc
  rcases List.mem_cons.mp hslot with rfl | hslot
  · exact hcard.inRange
  · obtain ⟨d, hd, hslot⟩ := List.mem_flatMap.mp hslot
    have hread := hcard.readFor d (Option.mem_toList.mp hd)
    rw [hread.eq_of_mem_slots slot hslot]
    exact hcard.inRange

/-- Cards that were read can be compiled. -/
theorem compile_eq_ok (h : s.Sound) :
    s.compile = .ok (s.cards.map Card.typeFrame ++ s.cards.map Card.detectionFrame) :=
  compile_of_inRange fun c hc => (h c hc).inRange

theorem checked_compileCustoms (h : s.Sound) (persist : Bool) :
    ∀ f ∈ s.compileCustoms persist, f.Checked := by
  intro f hf
  obtain ⟨d, hd, hf⟩ := List.mem_flatMap.mp hf
  obtain ⟨c, hc, hcustom⟩ := List.mem_filterMap.mp hd
  exact ((h c hc).readFor d hcustom).checked_compile persist f hf

end Sound

theorem checked_compile {s : Settings} {frames : List Frame} (h : s.compile = .ok frames) :
    ∀ f ∈ frames, f.Checked := by
  unfold compile at h
  split at h
  next => cases h
  next =>
    cases h
    rw [List.forall_mem_append, List.forall_mem_map, List.forall_mem_map]
    exact ⟨fun c _ => c.checked_typeFrame, fun c _ => c.checked_detectionFrame⟩

end Settings
end MotionRack
