import MotionRack.Proofs.Bus.Frame
import MotionRack.Proofs.Device.Card

/-!
# Card frames that are read back

Two frames tell the controller of a card: its type, and whether a device is to be looked for behind
it. Both name the slot by its index, which is one less than its number. Cards that were put
together by hand may sit in no slot, or several in one; what is sent for them is told here for every
list of cards.
-/
namespace MotionRack

/-- What the controller is told about the card in a slot, which is counted from zero. -/
inductive CardNotice
  | cardType (index word : Nat)
  | detection (index : Nat) (wanted : Bool)
  deriving DecidableEq, Repr

namespace CardNotice

/-- Reads what a payload tells: the slot as a word, and behind it the type, or a flag. -/
def ofPayload? (command : CommandId) (payload : Octets) : Option CardNotice :=
  match payload with
  | [i0, i1, t0, t1] =>
    if command = Command.setCardType then
      some (.cardType (Octets.toNat [i0, i1]) (Octets.toNat [t0, t1]))
    else none
  | [i0, i1, flag] =>
    if command = Command.setDeviceDetection ∧ (flag = 0 ∨ flag = 1) then
      some (.detection (Octets.toNat [i0, i1]) (flag = 1))
    else none
  | _ => none

/-- Reads a notice from the byte form of a frame to the controller. -/
def ofBytes? (bytes : Octets) : Option CardNotice :=
  match Frame.decode bytes with
  | .ok f =>
    if f.destination = .motherboard ∧ f.isExtended then ofPayload? f.command f.payload else none
  | .error _ => none

theorem ofBytes?_encode {command : CommandId} {payload : Octets}
    (h : payload.length ≤ maxPayload) :
    ofBytes? (Frame.carrying command .motherboard payload).encode = ofPayload? command payload :=
  Frame.told?_encode_carrying h

end CardNotice

namespace Card

variable {c : Card}

theorem read_typeFrame (h : Address.IsSlotNumber c.slot) :
    CardNotice.ofBytes? c.typeFrame.encode =
      some (.cardType (c.slot.toNat - 1) c.typeWord.toNat) := by
  have hindex : c.index.toNat = c.slot.toNat - 1 := Nat.eq_sub_of_add_eq h.toNat_pred
  have hslot : Octets.toNat (Octets.ofNat 2 c.index.toNat) = c.slot.toNat - 1 := by
    rw [Octets.toNat_ofNat_two c.index.toNat_lt, hindex]
  have hword : Octets.toNat (Octets.ofNat 2 c.typeWord.toNat) = c.typeWord.toNat :=
    Octets.toNat_ofNat_two c.typeWord.toNat_lt
  rw [typeFrame, CardNotice.ofBytes?_encode (by simp [maxPayload]), ← hslot]
  conv_rhs => rw [← hword]
  rfl

theorem read_detectionFrame (h : Address.IsSlotNumber c.slot) :
    CardNotice.ofBytes? c.detectionFrame.encode =
      some (.detection (c.slot.toNat - 1) c.deviceDetect) := by
  have hindex : c.index.toUInt8.toNat = c.slot.toNat - 1 := Nat.eq_sub_of_add_eq h.toNat_index
  have hslot : Octets.toNat [c.index.toUInt8, 0] = c.slot.toNat - 1 := hindex
  rw [detectionFrame, CardNotice.ofBytes?_encode (by simp [maxPayload]), ← hslot]
  cases c.deviceDetect <;> rfl

theorem testBit_typeWord (c : Card) (k : Nat) :
    c.typeWord.toNat.testBit k = (c.cardType.toNat.testBit k || c.isStatic && decide (k = 15)) := by
  have hflag : (0x8000 : UInt16).toNat = 2 ^ 15 := rfl
  rw [typeWord]
  cases c.isStatic with
  | false => simp
  | true =>
    have hside : decide (15 = k) = decide (k = 15) := decide_eq_decide.mpr eq_comm
    rw [if_pos rfl, UInt16.toNat_or, Nat.testBit_or, hflag, Nat.testBit_two_pow, hside,
      Bool.true_and]

/-! ### The index without a wrap -/

/-- The slot counted from zero, unless that would be below zero. -/
def index? (c : Card) : Option UInt16 := if 1 ≤ c.slot then some (c.slot - 1) else none

def typeFrame? (c : Card) : Option Frame :=
  c.index?.map fun index => .carrying Command.setCardType .motherboard
    (Octets.ofNat 2 index.toNat ++ Octets.ofNat 2 c.typeWord.toNat)

def detectionFrame? (c : Card) : Option Frame :=
  c.index?.map fun index => .carrying Command.setDeviceDetection .motherboard
    [index.toUInt8, 0, if c.deviceDetect then 1 else 0]

theorem index?_eq (h : Address.IsSlotNumber c.slot) : c.index? = some c.index :=
  if_pos h.1

theorem typeFrame?_eq (h : Address.IsSlotNumber c.slot) : c.typeFrame? = some c.typeFrame := by
  rw [typeFrame?, index?_eq h]
  rfl

theorem detectionFrame?_eq (h : Address.IsSlotNumber c.slot) :
    c.detectionFrame? = some c.detectionFrame := by
  rw [detectionFrame?, index?_eq h]
  rfl

end Card

namespace Settings

/-- The frames of the cards, by an arithmetic that has no number below zero. -/
def compile? (s : Settings) : Option (Except ConfigError (List Frame)) :=
  match s.cards.find? fun c => ¬ Address.IsSlotNumber c.slot with
  | some c => some (.error (.malformedValue "/Settings/Card" "slot" (toString c.slot.toNat)))
  | none => do
    let types ← s.cards.mapM Card.typeFrame?
    let detections ← s.cards.mapM Card.detectionFrame?
    return .ok (types ++ detections)

section

variable {s : Settings}

theorem find?_of_outside {before after : List Card} {c : Card}
    (hcards : s.cards = before ++ c :: after)
    (hbefore : ∀ d ∈ before, Address.IsSlotNumber d.slot) (hout : ¬ Address.IsSlotNumber c.slot) :
    (s.cards.find? fun c => ¬ Address.IsSlotNumber c.slot) = some c := by
  rw [hcards]
  refine List.find?_eq_some_iff_append.mpr ⟨by simpa using hout, before, after, rfl, fun d hd => ?_⟩
  simpa using hbefore d hd

theorem compile_of_outside {before after : List Card} {c : Card}
    (hcards : s.cards = before ++ c :: after)
    (hbefore : ∀ d ∈ before, Address.IsSlotNumber d.slot) (hout : ¬ Address.IsSlotNumber c.slot) :
    s.compile = .error (.malformedValue "/Settings/Card" "slot" (toString c.slot.toNat)) := by
  rw [compile, find?_of_outside hcards hbefore hout]

theorem inRange_or_outside (cards : List Card) :
    (∀ c ∈ cards, Address.IsSlotNumber c.slot) ∨
      ∃ before c after, cards = before ++ c :: after ∧
        (∀ d ∈ before, Address.IsSlotNumber d.slot) ∧ ¬ Address.IsSlotNumber c.slot := by
  cases hfound : cards.find? fun c => ¬ Address.IsSlotNumber c.slot with
  | none => exact Or.inl (by simpa using hfound)
  | some c =>
    obtain ⟨hout, before, after, hcards, hbefore⟩ := List.find?_eq_some_iff_append.mp hfound
    exact Or.inr ⟨before, c, after, hcards, by simpa using hbefore, by simpa using hout⟩

theorem compile?_eq (s : Settings) : s.compile? = some s.compile := by
  rcases inRange_or_outside s.cards with hall | ⟨before, c, after, hcards, hbefore, hout⟩
  · rw [compile_of_inRange hall, compile?, find?_of_inRange hall,
      mapM_eq_some fun c hc => Card.typeFrame?_eq (hall c hc),
      mapM_eq_some fun c hc => Card.detectionFrame?_eq (hall c hc)]
    rfl
  · rw [compile_of_outside hcards hbefore hout, compile?, find?_of_outside hcards hbefore hout]

theorem compile_eq_error_iff {fault : ConfigError} :
    s.compile = .error fault ↔ ∃ before c after, s.cards = before ++ c :: after ∧
      (∀ d ∈ before, Address.IsSlotNumber d.slot) ∧ ¬ Address.IsSlotNumber c.slot ∧
      fault = .malformedValue "/Settings/Card" "slot" (toString c.slot.toNat) := by
  constructor
  · intro h
    rcases inRange_or_outside s.cards with hall | ⟨before, c, after, hcards, hbefore, hout⟩
    · rw [compile_of_inRange hall] at h
      cases h
    · rw [compile_of_outside hcards hbefore hout] at h
      exact ⟨before, c, after, hcards, hbefore, hout, (Except.error.inj h).symm⟩
  · rintro ⟨before, c, after, hcards, hbefore, hout, rfl⟩
    exact compile_of_outside hcards hbefore hout

theorem exists_compile_error_iff :
    (∃ fault, s.compile = .error fault) ↔ ∃ c ∈ s.cards, ¬ Address.IsSlotNumber c.slot := by
  constructor
  · rintro ⟨fault, h⟩
    obtain ⟨before, c, after, hcards, -, hout, -⟩ := compile_eq_error_iff.mp h
    exact ⟨c, hcards ▸ List.mem_append_right before List.mem_cons_self, hout⟩
  · rintro ⟨c, hc, hout⟩
    rcases inRange_or_outside s.cards with hall | ⟨before, d, after, hcards, hbefore, hout⟩
    · exact absurd (hall c hc) hout
    · exact ⟨_, compile_of_outside hcards hbefore hout⟩

/-- The byte forms of the frames tell what is known of the cards, all types first. -/
theorem notices_of_compile {frames : List Frame} (h : s.compile = .ok frames) :
    frames.map (fun f => CardNotice.ofBytes? f.encode) =
      s.cards.map (fun c => some (.cardType (c.slot.toNat - 1) c.typeWord.toNat)) ++
      s.cards.map (fun c => some (.detection (c.slot.toNat - 1) c.deviceDetect)) := by
  rcases inRange_or_outside s.cards with hall | ⟨before, c, after, hcards, hbefore, hout⟩
  · rw [compile_of_inRange hall] at h
    obtain rfl := Except.ok.inj h
    rw [List.map_append, List.map_map, List.map_map]
    exact congrArg₂ (· ++ ·)
      (List.map_congr_left fun c hc => Card.read_typeFrame (hall c hc))
      (List.map_congr_left fun c hc => Card.read_detectionFrame (hall c hc))
  · rw [compile_of_outside hcards hbefore hout] at h
    cases h

end

/-- Cards of any slots and types are compiled unless one of them sits in no slot, and then the
error names the first such slot. No slot is counted back below zero on the way. The frames, none
of which is too long, are read back from their bytes as the types of all cards and then the
detection flags of all cards, in their order, each with the slot counted from zero. In the type that
is sent, bit 15 is set if it was set before or the card is static; the others are as they were. -/
theorem card_frames_read_back (s : Settings) :
    ((∃ fault, s.compile = .error fault) ↔ ∃ c ∈ s.cards, ¬ Address.IsSlotNumber c.slot) ∧
    (∀ fault, s.compile = .error fault ↔ ∃ before c after, s.cards = before ++ c :: after ∧
      (∀ d ∈ before, Address.IsSlotNumber d.slot) ∧ ¬ Address.IsSlotNumber c.slot ∧
      fault = .malformedValue "/Settings/Card" "slot" (toString c.slot.toNat)) ∧
    s.compile? = some s.compile ∧
    (∀ frames, s.compile = .ok frames → (∀ f ∈ frames, f.Checked) ∧
      frames.map (fun f => CardNotice.ofBytes? f.encode) =
        s.cards.map (fun c => some (.cardType (c.slot.toNat - 1) c.typeWord.toNat)) ++
        s.cards.map (fun c => some (.detection (c.slot.toNat - 1) c.deviceDetect))) ∧
    ∀ c ∈ s.cards, ∀ k, c.typeWord.toNat.testBit k =
      (c.cardType.toNat.testBit k || c.isStatic && decide (k = 15)) :=
  ⟨exists_compile_error_iff, fun _ => compile_eq_error_iff, compile?_eq s,
    fun _ h => ⟨checked_compile h, notices_of_compile h⟩, fun c _ => c.testBit_typeWord⟩

/-- Two cards in one slot, one of them static, and the last card of a rack. -/
def doubledSlot : Settings where
  cards := [
    { slot := 3, cardType := 0x0102, isStatic := true, deviceDetect := false },
    { slot := 3, cardType := 0x0102 },
    { slot := 16, cardType := 0x8001 }]

/-- Two cards that sit in no slot, behind one that does. -/
def strayCards : Settings where
  cards := [
    { slot := 1, cardType := 1 },
    { slot := 17, cardType := 1 },
    { slot := 0, cardType := 1 }]

theorem card_frames_read_back_doubledSlot :
    (∃ frames, doubledSlot.compile = .ok frames ∧
      frames.map (fun f => CardNotice.ofBytes? f.encode) =
        [some (.cardType 2 0x8102), some (.cardType 2 0x0102), some (.cardType 15 0x8001),
         some (.detection 2 false), some (.detection 2 true), some (.detection 15 true)]) ∧
    strayCards.compile = .error (.malformedValue "/Settings/Card" "slot" "17") := by
  obtain ⟨-, -, -, hread, -⟩ := card_frames_read_back doubledSlot
  obtain ⟨-, herror, -⟩ := card_frames_read_back strayCards
  constructor
  · obtain ⟨-, hnotices⟩ := hread _ rfl
    exact ⟨_, rfl, hnotices⟩
  · rw [herror]
    exact ⟨[{ slot := 1, cardType := 1 }], { slot := 17, cardType := 1 },
      [{ slot := 0, cardType := 1 }], rfl, by decide, by decide, by decide⟩

end Settings
end MotionRack
