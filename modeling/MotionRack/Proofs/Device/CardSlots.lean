import Mathlib.Data.List.Perm.Subperm
import MotionRack.Document.Reader
import MotionRack.Proofs.Config.FirstCollision
import MotionRack.Proofs.Device.Card
import MotionRack.Proofs.Sequence

/-!
# The slots of cards

A card sits in the slot that it names, or else in the one behind the card before it. Whether
a card can be read depends on this slot and on its own element alone, so the cards of a rack
can be read exactly if each of them can, and the rack if moreover no two of them sit in one slot.
-/
namespace MotionRack

namespace Card

/-- The slot that a card names. -/
def namedSlot? (e : Element) : Option Nat := (e.attr? "slot").bind (Numeral.natOf? 16)

/-- Cards with their slots; `next` is the slot of a first one that names none. -/
def withSlots (next : Nat) (es : List Element) : List (Nat × Element) :=
  numbered namedSlot? (· + 1) next es

/-- Whether a card can be read in a slot. -/
structure Loadable (slot : Nat) (e : Element) : Prop where
  named : ∀ raw, e.attr? "slot" = some raw → ∃ n, Numeral.natOf? 16 raw = some n
  first : 1 ≤ slot
  last : slot ≤ Address.slotCount
  cardType : ∃ raw n, e.attr? "type" = some raw ∧ Numeral.natOf? 16 raw = some n
  customs : ∀ d ∈ e.childrenNamed "CustomConfig",
    ∃ c, CustomConfig.ofElement (UInt16.ofNat slot) d = .ok c

theorem withSlots_cons (next : Nat) (e : Element) (es : List Element) :
    withSlots next (e :: es) =
      ((namedSlot? e).getD next, e) :: withSlots ((namedSlot? e).getD next + 1) es :=
  rfl

theorem toNat_getD (e : Element) (next : UInt16) :
    (((namedSlot? e).map UInt16.ofNat).getD next).toNat = (namedSlot? e).getD next.toNat := by
  cases hn : namedSlot? e with
  | none => rfl
  | some n =>
    obtain ⟨raw, -, hraw⟩ := Option.bind_eq_some_iff.mp hn
    exact UInt16.toNat_ofNat_of_lt' (Numeral.natOf?_lt hraw)

theorem slot_of_ofElement {next : UInt16} {e : Element} {c : Card} (h : ofElement next e = .ok c) :
    c.slot.toNat = (namedSlot? e).getD next.toNat := by
  obtain ⟨named, cardType, customs, hnamed, -, -, -, rfl⟩ := ofElement_eq_ok.mp h
  obtain ⟨-, rfl⟩ := Attribute.u16?_eq_ok.mp hnamed
  exact toNat_getD e next

/-- A card that was read in a slot is read the same if the slot is next anyway. -/
theorem ofElement_slot {next : UInt16} {e : Element} {c : Card} (h : ofElement next e = .ok c) :
    ofElement c.slot e = .ok c := by
  obtain ⟨named, cardType, customs, hnamed, hslot, htype, hcustoms, rfl⟩ := ofElement_eq_ok.mp h
  have hsame : named.getD (named.getD next) = named.getD next := by cases named <;> rfl
  refine ofElement_eq_ok.mpr ⟨named, cardType, customs, hnamed, ?_, htype, ?_, ?_⟩
  · rwa [hsame]
  · rwa [hsame]
  · rw [hsame]

/-- A card is read exactly if it can be read in its slot. -/
theorem exists_ofElement_iff {next : UInt16} {e : Element} :
    (∃ c, ofElement next e = .ok c) ↔ Loadable ((namedSlot? e).getD next.toNat) e := by
  simp only [ofElement_eq_ok]
  rw [← toNat_getD]
  constructor
  · rintro ⟨_, named, cardType, customs, hnamed, hslot, htype, hcustoms, -⟩
    obtain ⟨hread, rfl⟩ := Attribute.u16?_eq_ok.mp hnamed
    refine ⟨hread, hslot.1, hslot.2, Attribute.exists_u16_iff.mp ⟨cardType, htype⟩, ?_⟩
    rw [UInt16.ofNat_toNat]
    exact exists_mapM_iff.mp ⟨customs, hcustoms⟩
  · intro h
    obtain ⟨cardType, htype⟩ := Attribute.exists_u16_iff.mpr h.cardType
    have hread := h.customs
    rw [UInt16.ofNat_toNat] at hread
    obtain ⟨customs, hcustoms⟩ := exists_mapM_iff.mpr hread
    exact ⟨_, _, cardType, customs, Attribute.u16?_eq_ok.mpr ⟨h.named, rfl⟩, ⟨h.first, h.last⟩,
      htype, hcustoms, rfl⟩

/-- What a card was read as that has a slot. -/
def ReadIn (p : Nat × Element) (c : Card) : Prop :=
  c.slot.toNat = p.1 ∧ ofElement c.slot p.2 = .ok c

theorem toNat_slot_succ {c : Card} (h : c.slot.toNat ≤ Address.slotCount) :
    (c.slot + 1).toNat = c.slot.toNat + 1 := by
  unfold Address.slotCount at h
  rw [UInt16.toNat_add]
  exact Nat.mod_eq_of_lt (by simp; omega)

theorem withSlots_cons_of_ofElement {next : UInt16} {e : Element} {c : Card}
    (h : ofElement next e = .ok c) (es : List Element) :
    withSlots next.toNat (e :: es) = (c.slot.toNat, e) :: withSlots (c.slot + 1).toNat es := by
  have hslot := slot_of_ofElement h
  have hload := exists_ofElement_iff.mp ⟨c, h⟩
  -- A card that was read sits in a slot, so there is a number behind it.
  rw [withSlots_cons, toNat_slot_succ (hslot ▸ hload.last), hslot]

theorem exists_ofElements_iff {next : UInt16} {es : List Element} :
    (∃ cards, ofElements next es = .ok cards) ↔
      ∀ p ∈ withSlots next.toNat es, Loadable p.1 p.2 := by
  induction es generalizing next with
  | nil => exact iff_of_true ⟨[], rfl⟩ (List.forall_mem_nil _)
  | cons e es ih =>
    simp only [ofElements_cons_eq_ok]
    constructor
    · rintro ⟨_, c, rest, hc, hrest, -⟩
      rw [withSlots_cons_of_ofElement hc, slot_of_ofElement hc, List.forall_mem_cons]
      exact ⟨exists_ofElement_iff.mp ⟨c, hc⟩, ih.mp ⟨rest, hrest⟩⟩
    · intro hall
      obtain ⟨c, hc⟩ := exists_ofElement_iff.mpr (hall _ List.mem_cons_self)
      rw [withSlots_cons_of_ofElement hc, List.forall_mem_cons] at hall
      obtain ⟨rest, hrest⟩ := ih.mpr hall.2
      exact ⟨_, c, rest, hc, hrest, rfl⟩

theorem forall₂_ofElements {next : UInt16} {es : List Element} {cards : List Card}
    (h : ofElements next es = .ok cards) :
    List.Forall₂ ReadIn (withSlots next.toNat es) cards := by
  induction es generalizing next cards with
  | nil =>
    cases h
    exact .nil
  | cons e es ih =>
    obtain ⟨c, rest, hc, hrest, rfl⟩ := ofElements_cons_eq_ok.mp h
    rw [withSlots_cons_of_ofElement hc]
    exact .cons ⟨rfl, ofElement_slot hc⟩ (ih hrest)

end Card

namespace Settings

/-- The cards of a rack with their slots. -/
def placed (e : Element) : List (Nat × Element) := Card.withSlots 1 (e.childrenNamed "Card")

variable {e : Element} {cards : List Card}

theorem exists_cards_iff : (∃ cards, Card.ofElements 1 (e.childrenNamed "Card") = .ok cards) ↔
    ∀ p ∈ placed e, Card.Loadable p.1 p.2 :=
  Card.exists_ofElements_iff

theorem map_slot_of_forall₂ {ps : List (Nat × Element)} (h : List.Forall₂ Card.ReadIn ps cards) :
    cards.map (·.slot.toNat) = ps.map Prod.fst :=
  map_eq_of_forall₂ h fun _ _ hread => hread.1

section

variable (hcards : Card.ofElements 1 (e.childrenNamed "Card") = .ok cards)

include hcards

theorem map_slot_eq : cards.map (·.slot.toNat) = (placed e).map Prod.fst :=
  map_slot_of_forall₂ (Card.forall₂_ofElements hcards)

theorem pairwise_apart_iff :
    (cards.Pairwise fun c d => Card.collides c d = false) ↔ ((placed e).map Prod.fst).Nodup := by
  rw [← map_slot_eq hcards, List.Nodup, List.pairwise_map]
  simp [Card.collides, UInt16.toNat_inj]

theorem ofElement_of_cards :
    ofElement e = match Collision.unique Card.collides cards with
      | .ok cards => .ok ⟨cards⟩
      | .error c => .error (.collision e.location .cardSlot c.first c.second) := by
  rw [ofElement, hcards]
  rfl

end

/-- The cards of a rack can be read exactly if each of them can be read in its slot, and no two of
them sit in one. -/
theorem exists_ofElement_iff : (∃ s, ofElement e = .ok s) ↔
    (∀ p ∈ placed e, Card.Loadable p.1 p.2) ∧ ((placed e).map Prod.fst).Nodup := by
  constructor
  · rintro ⟨s, h⟩
    obtain ⟨hcards, hapart⟩ := cards_of_ofElement h
    refine ⟨exists_cards_iff.mp ⟨s.cards, hcards⟩, (pairwise_apart_iff hcards).mp ?_⟩
    exact hapart.imp fun hne => by simpa [Card.collides] using hne
  · rintro ⟨hload, hnodup⟩
    obtain ⟨cards, hcards⟩ := exists_cards_iff.mpr hload
    have hapart := (pairwise_apart_iff hcards).mpr hnodup
    rw [ofElement_of_cards hcards, Collision.unique_of_pairwise hapart]
    exact ⟨_, rfl⟩

/-- There are no more cards than slots. -/
theorem length_placed_le (hload : ∀ p ∈ placed e, Card.Loadable p.1 p.2)
    (hnodup : ((placed e).map Prod.fst).Nodup) : (placed e).length ≤ Address.slotCount := by
  have hrange : (placed e).map Prod.fst ⊆ List.range' 1 Address.slotCount := by
    intro slot hslot
    obtain ⟨p, hp, rfl⟩ := List.mem_map.mp hslot
    have hlast := (hload p hp).last
    exact List.mem_range'_1.mpr ⟨(hload p hp).first, by omega⟩
  have hle := (List.subperm_of_subset hnodup hrange).length_le
  rwa [List.length_map, List.length_range'] at hle

/-- Cards of which some share a slot are refused with the first two that do. -/
theorem exists_collision (hload : ∀ p ∈ placed e, Card.Loadable p.1 p.2)
    (hrepeated : ¬ ((placed e).map Prod.fst).Nodup) :
    ∃ c, Collision.IsFirst (· == ·) ((placed e).map Prod.fst) c ∧
      ofElement e = .error (.collision e.location .cardSlot c.first c.second) := by
  obtain ⟨cards, hcards⟩ := exists_cards_iff.mpr hload
  rw [ofElement_of_cards hcards]
  cases hunique : Collision.unique Card.collides cards with
  | ok kept =>
    obtain rfl := Collision.unique_eq_ok hunique
    exact absurd ((pairwise_apart_iff hcards).mp (Collision.pairwise_of_unique hunique)) hrepeated
  | error c =>
    have hsame : ∀ c d, Card.collides c d = (c.slot.toNat == d.slot.toNat) := fun c d => by
      rw [Card.collides, Bool.eq_iff_iff, beq_iff_eq, beq_iff_eq, UInt16.toNat_inj]
    rw [← map_slot_eq hcards]
    exact ⟨c, (Collision.isFirst_map hsame).mpr (Collision.unique_eq_error_iff.mp hunique), rfl⟩

/-- Each card has a slot: the one that it names, or else the one behind the slot of the card before
it, from 1 on. The cards of a rack are read exactly if every one of them can be read in its slot and
all slots are different. They are then the cards that the elements describe, in their order and in
these slots, so there are 16 at most. If nothing is wrong but that slots are shared, the
error names the first two cards of one slot, in the lexicographic order of pairs of cards. -/
theorem slots_assigned (e : Element) :
    ((∃ s, ofElement e = .ok s) ↔
      (∀ p ∈ placed e, Card.Loadable p.1 p.2) ∧ ((placed e).map Prod.fst).Nodup) ∧
    (∀ s, ofElement e = .ok s →
      List.Forall₂ Card.ReadIn (placed e) s.cards ∧ s.cards.length ≤ Address.slotCount) ∧
    ((∀ p ∈ placed e, Card.Loadable p.1 p.2) → ¬ ((placed e).map Prod.fst).Nodup →
      ∃ c, Collision.IsFirst (· == ·) ((placed e).map Prod.fst) c ∧
        ofElement e = .error (.collision e.location .cardSlot c.first c.second)) := by
  refine ⟨exists_ofElement_iff, fun s h => ?_, exists_collision⟩
  obtain ⟨hload, hnodup⟩ := exists_ofElement_iff.mp ⟨s, h⟩
  have hread := Card.forall₂_ofElements (cards_of_ofElement h).1
  refine ⟨hread, ?_⟩
  rw [← hread.length_eq]
  exact length_placed_le hload hnodup

section

open Document (unplaced)

/-- A card that names a slot between two that name none. -/
def spreadCards : Element :=
  unplaced "Settings" [] [
    unplaced "Card" [("type", "1")] [],
    unplaced "Card" [("slot", "5"), ("type", "2")] [],
    unplaced "Card" [("type", "0x10")] []]

/-- A card that names the slot of the one before it, which names none. -/
def crowdedCards : Element :=
  unplaced "Settings" [] [
    unplaced "Card" [("slot", "2"), ("type", "1")] [],
    unplaced "Card" [("type", "1")] [],
    unplaced "Card" [("slot", "0x03"), ("type", "1")] []]

theorem slots_assigned_crowdedCards :
    (∃ s, ofElement spreadCards = .ok s ∧ s.cards.map (·.slot.toNat) = [1, 5, 6]) ∧
    Collision.IsFirst (· == ·) [2, 3, 3] ⟨1, 2⟩ ∧
    ofElement crowdedCards = .error (.collision "/Settings" .cardSlot 1 2) := by
  obtain ⟨-, hspread, -⟩ := slots_assigned spreadCards
  obtain ⟨-, -, hcrowded⟩ := slots_assigned crowdedCards
  constructor
  · have hmade : (ofElement spreadCards).toOption.isSome := by decide +kernel
    obtain ⟨s, hs⟩ := Option.isSome_iff_exists.mp hmade
    have hread := hspread s (toOption_eq_some.mp hs)
    exact ⟨s, toOption_eq_some.mp hs, (map_slot_of_forall₂ hread.1).trans (by decide +kernel)⟩
  · have hmade : (Card.ofElements 1 (crowdedCards.childrenNamed "Card")).toOption.isSome := by
      decide +kernel
    obtain ⟨cards, hcards⟩ := Option.isSome_iff_exists.mp hmade
    have hload := exists_cards_iff.mp ⟨cards, toOption_eq_some.mp hcards⟩
    have hslots : (placed crowdedCards).map Prod.fst = [2, 3, 3] := by decide +kernel
    rw [hslots] at hcrowded
    obtain ⟨⟨first, second⟩, hfirst, herror⟩ := hcrowded hload (by decide)
    have hfound : ofElement crowdedCards = .error (.collision "/Settings" .cardSlot 1 2) := by
      decide +kernel
    obtain ⟨-, -, rfl, rfl⟩ :=
      ConfigError.collision.inj (Except.error.inj (hfound.symm.trans herror))
    exact ⟨hfirst, hfound⟩

end

end Settings
end MotionRack
