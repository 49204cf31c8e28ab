import MotionRack.Config.Collision
import MotionRack.Device.Shutter

/-!
# Cards

The cards of a rack. A card sits in a slot of its own and may carry a description of the device
behind it, which is compiled for that slot.
-/
namespace MotionRack

/-- The description of the device behind a card. -/
inductive CustomConfig
  | stage (parameters : StageParameters)
  | flipper (group : FlipperGroup)
  deriving DecidableEq, Repr

namespace CustomConfig

/-- Reads the one child of an element as the description for a slot. -/
def ofElement (slot : UInt16) (e : Element) : Except ConfigError CustomConfig :=
  match e.children with
  | [inner] =>
    if inner.name = StageParameters.elementName then
      stage <$> StageParameters.ofElement inner slot
    else if inner.name = FlipperGroup.elementName then
      flipper <$> FlipperGroup.ofElement inner slot
    else .error (.unsupportedVariant e.location "custom config" inner.name)
  | _ => .error (.shape e.location .customConfigChildren)

/-- The slot of the device. -/
def slot : CustomConfig → UInt16
  | stage s => s.slot
  | flipper g => g.slot

/-- The frames of the device, with commits if they are to be kept. -/
def compile (persist : Bool) : CustomConfig → List Frame
  | stage s => s.compile persist
  | flipper g => g.compile persist

end CustomConfig

/-- A card in a slot. Slots are numbered from one. -/
structure Card where
  slot : UInt16
  cardType : UInt16
  isStatic : Bool := false
  deviceDetect : Bool := true
  custom : Option CustomConfig := none
  deriving DecidableEq, Repr

namespace Card

/-- Reads a card; `next` is its slot if it names none. Of several descriptions the last counts. -/
def ofElement (next : UInt16) (e : Element) : Except ConfigError Card := do
  let slot := (← Attribute.u16? e "slot").getD next
  if ¬ Address.IsSlotNumber slot then
    throw (.malformedValue e.location "slot" (toString slot.toNat))
  let cardType ← Attribute.u16 e "type"
  let customs ← (e.childrenNamed "CustomConfig").mapM (CustomConfig.ofElement slot)
  return {
    slot := slot
    cardType := cardType
    isStatic := e.attr? "static" == some "1"
    deviceDetect := match e.attr? "device-detect" with
      | some v => Fold.agrees v.toList "true".toList
      | none => true
    custom := customs.getLast? }

/-- Reads cards in order. A card that names no slot follows the one before it. -/
def ofElements : UInt16 → List Element → Except ConfigError (List Card)
  | _, [] => .ok []
  | next, e :: rest => do
    let card ← ofElement next e
    return card :: (← ofElements (card.slot + 1) rest)

/-- The type as it is sent: its highest bit is set for a static card. -/
def typeWord (c : Card) : UInt16 := if c.isStatic then c.cardType ||| 0x8000 else c.cardType

/-- The slot counted from zero. -/
def index (c : Card) : UInt16 := c.slot - 1

def typeFrame (c : Card) : Frame :=
  .carrying Command.setCardType .motherboard
    (Octets.ofNat 2 c.index.toNat ++ Octets.ofNat 2 c.typeWord.toNat)

def detectionFrame (c : Card) : Frame :=
  .carrying Command.setDeviceDetection .motherboard
    [c.index.toUInt8, 0, if c.deviceDetect then 1 else 0]

/-- Whether two cards claim one slot. -/
def collides (c d : Card) : Bool := c.slot == d.slot

end Card

/-- The cards of a rack. -/
structure Settings where
  cards : List Card
  deriving DecidableEq, Repr

namespace Settings

/-- Reads the cards of a rack; no two may claim one slot. -/
def ofElement (e : Element) : Except ConfigError Settings := do
  let cards ← Card.ofElements 1 (e.childrenNamed "Card")
  match Collision.unique Card.collides cards with
  | .ok cards => return ⟨cards⟩
  | .error c => throw (.collision e.location .cardSlot c.first c.second)

/-- The types of the cards, each once, in the order of first occurrence. -/
def cardTypes (s : Settings) : List UInt16 := (s.cards.map (·.cardType)).eraseDups

/-- The descriptions of the devices, in the order of their cards. -/
def customs (s : Settings) : List CustomConfig := s.cards.filterMap (·.custom)

/-- The frames of the cards: first all types, then all detection flags. Cards put together by hand
may have a slot that is none, which is the error. -/
def compile (s : Settings) : Except ConfigError (List Frame) :=
  match s.cards.find? fun c => ¬ Address.IsSlotNumber c.slot with
  | some c => .error (.malformedValue "/Settings/Card" "slot" (toString c.slot.toNat))
  | none => .ok (s.cards.map Card.typeFrame ++ s.cards.map Card.detectionFrame)

/-- The frames of all devices, with commits if they are to be kept. -/
def compileCustoms (persist : Bool) (s : Settings) : List Frame :=
  s.customs.flatMap (·.compile persist)

/-- Reads the cards from a file of their own. -/
def load (read : FileReader) (path : String) : Except ConfigError Settings := do
  ofElement (← Expansion.openFile read path)

end Settings
end MotionRack
