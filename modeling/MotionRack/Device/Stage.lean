import MotionRack.Config.Field
import MotionRack.Device.Commit
import MotionRack.Document.Expansion

/-!
# Stepper stages

Stepper stages. The parameters of a stage are spread over sections; groups of sections become
frames of a fixed layout. A stage is one element with its sections as children, or a set of
documents that hold one section each.
-/
namespace MotionRack

/-- The sections of a stage. -/
inductive SectionId
  | encoder
  | limit
  | config
  | drive
  | flags
  | home
  | jog
  | pid
  | store
  deriving DecidableEq, Repr

namespace SectionId

/-- The sections in the order of their numbers. -/
def all : List SectionId := [encoder, limit, config, drive, flags, home, jog, pid, store]

/-- The section of a number. -/
def ofInt? (n : Int) : Option SectionId := if 0 ≤ n then all[n.toNat]? else none

/-- The short name of a section. -/
def name : SectionId → String
  | encoder => "Encoder"
  | limit => "Limit"
  | config => "Config"
  | drive => "Drive"
  | flags => "Flags"
  | home => "Home"
  | jog => "Jog"
  | pid => "Pid"
  | store => "Store"

/-- The name of the element that holds a section of a whole stage. -/
def elementName : SectionId → String
  | home => "Homing"
  | pid => "PID"
  | id => id.name

end SectionId

/-- The sections that a stage has. -/
abbrev Sections := SectionId → Option Element

namespace Sections

/-- The sections of one element: the first child of each name. -/
def ofElement (e : Element) : Sections := fun id => e.child? id.elementName

/-- The section that a document holds, if it is one of a stage. -/
def segment? (document : Element) : Option (SectionId × Element) := do
  let signature ← document.select? "/Struct/Signature"
  let data ← document.select? "/Struct/Data"
  let raw ← (← signature.child? "StructID").attr? "value"
  return (← SectionId.ofInt? (← Numeral.i32? raw), data)

/-- The sections of a set of documents; of several documents for one section the last one counts. -/
def ofDocuments (documents : List Element) : Sections := fun id =>
  (((documents.filterMap segment?).filter (·.1 == id)).getLast?).map (·.2)

end Sections

/-! ### Layouts -/

/-- How a field is written: as its kind says, or as a fraction counted in parts. -/
inductive FieldForm
  | plain (kind : FieldKind)
  | scaled (factor : Nat)
  deriving DecidableEq, Repr

/-- One field of a frame: where its value is found, and which bytes of the payload it takes. -/
structure FieldRow where
  holder : SectionId
  query : String
  key : String
  form : FieldForm
  offset : Nat
  width : Nat

namespace FieldRow

/-- A row for an unsigned number. -/
def uint (holder : SectionId) (query key : String) (offset width : Nat) : FieldRow :=
  ⟨holder, query, key, .plain .uint, offset, width⟩

/-- A row for a signed number. -/
def int (holder : SectionId) (query key : String) (offset width : Nat) : FieldRow :=
  ⟨holder, query, key, .plain .int, offset, width⟩

/-- The bytes of a field, found in its section. -/
def encode (row : FieldRow) (part : Element) : Except ConfigError Octets :=
  match part.select? row.query with
  | none => .error (.missingField part.location row.query)
  | some node =>
    match row.form with
    | .plain kind => Field.encode node row.key kind row.width
    | .scaled factor => Field.encodeScaled node row.key factor row.width

end FieldRow

/-- A frame of fixed size: its command, the size of its payload and its fields, in the order in
which they are read. The slot number takes the first two bytes. -/
structure FrameLayout where
  command : CommandId
  size : Nat
  rows : List FieldRow

namespace Stage

/-- The parts of a unit in which counts are given. -/
def countsPerUnitFactor : Nat := 100000

open FieldRow in
def motionLayout : FrameLayout where
  command := Command.setStageParams
  size := 90
  rows :=
    [uint .config "AxisSerial" "value" 22 4,
     ⟨.config, "CountsPerUnit", "value", .scaled countsPerUnitFactor, 26, 4⟩,
     int .config "Position" "min" 30 4,
     int .config "Position" "max" 34 4,
     int .drive "Acceleration" "max" 38 4,
     int .drive "Acceleration" "min" 42 4,
     int .drive "Speed" "max" 46 4,
     int .drive "Speed" "min" 50 2,
     int .drive "FullStepSpeed" "value" 52 2,
     uint .drive "KVal/Hold" "value" 54 1,
     uint .drive "KVal/Run" "value" 55 1,
     uint .drive "KVal/Accel" "value" 56 1,
     uint .drive "KVal/Decel" "value" 57 1,
     int .drive "IntersectSpeed" "value" 58 2,
     uint .drive "StallThreshold" "value" 60 1,
     uint .drive "Slope/Start" "value" 61 1,
     uint .drive "Slope/FinalAccel" "value" 62 1,
     uint .drive "Slope/FinalDecel" "value" 63 1,
     uint .drive "OCDThreshold" "value" 64 1,
     uint .drive "StepMode" "value" 65 1,
     int .drive "ICConfig" "value" 66 2,
     ⟨.encoder, "NmPerCount", "value", .plain .float, 68, 4⟩,
     int .drive "GateDriverConfig" "value" 72 3,
     int .drive "ApproachVelocity" "value" 75 2,
     int .drive "Deadband" "value" 77 2,
     int .drive "Backlash" "value" 79 2,
     uint .drive "KickoutTime" "value" 81 1,
     uint .flags "Flags" "value" 82 1,
     int .config "CollisionThreshold" "value" 83 2,
     uint .encoder "EncoderType" "value" 85 1,
     uint .encoder "IndexDelta" "min" 86 2,
     uint .encoder "IndexDelta" "step" 88 2]

open FieldRow in
def limitLayout : FrameLayout where
  command := Command.setLimitSwitchParams
  size := 24
  rows :=
    [uint .limit "HardLimit" "cw" 2 2,
     uint .limit "HardLimit" "ccw" 4 2,
     int .limit "SoftLimit" "cw" 6 4,
     int .limit "SoftLimit" "ccw" 10 4,
     int .limit "AbsLimit" "high" 14 4,
     int .limit "AbsLimit" "low" 18 4,
     uint .limit "Mode" "value" 22 2]

open FieldRow in
def homeLayout : FrameLayout where
  command := Command.setHomeParams
  size := 14
  rows :=
    [uint .home "Mode" "value" 2 1,
     uint .home "Direction" "value" 3 1,
     uint .home "LimitSwitch" "value" 4 2,
     uint .home "Velocity" "value" 6 4,
     int .home "OffsetDistance" "value" 10 4]

open FieldRow in
def pidLayout : FrameLayout where
  command := Command.setPidParams
  size := 20
  rows :=
    [int .pid "Kp" "value" 2 4,
     int .pid "Ki" "value" 6 4,
     int .pid "Kd" "value" 10 4,
     int .pid "IMax" "value" 14 4,
     int .pid "FilterControl" "value" 18 2]

open FieldRow in
def deadbandLayout : FrameLayout where
  command := Command.setStorePositionDeadband
  size := 4
  rows := [uint .store "Deadband" "value" 2 2]

/-- The layouts in the order of their frames. -/
def layouts : List FrameLayout :=
  [motionLayout, limitLayout, homeLayout, pidLayout, deadbandLayout]

end Stage

/-- A payload of `size` bytes: the number of a slot, and zeros behind it. -/
def blankPayload (size : Nat) (slot : UInt16) : Octets :=
  Octets.ofNat 2 slot.toNat ++ List.replicate (size - 2) 0

/-- The address of a slot that is known to be one. -/
def slotAddress (slot : UInt16) : Address := .slot (slot - 1).toUInt8

namespace FrameLayout

/-- Writes fields into a payload, in order; the first that cannot be read is the error. -/
def fill (sections : Sections) : List FieldRow → Octets → Except ConfigError Octets
  | [], image => .ok image
  | row :: rest, image =>
    match sections row.holder with
    | none => fill sections rest image
    | some part => do fill sections rest (image.overwrite row.offset (← row.encode part))

/-- The frame of a layout for a slot, if all its sections are there. -/
def frame? (layout : FrameLayout) (sections : Sections) (slot : UInt16) :
    Except ConfigError (Option Frame) :=
  if layout.rows.all fun row => (sections row.holder).isSome then do
    let payload ← fill sections layout.rows (blankPayload layout.size slot)
    return some (Frame.carrying layout.command (slotAddress slot) payload)
  else .ok none

end FrameLayout

/-! ### Saved positions -/

namespace Stage

/-- The number of cells for saved positions; they are numbered from one. -/
def cellCount : Nat := 10

/-- Where a cell starts in the payload. -/
def cellOffset (cell : Nat) : Nat := 4 * cell - 2

/-- The cell of a position: the one that it names, or the next one. -/
def positionCell (next : Nat) (e : Element) : Except ConfigError Nat :=
  match e.attr? "index" with
  | none => .ok next
  | some raw =>
    Attribute.orMalformed e "index" raw
      (((Numeral.i32? raw).filter (1 ≤ ·)).map Int.toNat)

/-- Writes the saved positions, in order, into their cells. -/
def fillPositions : Nat → List Element → Octets → Except ConfigError Octets
  | _, [], image => .ok image
  | next, e :: rest, image => do
    let cell ← positionCell next e
    if cellCount < cell then throw (.shape e.location .positionOutsideTable)
    let raw ← Attribute.text e "value"
    let value ← Attribute.orMalformed e "value" raw (Numeral.i32? raw)
    fillPositions (cell + 1) rest (image.overwrite (cellOffset cell) (Octets.ofInt 4 value))

/-- The frame of the saved positions. -/
def positionsFrame (store : Element) (slot : UInt16) : Except ConfigError Frame := do
  let payload ← fillPositions 1 (store.childrenNamed "Position") (blankPayload 42 slot)
  return .carrying Command.setStorePosition (slotAddress slot) payload

end Stage

/-! ### Stages -/

/-- The parameters of the stage in one slot, compiled when they are read. -/
structure StageParameters where
  slot : UInt16
  /-- The resolution of the encoder, if the stage tells one. -/
  nmPerCount : Option Binary
  frames : List Frame
  deriving DecidableEq, Repr

namespace StageParameters

/-- The name of the element that holds a whole stage. -/
def elementName : String := "StageParameters"

/-- The encoder resolution that the sections tell. -/
def resolution? (sections : Sections) : Option Binary := do
  let encoder ← sections .encoder
  Field.float? (← (← encoder.child? "NmPerCount").attr? "value")

/-- The frames of the layouts whose sections are there, in order. -/
def layoutFrames (sections : Sections) (slot : UInt16) :
    List FrameLayout → Except ConfigError (List Frame)
  | [] => .ok []
  | layout :: rest => do
    let frame ← layout.frame? sections slot
    return frame.toList ++ (← layoutFrames sections slot rest)

/-- Reads a stage from its sections. -/
def ofSections (sections : Sections) (slot : UInt16) : Except ConfigError StageParameters := do
  if ¬ Address.IsSlotNumber slot then
    throw (.malformedValue ("/" ++ elementName) "slot" (toString slot.toNat))
  let frames ← layoutFrames sections slot Stage.layouts
  let positions ← match sections .store with
    | some store => do pure [← Stage.positionsFrame store slot]
    | none => pure []
  return { slot := slot, nmPerCount := resolution? sections, frames := frames ++ positions }

/-- Reads a stage from one element. -/
def ofElement (e : Element) (slot : UInt16) : Except ConfigError StageParameters :=
  ofSections (.ofElement e) slot

/-- Reads a stage from documents that hold one section each. -/
def ofDocuments (documents : List Element) (slot : UInt16) : Except ConfigError StageParameters :=
  ofSections (.ofDocuments documents) slot

/-- Where commits for a stage go. -/
def target (s : StageParameters) : Address × UInt16 := (slotAddress s.slot, 0)

/-- The frames of a stage, with commits if they are to be kept. -/
def compile (persist : Bool) (s : StageParameters) : List Frame :=
  Commit.append persist s.target.1 s.target.2 s.frames

/-- The root of a document, which has to be of the given name. -/
def rootNamed (name : String) (root : Element) : Except ConfigError Element :=
  match root.select? ("/" ++ name) with
  | some e => .ok e
  | none => .error (.missingField root.location name)

/-- Reads a stage from a file of its own. -/
def load (read : FileReader) (path : String) (slot : UInt16) :
    Except ConfigError StageParameters := do
  ofElement (← rootNamed elementName (← Expansion.openFile read path)) slot

/-- Reads a stage from files that hold one section each. -/
def loadSegments (read : FileReader) (paths : List String) (slot : UInt16) :
    Except ConfigError StageParameters := do
  ofDocuments (← paths.mapM (Expansion.openFile read)) slot

end StageParameters

/-- The number of encoder counts nearest to a distance; none if the resolution is not positive or
the number has more than 32 bits. -/
def countsForDistance (distance nmPerCount : Binary) : Option Int :=
  let resolution := nmPerCount.convert .double
  if resolution.isNaN || resolution.le (.finite false 0 0) then none
  else match Binary.div .double distance resolution with
    | .finite s m e =>
      let n := Binary.nearestInt s m e
      if -(pow2 31 : Int) ≤ n ∧ n < pow2 31 then some n else none
    | _ => none

end MotionRack
