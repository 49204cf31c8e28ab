import MotionRack.Bus.Fault
import MotionRack.Files.Fault
import MotionRack.Text.Quoted

/-!
# Faults of a description

Why a description cannot be read or compiled, as causes. `ConfigError.message` holds all wording. A
place is the path of an element in its document, behind the name of its file where that is known.
-/
namespace MotionRack

/-- Why a text is no document. -/
inductive MarkupFault
  /-- The markup itself is broken. -/
  | broken
  | neverClosed (name : String)
  | noRoot
  | severalRoots
  deriving DecidableEq, Repr

/-- The wording of a markup fault. -/
def MarkupFault.message : MarkupFault → String
  | broken => "broken markup"
  | neverClosed name => s!"element <{name}> is never closed"
  | noRoot => "document has no root element"
  | severalRoots => "more than one root element"

/-- What two parts of a description must not share. -/
inductive CollisionKind
  | cardSlot
  | deviceSignature
  | deviceLockSlot
  | inputControl
  | outputControl
  | joystickPort
  deriving DecidableEq, Repr

/-- The wording of a kind of collision. -/
def CollisionKind.message : CollisionKind → String
  | cardSlot => "card slot"
  | deviceSignature => "device signature"
  | deviceLockSlot => "device lock slot"
  | inputControl => "input control"
  | outputControl => "output control"
  | joystickPort => "joystick port"

/-- How the children of an element can be wrong as a whole. -/
inductive ShapeDefect
  | customConfigChildren
  | colourTwice (position : Nat)
  | tooManyColours
  | positionOutsideTable
  deriving DecidableEq, Repr

/-- The wording of a shape defect. -/
def ShapeDefect.message : ShapeDefect → String
  | customConfigChildren => "CustomConfig must have exactly one child"
  | colourTwice position => s!"colour {position} declared twice"
  | tooManyColours => "more than three colours"
  | positionOutsideTable => "saved position outside the table"

/-- Why a description cannot be read or compiled. -/
inductive ConfigError
  | io (path : String) (fault : FileFault)
  | markup (file : String) (fault : MarkupFault)
  | missingField (place field : String)
  | malformedValue (place field value : String)
  | collision (place : String) (kind : CollisionKind) (first second : Nat)
  | unsupportedVariant (place field value : String)
  | widthOverflow (place field : String) (needed width : Nat)
  | includeDepth (depth : Nat) (file : String)
  | shape (place : String) (defect : ShapeDefect)
  | link (error : LinkError)
  deriving DecidableEq, Repr

/-- The wording of a configuration error. -/
def ConfigError.message : ConfigError → String
  | io path fault => s!"cannot read {path}: {fault.message}"
  | markup file fault => s!"XML error in {file}: {fault.message}"
  | missingField place field => s!"{place}: missing {field}"
  | malformedValue place field value =>
    s!"{place}: malformed {field} value {Quoted.render value}"
  | collision place kind first second =>
    s!"{place}: {kind.message} collision between index {first} and {second}"
  | unsupportedVariant place field value =>
    s!"{place}: unsupported {field} {Quoted.render value}"
  | widthOverflow place field needed width =>
    s!"{place}: {field} needs {needed} bytes but only {width} are declared"
  | includeDepth depth file => s!"include chain deeper than {depth} levels at {file}"
  | shape place defect => s!"{place}: {defect.message}"
  | link error => error.message

end MotionRack
