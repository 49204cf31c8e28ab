/-!
# Faults of a link

What can go wrong on a link, as causes. `LinkError.message` holds all wording.
-/
namespace MotionRack

/-- The largest payload that one frame carries: a 16-bit length less the header. -/
def maxPayload : Nat := 65529

/-- Why a byte string is no frame, or no usable part of one. -/
inductive FrameDefect
  | shorterThanHeader
  | trailingBytes
  | lengthAboveCeiling
  | lengthMismatch
  | fragmentExceedsBuffer
  | replyTooShort
  deriving DecidableEq, Repr

/-- The wording of a defect. -/
def FrameDefect.message : FrameDefect → String
  | shorterThanHeader => "shorter than header"
  | trailingBytes => "trailing bytes after short frame"
  | lengthAboveCeiling => "length above protocol ceiling"
  | lengthMismatch => "length field does not match payload"
  | fragmentExceedsBuffer => "fragment length exceeds buffer"
  | replyTooShort => "reply too short"

/-- Why a link did not do what was asked of it. -/
inductive LinkError
  | portNotFound (name : String)
  | unsupported (operation : String)
  | io (detail : String)
  | timeout
  | malformed (defect : FrameDefect)
  | payloadTooLarge (size : Nat)
  deriving DecidableEq, Repr

/-- The wording of a link error. -/
def LinkError.message : LinkError → String
  | portNotFound name => s!"port not found: {name}"
  | unsupported operation => s!"operation not supported on this link: {operation}"
  | io detail => s!"I/O error: {detail}"
  | timeout => "timeout"
  | malformed defect => s!"malformed frame: {defect.message}"
  | payloadTooLarge size =>
    s!"payload of {size} bytes exceeds the {maxPayload} byte frame limit"

end MotionRack
