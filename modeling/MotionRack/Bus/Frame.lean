import MotionRack.Bus.Address
import MotionRack.Bus.Command
import MotionRack.Bus.Fault

/-!
# Frames of the bus

Frames of the bus and their byte form. The header has six bytes: command, two bytes that are
either parameters or the length of the payload, destination, source. The eighth bit of the
destination byte tells which of the two it is.
-/
namespace MotionRack

/-- What a frame carries: two parameter bytes in its header, or a payload behind it. -/
inductive Frame.Body
  | short (param1 param2 : UInt8)
  | long (payload : Octets)
  deriving DecidableEq, Repr

/-- One message of the bus. -/
structure Frame where
  command : CommandId
  destination : Address
  source : Address := .host
  body : Frame.Body
  deriving DecidableEq, Repr

namespace Frame

/-- The size of the header. -/
def headerLength : Nat := 6

/-- A frame from the host without a payload. -/
def short (command : CommandId) (destination : Address) (param1 param2 : UInt8) : Frame where
  command := command
  destination := destination
  body := .short param1 param2

/-- A frame from the host with a payload. That the payload is not too long is left to the caller,
who knows it from the layout. -/
def carrying (command : CommandId) (destination : Address) (payload : Octets) : Frame where
  command := command
  destination := destination
  body := .long payload

/-- A frame from the host with a payload of any origin, which must not be too long. -/
def long (command : CommandId) (destination : Address) (payload : Octets) :
    Except LinkError Frame :=
  if maxPayload < payload.length then .error (.payloadTooLarge payload.length)
  else .ok (carrying command destination payload)

/-- Asks `destination` to keep what `command` last applied on `channel`. -/
def commit (destination : Address) (channel : UInt16) (command : CommandId) : Frame :=
  carrying Command.commit destination
    (Octets.ofNat 2 channel.toNat ++ Octets.ofNat 2 command.toNat)

/-- Asks the controller to start over. -/
def restart : Frame := short Command.restartProcessor .motherboard 1 0

/-- The bytes behind the header. -/
def payload (f : Frame) : Octets :=
  match f.body with
  | .long bytes => bytes
  | .short _ _ => []

/-- The parameter bytes of a frame without a payload. -/
def params? (f : Frame) : Option (UInt8 × UInt8) :=
  match f.body with
  | .short a b => some (a, b)
  | .long _ => none

/-- The bytes that tell something: the parameters, or the payload. -/
def data (f : Frame) : Octets :=
  match f.body with
  | .short a b => [a, b]
  | .long bytes => bytes

/-- Whether a payload follows the header. -/
def isExtended (f : Frame) : Bool :=
  match f.body with
  | .long _ => true
  | .short _ _ => false

/-- The destination byte, with the payload mark where there is a payload. -/
def destinationByte (f : Frame) : UInt8 :=
  match f.body with
  | .long _ => f.destination.byte ||| Address.extendedFlag
  | .short _ _ => f.destination.byte

/-- The number of bytes of the byte form. -/
def encodedLength (f : Frame) : Nat := headerLength + f.payload.length

/-- The third and fourth byte. A payload longer than the length field can say, which only a frame
put together by hand has, is announced with the largest length. -/
def parameterBytes (f : Frame) : Octets :=
  match f.body with
  | .short a b => [a, b]
  | .long bytes => Octets.ofNat 2 (min bytes.length 65535)

/-- The byte form. -/
def encode (f : Frame) : Octets :=
  Octets.ofNat 2 f.command.toNat ++ f.parameterBytes ++ [f.destinationByte, f.source.byte]
    ++ f.payload

/-- Reads a byte form. A payload has to be as long as announced, and nothing may follow. -/
def decode : Octets → Except LinkError Frame
  | c0 :: c1 :: p0 :: p1 :: dest :: src :: rest =>
    let frame (body : Body) : Frame :=
      { command := UInt16.ofNat (Octets.toNat [c0, c1])
        destination := Address.ofByte dest
        source := Address.ofByte src
        body := body }
    if dest &&& Address.extendedFlag = 0 then
      if rest.isEmpty then .ok (frame (.short p0 p1)) else .error (.malformed .trailingBytes)
    else
      let length := Octets.toNat [p0, p1]
      if maxPayload < length then .error (.malformed .lengthAboveCeiling)
      else if rest.length ≠ length then .error (.malformed .lengthMismatch)
      else .ok (frame (.long rest))
  | _ => .error (.malformed .shorterThanHeader)

/-- One line that tells a frame from another in a log. -/
def render (f : Frame) : String :=
  match f.body with
  | .short a b => s!"0x{Hex.word f.command} -> {f.destination} ({a.toNat}, {b.toNat})"
  | .long bytes => s!"0x{Hex.word f.command} -> {f.destination} [{bytes.length} bytes]"

end Frame
end MotionRack
