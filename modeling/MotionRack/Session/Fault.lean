import MotionRack.Bus.Fault
import MotionRack.Text.Hex

/-!
# Faults of a programming session

Why a programming session failed. A device reports statuses; what a status means depends on the
request it answers, so the meaning is part of the error.
-/
namespace MotionRack

/-- What the device's status tells about a request. -/
inductive StatusMeaning
  | badResponse
  | zeroTableChunk
  | zeroImageChunk
  | cancelled
  | noDevice
  | notOneWire
  | alreadyProgramming
  | cannotEnter
  | disconnected
  | stoppedAbnormally
  | memoryOverflow
  | sizeViolated
  | programmed
  | cannotExit
  | successful
  | unknown
  deriving DecidableEq, Repr

/-- The wording of a meaning. -/
def StatusMeaning.message : StatusMeaning → String
  | badResponse => "bad response"
  | zeroTableChunk => "device reported a zero chunk size"
  | zeroImageChunk => "Device reported a zero chunk size."
  | cancelled => "Programming was cancelled."
  | noDevice => "No device is connected."
  | notOneWire => "Device does not support one-wire."
  | alreadyProgramming => "Device was already programming."
  | cannotEnter => "Unable to enter programming mode."
  | disconnected => "Device was disconnected."
  | stoppedAbnormally => "Device abnormally stopped programming."
  | memoryOverflow => "Device's memory has overflowed."
  | sizeViolated => "Maximum programming size violated."
  | programmed => "Device was successfully programmed."
  | cannotExit => "Unable to exit programming mode."
  | successful => "Programming successful."
  | unknown => "Some unknown event occurred."

/-- Why a session failed. Steps are numbered from one. -/
inductive ProgramError
  | link (error : LinkError)
  | timeout (step : Nat)
  | status (step : Nat) (code : UInt8) (meaning : StatusMeaning)
  | badAddress (address : UInt32)
  | cancelled (step : Nat)
  deriving DecidableEq, Repr

namespace ProgramError

/-- The wording of a session error. -/
def message : ProgramError → String
  | link error => error.message
  | timeout step => s!"programming failure: step {step} timeout"
  | status step code meaning =>
    s!"programming failure: step {step}: {meaning.message} (status {code.toNat})"
  | badAddress address => s!"programming failure: invalid address 0x{Hex.double address}"
  | cancelled step => s!"programming cancelled at step {step}"

/-- The step that the error itself names. Only the last request can report a bad address. -/
def step? : ProgramError → Option Nat
  | link _ => none
  | timeout step => some step
  | status step _ _ => some step
  | badAddress _ => some 6
  | cancelled step => some step

end ProgramError
end MotionRack
