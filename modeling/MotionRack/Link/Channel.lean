import MotionRack.Bus.Frame

/-!
# What a link can do

What a link can do, as operations on the state of the surroundings. A sink only takes transfers;
a channel also waits for answers. An operation that fails still returns the state it leaves.
-/
namespace MotionRack

/-- A transfer as a link records it: a whole frame, or the filled part of a larger buffer. -/
structure Transfer where
  fragment : Bool
  bytes : Octets
  deriving DecidableEq, Repr

/-- The write-only side of a link. -/
class FrameSink (σ : Type) where
  /-- Hands over bytes as one transfer. -/
  send : Octets → σ → Except LinkError Unit × σ

namespace FrameSink

variable {σ : Type} [FrameSink σ]

/-- Sends the byte form of a frame. -/
def sendFrame (f : Frame) (s : σ) : Except LinkError Unit × σ := send f.encode s

/-- Sends the first `length` bytes of a buffer as an ordinary transfer. -/
def sendHead (buffer : Octets) (length : Nat) (s : σ) : Except LinkError Unit × σ :=
  if length ≤ buffer.length then send (buffer.take length) s
  else (.error (.malformed .fragmentExceedsBuffer), s)

/-- Asks the controller to start over by an ordinary transfer. -/
def sendRestart (s : σ) : Except LinkError Unit × σ := sendFrame Frame.restart s

end FrameSink

/-- A link that can also wait for answers. Answers are matched to requests by their order. -/
class Channel (σ : Type) extends FrameSink σ where
  /-- Sends only the first `length` bytes of a buffer. -/
  sendFragment : Octets → Nat → σ → Except LinkError Unit × σ := FrameSink.sendHead
  /-- Waits for the next answer, however long it takes. -/
  receive : σ → Except LinkError Octets × σ
  /-- Waits for the next answer within the response time; `none` if there was none. -/
  receiveWithin : σ → Except LinkError (Option Octets) × σ
  /-- Asks the controller to start over. -/
  restart : σ → Except LinkError Unit × σ := FrameSink.sendRestart

end MotionRack
