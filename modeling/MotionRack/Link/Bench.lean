import MotionRack.Link.Channel

/-!
# A link without hardware

A link without hardware: it records every transfer and answers from a script. An answer is used up
by each wait; a scripted silence, and the end of the script, are waits without an answer.
-/
namespace MotionRack

/-- What a port is listed as. -/
structure PortInfo where
  name : String
  driver : String
  deriving DecidableEq, Repr

/-- A recording link with scripted answers. -/
structure Bench where
  name : String := "mock0"
  sent : List Transfer := []
  replies : List (Option Octets) := []
  restarts : Nat := 0
  deriving DecidableEq, Repr

namespace Bench

/-- The ports that such links have. -/
def ports : List PortInfo := [⟨"mock0", "mock"⟩]

/-- Appends a transfer to the record. -/
def record (b : Bench) (fragment : Bool) (bytes : Octets) : Bench :=
  { b with sent := b.sent ++ [⟨fragment, bytes⟩] }

/-- Appends an answer, or a silence, to the script. -/
def script (b : Bench) (reply : Option Octets) : Bench :=
  { b with replies := b.replies ++ [reply] }

/-- Forgets record, script and restarts. -/
def clear (b : Bench) : Bench := { b with sent := [], replies := [], restarts := 0 }

/-- The next answer of the script, and the link after that wait. -/
def nextReply (b : Bench) : Option Octets × Bench :=
  match b.replies with
  | [] => (none, b)
  | r :: rest => (r, { b with replies := rest })

/-- The record read as frames; the first transfer that is none is the error. -/
def sentFrames (b : Bench) : Except LinkError (List Frame) :=
  b.sent.mapM fun t => Frame.decode t.bytes

instance : FrameSink Bench where
  send bytes b := (.ok (), b.record false bytes)

instance : Channel Bench where
  sendFragment buffer length b :=
    if length ≤ buffer.length then (.ok (), b.record true (buffer.take length))
    else (.error (.malformed .fragmentExceedsBuffer), b)
  receive b :=
    let (reply, b) := b.nextReply
    match reply with
    | some bytes => (.ok bytes, b)
    | none => (.error .timeout, b)
  receiveWithin b :=
    let (reply, b) := b.nextReply
    (.ok reply, b)
  restart b :=
    (.ok (), { b with restarts := b.restarts + 1 }.record false Frame.restart.encode)

end Bench
end MotionRack
