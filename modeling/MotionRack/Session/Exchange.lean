import MotionRack.Link.Channel
import MotionRack.Session.Fault

/-!
# Sessions as sequences of exchanges

Sessions as sequences of exchanges. An exchange is one request and the rule that its answer has to
satisfy; a sequence stops at the first one that fails, and the failure keeps the step that was
under way, since what has to be undone depends on it.
-/
namespace MotionRack

/-- What one exchange hands to the link. -/
inductive Request
  | frame (f : Frame)
  | fragment (buffer : Octets) (length : Nat)

/-- The transfer that a link records for a request. -/
def Request.transfer : Request → Transfer
  | frame f => ⟨false, f.encode⟩
  | fragment buffer length => ⟨true, buffer.take length⟩

/-- One request of a session, and what its answer must say. -/
structure Exchange (α : Type) where
  /-- The step of the session that the request belongs to. -/
  step : Nat
  request : Request
  /-- Whether a cancel request is looked at before the request goes out. -/
  interruptible : Bool := false
  /-- Reads the data bytes of the answer. -/
  accept : Octets → Except ProgramError α

/-- An error together with the step that was under way. -/
structure SessionFailure where
  step : Nat
  error : ProgramError
  deriving DecidableEq, Repr

namespace Answer

/-- The data bytes of an answer. -/
def ofBytes (raw : Octets) : Except ProgramError Octets :=
  match Frame.decode raw with
  | .ok f => .ok f.data
  | .error e => .error (.link e)

/-- The data byte at a position. -/
def byteAt (data : Octets) (position : Nat) : Except ProgramError UInt8 :=
  match data[position]? with
  | some b => .ok b
  | none => .error (.link (.malformed .replyTooShort))

/-- The little-endian word of `width` data bytes from a position on. -/
def wordAt (width : Nat) (data : Octets) (position : Nat) : Except ProgramError Nat :=
  let word : Octets := (data.drop position).take width
  if word.length = width then .ok word.toNat
  else .error (.link (.malformed .replyTooShort))

/-- Accepts an answer whose data byte at `position` is one of `accepted`. -/
def expectStatus (position : Nat) (accepted : List UInt8) (meaning : UInt8 → StatusMeaning)
    (step : Nat) (data : Octets) : Except ProgramError Unit := do
  let status ← byteAt data position
  if accepted.contains status then .ok () else .error (.status step status (meaning status))

end Answer

section
variable {σ : Type} [Channel σ]

/-- Hands a request to the link. -/
def Request.send : Request → σ → Except LinkError Unit × σ
  | frame f => FrameSink.sendFrame f
  | fragment buffer length => Channel.sendFragment buffer length

namespace Exchange

variable {α : Type}

/-- Sends the request and waits for its answer. -/
def ask (x : Exchange α) (s : σ) : Except ProgramError α × σ :=
  match x.request.send s with
  | (.error e, s) => (.error (.link e), s)
  | (.ok (), s) =>
    match Channel.receiveWithin s with
    | (.error e, s) => (.error (.link e), s)
    | (.ok none, s) => (.error (.timeout x.step), s)
    | (.ok (some raw), s) => (Answer.ofBytes raw >>= x.accept, s)

/-- Carries out one exchange, unless a cancel request comes before it. -/
def perform (cancelled : σ → Bool) (x : Exchange α) (s : σ) : Except SessionFailure α × σ :=
  if x.interruptible && cancelled s then (.error ⟨x.step, .cancelled x.step⟩, s)
  else
    let (result, s) := x.ask s
    (result.mapError (SessionFailure.mk x.step), s)

/-- Carries out exchanges in order, up to the first failure. -/
def performAll (cancelled : σ → Bool) : List (Exchange Unit) → σ → Except SessionFailure Unit × σ
  | [], s => (.ok (), s)
  | x :: rest, s =>
    match x.perform cancelled s with
    | (.error e, s) => (.error e, s)
    | (.ok (), s) => performAll cancelled rest s

end Exchange
end
end MotionRack
