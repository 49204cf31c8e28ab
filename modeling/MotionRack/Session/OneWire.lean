import MotionRack.Session.Exchange

/-!
# Programming a one-wire chip

Programming of the one-wire identity chip of a slot. Programming mode is entered, the chunk limit
is read, the image is sent in fragments of one reused buffer, and the mode is left. A session that
fails after the mode was entered tries to leave it, and restarts the controller as a last resort.
-/
namespace MotionRack.OneWire

/-- Where a programmer stands between two sessions. -/
inductive Phase
  | idle
  | done
  deriving DecidableEq, Repr

/-- What the answer to entering the mode means, if it is no success. -/
def enableOutcome : UInt8 → StatusMeaning
  | 0 => .cancelled
  | 1 => .noDevice
  | 2 => .notOneWire
  | 3 => .alreadyProgramming
  | 4 => .cannotEnter
  | _ => .unknown

/-- What the answer to a piece of the image means, if it is no success. -/
def chunkOutcome : UInt8 → StatusMeaning
  | 1 => .disconnected
  | 2 => .notOneWire
  | 4 => .stoppedAbnormally
  | 5 => .memoryOverflow
  | 6 => .sizeViolated
  | _ => .unknown

/-- What the answer to leaving the mode means, and whether it is a success. Devices differ in which
of 0 and 4 they report after a good write. -/
def disableOutcome : UInt8 → StatusMeaning × Bool
  | 0 => (.programmed, true)
  | 1 => (.noDevice, false)
  | 2 => (.notOneWire, false)
  | 3 => (.cannotExit, false)
  | 4 => (.successful, true)
  | _ => (.unknown, false)

/-- How often leaving the mode is tried before the controller is restarted. -/
def disableAttempts : Nat := 10

/-- The bytes ahead of a piece in the payload: the slot and a reserved byte. -/
def lead : Nat := 2

/-- Enters or leaves the mode for a slot, with an answer that carries a status. -/
def modeFrame (slot : UInt8) (enable : Bool) : Frame :=
  .carrying Command.setOneWireProgramming .motherboard [slot, 0, if enable then 1 else 0]

/-- Leaves the mode for a slot, in the short form that recovery uses. -/
def leaveFrame (slot : UInt8) : Frame :=
  .short Command.setOneWireProgramming .motherboard slot 0

def enable (slot : UInt8) : Exchange Unit where
  step := 1
  request := .frame (modeFrame slot true)
  accept := Answer.expectStatus 2 [0] enableOutcome 1

/-- Reads the chunk limit: the reported size, and no more than fits into a frame. -/
def requestSize : Exchange Nat where
  step := 2
  request := .frame (.short Command.requestOneWireSize .motherboard 0 0)
  accept data := do
    let limit := min (← Answer.wordAt 2 data 0) (maxPayload - lead)
    if limit = 0 then .error (.status 2 0 .zeroImageChunk) else .ok limit

/-- The buffer before the first piece: the frame of an all-zero piece of full size. -/
def buffer (slot : UInt8) (chunk : Nat) : Octets :=
  (Frame.carrying Command.programOneWire .motherboard
    (List.replicate (lead + chunk) 0)).encode.overwrite Frame.headerLength [slot]

/-- Writes the length of a piece and the piece itself into the buffer. -/
def fill (buffer piece : Octets) : Octets :=
  (buffer.overwrite 2 (Octets.ofNat 2 (lead + piece.length))).overwrite
    (Frame.headerLength + lead) piece

/-- One exchange per piece; each sends only the filled part of the buffer, which the next piece
then overwrites. -/
def sendPieces (buffer : Octets) : List Octets → List (Exchange Unit)
  | [] => []
  | piece :: rest =>
    let filled := fill buffer piece
    { step := 3
      request := .fragment filled (Frame.headerLength + lead + piece.length)
      interruptible := true
      accept := Answer.expectStatus 2 [0] chunkOutcome 3 } :: sendPieces filled rest

/-- The exchanges that send the image. -/
def sendImage (slot : UInt8) (data : Octets) (chunk : Nat) : List (Exchange Unit) :=
  sendPieces (buffer slot chunk) (data.pieces chunk)

def disable (slot : UInt8) : Exchange StatusMeaning where
  step := 4
  request := .frame (modeFrame slot false)
  accept data := do
    let status ← Answer.byteAt data 2
    let (meaning, success) := disableOutcome status
    if success then .ok meaning else .error (.status 4 status meaning)

/-- Leaves the mode while recovering; any answer that is a frame will do. -/
def leave (slot : UInt8) : Exchange Unit where
  step := 4
  request := .frame (leaveFrame slot)
  accept _ := .ok ()

variable {σ : Type} [Channel σ]

/-- The session without recovery. -/
def run (cancelled : σ → Bool) (slot : UInt8) (data : Octets) (s : σ) :
    Except SessionFailure StatusMeaning × σ :=
  match (enable slot).perform cancelled s with
  | (.error e, s) => (.error e, s)
  | (.ok (), s) =>
    match requestSize.perform cancelled s with
    | (.error e, s) => (.error e, s)
    | (.ok chunk, s) =>
      match Exchange.performAll cancelled (sendImage slot data chunk) s with
      | (.error e, s) => (.error e, s)
      | (.ok (), s) => (disable slot).perform cancelled s

/-- Tries to leave the mode, at most `attempts` times, until there is an answer. -/
def tryLeave (slot : UInt8) : Nat → σ → Bool × σ
  | 0, s => (false, s)
  | attempts + 1, s =>
    match (leave slot).ask s with
    | (.ok (), s) => (true, s)
    | (.error _, s) => tryLeave slot attempts s

/-- Brings the device back into a usable state after a failure at `step`. -/
def recover (slot : UInt8) (step : Nat) (s : σ) : σ :=
  if step = 2 ∨ step = 3 then
    match tryLeave slot disableAttempts s with
    | (true, s) => s
    | (false, s) => (Channel.restart s).2
  else if step = 4 then (Channel.restart s).2
  else s

/-- Programs an image into the chip of a slot; the slot is counted from zero. -/
def program (cancelled : σ → Bool) (slot : UInt8) (data : Octets) (s : σ) :
    Except ProgramError StatusMeaning × σ :=
  match run cancelled slot data s with
  | (.ok meaning, s) => (.ok meaning, s)
  | (.error failure, s) => (.error failure.error, recover slot failure.step s)

/-- A link and where its programmer stands. -/
structure Programmer (σ : Type) where
  line : σ
  phase : Phase := .idle

/-- Programs an image and notes whether that is done. -/
def Programmer.program (cancelled : σ → Bool) (p : Programmer σ) (slot : UInt8) (data : Octets) :
    Except ProgramError StatusMeaning × Programmer σ :=
  match OneWire.program cancelled slot data p.line with
  | (.ok meaning, line) => (.ok meaning, ⟨line, .done⟩)
  | (.error e, line) => (.error e, ⟨line, .idle⟩)

end MotionRack.OneWire
