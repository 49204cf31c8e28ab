import MotionRack.Session.Exchange

/-!
# Programming a lookup table

Programming of a lookup table. An inquiry is opened for the table and the device's chunk limit is
read; the inquiry data are sent, programming is opened, inquiry and payload are sent together, and
the table is finished. Whatever window is open when a request fails is closed again.
-/
namespace MotionRack.Lut

/-- One table to program. -/
structure Image where
  table : UInt8
  inquiry : Octets
  payload : Octets

/-- Where a programmer stands between two sessions. -/
inductive Phase
  | idle
  | finished
  deriving DecidableEq, Repr

/-- The status by which a device asks for more. -/
def moreExpected : UInt8 := 12

/-- The address that a device reports when no address was bad. -/
def noBadAddress : Nat := 0xFFFFFFFF

/-- The usable chunk size: the reported size as a 16-bit number, and no more than fits into a frame
beside the table number. -/
def chunkSize (reported : Nat) : Except ProgramError Nat :=
  let limit := min (reported % 65536) (maxPayload - 1)
  if limit = 0 then .error (.status 2 0 .zeroTableChunk) else .ok limit

/-- A request that names the table and switches something on. -/
def switchOn (command : CommandId) (table : UInt8) : Request :=
  .frame (.short command .motherboard table 1)

def beginInquiry (table : UInt8) : Exchange Unit where
  step := 1
  request := switchOn Command.setLutInquiry table
  accept := Answer.expectStatus 1 [0] (fun _ => .badResponse) 1

def requestSize (table : UInt8) : Exchange Nat where
  step := 2
  request := switchOn Command.requestLutSize table
  accept data := do chunkSize (← Answer.wordAt 4 data 1)

/-- The frame that carries one piece of data for a table. A piece fits beside the table number,
because the chunk size is bounded. -/
def pieceFrame (command : CommandId) (table : UInt8) (piece : Octets) : Frame :=
  .carrying command .motherboard (table :: piece)

/-- One exchange per piece of `data`. -/
def sendData (step : Nat) (command : CommandId) (table : UInt8) (chunk : Nat) (data : Octets) :
    List (Exchange Unit) :=
  (data.pieces chunk).map fun piece =>
    { step := step
      request := .frame (pieceFrame command table piece)
      interruptible := true
      accept := Answer.expectStatus 1 [0, moreExpected] (fun _ => .badResponse) step }

def beginProgramming (table : UInt8) : Exchange Unit where
  step := 4
  request := switchOn Command.setLutProgramming table
  accept := Answer.expectStatus 1 [0] (fun _ => .badResponse) 4

def finish (table : UInt8) : Exchange Unit where
  step := 6
  request := switchOn Command.finishLutProgramming table
  accept data := do
    let address ← Answer.wordAt 4 data 1
    if address = noBadAddress then .ok () else .error (.badAddress (UInt32.ofNat address))

/-- All exchanges after the chunk size is known. -/
def transferPlan (image : Image) (chunk : Nat) : List (Exchange Unit) :=
  sendData 3 Command.inquireLut image.table chunk image.inquiry
    ++ [beginProgramming image.table]
    ++ sendData 5 Command.programLut image.table chunk (image.inquiry ++ image.payload)
    ++ [finish image.table]

/-- The frame that closes the window which a failure at `step` leaves open. -/
def closingFrame (table : UInt8) (step : Nat) : Frame :=
  .short (if step ≤ 3 then Command.setLutInquiry else Command.setLutProgramming)
    .motherboard table 0

variable {σ : Type} [Channel σ]

/-- The session without the closing of windows. -/
def run (cancelled : σ → Bool) (image : Image) (s : σ) : Except SessionFailure Unit × σ :=
  match (beginInquiry image.table).perform cancelled s with
  | (.error e, s) => (.error e, s)
  | (.ok (), s) =>
    match (requestSize image.table).perform cancelled s with
    | (.error e, s) => (.error e, s)
    | (.ok chunk, s) => Exchange.performAll cancelled (transferPlan image chunk) s

/-- Programs one table. After a failure the open window is closed; whether that succeeds does not
change the error. -/
def program (cancelled : σ → Bool) (image : Image) (s : σ) : Except ProgramError Unit × σ :=
  match run cancelled image s with
  | (.ok (), s) => (.ok (), s)
  | (.error failure, s) =>
    (.error failure.error, (FrameSink.sendFrame (closingFrame image.table failure.step) s).2)

/-- A link and where its programmer stands. -/
structure Programmer (σ : Type) where
  line : σ
  phase : Phase := .idle

/-- Programs one table and notes whether it is finished. -/
def Programmer.program (cancelled : σ → Bool) (p : Programmer σ) (image : Image) :
    Except ProgramError Unit × Programmer σ :=
  match Lut.program cancelled image p.line with
  | (.ok (), line) => (.ok (), ⟨line, .finished⟩)
  | (.error e, line) => (.error e, ⟨line, .idle⟩)

end MotionRack.Lut
