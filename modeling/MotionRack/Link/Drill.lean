import MotionRack.Link.Bench

/-!
# Links that fail on schedule

A bench link on which things go wrong at set times: transfers and waits are refused by their
number, and a cancel request comes in when a given transfer is attempted. A refused transfer is
not recorded and a refused wait uses up no answer.
-/
namespace MotionRack

/-- A bench link together with the schedule of its failures. -/
structure Drill where
  bench : Bench := {}
  /-- Whether fragments and restarts go out as ordinary transfers. -/
  plain : Bool := false
  refusedSends : List Nat := []
  /-- What is said about a refused transfer. -/
  refusal : String := "send refused"
  refusedReceives : List Nat := []
  /-- The number, from one, of the transfer with which the cancel request comes in; zero means
  never. -/
  cancelWithSend : Nat := 0
  attempts : Nat := 0
  waits : Nat := 0
  cancelRaised : Bool := false
  deriving Repr

namespace Drill

/-- Counts a transfer, lets the cancel request come in, and carries the transfer out unless it is
one of the refused. -/
def attempt (go : Bench → Except LinkError Unit × Bench) (d : Drill) :
    Except LinkError Unit × Drill :=
  let number := d.attempts
  let d := { d with
    attempts := number + 1
    cancelRaised := d.cancelRaised || (number + 1 == d.cancelWithSend) }
  if d.refusedSends.contains number then (.error (.io d.refusal), d)
  else
    let (result, bench) := go d.bench
    (result, { d with bench := bench })

/-- Counts a wait and carries it out unless it is one of the refused. -/
def await {α : Type} (go : Bench → Except LinkError α × Bench) (d : Drill) :
    Except LinkError α × Drill :=
  let number := d.waits
  let d := { d with waits := number + 1 }
  if d.refusedReceives.contains number then (.error (.io "receive refused"), d)
  else
    let (result, bench) := go d.bench
    (result, { d with bench := bench })

instance : FrameSink Drill where
  send bytes := attempt (FrameSink.send bytes)

instance : Channel Drill where
  sendFragment buffer length d :=
    if d.plain then FrameSink.sendHead buffer length d
    else attempt (Channel.sendFragment buffer length) d
  receive := await Channel.receive
  receiveWithin := await Channel.receiveWithin
  restart d := if d.plain then FrameSink.sendRestart d else attempt Channel.restart d

end Drill
end MotionRack
