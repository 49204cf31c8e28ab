import MotionRack.Config.Fault
import MotionRack.Number.Shortest
import MotionRack.Session.Fault

/-!
# Failures and their report

Why a task failed, and the report of it: what was being done, and the causes behind it, each on a
line of its own. Several causes are numbered.
-/
namespace MotionRack.Console

/-- What was being done when something went wrong. -/
inductive Undertaking
  | loadingSystem (file : String)
  | loadingStage (slot : UInt16)
  | loadingStageFile (file : String)
  | loadingJoystick (file : String)
  | loadingFlipper (file : String)
  | programmingLut (table : UInt8)
  | programmingOneWire (slot : UInt8)

/-- The wording of an undertaking. -/
def Undertaking.message : Undertaking → String
  | loadingSystem file => s!"loading system file: {file}"
  | loadingStage slot => s!"loading stage for slot {slot.toNat}"
  | loadingStageFile file => s!"loading stage: {file}"
  | loadingJoystick file => s!"loading joystick: {file}"
  | loadingFlipper file => s!"loading flipper shutters: {file}"
  | programmingLut table => s!"programming lut {table.toNat}"
  | programmingOneWire slot => s!"programming one-wire device in slot {slot.toNat}"

/-- Why a task failed. -/
inductive Failure
  | config (during : Option Undertaking) (error : ConfigError)
  | session (during : Undertaking) (error : ProgramError)
  | link (error : LinkError)
  | reading (file : String) (fault : FileFault)
  | readingProfile (file : String) (fault : FileFault)
  | parsingProfile (file : String)
  | noSerial
  | noResolution
  | outOfRange (distance resolution : Binary)
  | slotZero

namespace Failure

/-- The causes that a configuration error names: itself, and what the system said about a file. -/
def configCauses (e : ConfigError) : List String :=
  match e with
  | .io _ fault => [e.message, fault.message]
  | e => [e.message]

/-- The messages of a failure, from what was being done down to the first cause. -/
def messages : Failure → List String
  | config during e => during.toList.map (·.message) ++ configCauses e
  | session during e => [during.message, e.message]
  | link e => [e.message]
  | reading file fault => [s!"reading {file}", fault.message]
  | readingProfile file fault => [s!"reading link profile: {file}", fault.message]
  | parsingProfile file => [s!"parsing link profile: {file}", "not a link profile"]
  | noSerial => ["serial backend not enabled; rebuild with --features serial"]
  | noResolution => ["stage has no encoder resolution"]
  | outOfRange distance resolution =>
    [Shortest.render .double distance ++ " nm is out of range at "
      ++ Shortest.render .single resolution ++ " nm/count"]
  | slotZero => ["slots are numbered from 1"]

/-- The path that still has to be read, if that is all that is missing. -/
def unread? : Failure → Option String
  | config _ (.io path .unread) => some path
  | reading path .unread => some path
  | readingProfile path .unread => some path
  | _ => none

/-- A cause with what stands before its first and before its other lines. -/
def causeLines (first others cause : String) : List String :=
  match cause.splitOn "\n" with
  | [] => [first]
  | line :: rest => (first ++ line) :: rest.map (others ++ ·)

/-- The causes, numbered from zero if there are several. -/
def numbered (causes : List String) : List String :=
  match causes with
  | [cause] => causeLines "    " "    " cause
  | causes => (causes.zipIdx.map fun (cause, n) =>
      causeLines (String.ofList (List.replicate (5 - (toString n).length) ' ') ++ s!"{n}: ")
        "       " cause).flatten

/-- The lines of the report. -/
def lines (f : Failure) : List String :=
  match f.messages with
  | [] => []
  | top :: causes =>
    (s!"Error: {top}").splitOn "\n"
      ++ (if causes.isEmpty then [] else ["", "Caused by:"] ++ numbered causes)

end Failure
end MotionRack.Console
