import MotionRack.Console.Command
import MotionRack.Console.Failure
import MotionRack.Console.Listing
import MotionRack.Link.Bench
import MotionRack.Link.Profile
import MotionRack.Provision.Metrics
import MotionRack.Session.Lut
import MotionRack.Session.OneWire

/-!
# The program as a function

The program as a function: from the files that can be read and the arguments to what is written and
how it ends. Descriptions are loaded before a link is opened, so a faulty file never reaches a
device.
-/
namespace MotionRack.Console

def programName : String := "mcm"

def programVersion : String := "0.1.0"

def programAbout : String := "Configure and program modular motion controllers"

/-- How a run ends. -/
inductive Verdict
  | done
  | failed (failure : Failure)
  | misused (fault : UsageFault)

/-- What a run writes, the link that it leaves, and how it ends. -/
structure Outcome where
  output : String := ""
  /-- The link that was opened, as the run leaves it. -/
  link : Option Bench := none
  verdict : Verdict := .done

namespace Outcome

/-- The exit code. -/
def exitCode (o : Outcome) : Nat :=
  match o.verdict with
  | .done => 0
  | .failed _ => 1
  | .misused _ => 2

/-- The lines of the error report. -/
def errorLines (o : Outcome) : List String :=
  match o.verdict with
  | .done => []
  | .failed f => f.lines
  | .misused f => [s!"error: {f.message}"]

/-- The outcome of something that may fail. -/
def ofResult : Except Failure String → Outcome
  | .ok output => { output := output }
  | .error f => { verdict := .failed f }

/-- The outcome of something that may fail and leaves a link behind. -/
def ofSession (r : Except Failure String × Bench) : Outcome :=
  { ofResult r.1 with link := some r.2 }

/-- Goes on with something that may not be there, for then that is the outcome. -/
def given {α : Type} (r : Except Failure α) (go : α → Outcome) : Outcome :=
  match r with
  | .ok a => go a
  | .error f => { verdict := .failed f }

/-- Writes something before all else. -/
def after (written : String) (o : Outcome) : Outcome := { o with output := written ++ o.output }

end Outcome

/-- What goes wrong while something is loaded. -/
def loading {α : Type} (during : Undertaking) (r : Except ConfigError α) : Except Failure α :=
  r.mapError (.config (some during))

/-- The link profile that is asked for. -/
def profileOf (read : FileReader) (choice : LinkChoice) : Except Failure LinkProfile := do
  let profile ← match choice.profile with
    | none => pure {}
    | some path => match read.text path with
      | .error fault => throw (.readingProfile path fault)
      | .ok text => match LinkProfile.parse? text with
        | some p => pure p
        | none => throw (.parsingProfile path)
  return { profile with
    port := choice.port.or profile.port
    responseTimeout := choice.timeout.getD profile.responseTimeout }

/-- Opens the link that is asked for. -/
def openLink (read : FileReader) (choice : LinkChoice) : Except Failure Bench := do
  let profile ← profileOf read choice
  match choice.backend with
  | .bench => return { name := profile.port.getD "mock0" }
  | .serial => throw .noSerial

/-- Opens the link that is asked for and uses it. -/
def overLink (read : FileReader) (choice : LinkChoice)
    (use : Bench → Except Failure String × Bench) : Outcome :=
  .given (openLink read choice) fun link => .ofSession (use link)

/-- Lists the ports of a backend. -/
def listPorts (backend : Backend) : Except Failure String :=
  match backend with
  | .bench => .ok (String.join (Bench.ports.map fun p => s!"{p.name}\t{p.driver}\n"))
  | .serial => .error .noSerial

/-- Compiles a rack for a listing. -/
def compileSystem (system : RackSystem) (persist : Bool) : Except Failure (List StagePlan) :=
  (Provision.plan system { persist := persist }).mapError (.config none)

/-- The stages that are asked for; none named means all. -/
def optionsFor (only : List Stage) (persist : Bool) : ProvisionOptions :=
  { (if only.isEmpty then {} else ProvisionOptions.only only) with persist := persist }

/-- Provisions a rack over a link. -/
def provisionSystem (system : RackSystem) (only : List Stage) (persist : Bool) (link : Bench) :
    Except Failure ProvisionReport × Bench :=
  let (result, link) := Provision.configure system (optionsFor only persist) link
  (result.mapError (.config none), link)

/-- Loads a rack. -/
def loadSystem (read : FileReader) (file : String) : Except Failure RackSystem :=
  loading (.loadingSystem file) (RackSystem.load read file)

/-- Compiles a system file and lists its frames. -/
def compile (read : FileReader) (file : String) (json persist : Bool) : Except Failure String := do
  return planListing json (← compileSystem (← loadSystem read file) persist)

/-- What provisioning reports, with its counters if they are asked for. -/
def provisionListing (metrics : Bool) (report : ProvisionReport) : String :=
  reportListing report ++ if metrics then (({} : Metrics).record report).render else ""

/-- Provisions a system file and reports what was sent. -/
def provision (read : FileReader) (file : String) (choice : LinkChoice) (only : List Stage)
    (persist metrics : Bool) : Outcome :=
  .given (loadSystem read file) fun system =>
    overLink read choice fun link =>
      let (report, link) := provisionSystem system only persist link
      (report.map (provisionListing metrics), link)

/-- Lists the frames of one thing, then opens a link and sends them. What was listed stays written
even if the link cannot be opened. -/
def sendEntity (read : FileReader) (choice : LinkChoice) (frames : List Frame) : Outcome :=
  (overLink read choice fun link =>
    let (result, link) := Provision.sendFrames frames link
    ((result.mapError .link).map fun _ => s!"sent {frames.length} frames\n", link)).after
      (frameLines (frames.map (FrameRow.mk none)))

/-- Sends what was loaded, or tells why it was not. -/
def loadAndSend (read : FileReader) (choice : LinkChoice) (during : Undertaking)
    (frames : Except ConfigError (List Frame)) : Outcome :=
  .given (loading during frames) (sendEntity read choice)

/-- The frames of a stage, from one file or from one file per section. -/
def stageFrames (read : FileReader) (files : List String) (slot : UInt16) (persist : Bool) :
    Except ConfigError (List Frame) := do
  let stage ← match files with
    | [file] => StageParameters.load read file slot
    | files => StageParameters.loadSegments read files slot
  return stage.compile persist

/-- Encoder counts for a distance. The slot plays no part in the resolution. -/
def counts (read : FileReader) (file : String) (distance : Binary) : Except Failure String := do
  let stage ← loading (.loadingStageFile file) (StageParameters.load read file 1)
  let resolution ← match stage.nmPerCount with
    | some r => pure r
    | none => throw .noResolution
  match countsForDistance distance resolution with
  | some n => return s!"{n}\n"
  | none => throw (.outOfRange distance resolution)

/-- The bytes of a file. -/
def readBytes (read : FileReader) (file : String) : Except Failure Octets :=
  match read file with
  | .ok content => .ok content.toList
  | .error fault => .error (.reading file fault)

/-- Nothing asks a session of this program to stop. -/
def neverCancelled (_ : Bench) : Bool := false

/-- The image of a lookup table, from two files. -/
def readImage (read : FileReader) (table : UInt8) (inquiry payload : String) :
    Except Failure Lut.Image := do
  return ⟨table, ← readBytes read inquiry, ← readBytes read payload⟩

/-- Programs a lookup table from two files. -/
def programLut (read : FileReader) (table : UInt8) (inquiry payload : String)
    (choice : LinkChoice) : Outcome :=
  .given (readImage read table inquiry payload) fun image =>
    overLink read choice fun link =>
      let (result, link) := Lut.program neverCancelled image link
      ((result.mapError (.session (.programmingLut table))).map fun _ =>
        s!"lut {table.toNat} programmed\n", link)

/-- Programs a one-wire chip from a file. The slot is counted from one here. -/
def programOneWire (read : FileReader) (slot : UInt8) (image : String) (choice : LinkChoice) :
    Outcome :=
  .given (if slot = 0 then .error .slotZero else readBytes read image) fun data =>
    overLink read choice fun link =>
      let (result, link) := OneWire.program neverCancelled (slot - 1) data link
      ((result.mapError (.session (.programmingOneWire slot))).map fun meaning =>
        s!"{meaning.message}\n", link)

/-- Carries out a task. -/
def perform (read : FileReader) : Task → Outcome
  | .listPorts backend => .ofResult (listPorts backend)
  | .compile file json persist => .ofResult (compile read file json persist)
  | .provision file link only persist metrics => provision read file link only persist metrics
  | .loadStage files slot persist link =>
    loadAndSend read link (.loadingStage slot) (stageFrames read files slot persist)
  | .loadJoystick file index persist link =>
    loadAndSend read link (.loadingJoystick file)
      ((JoystickPort.load read file index).map (·.compile persist))
  | .loadFlipper file slot persist link =>
    loadAndSend read link (.loadingFlipper file)
      ((FlipperGroup.load read file slot).map (·.compile persist))
  | .counts file distance => .ofResult (counts read file distance)
  | .programLut table inquiry payload link => programLut read table inquiry payload link
  | .programOneWire slot image link => programOneWire read slot image link

/-- Runs the program. -/
def run (read : FileReader) (args : List String) : Outcome :=
  match invocation commands args with
  | .fault f => { verdict := .misused f }
  | .version => { output := s!"{programName} {programVersion}\n" }
  | .help none => { output := programHelp programName programAbout commands }
  | .help (some name) =>
    { output := String.join ((commands.filter (·.name == name)).map (·.help programName)) }
  | .run command a =>
    match task? command a with
    | some task => perform read task
    | none => { verdict := .misused (.unknownCommand command) }

/-- The path that the run still needs, if it ended for want of it. -/
def Outcome.unread? (o : Outcome) : Option String :=
  match o.verdict with
  | .failed f => f.unread?
  | _ => none

end MotionRack.Console
