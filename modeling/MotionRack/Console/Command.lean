import MotionRack.Console.Grammar
import MotionRack.Number.Decimal
import MotionRack.Number.Numeral
import MotionRack.Provision.Plan

/-!
# The commands

The commands of the program, and what their arguments say.
-/
namespace MotionRack.Console

/-- The kinds of links. Only the bench link is built in. -/
inductive Backend
  | bench
  | serial
  deriving DecidableEq, Repr

/-- The backend of a name. -/
def Backend.ofName? (text : String) : Option Backend :=
  if text = "mock" then some bench else if text = "serial" then some serial else none

/-- How a link is asked for. -/
structure LinkChoice where
  backend : Backend := .bench
  port : Option String := none
  profile : Option String := none
  timeout : Option Nat := none
  deriving DecidableEq, Repr

/-- What the program is asked to do. -/
inductive Task
  | listPorts (backend : Backend)
  | compile (file : String) (json persist : Bool)
  | provision (file : String) (link : LinkChoice) (only : List Stage) (persist metrics : Bool)
  | loadStage (files : List String) (slot : UInt16) (persist : Bool) (link : LinkChoice)
  | loadJoystick (file : String) (index : UInt8) (persist : Bool) (link : LinkChoice)
  | loadFlipper (file : String) (slot : UInt16) (persist : Bool) (link : LinkChoice)
  | counts (file : String) (distance : Binary)
  | programLut (table : UInt8) (inquiry payload : String) (link : LinkChoice)
  | programOneWire (slot : UInt8) (image : String) (link : LinkChoice)
  deriving Repr

/-! ### Values -/

/-- A number of `bits` bits; a plus sign, and a minus sign before zero, may precede it. -/
def word? (bits : Nat) (text : String) : Option Nat :=
  ((Numeral.signed? text.toList).filter fun (v : Int) =>
    decide (0 ≤ v ∧ v < pow2 bits)).map Int.toNat

/-- A span of time in milliseconds. -/
def milliseconds? (text : String) : Option Nat :=
  (Numeral.unsigned? 10 text.toList).filter (· < pow2 64)

/-- A floating-point number. -/
def fraction? (text : String) : Option Binary := Decimal.binary? .double text.toList

/-- The names of stages on the command line. -/
def stageNames : List (String × Stage) :=
  [("cards", .cards), ("allowed-devices", .allowedDevices), ("custom-configs", .customConfigs),
   ("joysticks", .joysticks)]

/-! ### Descriptions -/

def backendOption : OptionSpec where
  long := "backend"
  value := some "BACKEND"
  help := "Link backend"
  default := some "mock"
  choices := ["mock", "serial"]
  accepts text := (Backend.ofName? text).isSome

def linkOptions : List OptionSpec :=
  [backendOption,
   { long := "port", value := some "PORT", help := "Serial port path (overrides the profile)" },
   { long := "profile", value := some "PROFILE", help := "YAML link profile"
     accepts := fun text => !text.isEmpty },
   { long := "timeout-ms", value := some "TIMEOUT_MS"
     help := "Reply timeout in milliseconds (overrides the profile)"
     accepts := fun text => (milliseconds? text).isSome }]

/-- An option for a number that has to be given. -/
def wordOption (long value help : String) (bits : Nat) : OptionSpec where
  long := long
  value := some value
  help := help
  required := true
  accepts text := (word? bits text).isSome

/-- An option for a path that has to be given. -/
def pathOption (long value help : String) : OptionSpec where
  long := long
  value := some value
  help := help
  required := true
  accepts text := !text.isEmpty

def slotOption (bits : Nat) : OptionSpec := wordOption "slot" "SLOT" "Slot number, 1-based" bits

def commands : List CommandSpec :=
  [{ name := "list-ports", about := "List available ports"
     options := [{ backendOption with help := "" }] },
   { name := "compile"
     about := "Compile a system file and print its frames without sending them"
     positionals := [{ name := "FILE" }]
     options :=
       [{ long := "json", help := "Print frames as JSON" },
        { long := "no-persist", help := "Leave out commit-to-storage frames" }] },
   { name := "provision", about := "Send a system file's configuration to the controller"
     positionals := [{ name := "FILE" }]
     options := linkOptions ++
       [{ long := "only", value := some "ONLY", help := "Run only these stages (default: all)"
          repeatable := true, delimiter := some ',', choices := stageNames.map (·.1)
          accepts := fun text => (stageNames.lookup text).isSome },
        { long := "no-persist" },
        { long := "stage-pause-ms", value := some "STAGE_PAUSE_MS"
          help := "Pause after each stage, in milliseconds", default := some "0"
          accepts := fun text => (milliseconds? text).isSome },
        { long := "metrics"
          help := "Print frame counters in Prometheus text format when done" }] },
   { name := "load-stage"
     about := "Load stage parameters for one slot (one file, or several struct files)"
     positionals := [{ name := "FILES", multiple := true }]
     options := [slotOption 16, { long := "persist" }] ++ linkOptions },
   { name := "load-joystick", about := "Load a joystick mapping onto a host port"
     positionals := [{ name := "FILE" }]
     options :=
       [{ wordOption "port-index" "PORT_INDEX" "Host port index" 8 with
          required := false, default := some "0" }, { long := "persist" }] ++ linkOptions },
   { name := "load-flipper", about := "Load flipper/shutter parameters for one slot"
     positionals := [{ name := "FILE" }]
     options := [slotOption 16, { long := "persist" }] ++ linkOptions },
   { name := "counts"
     about := "Encoder counts for a distance, using a stage file's encoder resolution"
     positionals := [{ name := "STAGE" }]
     options :=
       [{ long := "nm", value := some "NM", help := "Distance in nanometres", required := true
          hyphenValues := true, accepts := fun text => (fraction? text).isSome }] },
   { name := "program-lut", about := "Program a lookup table"
     options :=
       [wordOption "table" "TABLE" "Table id" 8,
        pathOption "inquiry" "INQUIRY" "Raw inquiry data",
        pathOption "payload" "PAYLOAD" "Raw table data, sent after the inquiry data"]
         ++ linkOptions },
   { name := "program-one-wire"
     about := "Program the one-wire identity chip of the device in a slot"
     options := [slotOption 8, pathOption "image" "IMAGE" "Raw image to write"] ++ linkOptions }]

/-! ### Meaning -/

/-- The backend that arguments ask for. -/
def backendOf (a : Arguments) : Backend := ((a.value? "backend").bind Backend.ofName?).getD .bench

/-- The link that arguments ask for. -/
def linkOf (a : Arguments) : LinkChoice where
  backend := backendOf a
  port := a.value? "port"
  profile := a.value? "profile"
  timeout := (a.value? "timeout-ms").bind milliseconds?

/-- What a command with its arguments asks for. Arguments that the command accepts always ask for
something. -/
def task? (command : String) (a : Arguments) : Option Task :=
  let file := a.positionals.headD ""
  let slot := (a.value? "slot").bind (word? 16)
  let persist := a.has "persist"
  let keep := !a.has "no-persist"
  match command with
  | "list-ports" => some (.listPorts (backendOf a))
  | "compile" => some (.compile file (a.has "json") keep)
  | "provision" =>
    some (.provision file (linkOf a) ((a.values "only").filterMap (stageNames.lookup ·)) keep
      (a.has "metrics"))
  | "load-stage" => do
    return .loadStage a.positionals (UInt16.ofNat (← slot)) persist (linkOf a)
  | "load-joystick" =>
    let index := ((a.value? "port-index").bind (word? 8)).getD 0
    some (.loadJoystick file (UInt8.ofNat index) persist (linkOf a))
  | "load-flipper" => do return .loadFlipper file (UInt16.ofNat (← slot)) persist (linkOf a)
  | "counts" => do return .counts file (← fraction? (← a.value? "nm"))
  | "program-lut" => do
    let table ← word? 8 (← a.value? "table")
    return .programLut (UInt8.ofNat table) (← a.value? "inquiry") (← a.value? "payload") (linkOf a)
  | "program-one-wire" => do
    return .programOneWire (UInt8.ofNat (← slot)) (← a.value? "image") (linkOf a)
  | _ => none

end MotionRack.Console
