import MotionRack.Console.Program

/-!
# The program on a real system

The program on a real system. A run only sees files that were read before it; when it ends for want
of a file, that file is read and the run is made again. Nothing is written before the last run.
-/
namespace MotionRack.Main

/-- Files that were read, and what reading them gave. -/
abbrev Seen := List (String × Except FileFault ByteArray)

/-- The files that were read, and no others. -/
def reader (seen : Seen) : FileReader := fun path => (seen.lookup path).getD (.error .unread)

/-- The number of a system error; opening a file reports it negated. -/
def errorNumber (code : UInt32) : Nat :=
  if pow2 31 ≤ code.toNat then pow2 32 - code.toNat else code.toNat

/-- What the system says about a file that cannot be read. -/
def faultOf (e : IO.Error) : FileFault :=
  match e with
  | .noFileOrDirectory _ _ _ => .noSuchFile
  | .permissionDenied _ _ _ => .accessDenied
  | .inappropriateType _ code _ => if errorNumber code = 20 then .notDirectory else .isDirectory
  | .invalidArgument _ code _ =>
    if errorNumber code = 36 then .nameTooLong else .other e.toString
  | e => .other e.toString

/-- Reads a file. -/
def readFile (path : String) : IO (Except FileFault ByteArray) := do
  try
    return .ok (← IO.FS.readBinFile path)
  catch e => return .error (faultOf e)

/-- Makes runs until one does not want for a file. -/
partial def settle (args : List String) (seen : Seen) : IO Console.Outcome := do
  let outcome := Console.run (reader seen) args
  match outcome.unread? with
  | some path => settle args ((path, ← readFile path) :: seen)
  | none => return outcome

end MotionRack.Main

def main (args : List String) : IO UInt32 := do
  let outcome ← MotionRack.Main.settle args []
  IO.print outcome.output
  for line in outcome.errorLines do
    IO.eprintln line
  return UInt32.ofNat outcome.exitCode
