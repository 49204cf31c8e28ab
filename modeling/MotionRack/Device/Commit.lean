import MotionRack.Bus.Frame

/-!
# Commits

Commits: requests to keep parameters beyond a restart. Parameters are applied first; a commit then
names their command and channel.
-/
namespace MotionRack.Commit

/-- One commit per command that occurs, in the order of first occurrence. -/
def commitsFor (frames : List Frame) (destination : Address) (channel : UInt16) : List Frame :=
  ((frames.map (·.command)).eraseDups).map (Frame.commit destination channel)

/-- Frames, with their commits behind them if they are to be kept. -/
def append (persist : Bool) (destination : Address) (channel : UInt16) (frames : List Frame) :
    List Frame :=
  if persist then frames ++ commitsFor frames destination channel else frames

end MotionRack.Commit
